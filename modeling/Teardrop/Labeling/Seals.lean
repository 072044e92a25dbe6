/-
`seal_batch` and `batch_leaves` (`labeling/anchor.py`): the anchorable tables, the registered sources that read them, and
the Merkle batches the worker makes of their committed rows.

A seal holds the advisory lock from its first statement to its commit, and rows inserted meanwhile come before or after it.
Rows appear uncommitted or with a leaf, and only uncommitted rows are deleted. The order in which the database compares ids is
any function (`collate`), the order of rows without ORDER BY is any order, and each source of `batch_leaves` may be read in a
later state than the one before it. Nothing keeps two sources from naming one table; the results ask it (`OneEach`).
-/
import Mathlib
import Teardrop.Core.Grouping
import Teardrop.Core.Runs
import Teardrop.Core.Table
import Teardrop.Core.Tx
import Teardrop.Labeling.Commitments

namespace Teardrop.Anchoring

open Teardrop.Py Teardrop.Hex List Grouping List.Perm
open Commitments (Sha256 merkleRoot auditPath verifyPath)
open Prod (snd fst ext)

/-! ## Model -/

def maxBatchLeaves : ℕ := 4096

/-- `_IDENTIFIER` -/
def isIdentifier (s : String) : Bool :=
  match s.toList with
  | [] => false
  | c :: cs => (c.isLower || c = '_') && cs.all (fun c => c.isLower || c.isDigit || c = '_')

/-- `~ '^[0-9a-f]{n}$'` -/
def isHexText (n : ℕ) (s : String) : Bool :=
  s.toList.length = n && s.toList.all isLowerHexDigit

/-- `TableAnchorSource`, whose constructor refuses other identifiers -/
structure TableAnchorSource where
  name : String
  table : String
  orderedBy : String
  identifiers : isIdentifier table = true ∧ isIdentifier orderedBy = true
deriving DecidableEq

/-- `_SOURCES` -/
abbrev Registry := Table TableAnchorSource.name

def registerAnchorSource (reg : Registry) (source : TableAnchorSource) : Registry :=
  match reg.insert? source with
  | some reg => reg
  | none => reg.update (fun s => if s.name = source.name then source else s) (fun s => by
      split_ifs with h
      · exact h.symm
      · rfl)

/-- the contract's columns of an anchorable row; the batch and the index are set together -/
structure AnchorRow where
  id : String
  leafSha256 : Option String
  anchor : Option (String × ℕ)
  time : String → ℤ

/-- `tx_hash` and `anchor_address`, which `commitment_batches_submission_chk` lets be set together only -/
structure Submission where
  txHash : String
  anchorAddress : String

/-- `block_number` and `anchored_at`, which `commitment_batches_confirmation_chk` lets be set together only -/
structure Confirmation where
  blockNumber : ℤ
  anchoredAt : ℤ

/-- a row of `commitment_batches` -/
structure BatchRow where
  id : String
  merkleRoot : String
  leafCount : ℕ
  chainId : ℤ
  submission : Option Submission
  confirmation : Option Confirmation
  leaseExpiresAt : Option ℤ
  attempts : ℕ
  lastError : String
  createdAt : ℤ

/-- `commitment_batches_root_chk` and `commitment_batches_leaf_count_chk` -/
def BatchRow.checks (b : BatchRow) : Bool := isHexText 64 b.merkleRoot && 1 ≤ b.leafCount && b.leafCount ≤ 4096

structure World where
  tables : String → Table AnchorRow.id
  batches : Table BatchRow.id

def World.empty : World := ⟨fun _ => Table.empty, Table.empty⟩

def World.setTable (w : World) (table : String) (rows : Table AnchorRow.id) : World :=
  { w with tables := Function.update w.tables table rows }

@[simp] theorem World.setTable_batches (w : World) (table : String) (rows : Table AnchorRow.id) :
    (w.setTable table rows).batches = w.batches := rfl

@[simp] theorem World.setTable_self (w : World) (table : String) (rows : Table AnchorRow.id) :
    (w.setTable table rows).tables table = rows := Function.update_self _ _ _

theorem World.setTable_of_ne (w : World) {table table' : String} (h : table' ≠ table) (rows : Table AnchorRow.id) :
    (w.setTable table rows).tables table' = w.tables table' := Function.update_of_ne h _ _

/-- an entry of the list `seal_batch` sorts -/
structure Item where
  orderedAt : ℤ
  name : String
  id : String
  leaf : String
deriving DecidableEq

/-- the sort key -/
def Item.key (item : Item) : ℤ ×ₗ String ×ₗ String := toLex (item.orderedAt, toLex (item.name, item.id))

def Item.before (item item' : Item) : Prop := item.key ≤ item'.key

instance : DecidableRel Item.before := fun item item' => inferInstanceAs (Decidable (item.key ≤ item'.key))

/-- `str` of a column that may be NULL -/
def pyStr : Option String → String
  | some s => s
  | none => "None"

def enumerate {A : Type} (l : List A) : List (ℕ × A) := l.zipIdx.map Prod.swap

section Sources

variable (collate : String → String → Bool) (reg : Registry)

/-- `ORDER BY {ordered_by}, id` -/
def rowBefore (column : String) (r r' : AnchorRow) : Prop :=
  r.time column < r'.time column ∨ r.time column = r'.time column ∧ collate r.id r'.id = true

instance (column : String) : DecidableRel (rowBefore collate column) :=
  fun _ _ => inferInstanceAs (Decidable (_ ∨ _ ∧ _))

/-- `leaf_sha256 IS NOT NULL AND anchor_batch_id IS NULL` -/
def AnchorRow.unanchored (r : AnchorRow) : Bool := r.leafSha256.isSome && r.anchor.isNone

def pending (w : World) (source : TableAnchorSource) (limit : ℕ) : List AnchorRow :=
  (((w.tables source.table).rows.filter AnchorRow.unanchored).insertionSort (rowBefore collate source.orderedBy)).take limit

/-- what `seal_batch` appends for a row -/
def itemOf (source : TableAnchorSource) (r : AnchorRow) : Item :=
  ⟨r.time source.orderedBy, source.name, r.id, pyStr r.leafSha256⟩

/-- the list the loop over the sources makes -/
def pendingItems (w : World) : List Item :=
  reg.rows.flatMap (fun source => (pending collate w source maxBatchLeaves).map (itemOf source))

/-- one row of `UPDATE ... SET anchor_batch_id, anchor_leaf_index ... WHERE t.id = v.row_id AND t.anchor_batch_id IS NULL` -/
def assignRow (batchId : String) (assignments : List (String × ℕ)) (r : AnchorRow) : AnchorRow :=
  match r.anchor, assignments.find? (fun a => a.1 = r.id) with
  | none, some a => { r with anchor := some (batchId, a.2) }
  | _, _ => r

theorem assignRow_id (batchId : String) (assignments : List (String × ℕ)) (r : AnchorRow) :
    (assignRow batchId assignments r).id = r.id := by
  unfold assignRow
  split <;> rfl

/-- the rows the update touches -/
def assigns (assignments : List (String × ℕ)) (r : AnchorRow) : Bool :=
  r.anchor.isNone && (assignments.find? (fun a => a.1 = r.id)).isSome

/-- `TableAnchorSource.assign`: the number of rows it changed -/
def assign (source : TableAnchorSource) (batchId : String) (assignments : List (String × ℕ)) : Tx World ℕ := do
  let count ← Tx.read (fun w => (w.tables source.table).rows.countP (assigns assignments))
  Tx.write (fun w => w.setTable source.table
    ((w.tables source.table).update (assignRow batchId assignments) (assignRow_id batchId assignments)))
  return count

/-- the loop over `by_source` -/
def assignAll (batchId : String) : List (String × List (String × ℕ)) → Tx World Unit
  | [] => return ()
  | (name, assignments) :: groups =>
    match reg.get? name with
    | none => Tx.raise .keyError
    | some source => do
      let count ← assign source batchId assignments
      Tx.require (count = assignments.length) (.runtimeError "Anchor leaf assignment did not cover every selected leaf")
      assignAll batchId groups

/-- the selected items with their indices, under the names of their sources -/
def indexed (selected : List Item) : List (String × (ℕ × Item)) := (enumerate selected).map (fun p => (p.2.name, p))

def bySource (selected : List Item) : List (String × List (String × ℕ)) :=
  Grouping.group ((indexed selected).map (fun q => (q.1, (q.2.2.id, q.2.1))))

/-- `INSERT INTO commitment_batches` -/
def insertBatch (b : BatchRow) : Tx World Unit := do
  Tx.require (b.checks = true) (.pg .checkViolation)
  let w ← Tx.read id
  match w.batches.insert? b with
  | none => Tx.raise (.pg .uniqueViolation)
  | some batches => Tx.write (fun w => { w with batches })

/-- the row `seal_batch` inserts -/
def newBatch (batchId root : String) (leafCount : ℕ) (chainId now : ℤ) : BatchRow where
  id := batchId
  merkleRoot := root
  leafCount := leafCount
  chainId := chainId
  submission := none
  confirmation := none
  leaseExpiresAt := none
  attempts := 0
  lastError := ""
  createdAt := now

/-- `seal_batch`, with the id it draws -/
def sealBatch (H : Sha256) (batchId : String) (chainId now : ℤ) : Tx World (Option String) := do
  let items ← Tx.read (pendingItems collate reg)
  if items = [] then return none
  else do
    let selected := (items.insertionSort Item.before).take maxBatchLeaves
    let root ← Tx.lift (merkleRoot H (selected.map Item.leaf))
    insertBatch (newBatch batchId root selected.length chainId now)
    assignAll reg batchId (bySource selected)
    return some batchId

/-- `anchor_leaf_index` and `leaf_sha256` of a row `WHERE anchor_batch_id = $1` -/
def leafOf (batchId : String) (r : AnchorRow) : Option (ℕ × Option String) :=
  match r.anchor with
  | some (b, index) => if b = batchId then some (index, r.leafSha256) else none
  | none => none

/-- `TableAnchorSource.leaves` -/
def sourceLeaves (w : World) (batchId : String) (source : TableAnchorSource) : List (ℕ × Option String) :=
  (w.tables source.table).rows.filterMap (leafOf batchId)

/-- `indexed.sort()` -/
def pairBefore (p q : ℕ × String) : Prop := toLex p ≤ toLex q

instance : DecidableRel pairBefore := fun p q => inferInstanceAs (Decidable (toLex p ≤ toLex q))

/-- what `batch_leaves` gathers, given what each source returned -/
def gathered (read : TableAnchorSource → List (ℕ × Option String)) : List (ℕ × String) :=
  reg.rows.flatMap (fun source => (read source).map (fun r => (r.1, pyStr r.2)))

def batchLeaves (read : TableAnchorSource → List (ℕ × Option String)) (leafCount : ℕ) : Call (List String) :=
  let indexed := (gathered reg read).insertionSort pairBefore
  if indexed.map Prod.fst = List.range leafCount then .ok (indexed.map Prod.snd)
  else .error (.runtimeError "Commitment batch leaves are incomplete")

/-- a row is inserted with a leaf or without; the contract's CHECK admits hexadecimal leaves only -/
def insertRow (table : String) (r : AnchorRow) : Tx World Unit := do
  Tx.require (r.leafSha256.all (isHexText 64) = true ∧ r.anchor = none) (.pg .checkViolation)
  let w ← Tx.read id
  match (w.tables table).insert? r with
  | none => Tx.raise (.pg .uniqueViolation)
  | some rows => Tx.write (fun w => w.setTable table rows)

inductive Op where
  | insert (table : String) (r : AnchorRow)
  | delete (table : String) (doomed : AnchorRow → Bool)
  | sealBatch (batchId : String) (chainId now : ℤ)

/-- one transaction -/
def step (H : Sha256) (w : World) : Op → World
  | .insert table r => (Tx.commit (insertRow table r) w).2
  | .delete table doomed =>
    -- the guard trigger refuses to delete a committed row; retention asks for uncommitted ones
    w.setTable table ((w.tables table).filter (fun r => r.leafSha256.isSome || !doomed r))
  | .sealBatch batchId chainId now => (Tx.commit (sealBatch collate reg H batchId chainId now) w).2

def run (H : Sha256) (w : World) (ops : List Op) : World := Runs.run (step collate reg H) w ops

/-! ## One seal -/

/-- what the worker selects: unanchored rows of registered sources, each once -/
structure Selection (w : World) (selected : List Item) : Prop where
  source : ∀ item ∈ selected, ∃ s ∈ reg.rows, s.name = item.name ∧ ∃ r ∈ (w.tables s.table).rows,
    r.anchor = none ∧ r.id = item.id ∧ r.leafSha256 = some item.leaf
  nodup : (selected.map (fun item => (item.name, item.id))).Nodup
  small : selected.length ≤ maxBatchLeaves

variable {w : World} {s : TableAnchorSource} {r : AnchorRow} {selected : List Item} {batchId : String}
  {assignments : List (String × ℕ)} {b : BatchRow} {a : String × ℕ} {H : Sha256} {w' : World} {root : String} {chainId : ℤ}
  {id : String} {rows rows' : List AnchorRow}

theorem mem_pending {limit : ℕ} (h : r ∈ pending collate w s limit) :
    r ∈ (w.tables s.table).rows ∧ r.anchor = none ∧ r.leafSha256.isSome = true := by
  have hsorted := mem_of_mem_take h
  rw [mem_insertionSort] at hsorted
  obtain ⟨hr, hopen⟩ := mem_filter.1 hsorted
  rw [AnchorRow.unanchored, Bool.and_eq_true, Option.isNone_iff_eq_none] at hopen
  exact ⟨hr, hopen.2, hopen.1⟩

theorem pending_nodup (w : World) (s : TableAnchorSource) (limit : ℕ) :
    ((pending collate w s limit).map AnchorRow.id).Nodup := by
  refine List.Nodup.sublist ((take_sublist _ _).map _) ?_
  refine ((perm_insertionSort _ _).map AnchorRow.id).nodup_iff.2 ?_
  exact (w.tables s.table).nodup.sublist (filter_sublist.map _)

theorem mem_pendingItems {item : Item} (h : item ∈ pendingItems collate reg w) :
    ∃ s ∈ reg.rows, s.name = item.name ∧ ∃ r ∈ (w.tables s.table).rows,
      r.anchor = none ∧ r.id = item.id ∧ r.leafSha256 = some item.leaf := by
  obtain ⟨s, hs, hitem⟩ := mem_flatMap.1 h
  obtain ⟨r, hr, rfl⟩ := mem_map.1 hitem
  obtain ⟨hr, hfree, hleaf⟩ := mem_pending collate hr
  obtain ⟨leaf, hleaf⟩ := Option.isSome_iff_exists.1 hleaf
  refine ⟨s, hs, rfl, r, hr, hfree, rfl, ?_⟩
  rw [itemOf, hleaf]
  rfl

theorem pendingItems_nodup (w : World) : ((pendingItems collate reg w).map (fun item => (item.name, item.id))).Nodup := by
  unfold pendingItems
  rw [map_flatMap, nodup_flatMap]
  constructor
  · intro s _
    rw [map_map]
    refine List.Nodup.of_map snd ?_
    rw [map_map]
    exact pending_nodup collate w s maxBatchLeaves
  · refine (pairwise_map.1 reg.nodup).imp (fun hne => ?_)
    intro p hp hp'
    obtain ⟨_, hitem, rfl⟩ := mem_map.1 hp
    obtain ⟨_, -, rfl⟩ := mem_map.1 hitem
    obtain ⟨_, hitem', heq⟩ := mem_map.1 hp'
    obtain ⟨_, -, rfl⟩ := mem_map.1 hitem'
    exact hne (congrArg fst heq).symm

theorem selection (w : World) :
    Selection reg w (((pendingItems collate reg w).insertionSort Item.before).take maxBatchLeaves) where
  source item hitem := by
    have hsorted := mem_of_mem_take hitem
    rw [mem_insertionSort] at hsorted
    exact mem_pendingItems collate reg hsorted
  nodup := by
    refine List.Nodup.sublist ((take_sublist _ _).map _) ?_
    exact ((perm_insertionSort _ _).map _).nodup_iff.2 (pendingItems_nodup collate reg w)
  small := length_take_le _ _

/-- the ids and indices a selection assigns in the source of this name -/
def assignmentsOf (selected : List Item) (name : String) : List (String × ℕ) :=
  (Grouping.under (indexed selected) name).map (fun p => (p.2.id, p.1))

theorem assignRow_nil (batchId : String) (r : AnchorRow) : assignRow batchId [] r = r := by
  unfold assignRow
  cases r.anchor <;> rfl

theorem bySource_val (selected : List Item) : ∀ g ∈ bySource selected, g.2 = assignmentsOf selected g.1 := by
  intro g hg
  rw [mem_group _ g hg, under_map (fun p : ℕ × Item => (p.2.id, p.1))]
  rfl

theorem nodup_bySource (selected : List Item) : ((bySource selected).map fst).Nodup :=
  nodup_keys_group _

theorem assignmentsOf_of_not_mem {name : String} (h : name ∉ (bySource selected).map fst) :
    assignmentsOf selected name = [] := by
  have hkeys : name ∉ (indexed selected).map fst := by
    intro hmem
    refine h ((mem_keys_group _ name).2 ?_)
    rw [map_map]
    exact hmem
  rw [assignmentsOf, under_of_not_mem hkeys, map_nil]

/-- no table is registered under two names -/
def OneEach : Prop := (reg.rows.map TableAnchorSource.table).Nodup

variable {reg} in
theorem OneEach.eq (h : OneEach reg) {s s' : TableAnchorSource} (hs : s ∈ reg.rows) (hs' : s' ∈ reg.rows)
    (ht : s.table = s'.table) : s = s' :=
  inj_on_of_nodup_map h hs hs' ht

/-- one call of `assign` -/
theorem assign_ok {source : TableAnchorSource} {r : ℕ × World} (h : assign source batchId assignments w = .ok r) :
    r.2 = w.setTable source.table
      ((w.tables source.table).update (assignRow batchId assignments) (assignRow_id batchId assignments)) := by
  cases h
  rfl

variable {reg} in
/-- the loop over `by_source`: the rows of a source are assigned by its own group -/
theorem assignAll_spec (hone : OneEach reg) {f : String → List (String × ℕ)} {groups : List (String × List (String × ℕ))}
    (hkeys : (groups.map fst).Nodup) (hval : ∀ g ∈ groups, g.2 = f g.1) {r : Unit × World}
    (h : assignAll reg batchId groups w = .ok r) :
    (∀ t, t ∉ reg.rows.map TableAnchorSource.table → r.2.tables t = w.tables t) ∧
    ∀ s ∈ reg.rows, (r.2.tables s.table).rows = if s.name ∈ groups.map fst then
      (w.tables s.table).rows.map (assignRow batchId (f s.name)) else (w.tables s.table).rows := by
  induction groups generalizing w with
  | nil =>
    cases h
    exact ⟨fun _ _ => rfl, fun s _ => by simp⟩
  | cons g groups ih =>
    obtain ⟨name, assignments⟩ := g
    rw [map_cons, nodup_cons] at hkeys
    rw [assignAll] at h
    cases hget : reg.get? name with
    | none => rw [hget] at h; cases h
    | some source =>
      simp only [hget] at h
      obtain ⟨count, w₁, hassign, h⟩ := Tx.bind_ok h
      obtain ⟨-, h⟩ := Tx.require_bind_ok h
      have hw₁ := assign_ok hassign
      simp only at hw₁
      obtain ⟨houter, hinner⟩ := ih hkeys.2 (fun g hg => hval g (mem_cons_of_mem _ hg)) h
      have hsource := Table.mem_of_get? hget
      have hname : source.name = name := Table.key_of_get? hget
      have hassignments : assignments = f name := hval _ mem_cons_self
      refine ⟨fun t ht => ?_, fun s hs => ?_⟩
      · rw [houter t ht, hw₁, World.setTable_of_ne]
        rintro rfl
        exact ht (mem_map_of_mem hsource)
      · rw [hinner s hs, hw₁]
        by_cases hs' : s = source
        · subst hs'
          rw [hname, if_neg hkeys.1, if_pos (by simp), World.setTable_self, hassignments]
          rfl
        · have htable : s.table ≠ source.table := fun ht => hs' (hone.eq hs hsource ht)
          have hother : s.name ≠ name := by
            rw [← hname]
            exact fun hn => hs' (inj_on_of_nodup_map reg.nodup hs hsource hn)
          rw [World.setTable_of_ne _ htable]
          refine if_congr ?_ rfl rfl
          rw [map_cons, mem_cons]
          exact ⟨Or.inr, fun h => h.resolve_left hother⟩

/-- the loop over `by_source` leaves the batches alone -/
theorem assignAll_batches {groups : List (String × List (String × ℕ))} {r : Unit × World}
    (h : assignAll reg batchId groups w = .ok r) : r.2.batches = w.batches := by
  induction groups generalizing w with
  | nil => cases h; rfl
  | cons g groups ih =>
    rw [assignAll] at h
    cases hget : reg.get? g.1 with
    | none => rw [hget] at h; cases h
    | some source =>
      simp only [hget] at h
      obtain ⟨count, w₁, hassign, h⟩ := Tx.bind_ok h
      obtain ⟨-, h⟩ := Tx.require_bind_ok h
      have hw₁ := assign_ok hassign
      simp only at hw₁
      rw [ih h, hw₁]
      rfl

/-- what a seal leaves behind -/
structure Sealing (H : Sha256) (w w' : World) (batchId : String) (chainId now : ℤ) (selected : List Item) (root : String) :
    Prop where
  selection : Selection reg w selected
  nonempty : selected ≠ []
  rooted : merkleRoot H (selected.map Item.leaf) = .ok root
  fresh : w.batches.get? batchId = none
  batches : w'.batches.rows = w.batches.rows ++ [newBatch batchId root selected.length chainId now]
  other : ∀ t, t ∉ reg.rows.map TableAnchorSource.table → w'.tables t = w.tables t
  assigned : ∀ s ∈ reg.rows, (w'.tables s.table).rows =
    (w.tables s.table).rows.map (assignRow batchId (assignmentsOf selected s.name))

theorem insertBatch_ok {r : Unit × World} (h : insertBatch b w = .ok r) :
    w.batches.get? b.id = none ∧ r.2.batches.rows = w.batches.rows ++ [b] ∧ r.2.tables = w.tables := by
  obtain ⟨-, h⟩ := Tx.require_bind_ok h
  have h := Tx.read_bind_ok h
  cases hinsert : (id w).batches.insert? b with
  | none => simp only [hinsert] at h; cases h
  | some batches =>
    simp only [hinsert] at h
    cases h
    obtain ⟨hfresh, hrows⟩ := Table.insert?_eq_some hinsert
    exact ⟨hfresh, hrows, rfl⟩

variable {reg} in
/-- **One seal.** It changes nothing, or it makes a batch of a selection. -/
theorem seal_cases (hone : OneEach reg) (H : Sha256) (w : World) (batchId : String) (chainId now : ℤ) :
    step collate reg H w (.sealBatch batchId chainId now) = w ∨ ∃ selected root,
      Sealing reg H w (step collate reg H w (.sealBatch batchId chainId now)) batchId chainId now selected root := by
  rw [step]
  rcases Tx.commit_cases (sealBatch collate reg H batchId chainId now) w with ⟨a, w', h, hcommit⟩ | ⟨e, -, hcommit⟩
  · rw [hcommit]
    have h := Tx.read_bind_ok h
    split_ifs at h with hempty
    · cases h
      exact Or.inl rfl
    · obtain ⟨root, hroot, h⟩ := Tx.lift_bind_ok h
      obtain ⟨⟨⟩, w₁, hinsert, h⟩ := Tx.bind_ok h
      obtain ⟨⟨⟩, w₂, hassign, h⟩ := Tx.bind_ok h
      cases h
      obtain ⟨hfresh, hbatches, htables⟩ := insertBatch_ok hinsert
      have hkept := assignAll_batches reg hassign
      obtain ⟨hother, hassigned⟩ := assignAll_spec hone (nodup_bySource _) (bySource_val _) hassign
      simp only at hbatches htables hkept hother hassigned
      refine Or.inr ⟨_, root, selection collate reg w, ?_, hroot, hfresh, by rw [hkept, hbatches], ?_, ?_⟩
      · intro hnone
        rw [hnone, map_nil, merkleRoot] at hroot
        cases hroot
      · rw [htables] at hother
        exact hother
      · intro s hs
        rw [hassigned s hs, htables]
        split_ifs with hkey
        · rfl
        · rw [assignmentsOf_of_not_mem hkey]
          exact (map_id'' (assignRow_nil batchId) _).symm
  · rw [hcommit]
    exact Or.inl rfl

/-! ## The leaves of a batch -/

theorem assignRow_of_some (h : r.anchor = some a) : assignRow batchId assignments r = r := by
  unfold assignRow
  rw [h]

theorem assignRow_leaf (batchId : String) (assignments : List (String × ℕ)) (r : AnchorRow) :
    (assignRow batchId assignments r).leafSha256 = r.leafSha256 := by
  unfold assignRow
  split <;> rfl

theorem assignRow_anchor (h : r.anchor = none) : (assignRow batchId assignments r).anchor =
      (assignments.find? (fun a => a.1 = r.id)).map (fun a => (batchId, a.2)) := by
  unfold assignRow
  rw [h]
  cases hfind : assignments.find? (fun a => a.1 = r.id) with
  | none => exact h
  | some a => rfl

theorem leafOf_eq_some {p : ℕ × Option String} :
    leafOf batchId r = some p ↔ r.anchor = some (batchId, p.1) ∧ r.leafSha256 = p.2 := by
  unfold leafOf
  obtain ⟨index, leaf⟩ := p
  cases hanchor : r.anchor with
  | none => simp
  | some a =>
    obtain ⟨b, i⟩ := a
    by_cases hb : b = batchId <;> simp [hb]

variable {reg}

theorem Selection.row (h : Selection reg w selected) (hs : s ∈ reg.rows) {p : ℕ × Item}
    (hp : p ∈ under (indexed selected) s.name) :
    ∃ r ∈ (w.tables s.table).rows, r.anchor = none ∧ r.id = p.2.id ∧ r.leafSha256 = some p.2.leaf := by
  have hmem := mem_under.1 hp
  obtain ⟨q, hq, heq⟩ := mem_map.1 hmem
  obtain ⟨hname, rfl⟩ := Prod.ext_iff.1 heq
  have hitem : q.2 ∈ selected := by
    obtain ⟨z, hz, rfl⟩ := mem_map.1 hq
    exact fst_mem_of_mem_zipIdx hz
  obtain ⟨s', hs', hs'name, r, hr, hrest⟩ := h.source q.2 hitem
  obtain rfl := inj_on_of_nodup_map reg.nodup hs' hs (hs'name.trans hname)
  exact ⟨r, hr, hrest⟩

theorem enumerate_snd {A : Type} (l : List A) : (enumerate l).map snd = l := by
  unfold enumerate
  rw [map_map]
  exact zipIdx_map_fst 0 l

theorem enumerate_fst {A : Type} (l : List A) : (enumerate l).map fst = range l.length := by
  unfold enumerate
  rw [map_map, range_eq_range']
  exact zipIdx_map_snd 0 l

theorem enumerate_map {A B : Type} (f : A → B) (l : List A) :
    enumerate (l.map f) = (enumerate l).map (fun p => (p.1, f p.2)) := by
  unfold enumerate
  rw [zipIdx_map, map_map, map_map]
  rfl

theorem Selection.nodup_ids (h : Selection reg w selected) (name : String) :
    ((assignmentsOf selected name).map fst).Nodup := by
  have hpairs : ((indexed selected).map (fun q => (q.1, q.2.2.id))).Nodup := by
    unfold indexed
    rw [map_map]
    have hsnd := enumerate_snd selected
    have hnodup := h.nodup
    rw [← hsnd, map_map] at hnodup
    exact hnodup
  have hpart : (((indexed selected).filter (fun q => q.1 = name)).map (fun q => (q.1, q.2.2.id))).Nodup :=
    hpairs.sublist (filter_sublist.map _)
  unfold assignmentsOf under
  rw [map_map, map_map]
  have hinj := hpart
  rw [nodup_map_iff_inj_on (List.Nodup.of_map _ hpart)] at hinj ⊢
  intro q hq q' hq' heq
  refine hinj q hq q' hq' (ext ?_ heq)
  exact (of_decide_eq_true (mem_filter.1 hq).2).trans (of_decide_eq_true (mem_filter.1 hq').2).symm

theorem find_assignment (h : (assignments.map fst).Nodup) (ha : a ∈ assignments) :
    assignments.find? (fun b => b.1 = a.1) = some a := by
  have hfound : (assignments.find? (fun b => b.1 = a.1)).isSome := by
    rw [find?_isSome]
    exact ⟨a, ha, by simp⟩
  obtain ⟨b, hb⟩ := Option.isSome_iff_exists.1 hfound
  have hkey : b.1 = a.1 := by simpa using find?_some hb
  rw [hb, inj_on_of_nodup_map h (mem_of_find?_eq_some hb) ha hkey]

/-- **The leaves of a new batch in one source** are the source's part of the selection. -/
theorem Sealing.leaves_perm {now : ℤ} (h : Sealing reg H w w' batchId chainId now selected root)
    (hstored : ∀ t, ∀ r ∈ (w.tables t).rows, ∀ index, r.anchor ≠ some (batchId, index)) (hs : s ∈ reg.rows) :
    (sourceLeaves w' batchId s).Perm ((under (indexed selected) s.name).map (fun p => (p.1, some p.2.leaf))) := by
  have hids := h.selection.nodup_ids s.name
  have hrows := h.assigned s hs
  -- read the ids along with the leaves: they are keys on both sides
  have hkeys : (((w'.tables s.table).rows.filterMap
      (fun r => (leafOf batchId r).map (fun p => (r.id, p)))).map fst).Nodup := by
    refine (w'.tables s.table).nodup_filterMap (fun r b hb => ?_)
    obtain ⟨p, -, rfl⟩ := Option.map_eq_some_iff.1 hb
    rfl
  have hpart : (((under (indexed selected) s.name).map (fun p => (p.2.id, (p.1, some p.2.leaf)))).map fst).Nodup := by
    rw [map_map]
    unfold assignmentsOf at hids
    rw [map_map] at hids
    exact hids
  have hsame := (perm_ext_iff_of_nodup (List.Nodup.of_map _ hkeys) (List.Nodup.of_map _ hpart)).2 (fun t => ?_)
  · have hleaves := hsame.map snd
    rw [map_map, map_filterMap] at hleaves
    refine List.Perm.trans (List.Perm.of_eq ?_) hleaves
    refine filterMap_congr (fun r _ => ?_)
    cases leafOf batchId r <;> rfl
  · rw [mem_filterMap, mem_map]
    constructor
    · rintro ⟨r', hr', ht⟩
      obtain ⟨p, hp, rfl⟩ := Option.map_eq_some_iff.1 ht
      obtain ⟨hanchor, hleaf⟩ := leafOf_eq_some.1 hp
      rw [hrows] at hr'
      obtain ⟨r, hr, rfl⟩ := mem_map.1 hr'
      have hfree : r.anchor = none := by
        cases hr₀ : r.anchor with
        | none => rfl
        | some a =>
          rw [assignRow_of_some hr₀] at hanchor
          exact absurd hanchor (hstored _ r hr _)
      rw [assignRow_anchor hfree] at hanchor
      obtain ⟨a, hfind, heq⟩ := Option.map_eq_some_iff.1 hanchor
      have ha := mem_of_find?_eq_some hfind
      have hid : a.1 = r.id := by simpa using find?_some hfind
      obtain ⟨q, hq, rfl⟩ := mem_map.1 ha
      obtain ⟨r₀, hr₀, -, hid₀, hleaf₀⟩ := h.selection.row hs hq
      obtain rfl := inj_on_of_nodup_map (w.tables s.table).nodup hr₀ hr (hid₀.trans hid)
      refine ⟨q, hq, ?_⟩
      rw [assignRow_leaf, hleaf₀] at hleaf
      rw [assignRow_id, hid₀]
      exact ext rfl (ext (congrArg snd heq) hleaf)
    · rintro ⟨q, hq, rfl⟩
      obtain ⟨r, hr, hfree, hid, hleaf⟩ := h.selection.row hs hq
      have ha : (q.2.id, q.1) ∈ assignmentsOf selected s.name := mem_map.2 ⟨q, hq, rfl⟩
      refine ⟨assignRow batchId (assignmentsOf selected s.name) r, by rw [hrows]; exact mem_map_of_mem hr, ?_⟩
      refine Option.map_eq_some_iff.2 ⟨(q.1, some q.2.leaf), leafOf_eq_some.2 ⟨?_, ?_⟩, ?_⟩
      · rw [assignRow_anchor hfree, hid, find_assignment hids ha]
        rfl
      · rw [assignRow_leaf, hleaf]
      · rw [assignRow_id, hid]

theorem Sealing.gathered_perm {now : ℤ} (h : Sealing reg H w w' batchId chainId now selected root)
    (hstored : ∀ t, ∀ r ∈ (w.tables t).rows, ∀ index, r.anchor ≠ some (batchId, index)) :
    (gathered reg (sourceLeaves w' batchId)).Perm (enumerate (selected.map Item.leaf)) := by
  have hall : ∀ q ∈ indexed selected, q.1 ∈ reg.rows.map TableAnchorSource.name := by
    intro q hq
    obtain ⟨z, hz, rfl⟩ := mem_map.1 hq
    have hitem : z.2 ∈ selected := by
      rw [← enumerate_snd selected]
      exact mem_map_of_mem hz
    obtain ⟨s, hs, hname, -⟩ := h.selection.source z.2 hitem
    exact hname ▸ mem_map_of_mem hs
  have hparts := (parts_perm reg.nodup hall).map (fun p => (p.1, p.2.leaf))
  rw [map_flatMap, flatMap_map] at hparts
  refine (flatMap_left _ (fun s hs => ?_)).trans (hparts.trans (of_eq ?_))
  · refine ((h.leaves_perm hstored hs).map _).trans (of_eq ?_)
    rw [map_map]
    rfl
  · rw [enumerate_map]
    unfold indexed
    rw [map_map, map_map]
    rfl

/-- `batch_leaves` puts the leaves of a full set of indices in order, in whatever order it found them -/
theorem batchLeaves_of_perm {read : TableAnchorSource → List (ℕ × Option String)} {leaves : List String}
    (h : (gathered reg read).Perm (enumerate leaves)) : batchLeaves reg read leaves.length = .ok leaves := by
  have hsorted : (enumerate leaves).Pairwise pairBefore := by
    have hindices : ((enumerate leaves).map fst).Pairwise (· < ·) := by
      rw [enumerate_fst]
      exact pairwise_lt_range
    refine (pairwise_map.1 hindices).imp (fun hlt => ?_)
    exact (Prod.Lex.toLex_le_toLex).2 (Or.inl hlt)
  have hanti : Std.Antisymm pairBefore := ⟨fun p q hpq hqp => toLex.injective (le_antisymm hpq hqp)⟩
  have htotal : Std.Total pairBefore := ⟨fun p q => le_total (toLex p) (toLex q)⟩
  have htrans : IsTrans (ℕ × String) pairBefore := ⟨fun p q r hpq hqr => le_trans hpq hqr⟩
  have heq : (gathered reg read).insertionSort pairBefore = enumerate leaves :=
    eq_of_pairwise' (pairwise_insertionSort _ _) hsorted ((perm_insertionSort _ _).trans h)
  unfold batchLeaves
  simp [heq, enumerate_fst, enumerate_snd, if_true]

/-! ## Every state -/

/-- a batch whose leaves are all there -/
structure Proves (reg : Registry) (H : Sha256) (w : World) (b : BatchRow) (leaves : List String) : Prop where
  root : merkleRoot H leaves = .ok b.merkleRoot
  count : b.leafCount = leaves.length
  small : leaves.length ≤ maxBatchLeaves
  gathered : (gathered reg (sourceLeaves w b.id)).Perm (enumerate leaves)

structure Inv (reg : Registry) (H : Sha256) (w : World) : Prop where
  hex : ∀ t, ∀ r ∈ (w.tables t).rows, r.leafSha256.all (isHexText 64) = true
  committed : ∀ t, ∀ r ∈ (w.tables t).rows, ∀ a, r.anchor = some a → r.leafSha256.isSome
  stored : ∀ t, ∀ r ∈ (w.tables t).rows, ∀ a, r.anchor = some a → (w.batches.get? a.1).isSome
  sealed : ∀ b ∈ w.batches.rows, ∃ leaves, Proves reg H w b leaves

theorem inv_empty (H : Sha256) : Inv reg H World.empty where
  hex _ _ hr := absurd hr not_mem_nil
  committed _ _ hr := absurd hr not_mem_nil
  stored _ _ hr := absurd hr not_mem_nil
  sealed _ hb := absurd hb not_mem_nil

theorem insertRow_cases (table : String) (r : AnchorRow) (w : World) :
    (Tx.commit (insertRow table r) w).2 = w ∨ ∃ rows, r.leafSha256.all (isHexText 64) = true ∧ r.anchor = none ∧
      (w.tables table).insert? r = some rows ∧ (Tx.commit (insertRow table r) w).2 = w.setTable table rows := by
  rcases Tx.commit_cases (insertRow table r) w with ⟨a, w', h, hcommit⟩ | ⟨e, -, hcommit⟩
  · rw [hcommit]
    obtain ⟨hchecks, h⟩ := Tx.require_bind_ok h
    have h := Tx.read_bind_ok h
    cases hinsert : ((id w).tables table).insert? r with
    | none => simp only [hinsert] at h; cases h
    | some rows =>
      simp only [hinsert] at h
      cases h
      exact Or.inr ⟨rows, hchecks.1, hchecks.2, hinsert, rfl⟩
  · rw [hcommit]
    exact Or.inl rfl

/-- how one transaction changes the rows of one table -/
inductive RowsChange (w w' : World) (rows : List AnchorRow) : List AnchorRow → Prop
  | same : RowsChange w w' rows rows
  | insert (r : AnchorRow) (hex : r.leafSha256.all (isHexText 64) = true) (free : r.anchor = none) : RowsChange w w' rows (rows ++ [r])
  | delete (keep : AnchorRow → Bool) (committed : ∀ r, r.leafSha256.isSome → keep r = true) :
      RowsChange w w' rows (rows.filter keep)
  | assign (batchId : String) (assignments : List (String × ℕ)) (fresh : w.batches.get? batchId = none)
      (stored : (w'.batches.get? batchId).isSome)
      (committed : ∀ r ∈ rows, ∀ a ∈ assignments, a.1 = r.id → r.leafSha256.isSome) :
      RowsChange w w' rows (rows.map (assignRow batchId assignments))

/-- how one transaction changes the batches -/
inductive BatchesChange (reg : Registry) (H : Sha256) (w w' : World) : Prop
  | same (rows : w'.batches.rows = w.batches.rows)
  | sealed (batchId : String) (chainId now : ℤ) (selected : List Item) (root : String)
      (sealing : Sealing reg H w w' batchId chainId now selected root)

theorem Sealing.stored {now : ℤ} (h : Sealing reg H w w' batchId chainId now selected root) :
    (w'.batches.get? batchId).isSome := by
  have hmem : newBatch batchId root selected.length chainId now ∈ w'.batches.rows := by
    rw [h.batches]
    exact mem_append_right _ mem_cons_self
  rw [show batchId = (newBatch batchId root selected.length chainId now).id from rfl, Table.get?_of_mem hmem]
  rfl

theorem Sealing.committed {now : ℤ} (h : Sealing reg H w w' batchId chainId now selected root) (hs : s ∈ reg.rows) :
    ∀ r ∈ (w.tables s.table).rows, ∀ a ∈ assignmentsOf selected s.name, a.1 = r.id → r.leafSha256.isSome := by
  intro r hr a ha hid
  obtain ⟨q, hq, rfl⟩ := mem_map.1 ha
  obtain ⟨r₀, hr₀, -, hid₀, hleaf⟩ := h.selection.row hs hq
  obtain rfl := inj_on_of_nodup_map (w.tables s.table).nodup hr₀ hr (hid₀.trans hid)
  rw [hleaf]
  rfl

/-- **The step lemma of the tables.** -/
theorem rows_step (hone : OneEach reg) (H : Sha256) (w : World) (o : Op) (t : String) :
    RowsChange w (step collate reg H w o) (w.tables t).rows ((step collate reg H w o).tables t).rows := by
  cases o with
  | insert table r =>
    rw [step]
    rcases insertRow_cases table r w with hsame | ⟨rows, hhex, hfree, hinsert, hw'⟩
    · rw [hsame]
      exact .same
    · rw [hw']
      by_cases ht : t = table
      · subst ht
        rw [World.setTable_self, (Table.insert?_eq_some hinsert).2]
        exact .insert r hhex hfree
      · rw [World.setTable_of_ne _ ht]
        exact .same
  | delete table doomed =>
    rw [step]
    by_cases ht : t = table
    · subst ht
      rw [World.setTable_self]
      refine .delete _ (fun r hr => ?_)
      rw [hr, Bool.true_or]
    · rw [World.setTable_of_ne _ ht]
      exact .same
  | sealBatch batchId chainId now =>
    rcases seal_cases collate hone H w batchId chainId now with hsame | ⟨selected, root, h⟩
    · rw [hsame]
      exact .same
    · by_cases ht : t ∈ reg.rows.map TableAnchorSource.table
      · obtain ⟨s, hs, rfl⟩ := mem_map.1 ht
        rw [h.assigned s hs]
        exact .assign batchId _ h.fresh h.stored (h.committed hs)
      · rw [h.other t ht]
        exact .same

/-- **The step lemma of the batches.** -/
theorem batches_step (hone : OneEach reg) (H : Sha256) (w : World) (o : Op) :
    BatchesChange reg H w (step collate reg H w o) := by
  cases o with
  | insert table r =>
    rw [step]
    rcases insertRow_cases table r w with hsame | ⟨rows, -, -, -, hw'⟩
    · rw [hsame]
      exact .same rfl
    · rw [hw']
      exact .same rfl
  | delete table doomed => exact .same rfl
  | sealBatch batchId chainId now =>
    rcases seal_cases collate hone H w batchId chainId now with hsame | ⟨selected, root, h⟩
    · rw [hsame]
      exact .same rfl
    · exact .sealed batchId chainId now selected root h

theorem BatchesChange.kept (h : BatchesChange reg H w w') (hb : b ∈ w.batches.rows) : b ∈ w'.batches.rows := by
  cases h with
  | same hrows => exact hrows ▸ hb
  | sealed _ _ _ _ _ hsealing =>
    rw [hsealing.batches]
    exact mem_append_left _ hb

theorem BatchesChange.isSome (h : BatchesChange reg H w w') (hid : (w.batches.get? id).isSome) :
    (w'.batches.get? id).isSome := by
  obtain ⟨b, hb⟩ := Option.isSome_iff_exists.1 hid
  rw [← Table.key_of_get? hb, Table.get?_of_mem (h.kept (Table.mem_of_get? hb))]
  rfl

theorem RowsChange.kept (h : RowsChange w w' rows rows') (hr : r ∈ rows) (ha : r.anchor = some a)
    (hleaf : r.leafSha256.isSome) : r ∈ rows' := by
  cases h with
  | same => exact hr
  | insert r' _ _ => exact mem_append_left _ hr
  | delete keep hkeep => exact mem_filter.2 ⟨hr, hkeep r hleaf⟩
  | assign batchId assignments _ _ _ => exact mem_map.2 ⟨r, hr, assignRow_of_some ha⟩

theorem RowsChange.origin (h : RowsChange w w' rows rows') (hr : r ∈ rows') (ha : r.anchor = some a) :
    r ∈ rows ∨ (w'.batches.get? a.1).isSome ∧ r.leafSha256.isSome := by
  cases h with
  | same => exact Or.inl hr
  | insert r' _ hfree =>
    rcases mem_append.1 hr with hr | hr
    · exact Or.inl hr
    · obtain rfl := mem_singleton.1 hr
      rw [hfree] at ha
      cases ha
  | delete keep _ => exact Or.inl (mem_filter.1 hr).1
  | assign batchId assignments _ hstored hcommitted =>
    obtain ⟨r₀, hr₀, rfl⟩ := mem_map.1 hr
    cases hfree : r₀.anchor with
    | some a₀ =>
      rw [assignRow_of_some hfree]
      exact Or.inl hr₀
    | none =>
      rw [assignRow_anchor hfree] at ha
      obtain ⟨b, hb, rfl⟩ := Option.map_eq_some_iff.1 ha
      refine Or.inr ⟨hstored, ?_⟩
      rw [assignRow_leaf]
      exact hcommitted r₀ hr₀ b (mem_of_find?_eq_some hb) (by simpa using find?_some hb)

theorem RowsChange.hex (h : RowsChange w w' rows rows') (hrows : ∀ r ∈ rows, r.leafSha256.all (isHexText 64) = true) :
    ∀ r ∈ rows', r.leafSha256.all (isHexText 64) = true := by
  intro r hr
  cases h with
  | same => exact hrows r hr
  | insert r' hhex _ =>
    rcases mem_append.1 hr with hr | hr
    · exact hrows r hr
    · exact mem_singleton.1 hr ▸ hhex
  | delete keep _ => exact hrows r (mem_filter.1 hr).1
  | assign batchId assignments _ _ _ =>
    obtain ⟨r₀, hr₀, rfl⟩ := mem_map.1 hr
    rw [assignRow_leaf]
    exact hrows r₀ hr₀

theorem RowsChange.leaves (h : RowsChange w w' rows rows') (hid : (w.batches.get? id).isSome)
    (hcommitted : ∀ r ∈ rows, ∀ a, r.anchor = some a → r.leafSha256.isSome) :
    rows'.filterMap (leafOf id) = rows.filterMap (leafOf id) := by
  cases h with
  | same => rfl
  | insert r _ hfree =>
    have hnone : leafOf id r = none := by rw [leafOf, hfree]
    rw [filterMap_append, filterMap_cons, hnone, filterMap_nil, append_nil]
  | delete keep hkeep =>
    rw [filterMap_filter]
    refine filterMap_congr (fun r hr => ?_)
    split_ifs with hk
    · rfl
    · cases hleaf : leafOf id r with
      | none => rfl
      | some p => exact absurd (hkeep r (hcommitted r hr _ (leafOf_eq_some.1 hleaf).1)) hk
  | assign batchId assignments hfresh _ _ =>
    rw [filterMap_map]
    refine filterMap_congr (fun r _ => ?_)
    rw [Function.comp_apply]
    cases hanchor : r.anchor with
    | some a => rw [assignRow_of_some hanchor]
    | none =>
      have hbefore : leafOf id r = none := by rw [leafOf, hanchor]
      rw [hbefore, Option.eq_none_iff_forall_not_mem]
      intro p hp
      obtain ⟨hassigned, -⟩ := leafOf_eq_some.1 hp
      rw [assignRow_anchor hanchor] at hassigned
      obtain ⟨b, -, hb⟩ := Option.map_eq_some_iff.1 hassigned
      have hbatch : batchId = id := congrArg fst hb
      rw [← hbatch, hfresh] at hid
      cases hid

theorem leaves_step (hone : OneEach reg) (H : Sha256) (hinv : Inv reg H w) (o : Op) (hid : (w.batches.get? id).isSome)
    (s : TableAnchorSource) : sourceLeaves (step collate reg H w o) id s = sourceLeaves w id s :=
  (rows_step collate hone H w o s.table).leaves hid (hinv.committed s.table)

theorem gathered_step (hone : OneEach reg) (H : Sha256) (hinv : Inv reg H w) (o : Op) (hid : (w.batches.get? id).isSome) :
    gathered reg (sourceLeaves (step collate reg H w o) id) = gathered reg (sourceLeaves w id) := by
  rw [funext (leaves_step collate hone H hinv o hid)]

/-- **One transaction keeps the invariant.** -/
theorem inv_step (hone : OneEach reg) (H : Sha256) (hinv : Inv reg H w) (o : Op) : Inv reg H (step collate reg H w o) := by
  have hbatches := batches_step collate hone H w o
  constructor
  · exact fun t => (rows_step collate hone H w o t).hex (hinv.hex t)
  · intro t r hr a ha
    rcases (rows_step collate hone H w o t).origin hr ha with hold | ⟨-, hleaf⟩
    · exact hinv.committed t r hold a ha
    · exact hleaf
  · intro t r hr a ha
    rcases (rows_step collate hone H w o t).origin hr ha with hold | ⟨hstored, -⟩
    · exact hbatches.isSome (hinv.stored t r hold a ha)
    · exact hstored
  · have hkept : ∀ b ∈ w.batches.rows, ∃ leaves, Proves reg H (step collate reg H w o) b leaves := by
      intro b hb
      obtain ⟨leaves, hproves⟩ := hinv.sealed b hb
      refine ⟨leaves, hproves.root, hproves.count, hproves.small, ?_⟩
      rw [gathered_step collate hone H hinv o (by rw [Table.get?_of_mem hb]; rfl)]
      exact hproves.gathered
    intro b hb
    cases hbatches with
    | same hrows => exact hkept b (hrows ▸ hb)
    | sealed batchId chainId now selected root h =>
      rw [h.batches] at hb
      rcases mem_append.1 hb with hb | hb
      · exact hkept b hb
      · obtain rfl := mem_singleton.1 hb
        refine ⟨selected.map Item.leaf, h.rooted, (length_map _).symm, ?_, h.gathered_perm ?_⟩
        · rw [length_map]
          exact h.selection.small
        · intro t r hr index ha
          have hstored := hinv.stored t r hr _ ha
          rw [h.fresh] at hstored
          cases hstored

/-! ## Every run -/

theorem inv_run (hone : OneEach reg) (H : Sha256) (hinv : Inv reg H w) (ops : List Op) :
    Inv reg H (run collate reg H w ops) :=
  Runs.run_inv _ (Inv reg H) (fun _ o h => inv_step collate hone H h o) ops hinv

theorem kept_run (hone : OneEach reg) (H : Sha256) (hinv : Inv reg H w) (ops : List Op) (hid : (w.batches.get? id).isSome) :
    (∀ s, sourceLeaves (run collate reg H w ops) id s = sourceLeaves w id s) ∧
    ∀ t, ∀ r ∈ (w.tables t).rows, ∀ index, r.anchor = some (id, index) → r ∈ ((run collate reg H w ops).tables t).rows := by
  induction ops generalizing w with
  | nil => exact ⟨fun _ => rfl, fun _ _ hr _ _ => hr⟩
  | cons o ops ih =>
    have hnext := (batches_step collate hone H w o).isSome hid
    obtain ⟨hleaves, hrows⟩ := ih (inv_step collate hone H hinv o) hnext
    refine ⟨fun s => (hleaves s).trans (leaves_step collate hone H hinv o hid s), fun t r hr index ha => ?_⟩
    exact hrows t r ((rows_step collate hone H w o t).kept hr ha (hinv.committed t r hr _ ha)) index ha

theorem leaf_of_row {leaves : List String} (h : Proves reg H w b leaves) (hs : s ∈ reg.rows)
    (hr : r ∈ (w.tables s.table).rows) {index : ℕ} (ha : r.anchor = some (b.id, index)) :
    ∃ hi : index < leaves.length, pyStr r.leafSha256 = leaves[index] := by
  have hmem : (index, pyStr r.leafSha256) ∈ gathered reg (sourceLeaves w b.id) := by
    refine mem_flatMap.2 ⟨s, hs, mem_map.2 ⟨(index, r.leafSha256), ?_, rfl⟩⟩
    exact mem_filterMap.2 ⟨r, hr, leafOf_eq_some.2 ⟨ha, rfl⟩⟩
  obtain ⟨q, hq, heq⟩ := mem_map.1 (h.gathered.mem_iff.1 hmem)
  obtain ⟨rfl, hleaf⟩ := Prod.ext_iff.1 heq
  obtain ⟨hi, hget⟩ := mem_zipIdx' hq
  exact ⟨hi, hleaf.symm.trans hget⟩

/-- a batch as its readers find it from the state `w` on: each source may be read later than the one before it -/
structure Provable (collate : String → String → Bool) (reg : Registry) (H : Sha256) (w : World) (b : BatchRow) : Prop where
  indices : ((gathered reg (sourceLeaves w b.id)).map Prod.fst).Perm (List.range b.leafCount)
  small : b.leafCount ≤ maxBatchLeaves
  proofs : ∃ leaves : List String, leaves.length = b.leafCount ∧ merkleRoot H leaves = .ok b.merkleRoot ∧
    (∀ read, (∀ s ∈ reg.rows, ∃ ops, (read s).Perm (sourceLeaves (run collate reg H w ops) b.id s)) →
      batchLeaves reg read b.leafCount = .ok leaves) ∧
    ∀ s ∈ reg.rows, ∀ r ∈ (w.tables s.table).rows, ∀ index : ℕ, r.anchor = some (b.id, index) →
      ∃ leaf path, r.leafSha256 = some leaf ∧ auditPath H leaves index = .ok path ∧
        verifyPath H leaf index b.leafCount path b.merkleRoot = true

theorem provable_of_inv (hone : OneEach reg) (hinv : Inv reg H w) (hb : b ∈ w.batches.rows) :
    Provable collate reg H w b := by
  obtain ⟨leaves, hproves⟩ := hinv.sealed b hb
  have hid : (w.batches.get? b.id).isSome := by
    rw [Table.get?_of_mem hb]
    rfl
  refine ⟨?_, ?_, leaves, hproves.count.symm, hproves.root, ?_, ?_⟩
  · rw [hproves.count, ← enumerate_fst leaves]
    exact hproves.gathered.map fst
  · rw [hproves.count]
    exact hproves.small
  · intro read hread
    rw [hproves.count]
    refine batchLeaves_of_perm (List.Perm.trans ?_ hproves.gathered)
    refine List.Perm.flatMap_left _ (fun s hs => List.Perm.map _ ?_)
    obtain ⟨ops, hperm⟩ := hread s hs
    rwa [(kept_run collate hone H hinv ops hid).1 s] at hperm
  · intro s hs r hr index ha
    obtain ⟨hi, hleaf⟩ := leaf_of_row hproves hs hr ha
    obtain ⟨leaf, hsome⟩ := Option.isSome_iff_exists.1 (hinv.committed _ r hr _ ha)
    obtain ⟨path, hpath, hverify⟩ := (Commitments.verifyPath_complete H leaves index hi).1 _ hproves.root
    rw [hsome] at hleaf
    refine ⟨leaf, path, hsome, hpath, ?_⟩
    rw [hproves.count, show leaf = leaves[index] from hleaf]
    exact hverify

/-- **Sealed batches prove their leaves.** When no table is registered twice, in every reachable state: the indices
assigned in a batch are 0 up to its leaf count, which is at most the limit; whoever gathers its leaves then or later,
source by source, gets the leaves under the stored root; and the path of every assigned row is accepted against it. An
assigned row belongs to one stored batch, then and later. -/
theorem sealed_batches (collate : String → String → Bool) (reg : Registry) (hone : OneEach reg) (H : Sha256)
    (ops : List Op) : (∀ b ∈ (run collate reg H World.empty ops).batches.rows,
      Provable collate reg H (run collate reg H World.empty ops) b) ∧
    ∀ t, ∀ r ∈ ((run collate reg H World.empty ops).tables t).rows, ∀ a, r.anchor = some a →
      ((run collate reg H World.empty ops).batches.get? a.1).isSome ∧
      ∀ ops', r ∈ ((run collate reg H World.empty (ops ++ ops')).tables t).rows := by
  have hinv := inv_run collate hone H (inv_empty H) ops
  refine ⟨fun b hb => provable_of_inv collate hone hinv hb, fun t r hr a ha => ?_⟩
  have hstored := hinv.stored t r hr a ha
  refine ⟨hstored, fun ops' => ?_⟩
  unfold run
  rw [Runs.run_append]
  exact (kept_run collate hone H hinv ops' hstored).2 t r hr a.2 ha

end Sources

def byPrediction : TableAnchorSource := ⟨"labeling_predictions", "labeling_predictions", "prediction_at", by decide⟩

def receipts : TableAnchorSource := ⟨"execution_receipts", "execution_receipts", "created_at", by decide⟩

/-- two tables, each registered once -/
def both : Registry := registerAnchorSource (registerAnchorSource Table.empty byPrediction) receipts

def sampleLeaf : String := String.ofList (List.replicate 64 'a')

/-- the order of code points -/
def byCodePoint (a b : String) : Bool := a ≤ b

/-- two committed rows of one instant and a seal -/
def mixedRun : List Op :=
  [.insert "labeling_predictions" ⟨"p", some sampleLeaf, none, fun _ => 0⟩,
   .insert "execution_receipts" ⟨"r", some sampleLeaf, none, fun _ => 0⟩, .sealBatch "batch" 8453 0]

theorem sealed_batches_mixed : (∀ b ∈ (run byCodePoint both Commitments.twoSha World.empty mixedRun).batches.rows,
      Provable byCodePoint both Commitments.twoSha (run byCodePoint both Commitments.twoSha World.empty mixedRun) b) ∧
    ∀ t, ∀ r ∈ ((run byCodePoint both Commitments.twoSha World.empty mixedRun).tables t).rows, ∀ a, r.anchor = some a →
      ((run byCodePoint both Commitments.twoSha World.empty mixedRun).batches.get? a.1).isSome ∧
      ∀ ops', r ∈ ((run byCodePoint both Commitments.twoSha World.empty (mixedRun ++ ops')).tables t).rows :=
  sealed_batches byCodePoint both (by unfold OneEach; decide) Commitments.twoSha mixedRun

end Teardrop.Anchoring
