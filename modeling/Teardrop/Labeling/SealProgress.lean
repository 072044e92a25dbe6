/-
Which seals go through (`labeling/anchor.py`).
-/
import Teardrop.Labeling.Seals

namespace Teardrop.Anchoring

open Teardrop.Py Teardrop.Hex List
open Commitments (Sha256 merkleRoot)

section Sources

variable (collate : String → String → Bool) {reg : Registry}

/-! ## Seals that go through -/

theorem isHexText_hex {b : Bytes} {n : ℕ} (h : 2 * b.length = n) : isHexText n (hex b) = true := by
  unfold isHexText hex
  rw [String.toList_ofList, length_hexChars, all_hexChars, h, decide_eq_true rfl]
  rfl

theorem merkleRoot_hex (H : Sha256) {leaves : List String} (hne : leaves ≠ [])
    (hhex : ∀ leaf ∈ leaves, isHexText 64 leaf = true) :
    ∃ root, merkleRoot H leaves = .ok root ∧ isHexText 64 root = true := by
  have hbytes : ∀ leaf ∈ leaves, ∃ b, fromhex leaf = some b := by
    intro leaf hleaf
    have htext := hhex leaf hleaf
    rw [isHexText, Bool.and_eq_true, decide_eq_true_eq] at htext
    exact fromhexChars_of_lower 32 leaf.toList htext.1 htext.2
  match leaves, hne with
  | [leaf], _ => exact ⟨leaf, by rw [merkleRoot], hhex leaf mem_cons_self⟩
  | a :: b :: rest, _ =>
    obtain ⟨ds, hds⟩ := Commitments.exists_forall₂_decodes hbytes
    have hlen : 2 ≤ ds.length := by
      rw [← hds.length_eq]
      simp
    obtain ⟨root, hroot, -, htext⟩ := Commitments.merkleRoot_spec H ds _ hds (ne_nil_of_length_pos (by omega))
    refine ⟨root, hroot, ?_⟩
    rw [htext hlen, MerkleTree.root_of_two_le _ hlen]
    exact isHexText_hex (by rw [Commitments.byteNode, H.length_digest])

theorem countP_assigns (t : Table AnchorRow.id) {assignments : List (String × ℕ)} (hids : (assignments.map Prod.fst).Nodup)
    (hfree : ∀ a ∈ assignments, ∃ r ∈ t.rows, r.anchor = none ∧ r.id = a.1) :
    t.rows.countP (assigns assignments) = assignments.length := by
  have hrows : ((t.rows.filter (assigns assignments)).map AnchorRow.id).Nodup :=
    t.nodup.sublist (filter_sublist.map _)
  have hsame := (perm_ext_iff_of_nodup hrows hids).2 (fun id => ?_)
  · have hlen := hsame.length_eq
    rwa [length_map, length_map, ← countP_eq_length_filter] at hlen
  · constructor
    · intro hid
      obtain ⟨r, hr, rfl⟩ := mem_map.1 hid
      have htouched := (mem_filter.1 hr).2
      rw [assigns, Bool.and_eq_true] at htouched
      obtain ⟨a, ha⟩ := Option.isSome_iff_exists.1 htouched.2
      have hkey : a.1 = r.id := by simpa using find?_some ha
      exact hkey ▸ mem_map_of_mem (mem_of_find?_eq_some ha)
    · intro hid
      obtain ⟨a, ha, rfl⟩ := mem_map.1 hid
      obtain ⟨r, hr, hfree, hkey⟩ := hfree a ha
      refine mem_map.2 ⟨r, mem_filter.2 ⟨hr, ?_⟩, hkey⟩
      rw [assigns, hfree, hkey, find_assignment hids ha]
      rfl

/-- the loop over `by_source` goes through when the groups name free rows of different tables -/
theorem assignAll_ok (batchId : String) {groups : List (String × List (String × ℕ))} {w : World}
    (htables : (groups.map (fun g => (reg.get? g.1).map TableAnchorSource.table)).Nodup)
    (hgroups : ∀ g ∈ groups, (g.2.map Prod.fst).Nodup ∧ ∃ s, reg.get? g.1 = some s ∧
      ∀ a ∈ g.2, ∃ r ∈ (w.tables s.table).rows, r.anchor = none ∧ r.id = a.1) :
    ∃ w', assignAll reg batchId groups w = .ok ((), w') := by
  induction groups generalizing w with
  | nil => exact ⟨w, rfl⟩
  | cons g groups ih =>
    obtain ⟨name, assignments⟩ := g
    rw [map_cons, nodup_cons] at htables
    obtain ⟨hids, s, hs, hfree⟩ := hgroups _ mem_cons_self
    have hcount := countP_assigns (w.tables s.table) hids hfree
    obtain ⟨w', hw'⟩ := ih (w := w.setTable s.table
      ((w.tables s.table).update (assignRow batchId assignments) (assignRow_id batchId assignments))) htables.2
      (fun g hg => by
        obtain ⟨hids', s', hs', hfree'⟩ := hgroups g (mem_cons_of_mem _ hg)
        refine ⟨hids', s', hs', ?_⟩
        rw [World.setTable_of_ne]
        · exact hfree'
        · intro heq
          refine htables.1 (mem_map.2 ⟨g, hg, ?_⟩)
          simp [hs, hs', heq])
    refine ⟨w', ?_⟩
    rw [assignAll, hs]
    simp only [assign, Tx.bind_run, Tx.read_run, Tx.write, Tx.pure_run, Tx.require_run, hcount, if_true]
    exact hw'

theorem seal_ok {H : Sha256} {w w' : World} {batchId root : String} {chainId now : ℤ} {selected : List Item}
    (hne : pendingItems collate reg w ≠ [])
    (hselected : ((pendingItems collate reg w).insertionSort Item.before).take maxBatchLeaves = selected)
    (hroot : merkleRoot H (selected.map Item.leaf) = .ok root)
    (hchecks : (newBatch batchId root selected.length chainId now).checks = true)
    {batches : Table BatchRow.id}
    (hinsert : w.batches.insert? (newBatch batchId root selected.length chainId now) = some batches)
    (hassign : assignAll reg batchId (bySource selected) { w with batches } = .ok ((), w')) :
    Tx.commit (sealBatch collate reg H batchId chainId now) w = (.ok (some batchId), w') := by
  have hrun : sealBatch collate reg H batchId chainId now w = .ok (some batchId, w') := by
    unfold sealBatch insertBatch
    simp only [Tx.bind_run, Tx.read_run, if_neg hne, hselected, hroot, Tx.lift, Tx.require_run, hchecks, if_true, id,
      hinsert, Tx.write, hassign, Tx.pure_run]
  unfold Tx.commit
  rw [hrun]

theorem mem_bySource {selected : List Item} {g : String × List (String × ℕ)} (hg : g ∈ bySource selected) :
    ∃ item ∈ selected, item.name = g.1 := by
  have hkey := (Grouping.mem_keys_group _ g.1).1 (mem_map_of_mem hg)
  rw [map_map] at hkey
  obtain ⟨q, hq, hname⟩ := mem_map.1 hkey
  obtain ⟨z, hz, rfl⟩ := mem_map.1 hq
  refine ⟨z.2, ?_, hname⟩
  rw [← enumerate_snd selected]
  exact mem_map_of_mem hz

/-! ## A table registered twice -/

theorem run_inserts (reg : Registry) (H : Sha256) (table : String) (rs : List AnchorRow) (hids : (rs.map AnchorRow.id).Nodup)
    (hrows : ∀ r ∈ rs, r.leafSha256.all (isHexText 64) = true ∧ r.anchor = none) :
    ((run collate reg H World.empty (rs.map (Op.insert table))).tables table).rows = rs ∧
      (run collate reg H World.empty (rs.map (Op.insert table))).batches = Table.empty := by
  induction rs using reverseRecOn with
  | nil => exact ⟨rfl, rfl⟩
  | append_singleton rs r ih =>
    rw [map_append, map_singleton, nodup_append] at hids
    obtain ⟨htable, hbatches⟩ := ih hids.1 (fun r hr => hrows r (mem_append_left _ hr))
    unfold run at htable hbatches ⊢
    rw [map_append, map_singleton, Runs.run_snoc]
    generalize Runs.run (step collate reg H) World.empty (rs.map (Op.insert table)) = w at htable hbatches ⊢
    have hfree : (w.tables table).get? r.id = none := by
      rw [Table.get?_eq_none_iff, htable]
      exact fun hid => hids.2.2 r.id hid r.id mem_cons_self rfl
    obtain ⟨rows, hinsert⟩ := Table.insert?_of_free hfree
    have hchecks := hrows r (mem_append_right _ mem_cons_self)
    have hstep : step collate reg H w (.insert table r) = w.setTable table rows := by
      rw [step]
      unfold insertRow Tx.commit
      simp [Tx.bind_run, Tx.require_run, if_pos hchecks, Tx.read_run, hinsert, Tx.write]
    rw [hstep, World.setTable_self, World.setTable_batches, (Table.insert?_eq_some hinsert).2, htable]
    exact ⟨rfl, hbatches⟩

end Sources

def byCreation : TableAnchorSource := ⟨"predictions_by_creation", "labeling_predictions", "created_at", by decide⟩

/-- one table under two names -/
def twice : Registry := registerAnchorSource (registerAnchorSource Table.empty byPrediction) byCreation

theorem isHexText_sampleLeaf : isHexText 64 sampleLeaf = true := by decide

/-- the prediction of microsecond `i`, stored four milliseconds later -/
def manyRow (i : ℕ) : AnchorRow where
  id := String.ofList (List.replicate i 'x')
  leafSha256 := some sampleLeaf
  anchor := none
  time := fun column => if column = "created_at" then 4096 + i else i

def many (n : ℕ) : List AnchorRow := (List.range n).map manyRow

section Many

variable {n : ℕ}

theorem many_ids (n : ℕ) : ((many n).map AnchorRow.id).Nodup := by
  unfold many
  rw [map_map]
  refine nodup_range.map (fun i j h => ?_)
  have hchars := congrArg (fun s : String => s.toList.length) h
  simpa [manyRow] using hchars

theorem many_rows : ∀ r ∈ many n, r.leafSha256 = some sampleLeaf ∧ r.anchor = none := by
  intro r hr
  obtain ⟨i, -, rfl⟩ := mem_map.1 hr
  exact ⟨rfl, rfl⟩

theorem length_many (f : AnchorRow → Item) : ((many n).map f).length = n := by
  rw [length_map, many, length_map, length_range]

variable {w : World} (hw : (w.tables "labeling_predictions").rows = many n)

include hw in
theorem pending_many (hn : n ≤ maxBatchLeaves) {s : TableAnchorSource} (ht : s.table = "labeling_predictions") (offset : ℕ)
    (htime : ∀ i, (manyRow i).time s.orderedBy = (offset + i : ℕ)) : pending byCodePoint w s maxBatchLeaves = many n := by
  unfold pending
  rw [ht, hw, filter_eq_self.2, List.Pairwise.insertionSort_eq]
  · refine take_of_length_le ?_
    rwa [many, length_map, length_range]
  · refine pairwise_map.2 (pairwise_lt_range.imp (fun hlt => Or.inl ?_))
    rw [htime, htime]
    omega
  · intro r hr
    obtain ⟨hleaf, hfree⟩ := many_rows r hr
    rw [AnchorRow.unanchored, hleaf, hfree]
    rfl

include hw in
theorem pendingItems_many (hn : n ≤ maxBatchLeaves) :
    pendingItems byCodePoint twice w = (many n).map (itemOf byPrediction) ++ (many n).map (itemOf byCreation) := by
  have hrows : twice.rows = [byPrediction, byCreation] := rfl
  have hfirst := pending_many hw hn (s := byPrediction) rfl 0 (fun i => by simp [manyRow, byPrediction])
  have hsecond := pending_many hw hn (s := byCreation) rfl 4096 (fun i => by simp [manyRow, byCreation])
  unfold pendingItems
  rw [hrows, flatMap_cons, flatMap_cons, flatMap_nil, hfirst, hsecond, append_nil]

theorem before_of_lt {item item' : Item} (h : item.orderedAt < item'.orderedAt) : item.before item' :=
  Prod.Lex.toLex_le_toLex.2 (Or.inl h)

include hw in
theorem selected_many (hn : n = maxBatchLeaves) :
    ((pendingItems byCodePoint twice w).insertionSort Item.before).take maxBatchLeaves =
      (many n).map (itemOf byPrediction) := by
  rw [pendingItems_many hw hn.le, List.Pairwise.insertionSort_eq, take_left' ((length_many _).trans hn)]
  unfold many
  rw [map_map, map_map, pairwise_append]
  refine ⟨?_, ?_, ?_⟩
  · refine pairwise_map.2 (pairwise_lt_range.imp (fun hlt => before_of_lt ?_))
    simpa [itemOf, manyRow, byPrediction] using hlt
  · refine pairwise_map.2 (pairwise_lt_range.imp (fun hlt => before_of_lt ?_))
    simpa [itemOf, manyRow, byCreation] using hlt
  · intro item hitem item' hitem'
    obtain ⟨i, hi, rfl⟩ := mem_map.1 hitem
    obtain ⟨j, -, rfl⟩ := mem_map.1 hitem'
    have hi := mem_range.1 hi
    rw [hn, maxBatchLeaves] at hi
    refine before_of_lt ?_
    simp [itemOf, manyRow, byPrediction, byCreation]
    omega

include hw in
theorem seal_many {H : Sha256} (hn : n = maxBatchLeaves) (hbatches : w.batches = Table.empty) :
    ∃ b ∈ (Tx.commit (sealBatch byCodePoint twice H "batch" 8453 0) w).2.batches.rows, b.leafCount = n := by
  have hselected := selected_many hw hn
  have hsel := selection byCodePoint twice w
  have hpos : 0 < n := by rw [hn, maxBatchLeaves]; omega
  have hne : pendingItems byCodePoint twice w ≠ [] := by
    rw [pendingItems_many hw hn.le]
    refine ne_nil_of_length_pos ?_
    rw [length_append, length_many]
    omega
  have hhex : ∀ leaf ∈ ((many n).map (itemOf byPrediction)).map Item.leaf, isHexText 64 leaf = true := by
    intro leaf hleaf
    rw [map_map] at hleaf
    obtain ⟨r, hr, rfl⟩ := mem_map.1 hleaf
    rw [Function.comp_apply, itemOf, (many_rows r hr).1]
    exact isHexText_sampleLeaf
  have hname : ∀ item ∈ (many n).map (itemOf byPrediction), item.name = "labeling_predictions" := by
    intro item hitem
    obtain ⟨r, -, rfl⟩ := mem_map.1 hitem
    rfl
  have hlength : ((many n).map (itemOf byPrediction)).length = n := length_many _
  rw [hselected] at hsel
  generalize (many n).map (itemOf byPrediction) = selected at hselected hsel hhex hlength hname
  obtain ⟨root, hroot, hroothex⟩ := merkleRoot_hex H (ne_nil_of_length_pos (by rw [length_map]; omega)) hhex
  have hchecks : (newBatch "batch" root selected.length 8453 0).checks = true := by
    have hsmall : selected.length ≤ 4096 := hsel.small
    simp only [BatchRow.checks, newBatch, hroothex, Bool.true_and, Bool.and_eq_true]
    exact ⟨decide_eq_true (by omega), decide_eq_true hsmall⟩
  have hfresh : w.batches.get? (newBatch "batch" root selected.length 8453 0).id = none := by
    rw [hbatches]
    rfl
  obtain ⟨batches, hinsert⟩ := Table.insert?_of_free hfresh
  have hgroup : ∀ g ∈ bySource selected, g.1 = "labeling_predictions" := by
    intro g hg
    obtain ⟨item, hitem, heq⟩ := mem_bySource hg
    exact heq.symm.trans (hname item hitem)
  have htables : ((bySource selected).map (fun g => (twice.get? g.1).map TableAnchorSource.table)).Nodup := by
    have hkeys := nodup_bySource selected
    rw [nodup_map_iff_inj_on (List.Nodup.of_map _ hkeys)]
    intro g hg g' hg' _
    exact inj_on_of_nodup_map hkeys hg hg' ((hgroup g hg).trans (hgroup g' hg').symm)
  obtain ⟨w', hw'⟩ := assignAll_ok "batch" (w := { w with batches }) htables (fun g hg => by
    rw [bySource_val _ g hg, hgroup g hg]
    refine ⟨hsel.nodup_ids _, byPrediction, rfl, fun a ha => ?_⟩
    obtain ⟨q, hq, rfl⟩ := mem_map.1 ha
    obtain ⟨r, hr, hfree, hid, -⟩ := hsel.row (s := byPrediction) mem_cons_self hq
    exact ⟨r, hr, hfree, hid⟩)
  rw [seal_ok byCodePoint hne hselected hroot hchecks hinsert hw']
  refine ⟨newBatch "batch" root selected.length 8453 0, ?_, hlength⟩
  rw [assignAll_batches twice hw', (Table.insert?_eq_some hinsert).2]
  exact mem_append_right _ mem_cons_self

end Many

theorem batchLeaves_twice (w : World) (id : String) {count : ℕ} (hcount : count ≠ 0) :
    batchLeaves twice (sourceLeaves w id) count = .error (.runtimeError "Commitment batch leaves are incomplete") := by
  have hrows : twice.rows = [byPrediction, byCreation] := rfl
  refine if_neg (fun heq => ?_)
  have hperm := ((perm_insertionSort pairBefore (gathered twice (sourceLeaves w id))).map Prod.fst).symm
  rw [heq] at hperm
  have hnodup := hperm.nodup_iff.2 nodup_range
  have hlength := hperm.length_eq
  unfold gathered at hnodup hlength
  have hsame : sourceLeaves w id byCreation = sourceLeaves w id byPrediction := rfl
  rw [hrows, flatMap_cons, flatMap_cons, flatMap_nil, append_nil, hsame, map_append] at hnodup hlength
  generalize ((sourceLeaves w id byPrediction).map (fun r => (r.1, pyStr r.2))).map Prod.fst = indices at hnodup hlength
  cases indices with
  | nil => exact hcount (by simpa using hlength.symm)
  | cons i indices => exact (nodup_append.1 hnodup).2.2 i mem_cons_self i mem_cons_self rfl

/-- predictions, and a seal -/
def crowded (n : ℕ) : World :=
  run byCodePoint twice Commitments.twoSha World.empty
    ((many n).map (Op.insert "labeling_predictions") ++ [.sealBatch "batch" 8453 0])

theorem crowded_unreadable {n : ℕ} (hn : n = maxBatchLeaves) : ∃ b ∈ (crowded n).batches.rows,
    batchLeaves twice (sourceLeaves (crowded n) b.id) b.leafCount =
      .error (.runtimeError "Commitment batch leaves are incomplete") := by
  obtain ⟨htable, hbatches⟩ := run_inserts byCodePoint twice Commitments.twoSha "labeling_predictions" (many n)
    (many_ids n) (fun r hr => by
      obtain ⟨hleaf, hfree⟩ := many_rows r hr
      rw [hleaf, Option.all_some]
      exact ⟨isHexText_sampleLeaf, hfree⟩)
  obtain ⟨b, hb, hcount⟩ := seal_many (H := Commitments.twoSha) htable hn hbatches
  unfold crowded
  refine ⟨b, ?_, batchLeaves_twice _ b.id ?_⟩
  · unfold run at hb ⊢
    rw [Runs.run_snoc]
    exact hb
  · rw [hcount, hn, maxBatchLeaves]
    omega

/-- **A batch that cannot be read.** 4096 committed predictions, a second name for their table: the batch is sealed from
the entries of the first name, and `batch_leaves` finds every leaf of it under both. -/
theorem counted_twice : ∃ b ∈ (crowded maxBatchLeaves).batches.rows,
    batchLeaves twice (sourceLeaves (crowded maxBatchLeaves) b.id) b.leafCount =
      .error (.runtimeError "Commitment batch leaves are incomplete") :=
  crowded_unreadable rfl

end Teardrop.Anchoring
