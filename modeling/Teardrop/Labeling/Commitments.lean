/-
The Merkle part of `labeling/commitments.py`: `_node`, `_split`, `merkle_root`, `audit_path` and `verify_path`, on the
hexadecimal texts the code passes around. The hash is a parameter: any function from bytes to 32 bytes. `merkleRoot_spec`,
`auditPath_spec` and `verifyWalk_spec` connect the texts with the tree of `Core.MerkleTree` over byte strings.
-/
import Teardrop.Core.Py
import Teardrop.Core.Hex
import Teardrop.Core.MerkleTree

namespace Teardrop.Commitments

open Teardrop.Py Teardrop.Hex List

/-! ## Model -/

/-- `hashlib.sha256`: 32 bytes for every input -/
structure Sha256 where
  digest : Bytes → Bytes
  length_digest : ∀ b, (digest b).length = 32

/-- `bytes.fromhex`, raising -/
def decode (s : String) : Call Bytes :=
  match fromhex s with
  | some b => .ok b
  | none => .error (.valueError "non-hexadecimal number found in fromhex() arg")

def node (H : Sha256) (left right : String) : Call String := do
  let l ← decode left
  let r ← decode right
  return hex (H.digest (0x01 :: (l ++ r)))

/-- `_split`: the largest power of two strictly less than `size` -/
def split (size : ℕ) : ℕ := 1 <<< ((size - 1).size - 1)

theorem split_eq (size : ℕ) : split size = MerkleTree.split size := by
  simp [split, MerkleTree.split, Nat.shiftLeft_eq]

theorem take_split_lt {α : Type} (a b : α) (t : List α) :
    ((a :: b :: t).take (split (a :: b :: t).length)).length < (a :: b :: t).length := by
  have := MerkleTree.split_lt (n := (a :: b :: t).length) (by simp)
  rw [split_eq, length_take]
  omega

theorem drop_split_lt {α : Type} (a b : α) (t : List α) :
    ((a :: b :: t).drop (split (a :: b :: t).length)).length < (a :: b :: t).length := by
  have := MerkleTree.split_pos (a :: b :: t).length
  rw [split_eq, length_drop]
  simp only [length_cons] at this ⊢
  omega

def merkleRoot (H : Sha256) : List String → Call String
  | [] => .error (.valueError "A Merkle tree requires at least one leaf")
  | [leaf] => .ok leaf
  | a :: b :: t => do
    let k := split (a :: b :: t).length
    let l ← merkleRoot H ((a :: b :: t).take k)
    let r ← merkleRoot H ((a :: b :: t).drop k)
    node H l r
termination_by leaves => leaves.length
decreasing_by
  · exact take_split_lt a b t
  · exact drop_split_lt a b t

def auditPath (H : Sha256) (leaves : List String) (index : ℤ) : Call (List String) :=
  if ¬ (0 ≤ index ∧ index < leaves.length) then .error (.indexError "Leaf index is outside the tree")
  else match leaves with
    | [] => .ok []
    | [_] => .ok []
    | a :: b :: t => do
      let k := split (a :: b :: t).length
      if index < k then
        let p ← auditPath H ((a :: b :: t).take k) index
        let r ← merkleRoot H ((a :: b :: t).drop k)
        return p ++ [r]
      else
        let p ← auditPath H ((a :: b :: t).drop k) (index - k)
        let r ← merkleRoot H ((a :: b :: t).take k)
        return p ++ [r]
termination_by leaves.length
decreasing_by
  · exact take_split_lt a b t
  · exact drop_split_lt a b t

/-- the inner loop of `verify_path`: `while not fn & 1 and fn != 0` -/
def skipLevels (fn sn : ℕ) : ℕ × ℕ :=
  if _h : fn &&& 1 = 0 ∧ fn ≠ 0 then skipLevels (fn >>> 1) (sn >>> 1) else (fn, sn)
termination_by fn
decreasing_by simp only [Nat.shiftRight_one]; omega

/-- the loop of `verify_path` over the siblings and its final comparison; a `ValueError` of `_node` is `False` -/
def verifyWalk (H : Sha256) (root : String) : ℕ → ℕ → String → List String → Bool
  | _, sn, result, [] => sn == 0 && result == root
  | fn, sn, result, sibling :: rest =>
    if sn = 0 then false
    else if fn &&& 1 ≠ 0 ∨ fn = sn then
      match node H sibling result with
      | .error _ => false
      | .ok result => verifyWalk H root ((skipLevels fn sn).1 >>> 1) ((skipLevels fn sn).2 >>> 1) result rest
    else
      match node H result sibling with
      | .error _ => false
      | .ok result => verifyWalk H root (fn >>> 1) (sn >>> 1) result rest

def verifyPath (H : Sha256) (leaf : String) (index treeSize : ℤ) (path : List String) (root : String) : Bool :=
  if ¬ (0 ≤ index ∧ index < treeSize) then false
  else verifyWalk H root index.toNat (treeSize - 1).toNat leaf path

/-! ## The byte level -/

/-- `_node` on byte strings -/
def byteNode (H : Sha256) (l r : Bytes) : Bytes := H.digest (0x01 :: (l ++ r))

/-- `s` is hexadecimal text for the bytes `b` -/
def Decodes (s : String) (b : Bytes) : Prop := fromhex s = some b

variable {s : String} (H : Sha256)

theorem decode_of_decodes {b : Bytes} (h : Decodes s b) : decode s = .ok b := by
  simp [decode, show fromhex s = some b from h]

theorem decodes_of_decode {b : Bytes} (h : decode s = .ok b) : Decodes s b := by
  unfold decode at h
  split at h
  · next c hc => cases h; exact hc
  · cases h

theorem decodes_hex (b : Bytes) : Decodes (hex b) b := fromhex_hex b

theorem Decodes.unique {b c : Bytes} (hb : Decodes s b) (hc : Decodes s c) : b = c :=
  Option.some.inj (hb.symm.trans hc)

theorem node_of_decodes {l r : String} {bl br : Bytes} (hl : Decodes l bl) (hr : Decodes r br) :
    node H l r = .ok (hex (byteNode H bl br)) := by
  simp only [node, decode_of_decodes hl, decode_of_decodes hr]
  rfl

theorem node_ok {l r : String} (h : node H l r = .ok s) : ∃ bl br, Decodes l bl ∧ Decodes r br := by
  obtain ⟨bl, hl, h⟩ := bind_eq_ok h
  obtain ⟨br, hr, -⟩ := bind_eq_ok h
  exact ⟨bl, br, decodes_of_decode hl, decodes_of_decode hr⟩

/-- `merkle_root` over hexadecimal leaves returns, and its text denotes the root of the byte tree -/
theorem merkleRoot_spec (ds : List Bytes) : ∀ leaves, List.Forall₂ Decodes leaves ds → ds ≠ [] →
    ∃ r, merkleRoot H leaves = .ok r ∧ Decodes r (MerkleTree.root (byteNode H) ds) ∧
      (2 ≤ ds.length → r = hex (MerkleTree.root (byteNode H) ds)) := by
  induction ds using MerkleTree.split_induction with
  | nil => intro _ _ h; exact absurd rfl h
  | single d =>
    intro leaves h _
    obtain ⟨s, l, hs, hl, rfl⟩ := forall₂_cons_right_iff.1 h
    cases hl
    refine ⟨s, by rw [merkleRoot], ?_, by simp⟩
    rw [MerkleTree.root_singleton]
    exact hs
  | fork ds h2 ihl ihr =>
    intro leaves h _
    have hlen := h.length_eq
    have hlt := MerkleTree.split_lt h2
    have hpos := MerkleTree.split_pos ds.length
    match leaves, hlen with
    | [], hlen => simp at hlen; omega
    | [_], hlen => simp at hlen; omega
    | a :: b :: t, hlen =>
      have hk : split (a :: b :: t).length = MerkleTree.split ds.length := by rw [split_eq, hlen]
      obtain ⟨l, hl1, hl2, -⟩ := ihl _ (forall₂_take _ h) (ne_nil_of_length_pos (by simp; omega))
      obtain ⟨r, hr1, hr2, -⟩ := ihr _ (forall₂_drop _ h) (ne_nil_of_length_pos (by simp; omega))
      refine ⟨hex (MerkleTree.root (byteNode H) ds), ?_, decodes_hex _, fun _ => rfl⟩
      rw [merkleRoot]
      simp only [hk, hl1, hr1]
      rw [MerkleTree.root_of_two_le (byteNode H) h2]
      exact node_of_decodes H hl2 hr2

/-- `audit_path` over hexadecimal leaves returns the byte tree's path -/
theorem auditPath_spec (ds : List Bytes) : ∀ leaves, List.Forall₂ Decodes leaves ds → ∀ i < ds.length,
    ∃ p, auditPath H leaves i = .ok p ∧ List.Forall₂ Decodes p (MerkleTree.path (byteNode H) ds i) := by
  induction ds using MerkleTree.split_induction with
  | nil => intro _ _ i hi; simp at hi
  | single d =>
    intro leaves h i hi
    obtain ⟨s, l, hs, hl, rfl⟩ := forall₂_cons_right_iff.1 h
    cases hl
    refine ⟨[], ?_, ?_⟩
    · rw [auditPath]
      obtain rfl : i = 0 := by simpa using hi
      simp
    · rw [MerkleTree.path]; simp
  | fork ds h2 ihl ihr =>
    intro leaves h i hi
    have hlen := h.length_eq
    have hlt := MerkleTree.split_lt h2
    have hpos := MerkleTree.split_pos ds.length
    rcases leaves with _ | ⟨a, _ | ⟨b, t⟩⟩
    · simp at hlen; omega
    · simp at hlen; omega
    · have hk : split (a :: b :: t).length = MerkleTree.split ds.length := by rw [split_eq, hlen]
      have hrange : (0 : ℤ) ≤ i ∧ (i : ℤ) < ((a :: b :: t).length : ℕ) := by rw [hlen]; omega
      obtain ⟨l, hl1, hl2, -⟩ := merkleRoot_spec H _ _ (forall₂_take (MerkleTree.split ds.length) h)
        (ne_nil_of_length_pos (by simp; omega))
      obtain ⟨r, hr1, hr2, -⟩ := merkleRoot_spec H _ _ (forall₂_drop (MerkleTree.split ds.length) h)
        (ne_nil_of_length_pos (by simp; omega))
      rw [auditPath, MerkleTree.path, dif_pos h2]
      simp only [hrange, and_self, not_true_eq_false, if_false, hk]
      by_cases hik : i < MerkleTree.split ds.length
      · obtain ⟨p, hp1, hp2⟩ := ihl _ (forall₂_take _ h) i (by simp; omega)
        refine ⟨p ++ [r], ?_, ?_⟩
        · simp only [Nat.cast_lt, hik, if_true, hp1, hr1]; rfl
        · rw [if_pos hik]
          exact rel_append hp2 (List.Forall₂.cons hr2 List.Forall₂.nil)
      · obtain ⟨p, hp1, hp2⟩ := ihr _ (forall₂_drop _ h) (i - MerkleTree.split ds.length) (by simp; omega)
        have hcast : ((i - MerkleTree.split ds.length : ℕ) : ℤ) = i - (MerkleTree.split ds.length : ℕ) := by omega
        rw [hcast] at hp1
        refine ⟨p ++ [l], ?_, ?_⟩
        · simp only [Nat.cast_lt, hik, if_false, hp1, hl1]; rfl
        · rw [if_neg hik]
          exact rel_append hp2 (List.Forall₂.cons hl2 List.Forall₂.nil)

theorem skipLevels_eq (fn : ℕ) : ∀ sn, skipLevels fn sn = MerkleTree.strip fn sn := by
  induction fn using Nat.strong_induction_on with
  | _ fn ih =>
    intro sn
    rw [skipLevels, MerkleTree.strip, Nat.and_one_is_mod]
    split_ifs with h
    · exact ih (fn / 2) (by omega) (sn / 2)
    · rfl

/-- the text a walk ends with: the starting text itself when the path is empty, else a digest -/
def walkText (H : Sha256) (result : String) (rb : Bytes) (steps : List (Bool × Bytes)) : String :=
  if steps = [] then result else hex (MerkleTree.climb (byteNode H) rb steps)

/-- one level of the walk over hexadecimal texts: it stops on a root reached too early, else it combines the pair on
the side the bits say and goes on one level up -/
theorem verifyWalk_cons (root : String) {fn sn : ℕ} {result sibling : String} {rb sb : Bytes} (hr : Decodes result rb)
    (hs : Decodes sibling sb) (rest : List String) (hsn : sn ≠ 0) :
    verifyWalk H root fn sn result (sibling :: rest) = verifyWalk H root (MerkleTree.up fn sn).1 (MerkleTree.up fn sn).2
        (hex (MerkleTree.climb (byteNode H) rb [(MerkleTree.onLeft fn sn, sb)])) rest := by
  rw [verifyWalk, if_neg hsn, Nat.and_one_is_mod]
  by_cases hl : fn % 2 = 1 ∨ fn = sn
  · have hside : MerkleTree.onLeft fn sn = true := by simpa [MerkleTree.onLeft] using hl
    have hc : fn % 2 ≠ 0 ∨ fn = sn := by omega
    simp only [if_pos hc, node_of_decodes H hs hr, skipLevels_eq, Nat.shiftRight_one, MerkleTree.up, hside, if_true]
    rfl
  · have hside : MerkleTree.onLeft fn sn = false := by simpa [MerkleTree.onLeft] using hl
    have hc : ¬ (fn % 2 ≠ 0 ∨ fn = sn) := by omega
    simp only [if_neg hc, node_of_decodes H hr hs, Nat.shiftRight_one, MerkleTree.up, hside, Bool.false_eq_true, if_false]
    rfl

/-- **The loop of `verify_path`, read as a climb.** It accepts exactly the paths as long as the walk's list of sides
whose climb ends in the root's text. -/
theorem verifyWalk_spec (root : String) (path : List String) (pb : List Bytes) (h : List.Forall₂ Decodes path pb) :
    ∀ fn sn result rb, Decodes result rb →
      (verifyWalk H root fn sn result path = true ↔ pb.length = (MerkleTree.walkSides fn sn).length ∧
        walkText H result rb ((MerkleTree.walkSides fn sn).zip pb) = root) := by
  induction h with
  | nil =>
    intro fn sn result rb _
    by_cases hsn : sn = 0
    · subst hsn; simp [verifyWalk, MerkleTree.walkSides_zero, walkText]
    · simp [verifyWalk, MerkleTree.walkSides_of_ne hsn, hsn]
  | cons hs _ ih =>
    intro fn sn result rb hr
    by_cases hsn : sn = 0
    · subst hsn; simp [verifyWalk, MerkleTree.walkSides_zero]
    · rw [verifyWalk_cons H root hr hs _ hsn, ih _ _ _ _ (decodes_hex _), MerkleTree.walkSides_of_ne hsn]
      simp only [length_cons, Nat.add_right_cancel_iff, zip_cons_cons]
      have htext : ∀ steps : List (Bool × Bytes), ∀ st : Bool × Bytes,
          walkText H (hex (MerkleTree.climb (byteNode H) rb [st])) (MerkleTree.climb (byteNode H) rb [st]) steps =
            walkText H result rb (st :: steps) := by
        intro steps st
        cases steps <;> simp [walkText, MerkleTree.climb]
      rw [htext]

theorem decodes_walkText {result : String} {rb : Bytes} (h : Decodes result rb) (steps : List (Bool × Bytes)) :
    Decodes (walkText H result rb steps) (MerkleTree.climb (byteNode H) rb steps) := by
  unfold walkText
  split_ifs with hs
  · subst hs; exact h
  · exact decodes_hex _

/-- `verify_path` at an index in range and the tree's own size, read as a climb -/
theorem verifyPath_iff {i n : ℕ} (hi : i < n) {leaf root : String} {path : List String} {lb : Bytes} {pb : List Bytes}
    (hleaf : Decodes leaf lb) (hpath : List.Forall₂ Decodes path pb) :
    verifyPath H leaf i n path root = true ↔ pb.length = (MerkleTree.sides n i).length ∧
      walkText H leaf lb ((MerkleTree.sides n i).zip pb) = root := by
  have hrange : (0 : ℤ) ≤ i ∧ (i : ℤ) < n := by omega
  have hlast : ((n : ℤ) - 1).toNat = n - 1 := by omega
  rw [verifyPath, if_neg (not_not.2 hrange), Int.toNat_natCast, hlast,
    verifyWalk_spec H root path pb hpath _ _ _ _ hleaf, MerkleTree.walkSides_eq_sides n i hi]

/-! ## Completeness -/

theorem decodes_of_merkleRoot (leaves : List String) : 2 ≤ leaves.length →
    ∀ r, merkleRoot H leaves = .ok r → ∃ ds, List.Forall₂ Decodes leaves ds := by
  induction leaves using MerkleTree.split_induction with
  | nil | single _ => intro h; simp at h
  | fork leaves h2 ihl ihr =>
    intro _ r hr
    have hlt := MerkleTree.split_lt h2
    have hpos := MerkleTree.split_pos leaves.length
    match leaves, h2 with
    | a :: b :: t, h2 =>
      rw [merkleRoot] at hr
      simp only [split_eq] at hr
      obtain ⟨rl, hl, hr⟩ := bind_eq_ok hr
      obtain ⟨rr, hrr, hr⟩ := bind_eq_ok hr
      obtain ⟨bl, br, hbl, hbr⟩ := node_ok H hr
      -- a part of one leaf is decoded by the node above it, a longer part by the induction hypothesis
      have part : ∀ part : List String, part ≠ [] → ∀ r b, merkleRoot H part = .ok r → Decodes r b →
          (2 ≤ part.length → ∃ ds, List.Forall₂ Decodes part ds) → ∃ ds, List.Forall₂ Decodes part ds := by
        intro part hne r b hm hd ih
        match part, hne with
        | [x], _ =>
          rw [merkleRoot] at hm
          cases hm
          exact ⟨[b], List.Forall₂.cons hd List.Forall₂.nil⟩
        | x :: y :: l, _ => exact ih (by simp)
      have htake : (a :: b :: t).take (MerkleTree.split (a :: b :: t).length) ≠ [] :=
        ne_nil_of_length_pos (by rw [length_take]; omega)
      have hdrop : (a :: b :: t).drop (MerkleTree.split (a :: b :: t).length) ≠ [] :=
        ne_nil_of_length_pos (by rw [length_drop]; omega)
      obtain ⟨dl, hdl⟩ := part _ htake rl bl hl hbl (fun h => ihl h rl hl)
      obtain ⟨dr, hdr⟩ := part _ hdrop rr br hrr hbr (fun h => ihr h rr hrr)
      refine ⟨dl ++ dr, ?_⟩
      rw [← take_append_drop (MerkleTree.split (a :: b :: t).length) (a :: b :: t)]
      exact rel_append hdl hdr

theorem exists_forall₂_decodes {leaves : List String} (h : ∀ s ∈ leaves, ∃ b, fromhex s = some b) :
    ∃ ds, List.Forall₂ Decodes leaves ds := by
  induction leaves with
  | nil => exact ⟨[], List.Forall₂.nil⟩
  | cons s leaves ih =>
    obtain ⟨b, hb⟩ := h s mem_cons_self
    obtain ⟨ds, hds⟩ := ih (fun s hs => h s (mem_cons_of_mem _ hs))
    exact ⟨b :: ds, List.Forall₂.cons hb hds⟩

/-- **Merkle completeness.** Whenever `merkle_root` returns a root for the leaves, `audit_path` returns a path for
every index in range and `verify_path` accepts it; and `merkle_root` returns whenever every leaf is hexadecimal. -/
theorem verifyPath_complete (H : Sha256) (leaves : List String) (i : ℕ) (hi : i < leaves.length) :
    (∀ root, merkleRoot H leaves = .ok root → ∃ path, auditPath H leaves i = .ok path ∧
      verifyPath H leaves[i] i leaves.length path root = true) ∧
    ((∀ leaf ∈ leaves, ∃ b, fromhex leaf = some b) → ∃ root, merkleRoot H leaves = .ok root) := by
  have hne : leaves ≠ [] := ne_nil_of_length_pos (by omega)
  constructor
  · intro root hroot
    by_cases h2 : 2 ≤ leaves.length
    · obtain ⟨ds, hds⟩ := decodes_of_merkleRoot H leaves h2 root hroot
      have hlen := hds.length_eq
      obtain ⟨r, hr, -, htext⟩ := merkleRoot_spec H ds leaves hds (ne_nil_of_length_pos (by omega))
      obtain ⟨path, hp, hpd⟩ := auditPath_spec H ds leaves hds i (by omega)
      have hleaf : Decodes leaves[i] (ds.get ⟨i, by omega⟩) := List.Forall₂.get hds hi (by omega)
      refine ⟨path, hp, (verifyPath_iff H hi hleaf hpd).2 ⟨?_, ?_⟩⟩
      · rw [MerkleTree.path_length _ _ _ (by omega), hlen]
      · obtain rfl : r = root := by rw [hr] at hroot; exact Except.ok.inj hroot
        rw [htext (by omega), ← MerkleTree.climb_path (byteNode H) ds i (by omega), hlen]
        have hnonempty : ((MerkleTree.sides ds.length i).zip (MerkleTree.path (byteNode H) ds i)) ≠ [] := by
          intro h0
          have hl := congrArg length h0
          rw [length_zip, MerkleTree.path_length _ _ _ (by omega), MerkleTree.sides,
            dif_pos (by omega : 2 ≤ ds.length)] at hl
          split_ifs at hl <;> simp at hl
        rw [walkText, if_neg hnonempty]
        rfl
    · rcases leaves with _ | ⟨x, _ | ⟨_, _⟩⟩
      · exact absurd rfl hne
      · obtain rfl : i = 0 := by simpa using hi
        rw [merkleRoot] at hroot
        cases hroot
        refine ⟨[], by rw [auditPath]; simp, ?_⟩
        simp [verifyPath, verifyWalk]
      · simp at h2
  · intro h
    obtain ⟨ds, hds⟩ := exists_forall₂_decodes h
    have hlen := hds.length_eq
    obtain ⟨r, hr, -⟩ := merkleRoot_spec H ds leaves hds (ne_nil_of_length_pos (by omega))
    exact ⟨r, hr⟩

/-- two leaves, the right one proved by the left one -/
def twoLeaves : List String :=
  ["aaaaaaaaaaaaaaaaaaaaaaaaaaaaaaaaaaaaaaaaaaaaaaaaaaaaaaaaaaaaaaaa",
   "bbbbbbbbbbbbbbbbbbbbbbbbbbbbbbbbbbbbbbbbbbbbbbbbbbbbbbbbbbbbbbbb"]

/-- the root of `twoLeaves` under SHA-256 -/
def twoRoot : String := "2f65cc0c7abfdb0c535cb7f942d65ae1fb04c9a3ad3ea5a62057aa8ac934a93a"

/-- SHA-256 at the one preimage the tree over `twoLeaves` hashes -/
def twoSha : Sha256 where
  digest b :=
    if b = 0x01 :: (List.replicate 32 0xaa ++ List.replicate 32 0xbb) then (fromhex twoRoot).getD []
    else List.replicate 32 0
  length_digest b := by
    split_ifs
    · decide
    · rfl

theorem twoRoot_eq : merkleRoot twoSha twoLeaves = .ok twoRoot := by
  have hsplit : split 2 = 1 := by decide
  have hl : fromhex twoLeaves[0] = some (replicate 32 0xaa) := by decide
  have hr : fromhex twoLeaves[1] = some (replicate 32 0xbb) := by decide
  have hnode := node_of_decodes twoSha hl hr
  rw [twoLeaves, merkleRoot]
  simp only [length_cons, length_nil, Nat.zero_add, Nat.reduceAdd, hsplit, take_succ_cons,
    take_zero, drop_succ_cons, drop_zero]
  rw [merkleRoot, merkleRoot]
  exact hnode

theorem verifyPath_complete_two_leaves : ∃ path, auditPath twoSha twoLeaves (1 : ℕ) = .ok path ∧
    verifyPath twoSha twoLeaves[1] (1 : ℕ) twoLeaves.length path twoRoot = true :=
  (verifyPath_complete twoSha twoLeaves 1 (by decide)).1 twoRoot twoRoot_eq

/-! ## Soundness -/

/-- a text for exactly 32 bytes -/
def Hex32 (s : String) : Prop := ∃ b, fromhex s = some b ∧ b.length = 32

/-- the bytes a hexadecimal text denotes -/
def bytesOf (s : String) : Bytes := (fromhex s).getD []

/-- what `_node` hashes for a pair of children -/
def nodePreimage (p : Bytes × Bytes) : Bytes := 0x01 :: (p.1 ++ p.2)

/-- every preimage hashed while building the root of `leaves` -/
def treePreimages (H : Sha256) (leaves : List String) : List Bytes :=
  (MerkleTree.treePairs (byteNode H) (leaves.map bytesOf)).map nodePreimage

/-- every preimage hashed while checking `path` for leaf `i` of a tree of size `n` -/
def walkPreimages (H : Sha256) (leaf : String) (i n : ℕ) (path : List String) : List Bytes :=
  (MerkleTree.climbPairs (byteNode H) (bytesOf leaf) ((MerkleTree.sides n i).zip (path.map bytesOf))).map nodePreimage

/-- no input of the first list collides with a different input of the second -/
def CollisionFree (H : Sha256) (as bs : List Bytes) : Prop :=
  ∀ a ∈ as, ∀ b ∈ bs, H.digest a = H.digest b → a = b

theorem Hex32.decodes (h : Hex32 s) : Decodes s (bytesOf s) ∧ (bytesOf s).length = 32 := by
  obtain ⟨b, hb, hl⟩ := h
  have hs : bytesOf s = b := by rw [bytesOf, hb]; rfl
  rw [hs]
  exact ⟨hb, hl⟩

theorem forall₂_decodes_bytesOf {l : List String} (h : ∀ s ∈ l, Hex32 s) : List.Forall₂ Decodes l (l.map bytesOf) := by
  rw [forall₂_map_right_iff, forall₂_same]
  intro s hs
  exact (h s hs).decodes.1

theorem map_fromhex_of_decodes {l : List String} {ds : List Bytes} (h : List.Forall₂ Decodes l ds) :
    l.map fromhex = ds.map some := by
  induction h with
  | nil => rfl
  | cons hd _ ih => rw [map_cons, map_cons, ih, show fromhex _ = _ from hd]

theorem nodePreimage_inj {p q : Bytes × Bytes} (hp : p.1.length = 32) (hq : q.1.length = 32)
    (h : nodePreimage p = nodePreimage q) : p = q := by
  have happ : p.1 ++ p.2 = q.1 ++ q.2 := (cons.inj h).2
  obtain ⟨h1, h2⟩ := append_inj happ (hp.trans hq.symm)
  exact Prod.ext h1 h2

/-- **Merkle soundness.** If the verifier accepts a leaf and a path of 32-byte texts for index `i` against the root of
`leaves`, the leaf denotes the bytes of `leaves[i]` (and is the same text when both are digests as the code writes
them) and the path decodes to the bytes of the path `audit_path` returns. -/
theorem verifyPath_sound (H : Sha256) (leaves : List String) (i : ℕ) (hi : i < leaves.length) (leaf : String)
    (path : List String) (root : String) (hleaves : ∀ s ∈ leaves, Hex32 s) (hleaf : Hex32 leaf)
    (hpath : ∀ s ∈ path, Hex32 s)
    (hcf : CollisionFree H (walkPreimages H leaf i leaves.length path) (treePreimages H leaves))
    (hroot : merkleRoot H leaves = .ok root) (hv : verifyPath H leaf i leaves.length path root = true) :
    fromhex leaf = fromhex leaves[i] ∧
    ((∃ b, leaf = hex b) → (∃ b, leaves[i] = hex b) → leaf = leaves[i]) ∧
    ∃ p, auditPath H leaves i = .ok p ∧ path.map fromhex = p.map fromhex := by
  have hds := forall₂_decodes_bytesOf hleaves
  have hpd := forall₂_decodes_bytesOf hpath
  have hld := hleaf.decodes.1
  have hlen : (leaves.map bytesOf).length = leaves.length := length_map _
  obtain ⟨r, hr, hrd, -⟩ := merkleRoot_spec H _ leaves hds (ne_nil_of_length_pos (by rw [hlen]; omega))
  obtain rfl : r = root := by rw [hr] at hroot; exact Except.ok.inj hroot
  obtain ⟨hplen, htext⟩ := (verifyPath_iff H hi hld hpd).1 hv
  have hclimb : MerkleTree.climb (byteNode H) (bytesOf leaf) ((MerkleTree.sides leaves.length i).zip (path.map bytesOf)) =
      MerkleTree.root (byteNode H) (leaves.map bytesOf) :=
    (decodes_walkText H hld _).unique (htext ▸ hrd)
  -- all the texts in play stand for 32 bytes, so a collision of nodes is a collision of preimages
  have hwalk := MerkleTree.climbPairs_forall (byteNode H) (P := fun d => d.length = 32)
    (fun a b => H.length_digest _) ((MerkleTree.sides leaves.length i).zip (path.map bytesOf)) (bytesOf leaf)
    hleaf.decodes.2 (by
      intro st hst
      obtain ⟨s, hs, hb⟩ := mem_map.1 (of_mem_zip hst).2
      rw [← hb]
      exact (hpath s hs).decodes.2)
  have htree := MerkleTree.treePairs_forall (byteNode H) (P := fun d => d.length = 32)
    (fun a b => H.length_digest _) (leaves.map bytesOf) (by
      intro d hd
      obtain ⟨s, hs, rfl⟩ := mem_map.1 hd
      exact (hleaves s hs).decodes.2)
  have hpairs : ∀ a ∈ MerkleTree.climbPairs (byteNode H) (bytesOf leaf)
      ((MerkleTree.sides leaves.length i).zip (path.map bytesOf)),
      ∀ b ∈ MerkleTree.treePairs (byteNode H) (leaves.map bytesOf),
      byteNode H a.1 a.2 = byteNode H b.1 b.2 → a = b := by
    intro a ha b hb hab
    refine nodePreimage_inj (hwalk a ha).1 (htree b hb).1 ?_
    exact hcf _ (mem_map_of_mem ha) _ (mem_map_of_mem hb) hab
  obtain ⟨hx, hp⟩ := MerkleTree.climb_pins (byteNode H) (leaves.map bytesOf) i (by omega) (bytesOf leaf)
    (path.map bytesOf) (by rw [hlen]; exact hplen) (by rw [hlen]; exact hpairs) (by rw [hlen]; exact hclimb)
  have hget : Decodes leaves[i] (bytesOf leaf) := by
    rw [hx, getElem_map]
    exact (hleaves _ (getElem_mem hi)).decodes.1
  have hsame : fromhex leaf = fromhex leaves[i] := hld.trans hget.symm
  refine ⟨hsame, ?_, ?_⟩
  · rintro ⟨b, hb⟩ ⟨c, hc⟩
    rw [hb, hc, fromhex_hex, fromhex_hex] at hsame
    rw [hb, hc, Option.some.inj hsame]
  · obtain ⟨p, hp1, hp2⟩ := auditPath_spec H _ leaves hds i (by omega)
    refine ⟨p, hp1, ?_⟩
    rw [map_fromhex_of_decodes hpd, map_fromhex_of_decodes hp2, hp]

/-- the right leaf and its sibling in upper case are accepted, and denote what the tree holds -/
theorem verifyPath_sound_two_leaves :
    fromhex (String.ofList (List.replicate 64 'B')) = fromhex twoLeaves[1] ∧
    ((∃ b, String.ofList (List.replicate 64 'B') = hex b) → (∃ b, twoLeaves[1] = hex b) →
      String.ofList (List.replicate 64 'B') = twoLeaves[1]) ∧
    ∃ p, auditPath twoSha twoLeaves (1 : ℕ) = .ok p ∧
      [String.ofList (List.replicate 64 'A')].map fromhex = p.map fromhex := by
  have hleft : Decodes (String.ofList (replicate 64 'A')) (replicate 32 0xaa) :=
    show fromhex _ = _ by decide
  have hright : Decodes (String.ofList (replicate 64 'B')) (replicate 32 0xbb) :=
    show fromhex _ = _ by decide
  have hsides : MerkleTree.sides 2 1 = [true] := by
    have hsplit : MerkleTree.split 2 = 1 := by decide
    rw [MerkleTree.sides, hsplit, dif_pos le_rfl, if_neg (by decide), MerkleTree.sides_one]
    rfl
  have htree : MerkleTree.treePairs (byteNode twoSha) (twoLeaves.map bytesOf) =
      [(replicate 32 0xaa, replicate 32 0xbb)] := by
    have hbytes : twoLeaves.map bytesOf = [replicate 32 0xaa, replicate 32 0xbb] := by decide
    have hsplit : MerkleTree.split 2 = 1 := by decide
    rw [hbytes, MerkleTree.treePairs]
    simp only [length_cons, length_nil, Nat.zero_add, Nat.reduceAdd, le_refl, dif_pos, hsplit,
      take_succ_cons, take_zero, drop_succ_cons, drop_zero, MerkleTree.root_singleton,
      MerkleTree.treePairs_singleton, nil_append]
  refine verifyPath_sound twoSha twoLeaves 1 (by decide) _ _ twoRoot ?_ ⟨_, hright, by decide⟩ ?_ ?_ twoRoot_eq ?_
  · have h0 : Hex32 twoLeaves[0] := ⟨replicate 32 0xaa, by decide, by decide⟩
    have h1 : Hex32 twoLeaves[1] := ⟨replicate 32 0xbb, by decide, by decide⟩
    intro s hs
    rcases mem_cons.1 hs with rfl | hs
    · exact h0
    · rw [mem_singleton.1 hs]; exact h1
  · intro s hs
    rw [mem_singleton.1 hs]
    exact ⟨_, hleft, by decide⟩
  · intro a ha b hb _
    have hwalk : walkPreimages twoSha (String.ofList (replicate 64 'B')) 1 2 [String.ofList (replicate 64 'A')] =
        [nodePreimage (replicate 32 0xaa, replicate 32 0xbb)] := by
      rw [walkPreimages, hsides]
      decide
    rw [treePreimages, htree] at hb
    rw [show twoLeaves.length = 2 from rfl, hwalk] at ha
    rw [mem_singleton.1 ha, mem_singleton.1 hb]
  · have htext : walkText twoSha (String.ofList (replicate 64 'B')) (replicate 32 0xbb)
        [(true, replicate 32 0xaa)] = twoRoot := by decide
    refine (verifyPath_iff twoSha (by decide : 1 < twoLeaves.length) hright
      (List.Forall₂.cons hleft List.Forall₂.nil)).2 ⟨?_, ?_⟩
    · rw [show twoLeaves.length = 2 from rfl, hsides]; rfl
    · rw [show twoLeaves.length = 2 from rfl, hsides]; exact htext

end Teardrop.Commitments
