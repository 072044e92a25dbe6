/-
The search for the block an observation is pinned to (`first_block_at_or_after` of `labeling/onchain.py`): the first block of
a chain whose timestamp is at or after a target, by bisection below a head.

A chain is read block by block; the model keeps the numbers it reads. Timestamps never decrease up to the height of the
chain, and may be equal.
-/
import Mathlib

namespace Teardrop.Onchain

/-- what the search reads of a block, and the hash the observation keeps -/
structure Block where
  number : ℕ
  timestamp : ℤ
  hash : String

/-- a chain: its blocks by number, in the order of their timestamps up to its height -/
structure Chain where
  block : ℕ → Block
  height : ℕ
  numbered : ∀ n, (block n).number = n
  ordered : ∀ i j, i ≤ j → j ≤ height → (block i).timestamp ≤ (block j).timestamp

/-! ## The search -/

/-- the loop: where `low` and `high` meet, and the blocks it read -/
def bisect (block : ℕ → Block) (timestamp : ℤ) (low high : ℕ) : ℕ × List ℕ :=
  if low < high then
    let middle := (low + high) / 2
    let rest :=
      if timestamp ≤ (block middle).timestamp then bisect block timestamp low middle
      else bisect block timestamp (middle + 1) high
    (rest.1, middle :: rest.2)
  else (low, [])
termination_by high - low

/-- `first_block_at_or_after`, and the blocks it read -/
def firstBlockAtOrAfter (block : ℕ → Block) (timestamp : ℤ) (head : Block) : Option Block × List ℕ :=
  if timestamp > head.timestamp then (none, [])
  else
    let found := bisect block timestamp 0 head.number
    (some (block found.1), found.2 ++ [found.1])

/-! ## Where it ends -/

/-- `n` is the first block that reached the target -/
structure First (block : ℕ → Block) (timestamp : ℤ) (n : ℕ) : Prop where
  reached : timestamp ≤ (block n).timestamp
  before : ∀ i < n, (block i).timestamp < timestamp

variable {block : ℕ → Block} {timestamp : ℤ}

variable {n low high : ℕ} (chain : Chain)

theorem First.le {i : ℕ} (h : First block timestamp n) (hi : timestamp ≤ (block i).timestamp) : n ≤ i := by
  apply Nat.le_of_not_lt
  intro hlt
  exact absurd (h.before i hlt) (not_lt.2 hi)

theorem First.unique {m : ℕ} (h : First block timestamp n) (k : First block timestamp m) : n = m :=
  Nat.le_antisymm (h.le k.reached) (k.le h.reached)

theorem bisect_done (h : ¬ low < high) : bisect block timestamp low high = (low, []) := by
  rw [bisect, if_neg h]

theorem bisect_reached (h : low < high) (hmiddle : timestamp ≤ (block ((low + high) / 2)).timestamp) :
    bisect block timestamp low high = ((bisect block timestamp low ((low + high) / 2)).1,
        (low + high) / 2 :: (bisect block timestamp low ((low + high) / 2)).2) := by
  rw [bisect, if_pos h]
  simp [if_pos hmiddle]

theorem bisect_earlier (h : low < high) (hmiddle : ¬ timestamp ≤ (block ((low + high) / 2)).timestamp) :
    bisect block timestamp low high = ((bisect block timestamp ((low + high) / 2 + 1) high).1,
        (low + high) / 2 :: (bisect block timestamp ((low + high) / 2 + 1) high).2) := by
  rw [bisect, if_pos h]
  simp [if_neg hmiddle]

/-- the target is reached at `high` and not below `low`, and stays so -/
theorem bisect_spec (timestamp : ℤ) (hle : low ≤ high) (htop : high ≤ chain.height)
    (hhigh : timestamp ≤ (chain.block high).timestamp) (hlow : ∀ i < low, (chain.block i).timestamp < timestamp) :
    First chain.block timestamp (bisect chain.block timestamp low high).1 ∧ (bisect chain.block timestamp low high).1 ≤ high := by
  induction low, high using bisect.induct chain.block timestamp with
  | case1 low high hlt middle ihLow ihHigh =>
    by_cases hmiddle : timestamp ≤ (chain.block ((low + high) / 2)).timestamp
    · rw [bisect_reached hlt hmiddle]
      obtain ⟨hfirst, hend⟩ := ihLow (by omega) (by omega) hmiddle hlow
      exact ⟨hfirst, hend.trans (by omega)⟩
    · rw [bisect_earlier hlt hmiddle]
      apply ihHigh (by omega) htop hhigh
      intro i hi
      calc (chain.block i).timestamp ≤ (chain.block ((low + high) / 2)).timestamp := chain.ordered i _ (by omega) (by omega)
        _ < timestamp := not_le.1 hmiddle
  | case2 low high hlt =>
    rw [bisect_done hlt]
    obtain rfl : low = high := by omega
    exact ⟨⟨hhigh, hlow⟩, le_rfl⟩

theorem size_half {k : ℕ} (h : n ≤ k / 2) (hk : 0 < k) : n.size + 1 ≤ k.size := by
  rw [Nat.succ_le_iff, Nat.lt_size]
  rcases Nat.eq_zero_or_pos n.size with hzero | hpos
  · rw [hzero]
    exact hk
  · have hsize : 2 ^ (n.size - 1) ≤ n := Nat.lt_size.1 (by omega)
    calc 2 ^ n.size = 2 * 2 ^ (n.size - 1) := by rw [← pow_succ', Nat.sub_add_cancel hpos]
      _ ≤ 2 * (k / 2) := Nat.mul_le_mul_left 2 (hsize.trans h)
      _ ≤ k := Nat.mul_div_le k 2

theorem bisect_reads (block : ℕ → Block) (timestamp : ℤ) (low high : ℕ) :
    (bisect block timestamp low high).2.length ≤ (high - low).size := by
  induction low, high using bisect.induct block timestamp with
  | case1 low high hlt middle ihLow ihHigh =>
    by_cases hmiddle : timestamp ≤ (block ((low + high) / 2)).timestamp
    · rw [bisect_reached hlt hmiddle, List.length_cons]
      exact (Nat.succ_le_succ ihLow).trans (size_half (by omega) (by omega))
    · rw [bisect_earlier hlt hmiddle, List.length_cons]
      exact (Nat.succ_le_succ ihHigh).trans (size_half (by omega) (by omega))
  | case2 low high hlt =>
    rw [bisect_done hlt]
    exact Nat.zero_le _

/-! ## The block found -/

theorem firstBlock_none {head : Block} (h : timestamp > head.timestamp) :
    (firstBlockAtOrAfter block timestamp head).1 = none := by
  rw [firstBlockAtOrAfter, if_pos h]

theorem firstBlock_reached (hn : n ≤ chain.height) (h : timestamp ≤ (chain.block n).timestamp) :
    ∃ m ≤ n, First chain.block timestamp m ∧
      (firstBlockAtOrAfter chain.block timestamp (chain.block n)).1 = some (chain.block m) := by
  obtain ⟨hfirst, hend⟩ := bisect_spec chain timestamp (Nat.zero_le n) hn h nofun
  refine ⟨_, hend, hfirst, ?_⟩
  rw [firstBlockAtOrAfter, if_neg (not_lt.2 h), chain.numbered]

theorem firstBlock_reads (timestamp : ℤ) (n : ℕ) :
    (firstBlockAtOrAfter chain.block timestamp (chain.block n)).2.length ≤ n.size + 1 := by
  rw [firstBlockAtOrAfter]
  split_ifs
  · exact Nat.zero_le _
  · have hreads := bisect_reads chain.block timestamp 0 (chain.block n).number
    rw [chain.numbered, Nat.sub_zero] at hreads
    simp only [chain.numbered, List.length_append, List.length_singleton]
    exact Nat.succ_le_succ hreads

/-- **The first block at or after a target.** `None` exactly when the target is after the head; otherwise the lowest block of
the chain that reached it, the same one for every later head, after at most as many reads as the head's number has binary
digits, and one. -/
theorem first_block_correct (chain : Chain) (timestamp : ℤ) (n : ℕ) (hn : n ≤ chain.height) :
    let search := fun head => firstBlockAtOrAfter chain.block timestamp (chain.block head)
    ((search n).1 = none ↔ (chain.block n).timestamp < timestamp) ∧
      (∀ b, (search n).1 = some b → b = chain.block b.number ∧ timestamp ≤ b.timestamp ∧
        ∀ i, timestamp ≤ (chain.block i).timestamp → b.number ≤ i) ∧
      (timestamp ≤ (chain.block n).timestamp → ∀ m, n ≤ m → m ≤ chain.height → (search m).1 = (search n).1) ∧
      (search n).2.length ≤ n.size + 1 := by
  refine ⟨?_, ?_, ?_, firstBlock_reads chain timestamp n⟩
  · constructor
    · intro hnone
      apply lt_of_not_ge
      intro hreached
      obtain ⟨m, -, -, hfound⟩ := firstBlock_reached chain hn hreached
      exact absurd (hnone.symm.trans hfound) (by simp)
    · exact firstBlock_none
  · intro b hb
    rcases lt_or_ge (chain.block n).timestamp timestamp with hafter | hreached
    · exact absurd ((firstBlock_none hafter).symm.trans hb) (by simp)
    · obtain ⟨m, -, hfirst, hfound⟩ := firstBlock_reached chain hn hreached
      obtain rfl := Option.some.inj (hfound.symm.trans hb)
      rw [chain.numbered]
      exact ⟨rfl, hfirst.reached, fun i hi => hfirst.le hi⟩
  · intro hreached m hnm hm
    have hlater : timestamp ≤ (chain.block m).timestamp := hreached.trans (chain.ordered n m hnm hm)
    obtain ⟨i, -, hi, hfound⟩ := firstBlock_reached chain hn hreached
    obtain ⟨j, -, hj, hfound'⟩ := firstBlock_reached chain hm hlater
    rw [hi.unique hj] at hfound
    exact hfound'.trans hfound.symm

/-- blocks two by two at one time, from 10 on -/
def pairChain : Chain where
  block n := ⟨n, 10 + (n / 2 : ℕ), ""⟩
  height := 9
  numbered _ := rfl
  ordered i j hij _ := by
    have hhalf : i / 2 ≤ j / 2 := Nat.div_le_div_right hij
    simp only
    omega

/-- of the two blocks at 13 the first one, found from head 9 -/
theorem first_block_correct_pair :
    (firstBlockAtOrAfter pairChain.block 13 (pairChain.block 9)).1 = some (pairChain.block 6) ∧
      ∀ i, 13 ≤ (pairChain.block i).timestamp → 6 ≤ i := by
  have hfound : (firstBlockAtOrAfter pairChain.block 13 (pairChain.block 9)).1 = some (pairChain.block 6) := by
    simp [firstBlockAtOrAfter, bisect, pairChain]
  exact ⟨hfound, ((first_block_correct pairChain 13 9 le_rfl).2.1 _ hfound).2.2⟩

end Teardrop.Onchain
