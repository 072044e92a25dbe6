/-
RFC 6962 Merkle trees over an arbitrary node operation, and the bit-walk that checks an inclusion proof.

A tree splits at the largest power of two strictly below its length; `root` and `path` recurse on that split. The verifier of
RFC 9162 section 2.1.3.2 walks up from the pair (leaf index, last index), halving both, and decides from their bits on which
side the sibling stands: `sides` are those of the recursion, `walkSides` those of the walk.
-/
import Mathlib

namespace Teardrop.MerkleTree

open List

/-! ## The split point -/

/-- the largest power of two strictly below `n` (for `2 ≤ n`) -/
def split (n : ℕ) : ℕ := 2 ^ ((n - 1).size - 1)

theorem split_pos (n : ℕ) : 0 < split n := Nat.two_pow_pos _

theorem split_lt {n : ℕ} (h : 2 ≤ n) : split n < n := by
  have hs : 0 < (n - 1).size := Nat.size_pos.2 (by omega)
  have hle : split n ≤ n - 1 := Nat.lt_size.1 (by omega)
  omega

theorem le_two_mul_split {n : ℕ} (h : 2 ≤ n) : n ≤ 2 * split n := by
  have hs : 0 < (n - 1).size := Nat.size_pos.2 (by omega)
  have hlt : n - 1 < 2 ^ (n - 1).size := Nat.lt_size_self _
  have he : 2 * split n = 2 ^ (n - 1).size := by
    unfold split
    rw [← pow_succ', Nat.sub_add_cancel hs]
  omega

/-! ## Climbing from a leaf -/

section Climb

variable {D : Type} (node : D → D → D)

/-- the ordered pair a climb combines: `left` says that the sibling stands on the left -/
def pairOf (r : D) (left : Bool) (s : D) : D × D := if left then (s, r) else (r, s)

/-- climb from `r` along (side, sibling) steps -/
def climb (r : D) (steps : List (Bool × D)) : D :=
  steps.foldl (fun r st => node (pairOf r st.1 st.2).1 (pairOf r st.1 st.2).2) r

/-- every pair combined by a climb -/
def climbPairs (r : D) : List (Bool × D) → List (D × D)
  | [] => []
  | st :: steps =>
    pairOf r st.1 st.2 :: climbPairs (node (pairOf r st.1 st.2).1 (pairOf r st.1 st.2).2) steps

theorem climb_snoc (r : D) (a : List (Bool × D)) (left : Bool) (s : D) : climb node r (a ++ [(left, s)]) =
      node (pairOf (climb node r a) left s).1 (pairOf (climb node r a) left s).2 := by
  simp [climb]

theorem climbPairs_snoc (r : D) (a : List (Bool × D)) (left : Bool) (s : D) :
    climbPairs node r (a ++ [(left, s)]) = climbPairs node r a ++ [pairOf (climb node r a) left s] := by
  induction a generalizing r with
  | nil => rfl
  | cons st a ih => simp only [cons_append, climbPairs, ih, climb, foldl_cons]

/-- what holds of the start, of every sibling and of every node holds of all pairs a climb combines -/
theorem climbPairs_forall {P : D → Prop} (hnode : ∀ a b, P (node a b)) (steps : List (Bool × D)) :
    ∀ r, P r → (∀ st ∈ steps, P st.2) → ∀ p ∈ climbPairs node r steps, P p.1 ∧ P p.2 := by
  induction steps with
  | nil => intro r _ _ p hp; simp [climbPairs] at hp
  | cons st steps ih =>
    intro r hr hs p hp
    rcases mem_cons.1 hp with rfl | hp
    · unfold pairOf
      split_ifs
      · exact ⟨hs st mem_cons_self, hr⟩
      · exact ⟨hr, hs st mem_cons_self⟩
    · exact ih _ (hnode _ _) (fun st' h => hs st' (mem_cons_of_mem _ h)) p hp

/-- induction along the split: a list of at least two elements falls into two shorter non-empty ones -/
theorem split_induction {P : List D → Prop} (nil : P []) (single : ∀ x, P [x])
    (fork : ∀ l, 2 ≤ l.length → P (l.take (split l.length)) → P (l.drop (split l.length)) → P l)
    (l : List D) : P l := by
  induction hn : l.length using Nat.strong_induction_on generalizing l with
  | _ n ih =>
    by_cases h2 : 2 ≤ l.length
    · have hlt := split_lt h2
      have hpos := split_pos l.length
      refine fork l h2 (ih _ ?_ _ rfl) (ih _ ?_ _ rfl)
      · simp; omega
      · simp; omega
    · match l, h2 with
      | [], _ => exact nil
      | [x], _ => exact single x
      | _ :: _ :: _, h2 => simp at h2

end Climb

/-! ## Roots, paths and sides -/

/-- the side of the sibling at every level above leaf `i` of a tree of size `n`, lowest first (`true` = left) -/
def sides (n i : ℕ) : List Bool :=
  if _h : 2 ≤ n then
    if i < split n then sides (split n) i ++ [false] else sides (n - split n) (i - split n) ++ [true]
  else []
termination_by n
decreasing_by
  · exact split_lt _h
  · have := split_pos n; omega

theorem sides_one (i : ℕ) : sides 1 i = [] := by
  rw [sides, dif_neg (by simp)]

section Tree

variable {D : Type} [Inhabited D] (node : D → D → D)

/-- the Merkle root of a non-empty list (`default` on the empty one) -/
def root (l : List D) : D :=
  if _h : 2 ≤ l.length then
    node (root (l.take (split l.length))) (root (l.drop (split l.length)))
  else l.headD default
termination_by l.length
decreasing_by
  · have := split_lt _h; simp; omega
  · have := split_pos l.length; simp; omega

/-- the siblings met on the way from leaf `i` to the root, lowest first -/
def path (l : List D) (i : ℕ) : List D :=
  if _h : 2 ≤ l.length then
    if i < split l.length then path (l.take (split l.length)) i ++ [root node (l.drop (split l.length))]
    else path (l.drop (split l.length)) (i - split l.length) ++ [root node (l.take (split l.length))]
  else []
termination_by l.length
decreasing_by
  · have := split_lt _h; simp; omega
  · have := split_pos l.length; simp; omega

/-- every pair combined while building the root of `l` -/
def treePairs (l : List D) : List (D × D) :=
  if _h : 2 ≤ l.length then
    treePairs (l.take (split l.length)) ++ treePairs (l.drop (split l.length)) ++
      [(root node (l.take (split l.length)), root node (l.drop (split l.length)))]
  else []
termination_by l.length
decreasing_by
  · have := split_lt _h; simp; omega
  · have := split_pos l.length; simp; omega

theorem root_of_two_le {l : List D} (h : 2 ≤ l.length) :
    root node l = node (root node (l.take (split l.length))) (root node (l.drop (split l.length))) := by
  rw [root, dif_pos h]

theorem root_singleton (x : D) : root node [x] = x := by
  rw [root, dif_neg (by simp)]; rfl

theorem treePairs_singleton (x : D) : treePairs node [x] = [] := by
  rw [treePairs, dif_neg (by simp)]

theorem root_forall {P : D → Prop} (hnode : ∀ a b, P (node a b)) (l : List D) :
    l ≠ [] → (∀ d ∈ l, P d) → P (root node l) := by
  intro hl h
  by_cases h2 : 2 ≤ l.length
  · rw [root_of_two_le node h2]; exact hnode _ _
  · match l, hl, h2 with
    | [x], _, _ => rw [root_singleton]; exact h x mem_cons_self
    | _ :: _ :: _, _, h2 => simp at h2

theorem treePairs_forall {P : D → Prop} (hnode : ∀ a b, P (node a b)) (l : List D) :
    (∀ d ∈ l, P d) → ∀ p ∈ treePairs node l, P p.1 ∧ P p.2 := by
  induction l using split_induction with
  | nil => intro _ p hp; rw [treePairs] at hp; simp at hp
  | single x => intro _ p hp; rw [treePairs_singleton] at hp; cases hp
  | fork l h2 ihl ihr =>
    intro h p hp
    have hlt := split_lt h2
    have hpos := split_pos l.length
    have htake : ∀ d ∈ l.take (split l.length), P d := fun d hd => h d (mem_of_mem_take hd)
    have hdrop : ∀ d ∈ l.drop (split l.length), P d := fun d hd => h d (mem_of_mem_drop hd)
    rw [treePairs, dif_pos h2] at hp
    simp only [mem_append, mem_singleton] at hp
    rcases hp with (hp | hp) | rfl
    · exact ihl htake p hp
    · exact ihr hdrop p hp
    · exact ⟨root_forall node hnode _ (ne_nil_of_length_pos (by simp; omega)) htake,
        root_forall node hnode _ (ne_nil_of_length_pos (by simp; omega)) hdrop⟩

theorem path_length (l : List D) : ∀ i, i < l.length → (path node l i).length = (sides l.length i).length := by
  induction l using split_induction with
  | nil => intro i hi; simp at hi
  | single x => intro i _; rw [path, sides]; simp
  | fork l h2 ihl ihr =>
    intro i hi
    have hlt := split_lt h2
    rw [path, sides, dif_pos h2, dif_pos h2]
    split_ifs with hk
    · have := ihl i (by simp; omega)
      simp only [length_take, Nat.min_eq_left hlt.le] at this
      simp [this]
    · have := ihr (i - split l.length) (by simp; omega)
      simp [this]

/-- **Completeness.** Climbing from a leaf along its own path rebuilds the root. -/
theorem climb_path (l : List D) :
    ∀ i (hi : i < l.length), climb node l[i] ((sides l.length i).zip (path node l i)) = root node l := by
  induction l using split_induction with
  | nil => intro i hi; simp at hi
  | single x =>
    intro i hi
    rw [root_singleton, sides, path]
    simp [climb]
  | fork l h2 ihl ihr =>
    intro i hi
    have hlt := split_lt h2
    rw [root_of_two_le node h2, path, sides, dif_pos h2, dif_pos h2]
    split_ifs with hk
    · have hti : i < (l.take (split l.length)).length := by simp; omega
      have hlen := path_length node _ i hti
      have ih := ihl i hti
      simp only [length_take, Nat.min_eq_left hlt.le, getElem_take] at ih hlen
      rw [zip_append hlen.symm, zip_cons_cons, zip_nil_right, climb_snoc, ih]
      simp [pairOf]
    · have hti : i - split l.length < (l.drop (split l.length)).length := by simp; omega
      have hlen := path_length node _ _ hti
      have ih := ihr _ hti
      simp only [length_drop, getElem_drop, Nat.add_sub_cancel' (Nat.le_of_not_lt hk)] at ih hlen
      rw [zip_append hlen.symm, zip_cons_cons, zip_nil_right, climb_snoc, ih]
      simp [pairOf]

/-- **Soundness.** If no pair combined by the climb collides with a different pair of the tree, a climb of the right
shape that reaches the root started at leaf `i` and used the leaf's own path. -/
theorem climb_pins (l : List D) :
    ∀ i (hi : i < l.length) (x : D) (p : List D), p.length = (sides l.length i).length →
      (∀ a ∈ climbPairs node x ((sides l.length i).zip p), ∀ b ∈ treePairs node l,
        node a.1 a.2 = node b.1 b.2 → a = b) →
      climb node x ((sides l.length i).zip p) = root node l → x = l[i] ∧ p = path node l i := by
  induction l using split_induction with
  | nil => intro i hi; simp at hi
  | single y =>
    intro i hi x p hp _ hc
    obtain rfl : i = 0 := by simpa using hi
    have hs : sides [y].length 0 = [] := sides_one 0
    rw [hs] at hp hc
    obtain rfl : p = [] := length_eq_zero_iff.1 hp
    rw [root_singleton] at hc
    refine ⟨hc, ?_⟩
    rw [path]; simp
  | fork l h2 ihl ihr =>
    intro i hi x p hp hinj hc
    have hlt := split_lt h2
    rw [root_of_two_le node h2] at hc
    rw [path, dif_pos h2]
    -- the topmost step of the climb, split off from the levels below it
    obtain ⟨q, s, rfl⟩ : ∃ q s, p = q ++ [s] := by
      rcases eq_nil_or_concat p with rfl | ⟨q, s, rfl⟩
      · rw [sides, dif_pos h2] at hp
        split_ifs at hp <;> simp at hp
      · exact ⟨q, s, concat_eq_append⟩
    have htop : (root node (l.take (split l.length)), root node (l.drop (split l.length))) ∈ treePairs node l := by
      rw [treePairs, dif_pos h2]; simp
    have hsub : ∀ b, b ∈ treePairs node (l.take (split l.length)) ∨ b ∈ treePairs node (l.drop (split l.length)) →
        b ∈ treePairs node l := by
      intro b hb
      rw [treePairs, dif_pos h2]
      rcases hb with hb | hb <;> simp [hb]
    by_cases hk : i < split l.length
    · have hsides : sides l.length i = sides (split l.length) i ++ [false] := by
        rw [sides, dif_pos h2, if_pos hk]
      rw [hsides] at hp hinj hc
      have hq : q.length = (sides (split l.length) i).length := by simpa using hp
      rw [zip_append hq.symm, zip_cons_cons, zip_nil_right] at hinj hc
      rw [climb_snoc] at hc
      have hpair := hinj _ (by rw [climbPairs_snoc]; simp) _ htop hc
      simp only [pairOf, Bool.false_eq_true, if_false, Prod.mk.injEq] at hpair
      have hti : i < (l.take (split l.length)).length := by simp; omega
      have ih := ihl i hti x q (by simpa [Nat.min_eq_left hlt.le] using hq) (by
        intro a ha b hb
        refine hinj a ?_ b (hsub b (Or.inl hb))
        rw [climbPairs_snoc]
        simp only [length_take, Nat.min_eq_left hlt.le] at ha
        exact mem_append_left _ ha) (by
        simpa [Nat.min_eq_left hlt.le] using hpair.1)
      rw [if_pos hk, ← hpair.2, ← ih.2]
      exact ⟨by simpa using ih.1, rfl⟩
    · have hsides : sides l.length i = sides (l.length - split l.length) (i - split l.length) ++ [true] := by
        rw [sides, dif_pos h2, if_neg hk]
      rw [hsides] at hp hinj hc
      have hq : q.length = (sides (l.length - split l.length) (i - split l.length)).length := by simpa using hp
      rw [zip_append hq.symm, zip_cons_cons, zip_nil_right] at hinj hc
      rw [climb_snoc] at hc
      have hpair := hinj _ (by rw [climbPairs_snoc]; simp) _ htop hc
      simp only [pairOf, if_true, Prod.mk.injEq] at hpair
      have hti : i - split l.length < (l.drop (split l.length)).length := by simp; omega
      have ih := ihr _ hti x q (by simpa using hq) (by
        intro a ha b hb
        refine hinj a ?_ b (hsub b (Or.inr hb))
        rw [climbPairs_snoc]
        simp only [length_drop] at ha
        exact mem_append_left _ ha) (by simpa using hpair.2)
      rw [if_neg hk, ← hpair.1, ← ih.2]
      refine ⟨?_, rfl⟩
      have := ih.1
      simp only [getElem_drop, Nat.add_sub_cancel' (Nat.le_of_not_lt hk)] at this
      exact this

end Tree

/-! ## The bit-walk -/

/-- halve both numbers while the first one is even and non-zero -/
def strip (fn sn : ℕ) : ℕ × ℕ :=
  if _h : fn % 2 = 0 ∧ fn ≠ 0 then strip (fn / 2) (sn / 2) else (fn, sn)
termination_by fn
decreasing_by omega

/-- the sibling stands on the left exactly on an odd position or on the last one -/
def onLeft (fn sn : ℕ) : Bool := fn % 2 = 1 ∨ fn = sn

/-- the pair one level up -/
def up (fn sn : ℕ) : ℕ × ℕ :=
  let p := if onLeft fn sn then strip fn sn else (fn, sn)
  (p.1 / 2, p.2 / 2)

theorem strip_odd {fn : ℕ} (sn : ℕ) (h : fn % 2 = 1) : strip fn sn = (fn, sn) := by
  rw [strip, dif_neg (by omega)]

theorem strip_even {fn : ℕ} (sn : ℕ) (h : fn % 2 = 0) (h0 : fn ≠ 0) : strip fn sn = strip (fn / 2) (sn / 2) := by
  conv_lhs => rw [strip]
  rw [dif_pos ⟨h, h0⟩]

theorem strip_snd_le (fn sn : ℕ) : (strip fn sn).2 ≤ sn := by
  induction fn using Nat.strong_induction_on generalizing sn with
  | _ fn ih =>
    by_cases h : fn % 2 = 0 ∧ fn ≠ 0
    · rw [strip_even sn h.1 h.2]
      have := ih (fn / 2) (by omega) (sn / 2)
      omega
    · rw [strip, dif_neg h]

theorem up_snd_lt {fn sn : ℕ} (h : sn ≠ 0) : (up fn sn).2 < sn := by
  have := strip_snd_le fn sn
  unfold up
  split_ifs <;> simp only <;> omega

/-- the sides the bit-walk decides on, from the pair (position, last position) until the last position is 0 -/
def walkSides (fn sn : ℕ) : List Bool :=
  if _h : sn = 0 then [] else onLeft fn sn :: walkSides (up fn sn).1 (up fn sn).2
termination_by sn
decreasing_by exact up_snd_lt _h

theorem walkSides_zero (fn : ℕ) : walkSides fn 0 = [] := by
  rw [walkSides, dif_pos rfl]

theorem walkSides_of_ne {fn sn : ℕ} (h : sn ≠ 0) :
    walkSides fn sn = onLeft fn sn :: walkSides (up fn sn).1 (up fn sn).2 := by
  rw [walkSides, dif_neg h]

theorem up_half {fn sn : ℕ} (h : fn % 2 = 1 ∨ fn ≠ sn) : up fn sn = (fn / 2, sn / 2) := by
  unfold up
  split_ifs with hl
  · have hodd : fn % 2 = 1 := by
      simp only [onLeft, decide_eq_true_eq] at hl
      rcases h with h | h
      · exact h
      · exact hl.resolve_right h
    rw [strip_odd sn hodd]
  · rfl

theorem walkSides_left (t : ℕ) : ∀ fn sn, fn < 2 ^ t → 2 ^ t ≤ sn → sn < 2 ^ (t + 1) →
    walkSides fn sn = walkSides fn (2 ^ t - 1) ++ [false] := by
  induction t with
  | zero =>
    intro fn sn h1 h2 h3
    obtain rfl : fn = 0 := by simpa using h1
    obtain rfl : sn = 1 := by simp at h2 h3; omega
    rw [walkSides_of_ne one_ne_zero, up_half (Or.inr (by simp))]
    simp [walkSides_zero, onLeft]
  | succ t ih =>
    intro fn sn h1 h2 h3
    have hside : onLeft fn sn = onLeft fn (2 ^ (t + 1) - 1) := by
      simp only [onLeft, decide_eq_decide]
      omega
    have hodd : fn % 2 = 1 ∨ fn ≠ 2 ^ (t + 1) - 1 := by omega
    rw [walkSides_of_ne (by omega), walkSides_of_ne (by omega : 2 ^ (t + 1) - 1 ≠ 0), up_half (Or.inr (by omega)),
      up_half hodd, hside]
    have hhalf : (2 ^ (t + 1) - 1) / 2 = 2 ^ t - 1 := by omega
    simp only [hhalf, cons_append]
    rw [ih (fn / 2) (sn / 2) (by omega) (by omega) (by omega)]

theorem strip_lift (fn : ℕ) : ∀ sn t, fn ≠ 0 → fn < 2 ^ t →
    ∃ m v, m % 2 = 1 ∧ m < 2 ^ (v + 1) ∧ strip fn sn = (m, (strip fn sn).2) ∧
      strip (fn + 2 ^ t) (sn + 2 ^ t) = (m + 2 ^ (v + 1), (strip fn sn).2 + 2 ^ (v + 1)) := by
  induction fn using Nat.strong_induction_on with
  | _ fn ih =>
    intro sn t h0 hlt
    obtain ⟨t, rfl⟩ : ∃ u, t = u + 1 := ⟨t - 1, by
      rcases t with _ | t
      · simp at hlt; omega
      · rfl⟩
    rcases Nat.mod_two_eq_zero_or_one fn with he | ho
    · obtain ⟨m, v, h1, h2, h3, h4⟩ := ih (fn / 2) (by omega) (sn / 2) t (by omega) (by omega)
      refine ⟨m, v, h1, h2, ?_, ?_⟩
      · rw [strip_even sn he h0]; exact h3
      · rw [strip_even _ (by omega) (by omega), strip_even sn he h0, ← h4]
        congr 1 <;> omega
    · refine ⟨fn, t, ho, hlt, ?_, ?_⟩
      · rw [strip_odd sn ho]
      · rw [strip_odd sn ho, strip_odd _ (by omega)]

theorem strip_diag (a : ℕ) : (strip a a).1 = (strip a a).2 := by
  induction a using Nat.strong_induction_on with
  | _ a ih =>
    by_cases ha : a % 2 = 0 ∧ a ≠ 0
    · rw [strip_even a ha.1 ha.2]; exact ih (a / 2) (by omega)
    · rw [strip, dif_neg ha]

theorem strip_two_pow (t : ℕ) : strip (2 ^ t) (2 ^ t) = (1, 1) := by
  induction t with
  | zero => rw [pow_zero, strip_odd _ rfl]
  | succ t ih =>
    have hpos : 0 < 2 ^ t := Nat.two_pow_pos t
    rw [strip_even _ (by omega) (by omega)]
    have : 2 ^ (t + 1) / 2 = 2 ^ t := by omega
    rw [this, ih]

/-- inside a right subtree the walk is the subtree's own, with one more left sibling on top -/
theorem walkSides_right (sn : ℕ) : ∀ fn t, fn ≤ sn → sn < 2 ^ t →
    walkSides (fn + 2 ^ t) (sn + 2 ^ t) = walkSides fn sn ++ [true] := by
  induction sn using Nat.strong_induction_on with
  | _ sn ih =>
    intro fn t hle hlt
    by_cases h0 : sn = 0
    · obtain rfl : fn = 0 := by omega
      subst h0
      have hup : up (0 + 2 ^ t) (0 + 2 ^ t) = (0, 0) := by
        simp [up, onLeft, strip_two_pow]
      rw [walkSides_of_ne (by omega), hup]
      simp [walkSides_zero, onLeft]
    · obtain ⟨t, rfl⟩ : ∃ u, t = u + 1 := ⟨t - 1, by
        rcases t with _ | t
        · simp at hlt; omega
        · rfl⟩
      have hside : onLeft (fn + 2 ^ (t + 1)) (sn + 2 ^ (t + 1)) = onLeft fn sn := by
        simp only [onLeft, decide_eq_decide]
        omega
      rw [walkSides_of_ne (by omega), walkSides_of_ne h0, hside, cons_append]
      congr 1
      by_cases hhalf : fn % 2 = 1 ∨ fn ≠ sn
      · rw [up_half hhalf, up_half (by omega)]
        rw [← ih (sn / 2) (by omega) (fn / 2) t (by omega) (by omega)]
        congr 1 <;> omega
      · -- an even last position: both walks skip the levels at which it has no sibling
        obtain ⟨he, rfl⟩ : fn % 2 = 0 ∧ fn = sn := by omega
        obtain ⟨m, v, h1, h2, h3, h4⟩ := strip_lift fn fn (t + 1) (by omega) hlt
        have heq : (strip fn fn).2 = m := by rw [← strip_diag, h3]
        rw [heq] at h3 h4
        have hlast : onLeft fn fn = true := by simp [onLeft]
        have hlast' : onLeft (fn + 2 ^ (t + 1)) (fn + 2 ^ (t + 1)) = true := by simp [onLeft]
        have hm : m ≤ fn := by
          have := strip_snd_le fn fn
          omega
        simp only [up, hlast, hlast', if_true, h3, h4]
        rw [← ih (m / 2) (by omega) (m / 2) v le_rfl (by omega)]
        congr 1 <;> omega

/-- **The bit-walk follows the tree.** For every size and every index in range, the sides the verifier derives from
the bits of (index, last index) are the sides of the top-down recursion. -/
theorem walkSides_eq_sides (n : ℕ) : ∀ i, i < n → walkSides i (n - 1) = sides n i := by
  induction n using Nat.strong_induction_on with
  | _ n ih =>
    intro i hi
    rw [sides]
    split_ifs with h2 hk
    · have hlt := split_lt h2
      have hle := le_two_mul_split h2
      rw [← ih (split n) hlt i hk]
      exact walkSides_left ((n - 1).size - 1) i (n - 1) hk (by change split n ≤ _; omega)
        (by rw [pow_succ']; change n - 1 < 2 * split n; omega)
    · have hle := le_two_mul_split h2
      rw [← ih (n - split n) (by omega) (i - split n) (by omega)]
      have := walkSides_right (n - split n - 1) (i - split n) ((n - 1).size - 1) (by omega)
        (by change n - split n - 1 < split n; omega)
      rw [← this]
      change _ = walkSides (i - split n + split n) (n - split n - 1 + split n)
      congr 1 <;> omega
    · obtain rfl : n = 1 := by omega
      rw [walkSides_zero]

end Teardrop.MerkleTree
