/-
Paging through a query by the key of the last row read (`WHERE key > cursor ORDER BY key LIMIT n`).

A pager answers a page for a cursor, and names the cursor of the page that follows, or none. A database leaves the
order of rows with equal keys open, and may choose it anew for every page. A walk follows the cursors, page after page.
-/
import Mathlib

namespace Teardrop.Keyset

open List Keyset

variable {α C κ : Type}

/-! ## Pagers and walks -/

/-- which pages a cursor may be answered with, and the cursor that follows a page -/
structure Pager (α C : Type) where
  fetch : Option C → List α → Prop
  next : List α → Option C

/-- pages read from a cursor on, and the cursor still to follow -/
inductive Walk (P : Pager α C) : Option C → List (List α) → Option C → Prop
  | page {c : Option C} {page : List α} : P.fetch c page → Walk P c [page] (P.next page)
  | more {c e : Option C} {c' : C} {page : List α} {pages : List (List α)} : P.fetch c page → P.next page = some c' →
      Walk P (some c') pages e → Walk P c (page :: pages) e

/-- every walk ends, some walk is finished, and a finished walk reads every row once -/
structure Complete (P : Pager α C) (rows : List α) : Prop where
  ends : ∀ pages e, Walk P none pages e → pages.length ≤ rows.length + 1
  finishes : ∃ pages, Walk P none pages none
  visits : ∀ pages, Walk P none pages none → pages.flatten.Perm rows

/-! ## Answers made of rows -/

section Image

variable {β : Type} {P : Pager α C} {Q : Pager β C} {g : α → β}

theorem walk_image (hfetch : ∀ c page, Q.fetch c page ↔ ∃ rows, P.fetch c rows ∧ page = rows.map g)
    (hnext : ∀ rows, Q.next (rows.map g) = P.next rows) {c e : Option C} {pages : List (List β)} :
    Walk Q c pages e ↔ ∃ rows, Walk P c rows e ∧ pages = rows.map (map g) := by
  constructor
  · intro h
    induction h with
    | page hf =>
      obtain ⟨rows, hrows, rfl⟩ := (hfetch _ _).1 hf
      rw [hnext]
      exact ⟨[rows], Walk.page hrows, rfl⟩
    | more hf hn _ ih =>
      obtain ⟨rows, hrows, rfl⟩ := (hfetch _ _).1 hf
      obtain ⟨more, hmore, rfl⟩ := ih
      rw [hnext] at hn
      exact ⟨rows :: more, Walk.more hrows hn hmore, rfl⟩
  · rintro ⟨rows, h, rfl⟩
    induction h with
    | page hf =>
      rw [← hnext]
      exact Walk.page ((hfetch _ _).2 ⟨_, hf, rfl⟩)
    | more hf hn _ ih =>
      rw [← hnext] at hn
      exact Walk.more ((hfetch _ _).2 ⟨_, hf, rfl⟩) hn ih

theorem complete_image (hfetch : ∀ c page, Q.fetch c page ↔ ∃ rows, P.fetch c rows ∧ page = rows.map g)
    (hnext : ∀ rows, Q.next (rows.map g) = P.next rows) {rows : List α} (h : Complete P rows) : Complete Q (rows.map g) := by
  constructor
  · intro pages e hwalk
    obtain ⟨read, hread, rfl⟩ := (walk_image hfetch hnext).1 hwalk
    rw [length_map, length_map]
    exact h.ends read e hread
  · obtain ⟨read, hread⟩ := h.finishes
    exact ⟨_, (walk_image hfetch hnext).2 ⟨read, hread, rfl⟩⟩
  · intro pages hwalk
    obtain ⟨read, hread, rfl⟩ := (walk_image hfetch hnext).1 hwalk
    rw [← map_flatten]
    exact (h.visits read hread).map g

end Image

/-! ## Page boundaries -/

/-- no two equal keys stand on both sides of a page boundary -/
def Unbroken (n : ℕ) (keys : List κ) : Prop := ∀ k < keys.length, 0 < k → n ∣ k → keys[k - 1]? ≠ keys[k]?

instance [DecidableEq κ] (n : ℕ) (keys : List κ) : Decidable (Unbroken n keys) := by
  unfold Unbroken
  infer_instance

theorem unbroken_short {n : ℕ} {keys : List κ} (h : keys.length ≤ n) : Unbroken n keys := by
  intro k hk hpos hdvd
  have := Nat.le_of_dvd hpos hdvd
  omega

theorem unbroken_append {xs ys : List κ} {x y : κ} (hx : xs.getLast? = some x) (hy : ys.head? = some y) :
    Unbroken xs.length (xs ++ ys) ↔ x ≠ y ∧ Unbroken xs.length ys := by
  have hxs : 0 < xs.length := by
    cases xs with
    | nil => simp at hx
    | cons => exact Nat.succ_pos _
  have hys : 0 < ys.length := by
    cases ys with
    | nil => simp at hy
    | cons => exact Nat.succ_pos _
  have hbefore : (xs ++ ys)[xs.length - 1]? = some x := by
    rw [getElem?_append_left (by omega), ← getLast?_eq_getElem?, hx]
  have hat : (xs ++ ys)[xs.length]? = some y := by
    rw [getElem?_append_right le_rfl, Nat.sub_self, ← head?_eq_getElem?, hy]
  constructor
  · intro h
    constructor
    · intro heq
      apply h xs.length (by rw [length_append]; omega) hxs (dvd_refl _)
      rw [hbefore, hat, heq]
    · intro k hk hpos hdvd
      have hstep := h (k + xs.length) (by rw [length_append]; omega) (by omega) (Dvd.dvd.add hdvd (dvd_refl _))
      rw [getElem?_append_right (by omega), getElem?_append_right (by omega)] at hstep
      rwa [show k + xs.length - 1 - xs.length = k - 1 by omega, Nat.add_sub_cancel] at hstep
  · rintro ⟨hne, h⟩ k hk hpos hdvd
    rw [length_append] at hk
    have hle := Nat.le_of_dvd hpos hdvd
    rcases Nat.eq_or_lt_of_le hle with heq | hlt
    · rw [← heq, hbefore, hat]
      simpa using hne
    · have hrest := h (k - xs.length) (by omega) (by omega) (Nat.dvd_sub hdvd (dvd_refl _))
      rw [getElem?_append_right (by omega), getElem?_append_right (by omega)]
      rwa [show k - 1 - xs.length = k - xs.length - 1 by omega]

theorem unbroken_pages (key : α → κ) {x y : α} {page rest : List α} (hx : page.getLast? = some x) (hy : rest.head? = some y) :
    Unbroken page.length (page.map key ++ rest.map key) ↔ key x ≠ key y ∧ Unbroken page.length (rest.map key) := by
  have hlast : (page.map key).getLast? = some (key x) := by rw [getLast?_map, hx, Option.map_some]
  have hhead : (rest.map key).head? = some (key y) := by rw [head?_map, hy, Option.map_some]
  have h := unbroken_append hlast hhead
  rwa [length_map] at h

/-! ## Queries in key order -/

section Order

variable [LinearOrder κ]

def SortedBy (key : α → κ) (rows : List α) : Prop := rows.Pairwise (fun a b => key a ≤ key b)

/-- what `ORDER BY key LIMIT n` may answer -/
def Page (key : α → κ) (rows : List α) (n : ℕ) (page : List α) : Prop :=
  ∃ sorted : List α, sorted.Perm rows ∧ SortedBy key sorted ∧ page = sorted.take n

/-- `WHERE key > key a` -/
def after (key : α → κ) (a : α) (rows : List α) : List α := rows.filter (fun b => key a < key b)

/-- the keys in the order of the query -/
def sortedKeys (key : α → κ) (rows : List α) : List κ := (rows.map key).insertionSort (· ≤ ·)

theorem sortedKeys_perm {key : α → κ} {rows sorted : List α} (hperm : sorted.Perm rows) (hsorted : SortedBy key sorted) :
    sortedKeys key rows = sorted.map key := by
  refine List.Perm.eq_of_pairwise' (r := (· ≤ ·)) (pairwise_insertionSort (· ≤ ·) (rows.map key)) ?_ ?_
  · exact pairwise_map.2 hsorted
  · exact (perm_insertionSort (· ≤ ·) (rows.map key)).trans (hperm.map key).symm

/-- one answer to the unbounded query -/
def inOrder (key : α → κ) (rows : List α) : List α := rows.mergeSort (fun a b => key a ≤ key b)

theorem inOrder_perm (key : α → κ) (rows : List α) : (inOrder key rows).Perm rows := mergeSort_perm rows _

theorem inOrder_sorted (key : α → κ) (rows : List α) : SortedBy key (inOrder key rows) := by
  have htrans : ∀ a b c : α, decide (key a ≤ key b) = true → decide (key b ≤ key c) = true → decide (key a ≤ key c) = true :=
    fun a b c hab hbc => by simpa using le_trans (by simpa using hab) (by simpa using hbc)
  have hpairs := pairwise_mergeSort htrans (fun a b => by simpa using le_total (key a) (key b)) rows
  exact hpairs.imp (fun h => by simpa using h)

theorem page_exists (key : α → κ) (rows : List α) (n : ℕ) : ∃ page, Page key rows n page :=
  ⟨_, inOrder key rows, inOrder_perm key rows, inOrder_sorted key rows, rfl⟩

theorem unbroken_of_nodup {n : ℕ} {key : α → κ} {rows : List α} (h : (rows.map key).Nodup) :
    Unbroken n (sortedKeys key rows) := by
  have hnodup : (sortedKeys key rows).Nodup := (perm_insertionSort (· ≤ ·) (rows.map key)).nodup_iff.2 h
  intro k hk hpos _
  rw [getElem?_eq_getElem hk, getElem?_eq_getElem (by omega)]
  intro heq
  have := (List.Nodup.getElem_inj_iff hnodup).1 (Option.some.inj heq)
  omega

/-! ## One page -/

/-- a pager that reads pages of `n` rows in key order, each after the key of the last row before it -/
structure Pages (P : Pager α C) (key : α → κ) (rows : List α) (n : ℕ) (cur : α → C) : Prop where
  pos : 0 < n
  first : ∀ page, P.fetch none page ↔ Page key rows n page
  after : ∀ a ∈ rows, ∀ page, P.fetch (some (cur a)) page ↔ Page key (after key a rows) n page
  next : ∀ page c, P.next page = some c → ∃ a, page.getLast? = some a ∧ c = cur a
  full : ∀ page, page.length = n → P.next page ≠ none

/-- the rows still to be read when a cursor is to be followed -/
def Left (key : α → κ) (rows : List α) (cur : α → C) (c : Option C) (left : List α) : Prop :=
  (c = none ∧ left = rows) ∨ ∃ a ∈ rows, c = some (cur a) ∧ left = after key a rows

variable {P : Pager α C} {key : α → κ} {rows : List α} {n : ℕ} {cur : α → C}

theorem Pages.of_last (hpos : 0 < n) (hfirst : ∀ page, P.fetch none page ↔ Page key rows n page)
    (hafter : ∀ a ∈ rows, ∀ page, P.fetch (some (cur a)) page ↔ Page key (Keyset.after key a rows) n page)
    (goesOn : ℕ → Bool) (hfull : goesOn n = true)
    (hnext : ∀ page, P.next page = if goesOn page.length then page.getLast?.map cur else none) :
    Pages P key rows n cur where
  pos := hpos
  first := hfirst
  after := hafter
  next page c hc := by
    rw [hnext] at hc
    split_ifs at hc
    obtain ⟨a, ha, rfl⟩ := Option.map_eq_some_iff.1 hc
    exact ⟨a, ha, rfl⟩
  full page hlen := by
    rw [hnext, hlen, if_pos hfull]
    intro hnone
    rw [Option.map_eq_none_iff, getLast?_eq_none_iff] at hnone
    rw [hnone] at hlen
    exact absurd hlen (Nat.ne_of_lt hpos)

theorem Left.mem {c : Option C} {left : List α} (h : Left key rows cur c left) {b : α} (hb : b ∈ left) : b ∈ rows := by
  rcases h with ⟨-, rfl⟩ | ⟨a, -, -, rfl⟩
  · exact hb
  · exact mem_of_mem_filter hb

theorem Left.fetch (hP : Pages P key rows n cur) {c : Option C} {left : List α} (h : Left key rows cur c left)
    (page : List α) : P.fetch c page ↔ Page key left n page := by
  rcases h with ⟨rfl, rfl⟩ | ⟨a, ha, rfl, rfl⟩
  · exact hP.first page
  · exact hP.after a ha page

theorem Left.step {c : Option C} {left : List α} (h : Left key rows cur c left) {x : α} (hx : x ∈ left) :
    Left key rows cur (some (cur x)) (after key x left) := by
  refine Or.inr ⟨x, h.mem hx, rfl, ?_⟩
  rcases h with ⟨-, rfl⟩ | ⟨a, -, -, rfl⟩
  · rfl
  · have hax : key a < key x := by simpa [after] using (mem_filter.1 hx).2
    rw [after, after, filter_filter]
    apply filter_congr
    intro b _
    by_cases hb : key x < key b
    · simp [hax.trans hb]
    · simp [hb]

/-- what one page does: `rest` are the rows behind it, in an order the query may give -/
structure Turn (P : Pager α C) (key : α → κ) (rows : List α) (n : ℕ) (cur : α → C) (left page rest : List α) : Prop where
  perm : (page ++ rest).Perm left
  sorted : SortedBy key (page ++ rest)
  short : page.length ≤ n
  full : rest ≠ [] → page.length = n
  last : P.next page = none → rest = []
  next : ∀ c', P.next page = some c' → ∃ x left', page.getLast? = some x ∧ Left key rows cur (some c') left' ∧
    left'.Perm (Keyset.after key x rest)

theorem fetch_turn (hP : Pages P key rows n cur) {c : Option C} {left page : List α} (h : Left key rows cur c left)
    (hfetch : P.fetch c page) : ∃ rest, Turn P key rows n cur left page rest := by
  obtain ⟨sorted, hperm, hsorted, rfl⟩ := (h.fetch hP page).1 hfetch
  have hfull : sorted.drop n ≠ [] → (sorted.take n).length = n := by
    intro hne
    have : n < sorted.length := by
      by_contra hle
      exact hne (drop_of_length_le (by omega))
    rw [length_take]
    omega
  refine ⟨sorted.drop n, ⟨?_, ?_, length_take_le n sorted, hfull, ?_, ?_⟩⟩
  · rwa [take_append_drop]
  · rwa [take_append_drop]
  · intro hnone
    by_contra hne
    exact hP.full _ (hfull hne) hnone
  · intro c' hc'
    obtain ⟨x, hx, rfl⟩ := hP.next _ _ hc'
    have hmem : x ∈ left := hperm.mem_iff.1 (mem_of_mem_take (mem_of_getLast? hx))
    refine ⟨x, after key x left, hx, h.step hmem, ?_⟩
    -- no row of the page comes after its last row
    have hpage : after key x (sorted.take n) = [] := by
      apply filter_eq_nil_iff.2
      intro b hb
      have hle : key b ≤ key x := by
        obtain ⟨front, hfront⟩ := getLast?_eq_some_iff.1 hx
        have hpairs : SortedBy key (front ++ [x]) := hfront ▸ hsorted.sublist (take_sublist n sorted)
        rw [hfront, mem_append, mem_singleton] at hb
        rcases hb with hb | rfl
        · exact (pairwise_append.1 hpairs).2.2 b hb x (mem_singleton_self x)
        · exact le_rfl
      simpa using hle
    calc (after key x left).Perm (after key x sorted) := (hperm.filter _).symm
      _ = after key x (sorted.take n ++ sorted.drop n) := by rw [take_append_drop]
      _ = after key x (sorted.take n) ++ after key x (sorted.drop n) := filter_append _ _
      _ = after key x (sorted.drop n) := by rw [hpage, nil_append]

/-! ## Walks -/

theorem walk_subperm (hP : Pages P key rows n cur) {c e : Option C} {pages : List (List α)} (hwalk : Walk P c pages e)
    {left : List α} (h : Left key rows cur c left) : pages.flatten.Subperm left := by
  induction hwalk generalizing left with
  | page hfetch =>
    obtain ⟨rest, ht⟩ := fetch_turn hP h hfetch
    rw [flatten_singleton]
    exact ((sublist_append_left _ rest).subperm).trans ht.perm.subperm
  | more hfetch hnext _ ih =>
    obtain ⟨rest, ht⟩ := fetch_turn hP h hfetch
    obtain ⟨x, left', -, hleft, hperm⟩ := ht.next _ hnext
    have hrest : left'.Subperm rest := hperm.subperm.trans filter_sublist.subperm
    exact ((subperm_append_left _).2 ((ih hleft).trans hrest)).trans ht.perm.subperm

theorem walk_length (hP : Pages P key rows n cur) {c e : Option C} {pages : List (List α)} (hwalk : Walk P c pages e)
    {left : List α} (h : Left key rows cur c left) : pages.length ≤ left.length + 1 := by
  induction hwalk generalizing left with
  | page => exact Nat.succ_le_succ (Nat.zero_le _)
  | more hfetch hnext _ ih =>
    obtain ⟨rest, ht⟩ := fetch_turn hP h hfetch
    obtain ⟨x, left', hx, hleft, hperm⟩ := ht.next _ hnext
    have hrest : left'.length ≤ rest.length := hperm.length_eq ▸ length_filter_le _ rest
    have hpage := length_pos_of_mem (mem_of_getLast? hx)
    have hsum := ht.perm.length_eq
    rw [length_append] at hsum
    have := ih hleft
    rw [length_cons]
    omega

/-- the rows come in key order, whatever the order of the query among equal keys was on each page -/
theorem walk_sorted (hP : Pages P key rows n cur) {c e : Option C} {pages : List (List α)} (hwalk : Walk P c pages e)
    {left : List α} (h : Left key rows cur c left) : SortedBy key pages.flatten := by
  induction hwalk generalizing left with
  | page hfetch =>
    obtain ⟨rest, ht⟩ := fetch_turn hP h hfetch
    rw [flatten_singleton]
    exact ht.sorted.sublist (sublist_append_left _ rest)
  | more hfetch hnext hwalk ih =>
    obtain ⟨rest, ht⟩ := fetch_turn hP h hfetch
    obtain ⟨x, left', hx, hleft, hperm⟩ := ht.next _ hnext
    obtain ⟨hpage, -, hcross⟩ := pairwise_append.1 ht.sorted
    refine pairwise_append.2 ⟨hpage, ih hleft, ?_⟩
    intro a ha b hb
    have hmem : b ∈ left' := (walk_subperm hP hwalk hleft).subset hb
    exact hcross a ha b (mem_of_mem_filter (hperm.mem_iff.1 hmem))

theorem walk_exists (hP : Pages P key rows n cur) {c : Option C} {left : List α} (h : Left key rows cur c left) :
    ∃ pages, Walk P c pages none := by
  induction hm : left.length using Nat.strong_induction_on generalizing c left with
  | _ m ih =>
    obtain ⟨page, hpage⟩ := page_exists key left n
    have hfetch := (h.fetch hP page).2 hpage
    obtain ⟨rest, ht⟩ := fetch_turn hP h hfetch
    cases hnext : P.next page with
    | none => exact ⟨[page], hnext ▸ Walk.page hfetch⟩
    | some c' =>
      obtain ⟨x, left', hx, hleft, hperm⟩ := ht.next _ hnext
      have hrest : left'.length ≤ rest.length := hperm.length_eq ▸ length_filter_le _ rest
      have hone := length_pos_of_mem (mem_of_getLast? hx)
      have hsum := ht.perm.length_eq
      rw [length_append] at hsum
      obtain ⟨pages, hwalk⟩ := ih left'.length (by omega) hleft rfl
      exact ⟨page :: pages, Walk.more hfetch hnext hwalk⟩

/-- the rows behind a page all come after it unless the first of them has the key of the page's last row -/
theorem after_rest {x y : α} {page rest : List α} (hsorted : SortedBy key (page ++ rest)) (hx : page.getLast? = some x)
    (hy : rest.head? = some y) :
    (key x ≠ key y → after key x rest = rest) ∧ (key x = key y → (after key x rest).length < rest.length) := by
  obtain ⟨-, hrest, hcross⟩ := pairwise_append.1 hsorted
  have hle : key x ≤ key y := hcross x (mem_of_getLast? hx) y (mem_of_head? hy)
  constructor
  · intro hne
    apply filter_eq_self.2
    intro b hb
    have hyb : key y ≤ key b := by
      cases rest with
      | nil => simp at hy
      | cons z zs =>
        obtain rfl : z = y := by simpa using hy
        rcases mem_cons.1 hb with rfl | hb
        · exact le_rfl
        · exact (pairwise_cons.1 hrest).1 b hb
    simpa using lt_of_lt_of_le (lt_of_le_of_ne hle hne) hyb
  · intro heq
    apply length_filter_lt_length_iff_exists.2
    refine ⟨y, mem_of_head? hy, ?_⟩
    simp [heq]

/-- **A walk reads every row exactly when no page boundary stands between equal keys.** -/
theorem walk_perm_iff (hP : Pages P key rows n cur) {c e : Option C} {pages : List (List α)} (hwalk : Walk P c pages e)
    {left : List α} (h : Left key rows cur c left) (he : e = none) :
    pages.flatten.Perm left ↔ Unbroken n (sortedKeys key left) := by
  induction hwalk generalizing left with
  | page hfetch =>
    obtain ⟨rest, ht⟩ := fetch_turn hP h hfetch
    obtain rfl := ht.last he
    have hperm := ht.perm
    rw [append_nil] at hperm
    rw [flatten_singleton]
    refine iff_of_true hperm (unbroken_short ?_)
    rw [sortedKeys, length_insertionSort, length_map, ← hperm.length_eq]
    exact ht.short
  | more hfetch hnext hwalk ih =>
    obtain ⟨rest, ht⟩ := fetch_turn hP h hfetch
    obtain ⟨x, left', hx, hleft, hperm⟩ := ht.next _ hnext
    have hkeys := sortedKeys_perm ht.perm ht.sorted
    have hread := walk_subperm hP hwalk hleft
    have hflat : ∀ {page flat : List α}, (page ++ rest).Perm left → ((page ++ flat).Perm left ↔ flat.Perm rest) :=
      fun hpage => ⟨fun hp => (perm_append_left_iff _).1 (hp.trans hpage.symm),
        fun hp => ((perm_append_left_iff _).2 hp).trans hpage⟩
    rw [flatten_cons, hflat ht.perm, hkeys, map_append]
    cases hy : rest.head? with
    | none =>
      obtain rfl := head?_eq_none_iff.1 hy
      obtain rfl : left' = [] := perm_nil.1 hperm
      refine iff_of_true (perm_nil.2 (subperm_nil.1 hread)) (unbroken_short ?_)
      rw [map_nil, append_nil, length_map]
      exact ht.short
    | some y =>
      have hne : rest ≠ [] := by
        rintro rfl
        simp at hy
      have hboundary := unbroken_pages key hx hy
      rw [ht.full hne] at hboundary
      rw [hboundary]
      obtain ⟨hall, hlost⟩ := after_rest ht.sorted hx hy
      by_cases hxy : key x = key y
      · refine iff_of_false ?_ (fun hboth => hboth.1 hxy)
        intro hp
        have hless := hlost hxy
        have hlen := hread.length_le
        rw [hperm.length_eq, hp.length_eq] at hlen
        omega
      · rw [hall hxy] at hperm
        have hrestKeys := sortedKeys_perm hperm.symm (pairwise_append.1 ht.sorted).2.1
        rw [← hrestKeys, ← ih hleft he]
        exact ⟨fun hp => ⟨hxy, hp.trans hperm.symm⟩, fun hp => hp.2.trans hperm⟩

theorem Left.start : Left key rows cur none rows := Or.inl ⟨rfl, rfl⟩

/-- **Under unique keys a walk is the unbounded query, cut into pages.** -/
theorem walk_eq (hP : Pages P key rows n cur) (hkeys : (rows.map key).Nodup) {pages : List (List α)}
    (hwalk : Walk P none pages none) {sorted : List α} (hperm : sorted.Perm rows) (hsorted : SortedBy key sorted) :
    pages.flatten = sorted := by
  have hall := (walk_perm_iff hP hwalk Left.start rfl).2 (unbroken_of_nodup hkeys)
  refine List.Perm.eq_of_pairwise ?_ (walk_sorted hP hwalk Left.start) hsorted (hall.trans hperm.symm)
  intro a b ha hb hab hba
  exact inj_on_of_nodup_map hkeys (hall.mem_iff.1 ha) (hperm.mem_iff.1 hb) (le_antisymm hab hba)

/-- **Walks from the first page are complete exactly when no page boundary stands between equal keys.** -/
theorem complete_iff (hP : Pages P key rows n cur) : Complete P rows ↔ Unbroken n (sortedKeys key rows) := by
  constructor
  · intro h
    obtain ⟨pages, hwalk⟩ := h.finishes
    exact (walk_perm_iff hP hwalk Left.start rfl).1 (h.visits pages hwalk)
  · intro h
    refine ⟨fun pages e hwalk => walk_length hP hwalk Left.start, walk_exists hP Left.start, fun pages hwalk => ?_⟩
    exact (walk_perm_iff hP hwalk Left.start rfl).2 h

end Order

end Teardrop.Keyset
