/-
The filter that takes UI blocks out of a streamed answer (`_A2UIStreamFilter` of `agent_stream.py`): text comes in chunks of
any size, and what lies between an opening fence and the next three backticks never goes out.

The filter reads items through their characters, so that an output says where in the text each character stood. In the
program the items are the characters themselves.
-/
import Teardrop.Core.Find
import Teardrop.Core.PyStr

namespace Teardrop.Streaming

open Find List Streaming Bool

/-! ## The filter -/

def tick : PyChar := PyChar.ofChar '\x60'

def newline : PyChar := PyChar.ofChar '\n'

def a2uiOpen : PyStr := [tick, tick, tick] ++ PyStr.ofString "a2ui"

def a2uiClose : PyStr := [tick, tick, tick]

def openHold : ℕ := 6
def closeHold : ℕ := 2

/-- `_A2UIStreamFilter` -/
structure Filter (α : Type) where
  buf : List α
  suppressing : Bool

def Filter.initial {α : Type} : Filter α := ⟨[], false⟩

section Model

variable {α : Type} (char : α → PyChar)

/-- the text before a fence without a trailing newline -/
def trimLast (text : List α) : List α :=
  if text.getLast?.map char = some newline then text.dropLast else text

/-- the text after a fence without a leading newline -/
def trimFirst (text : List α) : List α :=
  if text.head?.map char = some newline then text.tail else text

theorem trimFirst_length_le (text : List α) : (trimFirst char text).length ≤ text.length := by
  unfold trimFirst
  split_ifs
  · simp only [length_tail]
    omega
  · exact le_rfl

/-- the `while` of `feed`: what goes out, and what is held back -/
def loop (f : Filter α) : List α × Filter α :=
  if f.suppressing then
    match _hclose : find char a2uiClose f.buf with
    | none => ([], ⟨if closeHold < f.buf.length then f.buf.drop (f.buf.length - closeHold) else f.buf, true⟩)
    | some i => loop ⟨trimFirst char (f.buf.drop (i + a2uiClose.length)), false⟩
  else
    match _hopen : find char a2uiOpen f.buf with
    | none =>
      if openHold < f.buf.length then
        (f.buf.take (f.buf.length - openHold), ⟨f.buf.drop (f.buf.length - openHold), false⟩)
      else ([], f)
    | some i =>
      let rest := loop ⟨f.buf.drop (i + a2uiOpen.length), true⟩
      (trimLast char (f.buf.take i) ++ rest.1, rest.2)
termination_by f.buf.length
decreasing_by
  · have hle := find_le _hclose
    have htrim := trimFirst_length_le char (f.buf.drop (i + a2uiClose.length))
    have hpos : 0 < a2uiClose.length := by decide
    rw [List.length_drop] at htrim
    exact Nat.lt_of_le_of_lt htrim (by omega)
  · have hle := find_le _hopen
    have hpos : 0 < a2uiOpen.length := by decide
    simp only [List.length_drop]
    omega

def feed (f : Filter α) (delta : List α) : List α × Filter α :=
  if delta = [] then ([], f) else loop char ⟨f.buf ++ delta, f.suppressing⟩

def flush (f : Filter α) : List α × Filter α :=
  (if f.suppressing then [] else f.buf, ⟨[], f.suppressing⟩)

/-- `feed` of one chunk after the other -/
def feedAll (f : Filter α) : List (List α) → List (List α) × Filter α
  | [] => ([], f)
  | delta :: chunks =>
    let first := feed char f delta
    let rest := feedAll first.2 chunks
    (first.1 :: rest.1, rest.2)

/-- all that a filter sends out for some more chunks and the flush -/
def outputFrom (f : Filter α) (chunks : List (List α)) : List α :=
  (feedAll char f chunks).1.flatten ++ (flush (feedAll char f chunks).2).1

def output (chunks : List (List α)) : List α := outputFrom char Filter.initial chunks

/-! ## The visible text -/

/-- what follows a region, of the text after its opening fence: from behind the next three backticks -/
def regionRest (text : List α) : Option (List α) :=
  (find char a2uiClose text).map (fun i => text.drop (i + a2uiClose.length))

/-- visible text, with the newlines marked that stand next to a region before or after it -/
def marked (before after : Bool) : List α → List (α × Bool)
  | [] => []
  | [c] => [(c, char c = newline && (before || after))]
  | c :: d :: text => (c, char c = newline && before) :: marked false after (d :: text)

theorem regionRest_length_lt {text rest : List α} (h : regionRest char text = some rest) : rest.length < text.length := by
  obtain ⟨i, hi, rfl⟩ := Option.map_eq_some_iff.mp h
  have hle := find_le hi
  have hpos : 0 < a2uiClose.length := by decide
  rw [length_drop]
  omega

/-- the characters outside the regions, and which of them are newlines next to one: regions start at the opening fences
outside earlier regions -/
def visible (before : Bool) (text : List α) : List (α × Bool) :=
  match _hopen : find char a2uiOpen text with
  | none => marked char before false text
  | some i =>
    marked char before true (text.take i) ++
      match _hrest : regionRest char (text.drop (i + a2uiOpen.length)) with
      | none => []
      | some rest => visible true rest
termination_by text.length
decreasing_by
  have hle := find_le _hopen
  have hlt := regionRest_length_lt char _hrest
  rw [List.length_drop] at hlt
  omega

/-- the visible characters of a text that starts inside a region -/
def hidden (text : List α) : List (α × Bool) :=
  match regionRest char text with
  | none => []
  | some rest => visible char true rest

end Model

/-- a list without some of its marked items -/
inductive Drops {α : Type} : List (α × Bool) → List α → Prop
  | nil : Drops [] []
  | keep (c : α) (b : Bool) {m : List (α × Bool)} {x : List α} (h : Drops m x) : Drops ((c, b) :: m) (c :: x)
  | drop (c : α) {m : List (α × Bool)} {x : List α} (h : Drops m x) : Drops ((c, true) :: m) x

/-- a list without any of its marked items -/
def kept {α : Type} (m : List (α × Bool)) : List α := (m.filter (fun item => !item.2)).map Prod.fst

section Lists

variable {α : Type}

variable {x : List α}

theorem Drops.append {m m' : List (α × Bool)} {x' : List α} (h : Drops m x) (h' : Drops m' x') :
    Drops (m ++ m') (x ++ x') := by
  induction h with
  | nil => exact h'
  | keep c b _ ih => exact .keep c b ih
  | drop c _ ih => exact .drop c ih

variable (m : List (α × Bool))

theorem Drops.all : Drops m (m.map Prod.fst) := by
  induction m with
  | nil => exact .nil
  | cons item m ih => exact .keep item.1 item.2 ih

theorem Drops.kept : Drops m (kept m) := by
  induction m with
  | nil => exact .nil
  | cons item m ih =>
    obtain ⟨c, b⟩ := item
    cases b with
    | false => exact .keep c false ih
    | true => exact .drop c ih

theorem Drops.mark {c : α} {b b' : Bool} {m : List (α × Bool)} (hb : b = true → b' = true) (h : Drops ((c, b) :: m) x) :
    Drops ((c, b') :: m) x := by
  cases h with
  | keep _ _ h => exact .keep c b' h
  | drop _ h =>
    rw [hb rfl]
    exact .drop c h

theorem Drops.mem {m : List (α × Bool)} (h : Drops m x) : ∀ c ∈ x, c ∈ m.map Prod.fst := by
  induction h with
  | nil => exact fun c hc => hc
  | keep c b _ ih =>
    intro d hd
    rcases mem_cons.mp hd with rfl | hd
    · exact mem_cons_self
    · exact mem_cons_of_mem _ (ih d hd)
  | drop c _ ih =>
    intro d hd
    exact mem_cons_of_mem _ (ih d hd)

@[simp] theorem kept_append (m' : List (α × Bool)) : kept (m ++ m') = kept m ++ kept m' := by
  simp [kept]

@[simp] theorem kept_false (c : α) (m : List (α × Bool)) : kept ((c, false) :: m) = c :: kept m := rfl

@[simp] theorem kept_true (c : α) (m : List (α × Bool)) : kept ((c, true) :: m) = kept m := rfl

end Lists

/-! ## Marks -/

section Marks

variable {α : Type} {char : α → PyChar}

variable (before : Bool) {text x : List α} {i : ℕ} {buf : List α} (f : Filter α)

theorem marked_cons (after : Bool) (c : α) (text : List α) : marked char before after (c :: text) =
      (c, char c = newline && (before || (decide (text = []) && after))) :: marked char false after text := by
  cases text with
  | nil | cons _ _ => simp [marked]

theorem marked_fst (after : Bool) (text : List α) : (marked char before after text).map Prod.fst = text := by
  induction text generalizing before with
  | nil => rfl
  | cons c text ih => rw [marked_cons, map_cons, ih]

theorem kept_marked (text : List α) : kept (marked char false false text) = text := by
  induction text with
  | nil => rfl
  | cons c text ih =>
    rw [marked_cons]
    simp [ih]

theorem kept_marked_before (text : List α) : kept (marked char false true text) = trimLast char text := by
  induction text with
  | nil => rfl
  | cons c text ih =>
    rw [marked_cons]
    cases text with
    | nil => by_cases hc : char c = newline <;> simp [hc, trimLast, marked, kept]
    | cons d text =>
      have hlast : trimLast char (c :: d :: text) = c :: trimLast char (d :: text) := by
        simp only [trimLast, getLast?_cons_cons, dropLast_cons_cons]
        split_ifs <;> rfl
      rw [hlast, ← ih]
      simp

variable {m : List (α × Bool)} {first : List α} (chunks : List (List α))

theorem drops_marked {after : Bool} (h : Drops (marked char false after text ++ m) x) :
    Drops (marked char true after text ++ m) x := by
  cases text with
  | nil => exact h
  | cons c text =>
    rw [marked_cons] at h ⊢
    apply Drops.mark _ h
    simp only [Bool.false_or, Bool.and_eq_true, Bool.true_or, Bool.and_true]
    intro hb
    exact hb.1

theorem drops_marked_append {after : Bool} (first : List α) (h : Drops (marked char false after text ++ m) x) :
    Drops (marked char false after (first ++ text) ++ m) (first ++ x) := by
  induction first with
  | nil => exact h
  | cons c first ih =>
    rw [cons_append, marked_cons]
    exact .keep c _ ih

/-! ## Regions -/

theorem hidden_of_none (h : find char a2uiClose text = none) : hidden char text = [] := by
  simp [hidden, regionRest, h]

theorem hidden_of_some (h : find char a2uiClose text = some i) :
    hidden char text = visible char true (text.drop (i + a2uiClose.length)) := by
  simp [hidden, regionRest, h]

theorem visible_of_none {before : Bool} (h : find char a2uiOpen text = none) :
    visible char before text = marked char before false text := by
  rw [visible]
  split
  · rfl
  · rename_i i hi
    rw [h] at hi
    cases hi

theorem visible_of_some {before : Bool} (h : find char a2uiOpen text = some i) :
    visible char before text = marked char before true (text.take i) ++ hidden char (text.drop (i + a2uiOpen.length)) := by
  rw [visible]
  split
  · rename_i hnone
    rw [h] at hnone
    cases hnone
  · rename_i j hj
    rw [h] at hj
    cases hj
    rw [hidden]
    split
    · rename_i hrest
      rw [hrest]
    · rename_i rest hrest
      rw [hrest]

theorem visible_nil : visible char before ([] : List α) = [] := by
  rw [visible_of_none (by rfl)]
  rfl

theorem find_newline {c : α} (hc : char c = newline) (text : List α) :
    find char a2uiOpen (c :: text) = (find char a2uiOpen text).map (· + 1) := by
  have hstarts : ¬ Starts char a2uiOpen (c :: text) := by
    intro hstarts
    have hhead := List.IsPrefix.getElem hstarts (by decide : 0 < a2uiOpen.length)
    simp only [map_cons, getElem_cons_zero, hc] at hhead
    exact absurd hhead (by decide)
  rw [find, if_neg hstarts]

theorem visible_newline {c : α} (hc : char c = newline) (text : List α) :
    visible char true (c :: text) = (c, true) :: visible char false text := by
  cases hopen : find char a2uiOpen text with
  | none =>
    have hnone : find char a2uiOpen (c :: text) = none := by rw [find_newline hc, hopen]; rfl
    rw [visible_of_none hnone, visible_of_none hopen, marked_cons]
    simp [hc]
  | some i =>
    have hsome : find char a2uiOpen (c :: text) = some (i + 1) := by rw [find_newline hc, hopen]; rfl
    rw [visible_of_some hsome, visible_of_some hopen, take_succ_cons, marked_cons, Nat.add_right_comm, drop_succ_cons]
    simp [hc]

theorem drops_visible (h : Drops (visible char false text) x) : Drops (visible char true text) x := by
  cases hopen : find char a2uiOpen text with
  | none =>
    rw [visible_of_none hopen, ← append_nil (marked char _ _ _)] at h ⊢
    exact drops_marked h
  | some i =>
    rw [visible_of_some hopen] at h ⊢
    exact drops_marked h

theorem drops_visible_trimFirst {rest : List α} (h : Drops (visible char false (trimFirst char text ++ rest)) x) :
    Drops (visible char true (text ++ rest)) x := by
  unfold trimFirst at h
  split_ifs at h with hhead
  · cases text with
    | nil => cases hhead
    | cons c text =>
      rw [cons_append, visible_newline (Option.some.inj hhead)]
      exact .drop c h
  · exact drops_visible h

theorem drops_visible_hold {rest : List α} (hnone : find char a2uiOpen (first ++ text) = none)
    (hlen : a2uiOpen.length ≤ text.length + 1) (h : Drops (visible char false (text ++ rest)) x) :
    Drops (visible char false (first ++ text ++ rest)) (first ++ x) := by
  have hfind := find_append_of_none hnone hlen rest
  rw [append_assoc]
  cases hopen : find char a2uiOpen (text ++ rest) with
  | none =>
    rw [hopen] at hfind
    rw [visible_of_none hopen, ← append_nil (marked char _ _ _)] at h
    rw [visible_of_none hfind, ← append_nil (marked char _ _ _)]
    exact drops_marked_append first h
  | some i =>
    rw [hopen] at hfind
    rw [visible_of_some hopen] at h
    have hdrop : (first ++ (text ++ rest)).drop (i + first.length + a2uiOpen.length) =
        (text ++ rest).drop (i + a2uiOpen.length) := by
      rw [Nat.add_right_comm, Nat.add_comm, drop_length_add_append]
    have htake : (first ++ (text ++ rest)).take (i + first.length) = first ++ (text ++ rest).take i := by
      rw [Nat.add_comm, take_length_add_append]
    rw [visible_of_some hfind, hdrop, htake]
    exact drops_marked_append first h

theorem visible_fst (text : List α) : (visible char before text).map Prod.fst = (visible char false text).map Prod.fst := by
  cases hopen : find char a2uiOpen text with
  | none => rw [visible_of_none hopen, visible_of_none hopen, marked_fst, marked_fst]
  | some i =>
    rw [visible_of_some hopen, visible_of_some hopen, map_append, map_append, marked_fst, marked_fst]

theorem shown_hold (hnone : find char a2uiOpen (first ++ text) = none) (hlen : a2uiOpen.length ≤ text.length + 1)
    (rest : List α) :
    (visible char false (first ++ text ++ rest)).map Prod.fst =
      first ++ (visible char false (text ++ rest)).map Prod.fst := by
  have hfind := find_append_of_none hnone hlen rest
  rw [append_assoc]
  cases hopen : find char a2uiOpen (text ++ rest) with
  | none =>
    rw [hopen] at hfind
    rw [visible_of_none hfind, visible_of_none hopen, marked_fst, marked_fst]
  | some i =>
    rw [hopen] at hfind
    have htake : (first ++ (text ++ rest)).take (i + first.length) = first ++ (text ++ rest).take i := by
      rw [Nat.add_comm, take_length_add_append]
    rw [visible_of_some hfind, visible_of_some hopen, map_append, map_append, marked_fst, marked_fst,
      Nat.add_right_comm, Nat.add_comm (i + _), drop_length_add_append, htake, append_assoc]

theorem hidden_hold (hnone : find char a2uiClose (first ++ text) = none) (hlen : a2uiClose.length ≤ text.length + 1)
    (rest : List α) : hidden char (first ++ text ++ rest) = hidden char (text ++ rest) := by
  have hfind := find_append_of_none hnone hlen rest
  rw [append_assoc]
  cases hclose : find char a2uiClose (text ++ rest) with
  | none =>
    rw [hclose] at hfind
    rw [hidden_of_none hfind, hidden_of_none hclose]
  | some i =>
    rw [hclose] at hfind
    rw [hidden_of_some hfind, hidden_of_some hclose, Nat.add_right_comm, Nat.add_comm, drop_length_add_append]

/-! ## One call -/

theorem loop_held (h : find char a2uiClose buf = none) : loop char ⟨buf, true⟩ =
      ([], ⟨if closeHold < buf.length then buf.drop (buf.length - closeHold) else buf, true⟩) := by
  rw [loop, if_pos rfl]
  split
  · rfl
  · rename_i i hi
    rw [h] at hi
    cases hi

theorem loop_close (h : find char a2uiClose buf = some i) :
    loop char ⟨buf, true⟩ = loop char ⟨trimFirst char (buf.drop (i + a2uiClose.length)), false⟩ := by
  rw [loop, if_pos rfl]
  split
  · rename_i hnone
    rw [h] at hnone
    cases hnone
  · rename_i j hj
    rw [h] at hj
    cases hj
    rfl

theorem loop_none (h : find char a2uiOpen buf = none) : loop char ⟨buf, false⟩ =
      if openHold < buf.length then (buf.take (buf.length - openHold), ⟨buf.drop (buf.length - openHold), false⟩)
      else ([], ⟨buf, false⟩) := by
  rw [loop, if_neg Bool.false_ne_true]
  split
  · rfl
  · rename_i i hi
    rw [h] at hi
    cases hi

theorem loop_open (h : find char a2uiOpen buf = some i) : loop char ⟨buf, false⟩ =
      (trimLast char (buf.take i) ++ (loop char ⟨buf.drop (i + a2uiOpen.length), true⟩).1,
        (loop char ⟨buf.drop (i + a2uiOpen.length), true⟩).2) := by
  rw [loop, if_neg Bool.false_ne_true]
  split
  · rename_i hnone
    rw [h] at hnone
    cases hnone
  · rename_i j hj
    rw [h] at hj
    cases hj
    rfl

theorem loop_ind (char : α → PyChar) {P : Filter α → Prop} (held : ∀ buf, find char a2uiClose buf = none → P ⟨buf, true⟩)
    (close : ∀ buf i, find char a2uiClose buf = some i →
      P ⟨trimFirst char (buf.drop (i + a2uiClose.length)), false⟩ → P ⟨buf, true⟩)
    (scan : ∀ buf, find char a2uiOpen buf = none → P ⟨buf, false⟩)
    (fence : ∀ buf i, find char a2uiOpen buf = some i → P ⟨buf.drop (i + a2uiOpen.length), true⟩ → P ⟨buf, false⟩)
    (f : Filter α) : P f := by
  induction f using loop.induct char with
  | case1 f hmode hnone =>
    obtain ⟨buf, suppressing⟩ := f
    cases hmode
    exact held buf hnone
  | case2 f hmode i hfind ih =>
    obtain ⟨buf, suppressing⟩ := f
    cases hmode
    exact close buf i hfind ih
  | case3 f hmode hnone _ | case4 f hmode hnone _ =>
    obtain ⟨buf, suppressing⟩ := f
    rw [not_eq_true] at hmode
    cases hmode
    exact scan buf hnone
  | case5 f hmode i hfind ih =>
    obtain ⟨buf, suppressing⟩ := f
    rw [not_eq_true] at hmode
    cases hmode
    exact fence buf i hfind ih

/-- the visible part of what a filter holds and of the text to come -/
def remaining (char : α → PyChar) (f : Filter α) (rest : List α) : List (α × Bool) :=
  if f.suppressing then hidden char (f.buf ++ rest) else visible char false (f.buf ++ rest)

/-- what the filter may hold back: less than a fence -/
def Settled (f : Filter α) : Prop := f.buf.length ≤ if f.suppressing then closeHold else openHold

theorem loop_settled : Settled (loop char f).2 := by
  induction f using loop_ind char with
  | held buf h =>
    rw [loop_held h]
    simp only [Settled, if_true]
    split_ifs
    · rw [length_drop]
      omega
    · omega
  | close buf i h ih =>
    rw [loop_close h]
    exact ih
  | scan buf h =>
    rw [loop_none h]
    split_ifs
    · simp only [Settled, length_drop, false_eq_true, if_false]
      omega
    · simp only [Settled, false_eq_true, if_false]
      omega
  | fence buf i h ih =>
    rw [loop_open h]
    exact ih

theorem split_hold {n : ℕ} (h : n < buf.length) :
    buf = buf.take (buf.length - n) ++ buf.drop (buf.length - n) ∧ (buf.drop (buf.length - n)).length = n := by
  refine ⟨(take_append_drop _ _).symm, ?_⟩
  rw [length_drop]
  omega

/-- **One call of `feed`.** Whatever may go out for the rest of the text afterwards, may follow what the call sent out. -/
theorem loop_spec (rest : List α) (f : Filter α) :
    ∀ x, Drops (remaining char (loop char f).2 rest) x → Drops (remaining char f rest) ((loop char f).1 ++ x) := by
  induction f using loop_ind char with
  | held buf h =>
    intro x hx
    rw [loop_held h] at hx ⊢
    simp only [remaining, if_true] at hx ⊢
    split_ifs at hx with hlong
    · obtain ⟨hsplit, hlen⟩ := split_hold hlong
      rw [hsplit] at h ⊢
      rw [hidden_hold h (by rw [hlen]; decide)]
      exact hx
    · exact hx
  | close buf i h ih =>
    intro x hx
    rw [loop_close h] at hx ⊢
    have hnext := ih x hx
    simp only [remaining, false_eq_true, if_false, if_true] at hnext ⊢
    rw [hidden_of_some (find_append h rest), drop_append_of_le_length (find_le h)]
    exact drops_visible_trimFirst hnext
  | scan buf h =>
    intro x hx
    rw [loop_none h] at hx ⊢
    by_cases hlong : openHold < buf.length
    · rw [if_pos hlong] at hx ⊢
      obtain ⟨hsplit, hlen⟩ := split_hold hlong
      rw [hsplit] at h
      have hdrops := drops_visible_hold h (by rw [hlen]; decide) hx
      rw [← hsplit] at hdrops
      exact hdrops
    · rw [if_neg hlong] at hx ⊢
      exact hx
  | fence buf i h ih =>
    intro x hx
    rw [loop_open h] at hx ⊢
    have hnext := ih x hx
    simp only [remaining, false_eq_true, if_false, if_true] at hnext ⊢
    have hle := find_le h
    rw [visible_of_some (find_append h rest), drop_append_of_le_length hle,
      take_append_of_le_length (by omega), append_assoc, ← kept_marked_before]
    exact (Drops.kept _).append hnext

/-! ## All chunks -/

theorem find_short {pattern : PyStr} (h : text.length < pattern.length) : find char pattern text = none := by
  cases hfind : find char pattern text with
  | none => rfl
  | some i =>
    have hle := find_le hfind
    omega

theorem flush_spec (char : α → PyChar) {f : Filter α} (h : Settled f) :
    (flush f).1 = kept (remaining char f []) ∧ (flush f).1 = (remaining char f []).map Prod.fst := by
  obtain ⟨buf, suppressing⟩ := f
  cases suppressing with
  | true =>
    have hshort : buf.length ≤ closeHold := h
    have hnone : find char a2uiClose buf = none := find_short (Nat.lt_of_le_of_lt hshort (by decide))
    simp [flush, remaining, hidden_of_none hnone, kept]
  | false =>
    have hshort : buf.length ≤ openHold := h
    have hnone : find char a2uiOpen buf = none := find_short (Nat.lt_of_le_of_lt hshort (by decide))
    simp [flush, remaining, visible_of_none hnone, kept_marked, marked_fst]

theorem feed_nil : feed char f [] = ([], f) := if_pos rfl

theorem feed_of_ne {f : Filter α} {delta : List α} (h : delta ≠ []) :
    feed char f delta = loop char ⟨f.buf ++ delta, f.suppressing⟩ := if_neg h

theorem feed_settled {f : Filter α} (h : Settled f) (delta : List α) : Settled (feed char f delta).2 := by
  by_cases hdelta : delta = []
  · rw [hdelta, feed_nil]
    exact h
  · rw [feed_of_ne hdelta]
    exact loop_settled _

theorem outputFrom_nil : outputFrom char f [] = (flush f).1 := rfl

theorem outputFrom_cons (delta : List α) (chunks : List (List α)) :
    outputFrom char f (delta :: chunks) = (feed char f delta).1 ++ outputFrom char (feed char f delta).2 chunks := by
  simp [outputFrom, feedAll]

theorem initial_settled : Settled (Filter.initial : Filter α) := Nat.zero_le _

theorem drops_outputFrom : ∀ f : Filter α, Settled f →
    Drops (remaining char f chunks.flatten) (outputFrom char f chunks) := by
  induction chunks with
  | nil =>
    intro f hf
    rw [outputFrom_nil, (flush_spec char hf).2]
    exact Drops.all _
  | cons delta chunks ih =>
    intro f hf
    have hrest := ih (feed char f delta).2 (feed_settled hf delta)
    rw [outputFrom_cons, flatten_cons]
    by_cases hdelta : delta = []
    · rw [hdelta, feed_nil] at hrest ⊢
      exact hrest
    · rw [feed_of_ne hdelta] at hrest ⊢
      have hspec := loop_spec chunks.flatten _ _ hrest
      simpa only [remaining, append_assoc] using hspec

theorem drops_output : Drops (visible char false chunks.flatten) (output char chunks) :=
  drops_outputFrom chunks Filter.initial initial_settled

/-- **The filter is exact.** For every text and every way to cut it into chunks, what goes out is the text outside the regions,
in its order, less some of the newlines that stand directly before or after a region. -/
theorem filter_exact (chunks : List PyStr) : Drops (visible id false chunks.flatten) (output id chunks) :=
  drops_output chunks

/-! ## The two extremes -/

theorem feed_singleton {f : Filter α} (hf : Settled f) (c : α) (rest : List α) :
    (remaining char f (c :: rest)).map Prod.fst =
      (feed char f [c]).1 ++ (remaining char (feed char f [c]).2 rest).map Prod.fst := by
  obtain ⟨buf, suppressing⟩ := f
  have hcons : buf ++ c :: rest = buf ++ [c] ++ rest := by simp
  have hlen : (buf ++ [c]).length = buf.length + 1 := by simp
  rw [feed_of_ne (cons_ne_nil c [])]
  cases suppressing with
  | true =>
    have hshort : buf.length ≤ closeHold := hf
    simp only [remaining, if_true, hcons]
    cases hclose : find char a2uiClose (buf ++ [c]) with
    | none =>
      rw [loop_held hclose]
      simp only [if_true, nil_append]
      split_ifs with hlong
      · obtain ⟨hsplit, hheld⟩ := split_hold hlong
        rw [hsplit] at hclose
        rw [← hidden_hold hclose (by rw [hheld]; decide), ← hsplit]
      · rfl
    | some i =>
      have hle := find_le hclose
      have hfence : a2uiClose.length = closeHold + 1 := rfl
      have hend : (buf ++ [c]).drop (i + a2uiClose.length) = [] := drop_eq_nil_of_le (by omega)
      rw [loop_close hclose, hidden_of_some (find_append hclose rest), drop_append_of_le_length hle, hend]
      rw [show trimFirst char ([] : List α) = [] from rfl, loop_none (by rfl)]
      exact visible_fst true rest
  | false =>
    have hshort : buf.length ≤ openHold := hf
    simp only [remaining, false_eq_true, if_false, hcons]
    cases hopen : find char a2uiOpen (buf ++ [c]) with
    | none =>
      rw [loop_none hopen]
      by_cases hlong : openHold < (buf ++ [c]).length
      · obtain ⟨hsplit, hheld⟩ := split_hold hlong
        rw [hsplit] at hopen
        have hshown := shown_hold hopen (by rw [hheld]; decide) rest
        rw [← hsplit] at hshown
        rw [if_pos hlong]
        exact hshown
      · rw [if_neg hlong]
        rfl
    | some i =>
      have hle := find_le hopen
      have hfence : a2uiOpen.length = openHold + 1 := rfl
      have hzero : i = 0 := by omega
      have hend : (buf ++ [c]).drop (i + a2uiOpen.length) = [] := drop_eq_nil_of_le (by omega)
      rw [loop_open hopen, visible_of_some (find_append hopen rest), drop_append_of_le_length hle, hend, hzero,
        loop_held (by rfl)]
      rfl

theorem outputFrom_singletons (text : List α) : ∀ f : Filter α, Settled f →
    outputFrom char f (text.map (fun c => [c])) = (remaining char f text).map Prod.fst := by
  induction text with
  | nil =>
    intro f hf
    exact (flush_spec char hf).2
  | cons c text ih =>
    intro f hf
    rw [map_cons, outputFrom_cons, ih _ (feed_settled hf [c]), ← feed_singleton hf]

/-- **Character by character**, all of the visible text goes out. -/
theorem output_singletons (text : List α) : output char (text.map (fun c => [c])) = (visible char false text).map Prod.fst :=
  outputFrom_singletons text Filter.initial initial_settled

theorem kept_visible_trimFirst (text : List α) :
    kept (visible char false (trimFirst char text)) = kept (visible char true text) := by
  unfold trimFirst
  split_ifs with hhead
  · cases text with
    | nil => cases hhead
    | cons c text => rw [visible_newline (Option.some.inj hhead), kept_true, tail_cons]
  · have hmarked : ∀ after t, t <+: text → marked char true after t = marked char false after t := by
      intro after t ht
      cases t with
      | nil => rfl
      | cons c t =>
        obtain ⟨rest, rfl⟩ := ht
        have hc : char c ≠ newline := by
          intro hc
          exact hhead (congrArg some hc)
        rw [marked_cons, marked_cons]
        simp [hc]
    cases hopen : find char a2uiOpen text with
    | none => rw [visible_of_none hopen, visible_of_none hopen, hmarked _ _ (prefix_refl _)]
    | some i => rw [visible_of_some hopen, visible_of_some hopen, hmarked _ _ (List.take_prefix _ _)]

theorem loop_whole : (loop char f).1 ++ (flush (loop char f).2).1 = kept (remaining char f []) := by
  induction f using loop_ind char with
  | held buf h =>
    rw [loop_held h]
    simp [flush, remaining, hidden_of_none h, kept]
  | close buf i h ih =>
    rw [loop_close h, ih]
    simp only [remaining, false_eq_true, if_false, if_true, append_nil]
    rw [kept_visible_trimFirst, hidden_of_some h]
  | scan buf h =>
    rw [loop_none h]
    simp only [remaining, false_eq_true, if_false, append_nil, visible_of_none h, kept_marked]
    split_ifs <;> simp [flush]
  | fence buf i h ih =>
    rw [loop_open h, append_assoc, ih]
    simp only [remaining, false_eq_true, if_false, if_true, append_nil]
    rw [visible_of_some h, kept_append, kept_marked_before]

/-- **At once**, no newline next to a region goes out. -/
theorem output_whole (text : List α) : output char [text] = kept (visible char false text) := by
  rw [output, outputFrom_cons, outputFrom_nil]
  by_cases htext : text = []
  · rw [htext, feed_nil, visible_nil]
    rfl
  · rw [feed_of_ne htext, loop_whole]
    simp [remaining, Filter.initial]

/-! ## What is shown -/

/-- the characters outside the regions -/
def shown (char : α → PyChar) (text : List α) : List α := (visible char false text).map Prod.fst

/-- the characters outside the regions, of a text that starts inside one -/
def shownHidden (char : α → PyChar) (text : List α) : List α := (hidden char text).map Prod.fst

theorem shown_of_none (h : find char a2uiOpen text = none) : shown char text = text := by
  rw [shown, visible_of_none h, marked_fst]

theorem shown_of_some (h : find char a2uiOpen text = some i) :
    shown char text = text.take i ++ shownHidden char (text.drop (i + a2uiOpen.length)) := by
  rw [shown, visible_of_some h, map_append, marked_fst, shownHidden]

theorem shownHidden_of_none (h : find char a2uiClose text = none) : shownHidden char text = [] := by
  rw [shownHidden, hidden_of_none h, map_nil]

theorem shownHidden_of_some (h : find char a2uiClose text = some i) :
    shownHidden char text = shown char (text.drop (i + a2uiClose.length)) := by
  rw [shownHidden, hidden_of_some h, visible_fst, shown]

theorem mem_shown (text : List α) : (∀ c ∈ shown char text, c ∈ text) ∧ ∀ c ∈ shownHidden char text, c ∈ text := by
  induction hlen : text.length using Nat.strong_induction_on generalizing text with
  | _ n ih =>
    have hhidden : ∀ c ∈ shownHidden char text, c ∈ text := by
      intro c hc
      cases hclose : find char a2uiClose text with
      | none =>
        rw [shownHidden_of_none hclose] at hc
        exact absurd hc not_mem_nil
      | some i =>
        have hle := find_le hclose
        have hfence : a2uiClose.length = 3 := rfl
        rw [shownHidden_of_some hclose] at hc
        exact mem_of_mem_drop ((ih _ (by rw [← hlen, length_drop]; omega) _ rfl).1 c hc)
    refine ⟨?_, hhidden⟩
    intro c hc
    cases hopen : find char a2uiOpen text with
    | none =>
      rw [shown_of_none hopen] at hc
      exact hc
    | some i =>
      have hle := find_le hopen
      have hfence : a2uiOpen.length = 7 := rfl
      rw [shown_of_some hopen, mem_append] at hc
      rcases hc with hc | hc
      · exact mem_of_mem_take hc
      · exact mem_of_mem_drop ((ih _ (by rw [← hlen, length_drop]; omega) _ rfl).2 c hc)

/-! ## Characters -/

theorem find_map (pattern : PyStr) (text : List α) : find id pattern (text.map char) = find char pattern text := by
  induction text with
  | nil => rfl
  | cons c text ih =>
    have hstarts : Starts id pattern (char c :: text.map char) ↔ Starts char pattern (c :: text) := by
      simp [Starts]
    rw [map_cons, find, find, ih]
    simp [hstarts]

end Marks

end Teardrop.Streaming
