/-
UI blocks in an answer: the block that `_extract_a2ui_from_text` (`agent/node_ui.py`) takes its components from, against the
regions that the stream filter hides. The first is found by a regular expression that ends a block at a closing brace before
three backticks, the second by the next three backticks of all.
-/
import Teardrop.Core.PyJson
import Teardrop.Streaming.Filter

namespace Teardrop.Streaming

open Find List Nat

/-! ## The regular expression -/

/-- a match: what stands between the fences -/
structure Block where
  gap : PyStr
  json : PyStr
  space : PyStr
deriving DecidableEq

def Block.core (b : Block) : PyStr := b.gap ++ b.json ++ b.space

def Block.text (b : Block) : PyStr := a2uiOpen ++ b.core ++ a2uiClose

/-- `.*?\}`, then `\s*` and the closing fence: the shortest text that ends so, and what follows -/
def matchClose : PyStr → Option (PyStr × PyStr × PyStr)
  | [] => none
  | c :: s =>
    if c = PyChar.ofChar '\x7d' ∧ Starts id a2uiClose (s.dropWhile PyChar.isSpace) then
      some ([c], s.takeWhile PyChar.isSpace, (s.dropWhile PyChar.isSpace).drop a2uiClose.length)
    else (matchClose s).map (fun m => (c :: m.1, m.2))

/-- a match at the start of a text, and the text after it -/
def matchBlock (s : PyStr) : Option (Block × PyStr) :=
  if Starts id a2uiOpen s then
    match (s.drop a2uiOpen.length).dropWhile PyChar.isSpace with
    | [] => none
    | c :: u =>
      if c = PyChar.ofChar '\x7b' then
        (matchClose u).map (fun m => (⟨(s.drop a2uiOpen.length).takeWhile PyChar.isSpace, c :: m.1, m.2.1⟩, m.2.2))
      else none
  else none

/-- `re.search`: the first match, between the text before and after it -/
def search : PyStr → Option (PyStr × Block × PyStr)
  | [] => none
  | c :: s =>
    match matchBlock (c :: s) with
    | some m => some ([], m)
    | none => (search s).map (fun m => (c :: m.1, m.2))

/-! ## The components -/

inductive A2UIComponent where
  | mk (type : PyStr) (props : List (PyStr × PyJson)) (children : List A2UIComponent)

/-- the field `type`, a text that can be encoded -/
def typeField (fields : List (PyStr × PyJson)) : Option PyStr :=
  match PyJson.lookup (PyStr.ofString "type") fields with
  | some (.str type) => if type.any PyChar.isSurrogate then none else some type
  | _ => none

/-- the field `props` -/
def propsField (fields : List (PyStr × PyJson)) : Option (List (PyStr × PyJson)) :=
  match PyJson.lookup (PyStr.ofString "props") fields with
  | none => some []
  | some (.obj props) => some props
  | some _ => none

mutual
/-- `A2UIComponent(**c)`; `none` is its validation error -/
def component : PyJson → Option A2UIComponent
  | .obj fields => do
    let type ← typeField fields
    let props ← propsField fields
    let children ← childrenField fields
    some (.mk type props children)
  | _ => none

def components : List PyJson → Option (List A2UIComponent)
  | [] => some []
  | v :: vs => do
    let c ← component v
    let cs ← components vs
    some (c :: cs)

/-- the field `children` -/
def childrenField : List (PyStr × PyJson) → Option (List A2UIComponent)
  | [] => some []
  | (k, v) :: fields =>
    if k = PyStr.ofString "children" then
      match v with
      | .arr items => components items
      | _ => none
    else childrenField fields
end

/-- `_parse_a2ui_json`, under the interpreter's recursion limit -/
def parseA2uiJson (limit : ℕ) (raw : PyStr) : List A2UIComponent :=
  match PyJson.loads limit (PyStr.strip raw) with
  | .ok (.obj fields) =>
    match PyJson.lookup (PyStr.ofString "components") fields with
    | some (.arr items) => (components items).getD []
    | _ => []
  | _ => []

def extractA2uiFromText (limit : ℕ) (text : PyStr) : List A2UIComponent :=
  match search text with
  | none => []
  | some m => parseA2uiJson limit m.2.1.json

theorem takeWhile_dropWhile (p : PyChar → Bool) (s : PyStr) : s.takeWhile p ++ s.dropWhile p = s :=
  takeWhile_append_dropWhile

variable {s : PyStr} {b : Block}

theorem starts_close (h : Starts id a2uiClose s) : s = a2uiClose ++ s.drop a2uiClose.length := by
  obtain ⟨rest, hrest⟩ := h
  rw [map_id] at hrest
  rw [← hrest, drop_append_length]

variable {post text : PyStr}

theorem matchClose_some {json space : PyStr} (h : matchClose s = some (json, space, post)) :
    s = json ++ space ++ a2uiClose ++ post ∧ json.getLast? = some (PyChar.ofChar '\x7d') ∧ space.all PyChar.isSpace := by
  induction s generalizing json with
  | nil => cases h
  | cons c s ih =>
    rw [matchClose] at h
    split_ifs at h with hend
    · cases h
      have htext : c :: s = [c] ++ s.takeWhile PyChar.isSpace ++ s.dropWhile PyChar.isSpace := by
        rw [append_assoc, takeWhile_dropWhile]
        rfl
      refine ⟨?_, by rw [hend.1]; rfl, all_takeWhile⟩
      rw [append_assoc _ a2uiClose, ← starts_close hend.2]
      exact htext
    · obtain ⟨m, hm, heq⟩ := Option.map_eq_some_iff.mp h
      obtain ⟨json', space', post'⟩ := m
      cases heq
      obtain ⟨htext, hlast, hspace⟩ := ih hm
      refine ⟨by rw [htext]; rfl, ?_, hspace⟩
      cases json' with
      | nil => cases hlast
      | cons d json' => exact hlast

/-- what a block is: fences around a text whose last character is a brace or a space -/
structure Matched (b : Block) : Prop where
  json : b.json.getLast? = some (PyChar.ofChar '\x7d')
  space : b.space.all PyChar.isSpace = true

theorem matchBlock_some (h : matchBlock s = some (b, post)) : s = b.text ++ post ∧ Matched b := by
  unfold matchBlock at h
  split_ifs at h with hopen
  obtain ⟨t, ht⟩ := hopen
  rw [map_id] at ht
  rw [← ht, drop_append_length] at h
  split at h
  · cases h
  · rename_i c u hu
    split_ifs at h
    obtain ⟨m, hm, heq⟩ := Option.map_eq_some_iff.mp h
    obtain ⟨json, space, post'⟩ := m
    cases heq
    obtain ⟨htext, hlast, hspace⟩ := matchClose_some hm
    have hgap : t = t.takeWhile PyChar.isSpace ++ c :: u := by
      rw [← hu, takeWhile_dropWhile]
    constructor
    · rw [← ht, Block.text, Block.core]
      simp only [append_assoc, cons_append] at htext ⊢
      rw [← htext, ← hgap]
    · refine ⟨?_, hspace⟩
      cases json with
      | nil => cases hlast
      | cons d json => exact hlast

/-- **The match.** The regular expression finds a block inside the text. -/
theorem search_some {pre : PyStr} (h : search text = some (pre, b, post)) : text = pre ++ (b.text ++ post) ∧ Matched b := by
  induction text generalizing pre with
  | nil => cases h
  | cons c s ih =>
    rw [search] at h
    split at h
    · rename_i m hm
      cases h
      exact matchBlock_some hm
    · obtain ⟨⟨pre', b', post'⟩, hm, heq⟩ := Option.map_eq_some_iff.mp h
      cases heq
      obtain ⟨htext, hmatched⟩ := ih hm
      exact ⟨congrArg (c :: ·) htext, hmatched⟩

theorem Matched.last (h : Matched b) : ∀ c, b.core.getLast? = some c → c ≠ tick := by
  intro c hc
  rw [Block.core, getLast?_append] at hc
  cases hlast : b.space.getLast? with
  | none =>
    rw [hlast, Option.none_or, getLast?_append, h.json] at hc
    rw [← Option.some.inj hc]
    decide
  | some d =>
    rw [hlast] at hc
    rw [← Option.some.inj hc]
    have hspace := all_eq_true.mp h.space d (mem_of_getLast? hlast)
    intro htick
    rw [htick] at hspace
    exact absurd hspace (by decide)

/-! ## Scanning piece by piece -/

section Pieces

variable {α : Type} {char : α → PyChar}

theorem head_shown {c : α} {text : List α} (h : ¬ Starts char a2uiOpen (c :: text)) : c ∈ shown char (c :: text) := by
  cases hopen : find char a2uiOpen (c :: text) with
  | none =>
    rw [shown_of_none hopen]
    exact mem_cons_self
  | some i =>
    cases i with
    | zero => exact absurd (find_eq_some_iff.1 hopen).2.1 h
    | succ i =>
      rw [shown_of_some hopen, take_succ_cons]
      exact mem_append_left _ mem_cons_self

variable {first : List α}

theorem not_starts_overlap {text : List α} (hpos : 0 < first.length) (hlt : first.length < a2uiOpen.length)
    (htext : Starts char a2uiOpen text) : ¬ Starts char a2uiOpen (first ++ text) := by
  intro hstarts
  have hsuffix : a2uiOpen.drop first.length <+: a2uiOpen := by
    apply prefix_of_prefix_length_le (starts_suffix hstarts hlt.le) htext
    rw [length_drop]
    omega
  have hfence : a2uiOpen.length = 7 := rfl
  generalize first.length = n at hpos hlt hsuffix
  rw [hfence] at hlt
  revert hsuffix
  interval_cases n <;> decide

theorem find_open_append {text : List α} (hnone : find char a2uiOpen first = none) (htext : Starts char a2uiOpen text) :
    find char a2uiOpen (first ++ text) = some first.length := by
  have hzero : find char a2uiOpen text = some 0 :=
    find_eq_some_iff.2 ⟨zero_le _, htext, fun j hj => absurd hj (not_lt_zero j)⟩
  rw [find_append_left, hzero, Option.map_some, zero_add]
  intro i hi hstarts
  by_cases hlong : i + a2uiOpen.length ≤ first.length
  · exact find_eq_none_iff.1 hnone i hi.le (hstarts.of_append (by rw [length_drop]; omega))
  · exact not_starts_overlap (by rw [length_drop]; omega) (by rw [length_drop]; omega) htext hstarts

/-- the text ends outside the regions -/
def outside (char : α → PyChar) (text : List α) : Bool :=
  match _hopen : find char a2uiOpen text with
  | none => true
  | some i =>
    match _hrest : regionRest char (text.drop (i + a2uiOpen.length)) with
    | none => false
    | some rest => outside char rest
termination_by text.length
decreasing_by
  have hle := find_le _hopen
  have hlt := regionRest_length_lt char _hrest
  rw [List.length_drop] at hlt
  omega

theorem outside_of_none {text : List α} (h : find char a2uiOpen text = none) : outside char text := by
  rw [outside]
  split
  · rfl
  · rename_i i hi
    rw [h] at hi
    cases hi

variable {i : ℕ}

theorem outside_of_open {text : List α} (h : find char a2uiOpen text = some i)
    (hclose : find char a2uiClose (text.drop (i + a2uiOpen.length)) = none) : outside char text = false := by
  rw [outside]
  split
  · rename_i hnone
    rw [h] at hnone
    cases hnone
  · rename_i j hj
    rw [h] at hj
    cases hj
    split
    · rfl
    · rename_i rest hrest
      simp [regionRest, hclose] at hrest

theorem outside_of_closed {text : List α} {j : ℕ} (h : find char a2uiOpen text = some i)
    (hclose : find char a2uiClose (text.drop (i + a2uiOpen.length)) = some j) :
    outside char text = outside char ((text.drop (i + a2uiOpen.length)).drop (j + a2uiClose.length)) := by
  rw [outside]
  split
  · rename_i hnone
    rw [h] at hnone
    cases hnone
  · rename_i k hk
    rw [h] at hk
    cases hk
    split
    · rename_i hrest
      simp [regionRest, hclose] at hrest
    · rename_i rest hrest
      rw [regionRest, hclose] at hrest
      cases hrest
      rfl

/-- **Up to a fence.** Of a text that ends outside the regions the scan goes on inside one behind the fence. -/
theorem shown_outside {text : List α} (hfirst : outside char first) (htext : Starts char a2uiOpen text) :
    shown char (first ++ text) = shown char first ++ shownHidden char (text.drop a2uiOpen.length) := by
  induction hlen : first.length using Nat.strong_induction_on generalizing first with
  | _ n ih =>
    cases hopen : find char a2uiOpen first with
    | none =>
      rw [shown_of_some (find_open_append hopen htext), shown_of_none hopen, take_left, drop_length_add_append]
    | some i =>
      have hle := find_le hopen
      have hfence : a2uiOpen.length = 7 := rfl
      rw [shown_of_some (find_append hopen text), shown_of_some hopen, take_append_of_le_length (by omega),
        drop_append_of_le_length hle, append_assoc]
      cases hclose : find char a2uiClose (first.drop (i + a2uiOpen.length)) with
      | none =>
        rw [outside_of_open hopen hclose] at hfirst
        cases hfirst
      | some j =>
        have hle' := find_le hclose
        rw [outside_of_closed hopen hclose] at hfirst
        rw [shownHidden_of_some (find_append hclose text), shownHidden_of_some hclose, drop_append_of_le_length hle',
          ih _ (by simp only [length_drop] at hle' ⊢; omega) hfirst rfl]

/-- **Inside a region, a fence leaks.** Where a text ends inside a region, the region ends in the fence behind it. -/
theorem leak_inside {text : List α} (hfirst : outside char first = false) (htext : Starts char a2uiOpen text) :
    ∃ c ∈ shown char (first ++ text), c ∈ text.take a2uiOpen.length := by
  have hfence : a2uiOpen.length = 7 := rfl
  induction hlen : first.length using Nat.strong_induction_on generalizing first with
  | _ n ih =>
    cases hopen : find char a2uiOpen first with
    | none =>
      rw [outside_of_none hopen] at hfirst
      cases hfirst
    | some i =>
      have hle := find_le hopen
      rw [shown_of_some (find_append hopen text), drop_append_of_le_length hle]
      cases hclose : find char a2uiClose (first.drop (i + a2uiOpen.length)) with
      | none =>
        generalize first.drop (i + a2uiOpen.length) = inner at hclose
        have hticks : Starts char a2uiClose text := List.IsPrefix.trans (by decide) htext
        have hclosed : find char a2uiClose (inner ++ text) ≠ none := by
          intro hnone
          have habsent := find_eq_none_iff.1 hnone inner.length (by rw [length_append]; omega)
          rw [drop_append_length] at habsent
          exact habsent hticks
        obtain ⟨j, hj⟩ := Option.ne_none_iff_exists'.mp hclosed
        have hspec := find_eq_some_iff.1 hj
        have hlate : inner.length < j + a2uiClose.length := by
          by_contra hearly
          have hstarts := hspec.2.1
          rw [drop_append_of_le_length (by omega)] at hstarts
          exact find_eq_none_iff.1 hclose j (by omega) (hstarts.of_append (by rw [length_drop]; omega))
        have hearly : j ≤ inner.length := by
          by_contra hlater
          have habsent := hspec.2.2 inner.length (by omega)
          rw [drop_append_length] at habsent
          exact habsent hticks
        obtain ⟨d, hd⟩ := Nat.exists_eq_add_of_lt hlate
        have hlength := htext.length_le
        rw [shownHidden_of_some hj, hd, add_assoc, drop_length_add_append]
        have hclosing : a2uiClose.length = 3 := rfl
        -- behind the region's end the rest of the fence is text
        obtain ⟨c, rest, hrest⟩ : ∃ c rest, text.drop (d + 1) = c :: rest := by
          apply exists_cons_of_length_pos
          rw [length_drop]
          omega
        have hnot : ¬ Starts char a2uiOpen (text.drop (d + 1)) := by
          intro hstarts
          have hsplit := take_append_drop (d + 1) text
          have hwhole : Starts char a2uiOpen (text.take (d + 1) ++ text.drop (d + 1)) := by
            rw [hsplit]
            exact htext
          apply not_starts_overlap _ _ hstarts hwhole
          · rw [length_take]
            omega
          · rw [length_take]
            omega
        rw [hrest] at hnot ⊢
        refine ⟨c, mem_append_right _ (head_shown hnot), ?_⟩
        have hget : text[d + 1]? = some c := by
          rw [← head?_drop, hrest]
          rfl
        apply mem_of_getElem? (i := d + 1)
        rw [getElem?_take_of_lt (by omega), hget]
      | some j =>
        have hle' := find_le hclose
        rw [outside_of_closed hopen hclose] at hfirst
        rw [shownHidden_of_some (find_append hclose text), drop_append_of_le_length hle']
        obtain ⟨c, hc, hmem⟩ := ih _ (by simp only [length_drop] at hle' ⊢; omega) hfirst rfl
        exact ⟨c, mem_append_right _ hc, hmem⟩

/-! ## A block -/

/-- every three backticks that close a region inside the text are directly followed by an opening fence -/
def covered (char : α → PyChar) (text : List α) : Bool :=
  match _hclose : find char a2uiClose text with
  | none => true
  | some i =>
    Starts char a2uiOpen (text.drop (i + a2uiClose.length)) &&
      covered char (text.drop (i + a2uiClose.length + a2uiOpen.length))
termination_by text.length
decreasing_by
  have hle := find_le _hclose
  have hpos : 0 < a2uiClose.length := by decide
  rw [List.length_drop]
  omega

theorem covered_of_none {text : List α} (h : find char a2uiClose text = none) : covered char text := by
  rw [covered]
  split
  · rfl
  · rename_i i hi
    rw [h] at hi
    cases hi

theorem covered_of_some {text : List α} (h : find char a2uiClose text = some i) :
    covered char text = (Starts char a2uiOpen (text.drop (i + a2uiClose.length)) &&
      covered char (text.drop (i + a2uiClose.length + a2uiOpen.length))) := by
  rw [covered]
  split
  · rename_i hnone
    rw [h] at hnone
    cases hnone
  · rename_i j hj
    rw [h] at hj
    cases hj
    rfl

/-- the last character of the text is no backtick -/
def Capped (char : α → PyChar) (text : List α) : Prop := ∀ c, text.getLast? = some c → char c ≠ tick

theorem Capped.drop {text : List α} (h : Capped char text) (n : ℕ) : Capped char (text.drop n) := by
  intro c hc
  rw [getLast?_drop] at hc
  split_ifs at hc
  exact h c hc

theorem Capped.nil_of_ticks {text : List α} (h : Capped char text) {n : ℕ} (hticks : text.map char = replicate n tick) :
    text = [] := by
  cases hlast : text.getLast? with
  | none => exact getLast?_eq_none_iff.mp hlast
  | some c =>
    have hmem : char c ∈ text.map char := mem_map_of_mem (mem_of_getLast? hlast)
    rw [hticks] at hmem
    exact absurd (eq_of_mem_replicate hmem) (h c hlast)

theorem find_close_append {text : List α} (hcapped : Capped char first) (hnone : find char a2uiClose first = none)
    (htext : Starts char a2uiClose text) : find char a2uiClose (first ++ text) = some first.length := by
  have hzero : find char a2uiClose text = some 0 :=
    find_eq_some_iff.2 ⟨zero_le _, htext, fun j hj => absurd hj (not_lt_zero j)⟩
  rw [find_append_left, hzero, Option.map_some, zero_add]
  intro i hi hstarts
  by_cases hlong : i + a2uiClose.length ≤ first.length
  · exact find_eq_none_iff.1 hnone i hi.le (hstarts.of_append (by rw [length_drop]; omega))
  · have htake := starts_take hstarts (by rw [length_drop]; omega)
    have hticks : (first.drop i).map char = replicate (min (first.drop i).length 3) tick := by
      rw [htake, show a2uiClose = replicate 3 tick from rfl, take_replicate]
    have hnil := (hcapped.drop i).nil_of_ticks hticks
    have hlength : (first.drop i).length = 0 := by rw [hnil]; rfl
    rw [length_drop] at hlength
    omega

theorem shown_fence {text : List α} (h : Starts char a2uiOpen text) :
    shown char text = shownHidden char (text.drop a2uiOpen.length) := by
  have hzero : find char a2uiOpen text = some 0 :=
    find_eq_some_iff.2 ⟨zero_le _, h, fun j hj => absurd hj (not_lt_zero j)⟩
  rw [shown_of_some hzero, take_zero, nil_append, zero_add]

/-- **Through a covered text.** Inside a region nothing goes out up to the closing fence. -/
theorem hidden_covered {text : List α} (hcapped : Capped char first) (hcovered : covered char first)
    (htext : Starts char a2uiClose text) : shownHidden char (first ++ text) = shown char (text.drop a2uiClose.length) := by
  induction hlen : first.length using Nat.strong_induction_on generalizing first with
  | _ n ih =>
    cases hclose : find char a2uiClose first with
    | none => rw [shownHidden_of_some (find_close_append hcapped hclose htext), drop_length_add_append]
    | some i =>
      have hle := find_le hclose
      have hclosing : a2uiClose.length = 3 := rfl
      rw [covered_of_some hclose, Bool.and_eq_true, decide_eq_true_eq] at hcovered
      have hfence := hcovered.1.length_le
      rw [shownHidden_of_some (find_append hclose text), drop_append_of_le_length hle,
        shown_fence (hcovered.1.append text), drop_append_of_le_length hfence, drop_drop]
      exact ih _ (by rw [length_drop]; omega) (hcapped.drop _) hcovered.2 rfl

theorem not_starts_capped {text : List α} (hne : first ≠ []) (hcapped : Capped char first)
    (hopen : ¬ Starts char a2uiOpen first) (htext : Starts char a2uiClose text) :
    ¬ Starts char a2uiOpen (first ++ text) := by
  intro hstarts
  have hshort : first.length < a2uiOpen.length := by
    by_contra hlong
    exact hopen (hstarts.of_append (by omega))
  have hpos : 0 < first.length := length_pos_iff.mpr hne
  -- the fence goes on with a backtick, so all before it are backticks
  have hnext : (a2uiOpen.drop first.length).head? = some tick := by
    have hlength : 0 < (a2uiOpen.drop first.length).length := by
      rw [length_drop]
      omega
    obtain ⟨d, ds, hd⟩ := exists_cons_of_length_pos hlength
    obtain ⟨more, hmore⟩ := starts_suffix hstarts hshort.le
    obtain ⟨more', hmore'⟩ := htext
    rw [← hmore, hd] at hmore'
    rw [hd]
    exact congrArg head? hmore'.symm
  have hticks : ∃ n, a2uiOpen.take first.length = replicate n tick := by
    have hfence : a2uiOpen.length = 7 := rfl
    generalize first.length = n at hshort hpos hnext
    rw [hfence] at hshort
    refine ⟨n, ?_⟩
    revert hnext
    interval_cases n <;> decide
  obtain ⟨n, hn⟩ := hticks
  rw [← starts_take hstarts hshort.le] at hn
  exact hne (hcapped.nil_of_ticks hn)

theorem rest_ne_nil (hcapped : Capped char first) (hclose : find char a2uiClose first = some i) :
    first.drop (i + a2uiClose.length) ≠ [] := by
  intro hnil
  have hle := find_le hclose
  have hclosing : a2uiClose.length = 3 := rfl
  have hstarts := (find_eq_some_iff.1 hclose).2.1
  have hall : ((first.drop i).map char).length = 3 := by
    have hlength := congrArg length hnil
    rw [length_drop, length_nil] at hlength
    rw [length_map, length_drop]
    omega
  rw [Starts, prefix_iff_eq_take, hclosing, ← hall, take_length] at hstarts
  have hticks := (hcapped.drop i).nil_of_ticks (n := 3) hstarts.symm
  rw [hticks] at hall
  cases hall

/-- **An uncovered text leaks.** Behind a region that ends inside the text, a character of the text goes out. -/
theorem leak_uncovered {text : List α} (hcapped : Capped char first) (hcovered : covered char first = false)
    (htext : Starts char a2uiClose text) : ∃ c ∈ shownHidden char (first ++ text), c ∈ first := by
  induction hlen : first.length using Nat.strong_induction_on generalizing first with
  | _ n ih =>
    cases hclose : find char a2uiClose first with
    | none =>
      rw [covered_of_none hclose] at hcovered
      cases hcovered
    | some i =>
      have hle := find_le hclose
      have hclosing : a2uiClose.length = 3 := rfl
      rw [shownHidden_of_some (find_append hclose text), drop_append_of_le_length hle]
      by_cases hopen : Starts char a2uiOpen (first.drop (i + a2uiClose.length))
      · rw [covered_of_some hclose, decide_eq_true hopen, Bool.true_and] at hcovered
        have hfence := hopen.length_le
        rw [shown_fence (hopen.append text), drop_append_of_le_length hfence, drop_drop]
        obtain ⟨c, hc, hmem⟩ := ih _ (by rw [length_drop]; omega) (hcapped.drop _) hcovered rfl
        exact ⟨c, hc, mem_of_mem_drop hmem⟩
      · have hne := rest_ne_nil hcapped hclose
        have hnot := not_starts_capped hne (hcapped.drop _) hopen htext
        obtain ⟨c, rest, hrest⟩ := exists_cons_of_ne_nil hne
        rw [hrest] at hnot ⊢
        refine ⟨c, head_shown hnot, ?_⟩
        apply mem_of_mem_drop (i := i + a2uiClose.length)
        rw [hrest]
        exact mem_cons_self

/-! ## Positions -/

theorem outside_map (text : List α) : outside id (text.map char) = outside char text := by
  induction hlen : text.length using Nat.strong_induction_on generalizing text with
  | _ n ih =>
    cases hopen : find char a2uiOpen text with
    | none => rw [outside_of_none hopen, outside_of_none (by rw [find_map, hopen])]
    | some i =>
      have hle := find_le hopen
      have hmap : find id a2uiOpen (text.map char) = some i := by rw [find_map, hopen]
      cases hclose : find char a2uiClose (text.drop (i + a2uiOpen.length)) with
      | none =>
        rw [outside_of_open hopen hclose, outside_of_open hmap (by rw [← map_drop, find_map, hclose])]
      | some j =>
        have hfence : a2uiOpen.length = 7 := rfl
        rw [outside_of_closed hopen hclose, outside_of_closed hmap (by rw [← map_drop, find_map, hclose]),
          ← map_drop, ← map_drop]
        exact ih _ (by simp only [length_drop]; omega) _ rfl

theorem covered_map (text : List α) : covered id (text.map char) = covered char text := by
  induction hlen : text.length using Nat.strong_induction_on generalizing text with
  | _ n ih =>
    cases hclose : find char a2uiClose text with
    | none => rw [covered_of_none hclose, covered_of_none (by rw [find_map, hclose])]
    | some i =>
      have hle := find_le hclose
      have hclosing : a2uiClose.length = 3 := rfl
      have hmap : find id a2uiClose (text.map char) = some i := by rw [find_map, hclose]
      rw [covered_of_some hclose, covered_of_some hmap, ← map_drop, ← map_drop, ih _ (by rw [length_drop]; omega) _ rfl]
      simp [Starts]

end Pieces

theorem mem_positions {k : ℕ} {item : PyChar × ℕ} (h : item ∈ text.zipIdx k) : k ≤ item.2 ∧ item.2 < k + text.length :=
  ⟨le_snd_of_mem_zipIdx h, snd_lt_add_of_mem_zipIdx h⟩

theorem starts_positions {pattern : PyStr} (h : pattern <+: text) (k : ℕ) : Starts Prod.fst pattern (text.zipIdx k) := by
  rw [Starts, zipIdx_map_fst]
  exact h

/-- no character of the block goes out, however the text is cut; every character carries its position -/
def BlockHidden (text pre : PyStr) (b : Block) : Prop :=
  ∀ chunks : List (List (PyChar × ℕ)), chunks.flatten = text.zipIdx →
    ∀ item ∈ output Prod.fst chunks, ¬ (pre.length ≤ item.2 ∧ item.2 < pre.length + b.text.length)

/-- **Exactly when the rendered block is hidden.** No character of the block that the regular expression finds goes out, in any
chunks, if and only if the text before it ends outside the filter's regions, and within the block every region that ends
before the closing fence is directly followed by another one. -/
theorem blockHidden_iff {pre : PyStr} (h : search text = some (pre, b, post)) :
    BlockHidden text pre b ↔ outside id pre ∧ covered id b.core := by
  obtain ⟨htext, hmatched⟩ := search_some h
  have hpre : outside Prod.fst pre.zipIdx = outside id pre := by rw [← outside_map, zipIdx_map_fst]
  have hcore : ∀ k, covered Prod.fst (b.core.zipIdx k) = covered id b.core := by
    intro k
    rw [← covered_map, zipIdx_map_fst]
  have hcapped : ∀ k, Capped Prod.fst (b.core.zipIdx k) := by
    intro k c hc
    apply hmatched.last
    rw [← zipIdx_map_fst k b.core, getLast?_map, hc]
    rfl
  have hlength : b.text.length = a2uiOpen.length + b.core.length + a2uiClose.length := by
    rw [Block.text, length_append, length_append]
  -- the block with what follows, from its opening and from its closing fence on
  have hblock : b.text ++ post = a2uiOpen ++ (b.core ++ (a2uiClose ++ post)) := by simp [Block.text]
  have hopen : Starts Prod.fst a2uiOpen ((b.text ++ post).zipIdx pre.length) :=
    starts_positions (by rw [hblock]; exact prefix_append _ _) _
  have hclose : ∀ k, Starts Prod.fst a2uiClose ((a2uiClose ++ post).zipIdx k) := fun k =>
    starts_positions (prefix_append _ _) k
  have hsplit : text.zipIdx = pre.zipIdx ++ (b.text ++ post).zipIdx pre.length := by
    rw [htext, zipIdx_append, zero_add]
  have hinner : ((b.text ++ post).zipIdx pre.length).drop a2uiOpen.length =
      b.core.zipIdx (pre.length + a2uiOpen.length) ++
        (a2uiClose ++ post).zipIdx (pre.length + a2uiOpen.length + b.core.length) := by
    rw [hblock, zipIdx_append, ← length_zipIdx (l := a2uiOpen) (i := pre.length), drop_left, length_zipIdx, zipIdx_append]
  constructor
  · intro hhidden
    -- character by character, all that is shown goes out
    have hnone : ∀ item ∈ shown Prod.fst text.zipIdx, ¬ (pre.length ≤ item.2 ∧ item.2 < pre.length + b.text.length) := by
      intro item hitem
      apply hhidden (text.zipIdx.map (fun c => [c])) (flatMap_singleton' _)
      rw [output_singletons]
      exact hitem
    rw [hsplit] at hnone
    cases hout : outside Prod.fst pre.zipIdx with
    | false =>
      obtain ⟨c, hc, hmem⟩ := leak_inside hout hopen
      rw [hblock, zipIdx_append, ← length_zipIdx (l := a2uiOpen) (i := pre.length), take_left] at hmem
      have hpos := mem_positions hmem
      exact absurd ⟨hpos.1, by omega⟩ (hnone c hc)
    | true =>
      refine ⟨by rw [← hpre, hout], ?_⟩
      rw [shown_outside hout hopen, hinner] at hnone
      rw [← hcore (pre.length + a2uiOpen.length)]
      cases hcov : covered Prod.fst (b.core.zipIdx (pre.length + a2uiOpen.length)) with
      | true => rfl
      | false =>
        obtain ⟨c, hc, hmem⟩ := leak_uncovered (hcapped _) hcov (hclose _)
        have hpos := mem_positions hmem
        exact absurd ⟨by omega, by omega⟩ (hnone c (mem_append_right _ hc))
  · intro hcond chunks hchunks item hitem hinside
    have hmem := (drops_output chunks).mem item hitem
    rw [hchunks, hsplit, ← shown, shown_outside (by rw [hpre, hcond.1]) hopen, hinner,
      hidden_covered (hcapped _) (by rw [hcore, hcond.2]) (hclose _), mem_append] at hmem
    rcases hmem with hmem | hmem
    · have hpos := mem_positions ((mem_shown _).1 item hmem)
      omega
    · rw [zipIdx_append, ← length_zipIdx (l := a2uiClose), drop_left] at hmem
      have hpos := mem_positions ((mem_shown _).1 item hmem)
      rw [length_zipIdx] at hpos
      omega

/-- an answer that is one UI block, with this content -/
def sampleBlock (content : String) : Block where
  gap := [newline]
  json := PyStr.ofString "\x7b\"components\":[\x7b\"type\":\"text\",\"props\":\x7b\"content\":\"" ++ PyStr.ofString content ++
    PyStr.ofString "\"\x7d\x7d]\x7d"
  space := [newline]

end Teardrop.Streaming
