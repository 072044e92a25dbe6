/-
The tail of an answer that did not stream (`_recover_planner_suffix` of `agent_stream.py`): when tokens were dropped, the text
that went out is completed from the planner's whole message, filtered at once.
-/
import Teardrop.Streaming.Filter

namespace Teardrop.Streaming

open Find List PyStr Nat

/-! ## The program -/

/-- the longest overlap of at most `n` characters, and the expected text behind it -/
def overlapTail (emitted expected : PyStr) : ℕ → PyStr
  | 0 => []
  | n + 1 => if expected.take (n + 1) <:+ emitted then expected.drop (n + 1) else overlapTail emitted expected n

/-- the text of the chunks that went out -/
def emittedText (emitted : List (PyStr × PyStr)) : PyStr := (emitted.map Prod.snd).flatten

def recoverPlannerSuffix (emitted : List (PyStr × PyStr)) (plannerText : PyStr) : PyStr :=
  if emitted = [] ∨ plannerText = [] then []
  else if emittedText emitted = [] then []
  else
    let fed := feed id Filter.initial plannerText
    let expected := fed.1 ++ (flush fed.2).1
    if expected = [] ∨ expected.length ≤ (emittedText emitted).length then []
    else if emittedText emitted <+: expected then expected.drop (emittedText emitted).length
    else overlapTail (emittedText emitted) expected (min (emittedText emitted).length expected.length)

/-- `emitted_chunks` of `stream_graph_events`: what the filter sent out for the tokens of one message, and the flush -/
def emittedChunks (messageId : PyStr) (tokens : List PyStr) : List (PyStr × PyStr) :=
  let fed := feedAll id Filter.initial tokens
  ((fed.1.filter (fun clean => clean ≠ [])).map (fun clean => (messageId, clean))) ++
    if (flush fed.2).1 = [] then [] else [(messageId, (flush fed.2).1)]

theorem emittedText_chunks (messageId : PyStr) (tokens : List PyStr) :
    emittedText (emittedChunks messageId tokens) = output id tokens := by
  unfold emittedText emittedChunks output outputFrom
  rw [map_append, flatten_append, map_map]
  have hmap : (Prod.snd ∘ fun clean : PyStr => (messageId, clean)) = id := rfl
  rw [hmap, map_id, flatten_filter_ne_nil]
  congr 1
  split_ifs with hflush
  · rw [hflush]
    rfl
  · simp

theorem output_ne_nil {messageId : PyStr} {tokens : List PyStr} (h : emittedChunks messageId tokens ≠ []) :
    output id tokens ≠ [] := by
  intro hnil
  apply h
  rw [← emittedText_chunks messageId] at hnil
  have hall : ∀ chunk ∈ emittedChunks messageId tokens, chunk.2 ≠ [] := by
    intro chunk hchunk
    simp only [emittedChunks, mem_append, mem_map, mem_filter, decide_eq_true_eq] at hchunk
    rcases hchunk with ⟨clean, hclean, rfl⟩ | hchunk
    · exact hclean.2
    · split_ifs at hchunk with hflush
      · exact absurd hchunk not_mem_nil
      · rw [mem_singleton.mp hchunk]
        exact hflush
  cases hchunks : emittedChunks messageId tokens with
  | nil => rfl
  | cons chunk chunks =>
    rw [hchunks] at hnil hall
    simp only [emittedText, map_cons, flatten_cons, append_eq_nil_iff] at hnil
    exact absurd hnil.1 (hall chunk mem_cons_self)

variable {emitted expected : PyStr} (text : PyStr)

theorem overlapTail_of_not {n : ℕ} (h : ∀ k, 0 < k → k ≤ n → ¬ expected.take k <:+ emitted) :
    overlapTail emitted expected n = [] := by
  induction n with
  | zero => rfl
  | succ n ih =>
    rw [overlapTail, if_neg (h (n + 1) (succ_pos n) le_rfl)]
    exact ih (fun k hpos hle => h k hpos (le_succ_of_le hle))

theorem overlapTail_of_overlap {n k : ℕ} (hk : k ≤ n) (hpos : 0 < k) (hoverlap : expected.take k <:+ emitted) :
    ∃ m, k ≤ m ∧ m ≤ n ∧ expected.take m <:+ emitted ∧ (∀ l, m < l → l ≤ n → ¬ expected.take l <:+ emitted) ∧
      overlapTail emitted expected n = expected.drop m := by
  induction n with
  | zero => omega
  | succ n ih =>
    rw [overlapTail]
    split_ifs with hlast
    · exact ⟨n + 1, hk, le_rfl, hlast, fun l hl hle => absurd hle (by omega), rfl⟩
    · have hkn : k ≤ n := by
        rcases lt_or_ge n k with hlt | hle
        · have heq : k = n + 1 := by omega
          rw [heq] at hoverlap
          exact absurd hoverlap hlast
        · exact hle
      obtain ⟨m, hkm, hmn, hm, hlonger, htail⟩ := ih hkn
      refine ⟨m, hkm, le_succ_of_le hmn, hm, ?_, htail⟩
      intro l hl hle
      rcases lt_or_ge n l with hlt | hle'
      · have heq : l = n + 1 := by omega
        rw [heq]
        exact hlast
      · exact hlonger l hl hle'

/-- **What is appended**, from the text that went out and the message filtered at once. -/
theorem recover_eq {emitted : List (PyStr × PyStr)} (hne : emittedText emitted ≠ []) (plannerText : PyStr) :
    recoverPlannerSuffix emitted plannerText =
      if (output id [plannerText]).length ≤ (emittedText emitted).length then []
      else if emittedText emitted <+: output id [plannerText] then
        (output id [plannerText]).drop (emittedText emitted).length
      else overlapTail (emittedText emitted) (output id [plannerText]) (emittedText emitted).length := by
  have hsome : emitted ≠ [] := by
    intro hnil
    rw [hnil] at hne
    exact hne rfl
  have houtput : output id [plannerText] =
      (feed id Filter.initial plannerText).1 ++ (flush (feed id Filter.initial plannerText).2).1 := by
    rw [output, outputFrom_cons, outputFrom_nil]
  simp only [recoverPlannerSuffix]
  rw [← houtput]
  by_cases htext : plannerText = []
  · rw [if_pos (.inr htext)]
    have hnil : output id [plannerText] = [] := by
      rw [htext, output_whole, visible_nil]
      rfl
    rw [hnil, length_nil, if_pos (zero_le _)]
  · rw [if_neg (not_or.mpr ⟨hsome, htext⟩), if_neg hne]
    by_cases hshort : (output id [plannerText]).length ≤ (emittedText emitted).length
    · rw [if_pos (.inr hshort), if_pos hshort]
    · have hexpected : output id [plannerText] ≠ [] := by
        intro hnil
        rw [hnil] at hshort
        exact hshort (zero_le _)
      rw [if_neg (not_or.mpr ⟨hexpected, hshort⟩), if_neg hshort, min_eq_left (by omega)]

/-! ## Newlines -/

/-- how many newlines a text starts with -/
def leading (text : PyStr) : ℕ := (text.takeWhile (fun c => c = newline)).length

@[simp] theorem leading_nil : leading [] = 0 := rfl

@[simp] theorem leading_newline : leading (newline :: text) = leading text + 1 := by simp [leading]

theorem leading_other {c : PyChar} (hc : c ≠ newline) (text : PyStr) : leading (c :: text) = 0 := by simp [leading, hc]

theorem leading_replicate (n : ℕ) (text : PyStr) : leading (replicate n newline ++ text) = n + leading text := by
  induction n with
  | zero => simp
  | succ n ih =>
    rw [replicate_succ, cons_append, leading_newline, ih]
    omega

theorem leading_append (first text : PyStr) :
    leading (first ++ text) = if leading first = first.length then first.length + leading text else leading first := by
  unfold leading
  rw [takeWhile_append]
  split_ifs with hall
  · rw [length_append]
  · rfl

theorem leading_take (n : ℕ) : leading (text.take n) = min n (leading text) := by
  induction text generalizing n with
  | nil => simp
  | cons c text ih =>
    cases n with
    | zero => simp
    | succ n =>
      rw [take_succ_cons]
      by_cases hc : c = newline
      · rw [hc, leading_newline, leading_newline, ih]
        omega
      · rw [leading_other hc, leading_other hc, min_zero]

theorem take_leading {text : PyStr} {n : ℕ} (h : n ≤ leading text) : text.take n = replicate n newline := by
  induction text generalizing n with
  | nil =>
    have hzero : n = 0 := by simpa using h
    rw [hzero]
    rfl
  | cons c text ih =>
    cases n with
    | zero => rfl
    | succ n =>
      by_cases hc : c = newline
      · rw [hc, leading_newline] at h
        rw [hc, take_succ_cons, replicate_succ, ih (by omega)]
      · rw [leading_other hc] at h
        omega

/-- only newlines are marked -/
def NewlineMarks (m : List (PyChar × Bool)) : Prop := ∀ item ∈ m, item.2 = true → item.1 = newline

theorem newlineMarks_marked (before after : Bool) (text : PyStr) : NewlineMarks (marked id before after text) := by
  induction text generalizing before with
  | nil => exact fun item hitem => absurd hitem not_mem_nil
  | cons c text ih =>
    intro item hitem hmark
    rw [marked_cons, mem_cons] at hitem
    rcases hitem with rfl | hitem
    · rw [Bool.and_eq_true, decide_eq_true_eq] at hmark
      exact hmark.1
    · exact ih false item hitem hmark

theorem newlineMarks_visible (before : Bool) (text : PyStr) : NewlineMarks (visible id before text) := by
  induction hlen : text.length using Nat.strong_induction_on generalizing before text with
  | _ n ih =>
    cases hopen : find id a2uiOpen text with
    | none =>
      rw [visible_of_none hopen]
      exact newlineMarks_marked _ _ _
    | some i =>
      have hle := find_le hopen
      intro item hitem hmark
      rw [visible_of_some hopen, mem_append] at hitem
      rcases hitem with hitem | hitem
      · exact newlineMarks_marked _ _ _ item hitem hmark
      · cases hclose : find id a2uiClose (text.drop (i + a2uiOpen.length)) with
        | none =>
          rw [hidden_of_none hclose] at hitem
          exact absurd hitem not_mem_nil
        | some j =>
          rw [hidden_of_some hclose] at hitem
          have hfence : a2uiOpen.length = 7 := rfl
          exact ih _ (by simp only [length_drop]; omega) true _ rfl item hitem hmark

section Marks

variable {m : List (PyChar × Bool)} {x : PyStr}

theorem NewlineMarks.tail {item : PyChar × Bool} (h : NewlineMarks (item :: m)) : NewlineMarks m :=
  fun other hother => h other (mem_cons_of_mem _ hother)

theorem Drops.others (h : Drops m x) (hm : NewlineMarks m) :
    x.filter (fun c => c ≠ newline) = (m.map Prod.fst).filter (fun c => c ≠ newline) := by
  induction h with
  | nil => rfl
  | keep c b _ ih => rw [map_cons, filter_cons, filter_cons, ih hm.tail]
  | drop c _ ih =>
    have hc : c = newline := hm _ mem_cons_self rfl
    rw [map_cons, filter_cons_of_neg (by simp [hc]), ih hm.tail]

theorem Drops.kept_length_le (h : Drops m x) : (Streaming.kept m).length ≤ x.length := by
  induction h with
  | nil => exact le_rfl
  | keep c b _ ih =>
    cases b with
    | false => simpa using ih
    | true => exact le_succ_of_le ih
  | drop c _ ih => exact ih

theorem Drops.leading_le (h : Drops m x) (hm : NewlineMarks m) : leading x ≤ leading (m.map Prod.fst) := by
  induction h with
  | nil => exact le_rfl
  | keep c b _ ih =>
    have hle := ih hm.tail
    by_cases hc : c = newline
    · simp only [hc, map_cons, leading_newline]
      omega
    · simp [leading_other hc]
  | drop c _ ih =>
    have hle := ih hm.tail
    have hc : c = newline := hm _ mem_cons_self rfl
    simp only [hc, map_cons, leading_newline]
    omega

theorem drops_replicate (m : List (PyChar × Bool)) (hm : NewlineMarks m) :
    ∀ j, j + leading (kept m) ≤ leading (m.map Prod.fst) → Drops m (replicate j newline ++ kept m) := by
  induction m with
  | nil =>
    intro j hj
    have hzero : j = 0 := by simpa [kept] using hj
    rw [hzero]
    exact .nil
  | cons item m ih =>
    obtain ⟨c, b⟩ := item
    have hrest := ih hm.tail
    intro j hj
    by_cases hc : c = newline
    · rw [hc] at hj ⊢
      rw [map_cons, leading_newline] at hj
      cases b with
      | true =>
        rw [kept_true] at hj ⊢
        cases j with
        | zero => exact .drop newline (Drops.kept m)
        | succ j =>
          exact .keep newline true (hrest j (by omega))
      | false =>
        rw [kept_false, leading_newline] at hj
        have hcomm : replicate j newline ++ newline :: kept m = newline :: (replicate j newline ++ kept m) := by
          rw [append_cons, ← replicate_succ', replicate_succ, cons_append]
        rw [kept_false, hcomm]
        exact .keep newline false (hrest j (by omega))
    · have hzero : j = 0 := by
        rw [map_cons, leading_other hc] at hj
        omega
      rw [hzero]
      exact Drops.kept _

end Marks

/-! ## A text and its continuation -/

/-- **A cut text.** What a text shows is what its continuation shows, up to a fence that was cut off. -/
theorem shown_prefix (more : PyStr) :
    ∃ common cut rest, shown id text = common ++ cut ∧ shown id (text ++ more) = common ++ rest ∧ newline ∉ cut := by
  induction hlen : text.length using Nat.strong_induction_on generalizing text with
  | _ n ih =>
    cases hopen : find id a2uiOpen text with
    | some i =>
      have hle := find_le hopen
      have hfence : a2uiOpen.length = 7 := rfl
      rw [shown_of_some hopen, shown_of_some (find_append hopen more), take_append_of_le_length (by omega),
        drop_append_of_le_length hle]
      cases hclose : find id a2uiClose (text.drop (i + a2uiOpen.length)) with
      | none =>
        rw [shownHidden_of_none hclose]
        exact ⟨text.take i, [], _, rfl, rfl, not_mem_nil⟩
      | some j =>
        have hle' := find_le hclose
        rw [shownHidden_of_some hclose, shownHidden_of_some (find_append hclose more), drop_append_of_le_length hle']
        obtain ⟨common, cut, rest, htext, hmore, hcut⟩ :=
          ih _ (by simp only [length_drop]; omega) ((text.drop (i + a2uiOpen.length)).drop (j + a2uiClose.length)) rfl
        exact ⟨text.take i ++ common, cut, rest, by rw [htext, append_assoc], by rw [hmore, append_assoc], hcut⟩
    | none =>
      rw [shown_of_none hopen]
      cases hwhole : find id a2uiOpen (text ++ more) with
      | none =>
        rw [shown_of_none hwhole]
        exact ⟨text, [], more, (append_nil text).symm, rfl, not_mem_nil⟩
      | some i =>
        rw [shown_of_some hwhole]
        rcases lt_or_ge i text.length with hcut | hafter
        · -- the fence starts in the text and ends behind it
          have hstarts := (find_eq_some_iff.1 hwhole).2.1
          rw [drop_append_of_le_length hcut.le] at hstarts
          have hlong : (text.drop i).length ≤ a2uiOpen.length := by
            by_contra hlong
            exact find_eq_none_iff.1 hopen i hcut.le (hstarts.of_append (by omega))
          have htake := starts_take hstarts hlong
          rw [map_id] at htake
          rw [take_append_of_le_length hcut.le]
          refine ⟨text.take i, text.drop i, _, (take_append_drop i text).symm, rfl, ?_⟩
          rw [htake]
          intro hmem
          exact absurd (mem_of_mem_take hmem) (by decide)
        · have hsplit : (text ++ more).take i = text ++ more.take (i - text.length) := by
            rw [take_append, take_of_length_le hafter]
          rw [hsplit]
          exact ⟨text, [], more.take (i - text.length) ++ _, (append_nil text).symm, append_assoc _ _ _, not_mem_nil⟩

theorem leading_eq_zero {text : PyStr} (h : newline ∉ text) : leading text = 0 := by
  cases text with
  | nil => rfl
  | cons c text =>
    apply leading_other
    intro hc
    exact h (by rw [hc]; exact mem_cons_self)

theorem leading_shown_le {text whole : PyStr} (h : text <+: whole) : leading (shown id text) ≤ leading (shown id whole) := by
  obtain ⟨more, rfl⟩ := h
  obtain ⟨common, cut, rest, htext, hmore, hcut⟩ := shown_prefix text more
  rw [htext, hmore, leading_append, leading_append, leading_eq_zero hcut]
  split_ifs <;> omega

/-! ## The completed answer -/

/-- two outputs for a text are equal up to newlines next to its removed blocks -/
def UpToNewlines (text x y : PyStr) : Prop := Drops (visible id false text) x ∧ Drops (visible id false text) y

/-- the emitted text is some newlines and then a beginning of the expected one -/
def NewlinesThenPrefix (emitted expected : PyStr) : Prop :=
  ∃ j k, 0 < j ∧ 0 < k ∧ emitted = List.replicate j newline ++ expected.take k

/-- the condition: the emitted text is a beginning of the expected one; or it is no shorter and complete as it is; or it is
shorter, and only newlines at its start keep it from being a beginning -/
def Recoverable (text emitted expected : PyStr) : Prop :=
  emitted <+: expected ∨ (expected.length ≤ emitted.length ∧ Drops (visible id false text) emitted) ∨
    (emitted.length < expected.length ∧ NewlinesThenPrefix emitted expected)

section Completion

variable {plannerText received : PyStr} {tokens : List PyStr}

theorem expected_drops (plannerText : PyStr) : Drops (visible id false plannerText) (output id [plannerText]) := by
  rw [output_whole]
  exact Drops.kept _

theorem drop_of_prefix {s t : PyStr} (h : s <+: t) : s ++ t.drop s.length = t := by
  obtain ⟨rest, rfl⟩ := h
  rw [drop_left]

theorem overlap_split {m : ℕ} (h : expected.take m <:+ emitted) :
    ∃ first, emitted = first ++ expected.take m ∧ emitted ++ expected.drop m = first ++ expected := by
  obtain ⟨first, hfirst⟩ := h
  refine ⟨first, hfirst.symm, ?_⟩
  rw [← hfirst, append_assoc, take_append_drop]

/-- newlines before the expected text are newlines next to blocks, where they stand before a beginning of it that went out -/
theorem drops_newlines ( hprefix : received <+: plannerText) (htokens : tokens.flatten = received) {j m : ℕ}
    (hemitted : output id tokens = replicate j newline ++ (output id [plannerText]).take m)
    (hfull : leading (output id [plannerText]) ≤ m) :
    Drops (visible id false plannerText) (replicate j newline ++ output id [plannerText]) := by
  have hdrops : Drops (visible id false tokens.flatten) (output id tokens) := drops_output tokens
  have hsent := hdrops.leading_le (newlineMarks_visible _ _)
  rw [hemitted, leading_replicate, leading_take, min_eq_right hfull, htokens] at hsent
  have hshown : leading (shown id received) ≤ leading (shown id plannerText) := leading_shown_le hprefix
  rw [output_whole] at hsent ⊢
  exact drops_replicate _ (newlineMarks_visible _ _) j (hsent.trans hshown)

theorem longest_overlap {first : PyStr} {j m : ℕ} (hj : 0 < j) (hfirst : first = replicate j newline)
    (hlonger : ∀ l, m < l → l ≤ (first ++ expected.take m).length → ¬ expected.take l <:+ first ++ expected.take m) :
    leading expected ≤ m := by
  by_contra hshort
  have htake : expected.take m = replicate m newline := take_leading (by omega)
  have hnext : expected.take (m + 1) = replicate (m + 1) newline := take_leading (by omega)
  rw [hfirst, htake, ← replicate_add] at hlonger
  apply hlonger (m + 1) (lt_succ_self m)
  · rw [length_replicate]
    omega
  · rw [hnext]
    refine ⟨replicate (j + m - (m + 1)) newline, ?_⟩
    rw [← replicate_add]
    congr 1
    omega

theorem newlines_of_drops {first : PyStr} (h : Drops (visible id false plannerText) (first ++ output id [plannerText])) :
    first = replicate first.length newline := by
  have hothers := h.others (newlineMarks_visible _ _)
  rw [← (expected_drops plannerText).others (newlineMarks_visible _ _), filter_append] at hothers
  have hnil := append_left_eq_self.mp hothers
  rw [eq_replicate_iff]
  refine ⟨rfl, ?_⟩
  intro c hc
  have hmem := filter_eq_nil_iff.mp hnil c hc
  simpa using hmem

/-- **The appended tail.** With what it appends, the client has the visible text of the message up to newlines next to blocks,
if and only if the emitted text meets the condition. -/
theorem recovered_iff ( hprefix : received <+: plannerText) (htokens : tokens.flatten = received)
    {emitted : List (PyStr × PyStr)} (htext : emittedText emitted = output id tokens) (hne : output id tokens ≠ []) :
    UpToNewlines plannerText (output id tokens ++ recoverPlannerSuffix emitted plannerText) (output id [plannerText]) ↔
      Recoverable plannerText (output id tokens) (output id [plannerText]) := by
  have hup : ∀ x, UpToNewlines plannerText x (output id [plannerText]) ↔ Drops (visible id false plannerText) x :=
    fun x => and_iff_left (expected_drops plannerText)
  rw [hup, recover_eq (by rwa [htext]), htext]
  generalize hexpected : output id [plannerText] = expected
  generalize hsent : output id tokens = sent
  by_cases hshort : expected.length ≤ sent.length
  · -- nothing is appended
    rw [if_pos hshort, append_nil]
    constructor
    · intro hdrops
      exact .inr (.inl ⟨hshort, hdrops⟩)
    · intro hcond
      rcases hcond with hbegin | hcomplete | hnewlines
      · rw [hbegin.eq_of_length_le hshort, ← hexpected]
        exact expected_drops plannerText
      · exact hcomplete.2
      · exact absurd hnewlines.1 (by omega)
  · rw [if_neg hshort]
    by_cases hbegin : sent <+: expected
    · rw [if_pos hbegin, drop_of_prefix hbegin]
      constructor
      · intro _
        exact .inl hbegin
      · intro _
        rw [← hexpected]
        exact expected_drops plannerText
    · rw [if_neg hbegin]
      constructor
      · intro hdrops
        refine .inr (.inr ⟨by omega, ?_⟩)
        by_cases hoverlap : ∃ k, 0 < k ∧ k ≤ sent.length ∧ expected.take k <:+ sent
        · obtain ⟨k, hpos, hk, hk'⟩ := hoverlap
          obtain ⟨m, hkm, hm, hm', -, htail⟩ := overlapTail_of_overlap hk hpos hk'
          obtain ⟨first, hfirst, hwhole⟩ := overlap_split hm'
          rw [htail, hwhole, ← hexpected] at hdrops
          have hnewlines := newlines_of_drops hdrops
          refine ⟨first.length, m, ?_, by omega, by rw [← hnewlines]; exact hfirst⟩
          rw [length_pos_iff]
          intro hnil
          rw [hnil, nil_append] at hfirst
          exact hbegin (hfirst ▸ take_prefix _ _)
        · -- without an overlap the visible text would be too short
          have hnone : overlapTail sent expected sent.length = [] := by
            apply overlapTail_of_not
            intro k hpos hk hk'
            exact hoverlap ⟨k, hpos, hk, hk'⟩
          rw [hnone, append_nil] at hdrops
          have hlength := hdrops.kept_length_le
          rw [← output_whole, hexpected] at hlength
          exact absurd hlength hshort
      · intro hcond
        rcases hcond with hbegin' | hcomplete | hnewlines
        · exact absurd hbegin' hbegin
        · exact absurd hcomplete.1 hshort
        · obtain ⟨-, j, k, hj, hk, hsplit⟩ := hnewlines
          have hlength : sent.length = j + min k expected.length := by
            rw [hsplit, length_append, length_replicate, length_take]
          have hoverlap : expected.take (min k expected.length) <:+ sent := by
            rw [hsplit, take_eq_take_min (i := k)]
            exact suffix_append _ _
          obtain ⟨m, hkm, hm, hm', hlonger, htail⟩ :=
            overlapTail_of_overlap (n := sent.length) (by omega) (by omega) hoverlap
          obtain ⟨first, hfirst, hwhole⟩ := overlap_split hm'
          have hnewlines : first = replicate first.length newline := by
            have htake := congrArg (take first.length) (hfirst.symm.trans hsplit)
            have hfirstLength := congrArg length hfirst
            rw [length_append, length_take] at hfirstLength
            rw [take_left, take_append_of_le_length (by rw [length_replicate]; omega),
              take_replicate, min_eq_left (by omega)] at htake
            exact htake
          have hsome : 0 < first.length := by
            rw [length_pos_iff]
            intro hnil
            rw [hnil, nil_append] at hfirst
            exact hbegin (hfirst ▸ take_prefix _ _)
          rw [htail, hwhole, hnewlines, ← hexpected]
          apply drops_newlines hprefix htokens (m := m)
          · rw [hsent, hexpected, ← hnewlines]
            exact hfirst
          · rw [hexpected]
            apply longest_overlap hsome hnewlines
            rw [← hfirst]
            exact hlonger

end Completion

/-- **When a dropped tail is recovered.** For every message of the planner and every tokens that make up a beginning of it, the
text that went out with what is appended is the message filtered at once, up to newlines next to blocks, if and only if the
text that went out is a beginning of it, or no shorter and complete, or shorter and a beginning but for newlines at its start. -/
theorem planner_tail_iff (messageId : PyStr) {plannerText received : PyStr} ( hprefix : received <+: plannerText)
    {tokens : List PyStr} (htokens : tokens.flatten = received) (hne : emittedChunks messageId tokens ≠ []) :
    UpToNewlines plannerText
        (emittedText (emittedChunks messageId tokens) ++ recoverPlannerSuffix (emittedChunks messageId tokens) plannerText)
        (output id [plannerText]) ↔
      Recoverable plannerText (emittedText (emittedChunks messageId tokens)) (output id [plannerText]) := by
  have htext := emittedText_chunks messageId tokens
  rw [htext]
  exact recovered_iff hprefix htokens htext (output_ne_nil hne)

/-- a message of two characters, of which one arrived -/
theorem planner_tail_iff_plain : UpToNewlines (PyStr.ofString "Hi")
      (emittedText (emittedChunks (PyStr.ofString "m1") [PyStr.ofString "H"]) ++
        recoverPlannerSuffix (emittedChunks (PyStr.ofString "m1") [PyStr.ofString "H"]) (PyStr.ofString "Hi"))
      (output id [PyStr.ofString "Hi"]) := by
  have hexpected : output id [ofString "Hi"] = ofString "Hi" := by
    rw [output_whole, visible_of_none (by decide), kept_marked]
  have hsent : output id [ofString "H"] = ofString "H" := by
    rw [output_whole, visible_of_none (by decide), kept_marked]
  have hchunks : emittedChunks (ofString "m1") [ofString "H"] ≠ [] := by
    intro hnil
    have htext := emittedText_chunks (ofString "m1") [ofString "H"]
    rw [hnil, hsent] at htext
    exact absurd htext (by decide)
  have hprefix : ofString "H" <+: ofString "Hi" := by decide
  apply (planner_tail_iff (ofString "m1") hprefix (by decide) hchunks).mpr
  rw [emittedText_chunks, hsent, hexpected]
  exact .inl (by decide)

/-- two lines with a UI block between them -/
def sampleMessage : PyStr := PyStr.ofString "A\n\x60\x60\x60a2ui\x7b\x7d\x60\x60\x60\nBC"

/-- its beginning, cut off in the block's opening fence -/
def sampleReceived : PyStr := PyStr.ofString "A\n\x60"

theorem visible_sampleMessage : visible id false sampleMessage =
    [(PyChar.ofChar 'A', false), (newline, true), (newline, true), (PyChar.ofChar 'B', false), (PyChar.ofChar 'C', false)] := by
  have hopen : find id a2uiOpen sampleMessage = some 2 := by decide
  have hclose : find id a2uiClose (sampleMessage.drop (2 + a2uiOpen.length)) = some 2 := by decide
  rw [visible_of_some hopen, hidden_of_some hclose, visible_of_none (by decide)]
  decide

/-- **A cut fence.** The half-received fence went out as text, and the second line is lost. -/
theorem planner_tail_lost : sampleReceived <+: sampleMessage ∧ ¬ UpToNewlines sampleMessage
      (emittedText (emittedChunks (PyStr.ofString "m1") [sampleReceived]) ++
        recoverPlannerSuffix (emittedChunks (PyStr.ofString "m1") [sampleReceived]) sampleMessage)
      (output id [sampleMessage]) := by
  have hprefix : sampleReceived <+: sampleMessage := by decide
  refine ⟨ hprefix, ?_⟩
  have hsent : output id [sampleReceived] = sampleReceived := by
    rw [output_whole, visible_of_none (by decide), kept_marked]
  have hexpected : output id [sampleMessage] = ofString "ABC" := by
    rw [output_whole, visible_sampleMessage]
    decide
  have htext := emittedText_chunks (ofString "m1") [sampleReceived]
  rw [htext, recovered_iff hprefix (by decide) htext (by rw [hsent]; decide), hsent, hexpected]
  intro hcond
  rcases hcond with hbegin | hcomplete | hnewlines
  · revert hbegin
    decide
  · have hothers := hcomplete.2.others (newlineMarks_visible _ _)
    rw [visible_sampleMessage] at hothers
    revert hothers
    decide
  · have hlonger := hnewlines.1
    revert hlonger
    decide

end Teardrop.Streaming
