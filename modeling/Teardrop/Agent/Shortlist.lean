/-
The tool shortlist of a planner turn (`agent/shortlist.py`).

A tool is anything with a name and a description; `nameDesc` reads them from a dict or an object, as texts.
-/
import Teardrop.Core.Dict
import Teardrop.Core.PyStr

namespace Teardrop.Shortlist

open List

/-! ## Model -/

def stopwords : List PyStr :=
  ["the", "a", "an", "and", "or", "for", "to", "of", "in", "on", "my", "is", "are", "what", "how", "can", "you", "your",
   "show", "tell", "give", "please", "with", "from", "this", "that", "all", "any", "get"]

def alwaysKeep : List PyStr :=
  ["calculate", "get_datetime", "web_search", "resolve_ens", "delegate_to_agent", "discover_agents", "http_fetch"]

/-- `[a-z0-9]` -/
def tokenChar (c : PyChar) : Bool := ('a'.toNat ≤ c.val && c.val ≤ 'z'.toNat) || c.isDigit

/-- the tokens of a text; `wide` lowers what is not ASCII -/
def tokens (wide : PyChar → PyStr) (text : PyStr) : Finset PyStr :=
  (((PyStr.lower wide text).splitOnP (fun c => !tokenChar c)).filter (fun t => 3 ≤ t.length ∧ t ∉ stopwords)).toFinset

section Select

variable {α : Type} (wide : PyChar → PyStr) (nameDesc : α → PyStr × PyStr)

def toolName (tool : α) : PyStr := (nameDesc tool).1

/-- `by_name` -/
def byName (tools : List α) : Dict PyStr α := tools.foldl (fun d t => d.set (toolName nameDesc t) t) Dict.empty

/-- the tokens that a name, with blanks for its underscores, and a tool share with the request -/
def score (request : PyStr) (name : PyStr) (tool : α) : ℕ :=
  let words : PyStr := List.map (fun c : PyChar => if c = PyChar.ofChar '_' then PyChar.ofChar ' ' else c) name
  (tokens wide request ∩ tokens wide (words ++ PyChar.ofChar ' ' :: (nameDesc tool).2)).card

/-- highest score first, ties in the order of the dict -/
def scored (request : PyStr) (d : Dict PyStr α) : List (ℕ × PyStr) :=
  (d.entries.map (fun e => (score wide nameDesc request e.1 e.2, e.1))).insertionSort (fun a b => b.1 ≤ a.1)

def alwaysNames (d : Dict PyStr α) : List PyStr := alwaysKeep.filter (· ∈ d.keys)

/-- the last loop: the entry of every name to keep, at the first tool of that name -/
def emit (d : Dict PyStr α) (keep : List PyStr) : List PyStr → List α → List α
  | _, [] => []
  | emitted, t :: tools =>
    if toolName nameDesc t ∈ keep ∧ toolName nameDesc t ∉ emitted then
      (d.get? (toolName nameDesc t)).toList ++ emit d keep (toolName nameDesc t :: emitted) tools
    else emit d keep emitted tools

def selectedNames (request : PyStr) (d : Dict PyStr α) (headroom : ℕ) : List PyStr :=
  let others := (scored wide nameDesc request d).filter (fun s => s.2 ∉ alwaysNames d)
  let hits := ((others.filter (fun s => 1 ≤ s.1)).map Prod.snd).take headroom
  if hits = [] then (others.map Prod.snd).take headroom else hits

/-- `select_shortlisted_tools`; an error is the text of a `ValueError` -/
def selectShortlistedTools (request : PyStr) (tools : List α) (maxTools : ℤ) : Except String (List α) :=
  let d := byName nameDesc tools
  let always := alwaysNames d
  if maxTools < 0 then .error "max_tools must be non-negative"
  else if maxTools < always.length then
    .error s!"max_tools={maxTools} cannot retain {always.length} always-keep tools"
  else if d.entries.length = tools.length ∧ (tools.length : ℤ) ≤ maxTools then .ok tools
  else .ok (emit nameDesc d (selectedNames wide nameDesc request d (maxTools.toNat - always.length) ++ always) [] tools)

/-- the last tool of its name -/
def IsLast (tools : List α) (t : α) : Prop :=
  tools.reverse.find? (fun u => toolName nameDesc u = toolName nameDesc t) = some t

structure Spec (request : PyStr) (tools : List α) (maxTools : ℤ) (out : List α) : Prop where
  size : (out.length : ℤ) ≤ maxTools
  distinct : (out.map (toolName nameDesc)).Nodup
  last : ∀ t ∈ out, IsLast nameDesc tools t
  always : ∀ n ∈ alwaysKeep, n ∈ tools.map (toolName nameDesc) → n ∈ out.map (toolName nameDesc)
  /-- of the tools that are the last of their names -/
  dominated : ∀ t ∈ tools, IsLast nameDesc tools t → toolName nameDesc t ∉ alwaysKeep → t ∉ out →
    ∀ u ∈ out, toolName nameDesc u ∉ alwaysKeep →
      score wide nameDesc request (toolName nameDesc t) t ≤ score wide nameDesc request (toolName nameDesc u) u
  same : (tools.map (toolName nameDesc)).Nodup → (tools.length : ℤ) ≤ maxTools → out = tools

/-! ## The dict of the tools -/

variable {wide nameDesc} {tools out : List α} {request : PyStr} {maxTools : ℤ}

theorem get?_byName (n : PyStr) :
    (byName nameDesc tools).get? n = tools.reverse.find? (fun u => toolName nameDesc u = n) := by
  induction tools using reverseRecOn with
  | nil => rfl
  | append_singleton tools t ih =>
    rw [byName, foldl_append, foldl_cons, foldl_nil, Dict.get?_set, ← byName, ih, reverse_concat, find?_cons]
    by_cases hn : n = toolName nameDesc t
    · simp [hn]
    · simp [hn, Ne.symm hn]

theorem mem_keys_byName {n : PyStr} : n ∈ (byName nameDesc tools).keys ↔ n ∈ tools.map (toolName nameDesc) := by
  rw [← Dict.get?_isSome_iff, get?_byName]
  simp

theorem name_of_get? {n : PyStr} {t : α} (h : (byName nameDesc tools).get? n = some t) : toolName nameDesc t = n := by
  rw [get?_byName] at h
  simpa using find?_some h

theorem isLast_iff {t : α} : IsLast nameDesc tools t ↔ (byName nameDesc tools).get? (toolName nameDesc t) = some t := by
  rw [get?_byName]
  rfl

theorem nodup_iff_length : (tools.map (toolName nameDesc)).Nodup ↔ (byName nameDesc tools).entries.length = tools.length := by
  have hkeys : (byName nameDesc tools).keys.toFinset = (tools.map (toolName nameDesc)).toFinset :=
    toFinset.ext fun n => mem_keys_byName
  have hcard := toFinset_card_of_nodup (byName nameDesc tools).nodup
  have hcount : (tools.map (toolName nameDesc)).toFinset.card = (byName nameDesc tools).entries.length := by
    rw [← hkeys]
    simpa [Dict.keys] using hcard
  rw [← hcount, ← @length_map _ _ tools (toolName nameDesc)]
  exact (Multiset.toFinset_card_eq_card_iff_nodup (m := (tools.map (toolName nameDesc) : Multiset PyStr))).symm

/-! ## What is emitted -/

theorem mem_emit {keep : List PyStr} {ts : List α} (hsub : ∀ t ∈ ts, t ∈ tools) {emitted : List PyStr} :
    ((emit nameDesc (byName nameDesc tools) keep emitted ts).map (toolName nameDesc)).Nodup ∧
      (∀ n, n ∈ (emit nameDesc (byName nameDesc tools) keep emitted ts).map (toolName nameDesc) ↔
        n ∈ keep ∧ n ∈ ts.map (toolName nameDesc) ∧ n ∉ emitted) ∧
      ∀ u ∈ emit nameDesc (byName nameDesc tools) keep emitted ts, IsLast nameDesc tools u := by
  induction ts generalizing emitted with
  | nil => simp [emit]
  | cons t ts ih =>
    have hrest : ∀ u ∈ ts, u ∈ tools := fun u hu => hsub u (mem_cons_of_mem t hu)
    rw [emit]
    split_ifs with hkeep
    · obtain ⟨u, hu⟩ := Option.isSome_iff_exists.1
        (Dict.get?_isSome_iff.2 (mem_keys_byName.2 (mem_map_of_mem (hsub t mem_cons_self))))
      have hname := name_of_get? hu
      obtain ⟨hnodup, hmem, hlast⟩ := @ih hrest (toolName nameDesc t :: emitted)
      rw [hu, Option.toList_some, singleton_append, map_cons, hname]
      refine ⟨nodup_cons.2 ⟨fun hin => ((hmem _).1 hin).2.2 mem_cons_self, hnodup⟩, fun n => ?_, fun v hv => ?_⟩
      · rw [mem_cons, hmem, map_cons, mem_cons, mem_cons]
        by_cases hn : n = toolName nameDesc t
        · simp [hn, hkeep]
        · simp [hn]
      · rcases mem_cons.1 hv with rfl | hv
        · exact isLast_iff.2 (by rw [hname]; exact hu)
        · exact hlast v hv
    · obtain ⟨hnodup, hmem, hlast⟩ := @ih hrest emitted
      refine ⟨hnodup, fun n => ?_, hlast⟩
      rw [hmem, map_cons, mem_cons]
      constructor
      · exact fun h => ⟨h.1, .inr h.2.1, h.2.2⟩
      · rintro ⟨hin, rfl | hn, hout⟩
        · exact absurd ⟨hin, hout⟩ hkeep
        · exact ⟨hin, hn, hout⟩

/-! ## What is selected -/

theorem mem_scored {d : Dict PyStr α} {s : ℕ × PyStr} :
    s ∈ scored wide nameDesc request d ↔ ∃ t, d.get? s.2 = some t ∧ s.1 = score wide nameDesc request s.2 t := by
  rw [scored, mem_insertionSort, mem_map]
  constructor
  · rintro ⟨e, he, rfl⟩
    exact ⟨e.2, Dict.get?_eq_some_iff.2 he, rfl⟩
  · rintro ⟨t, ht, hs⟩
    exact ⟨(s.2, t), Dict.get?_eq_some_iff.1 ht, by rw [← hs]⟩

/-- in a list by descending score, what is taken scores at least as much as what is not -/
theorem le_of_take {l : List (ℕ × PyStr)} (hsorted : l.Pairwise (fun a b => b.1 ≤ a.1)) {k : ℕ} {a b : ℕ × PyStr}
    (hb : b ∈ l) (hin : a.2 ∈ (l.map Prod.snd).take k) (hout : b.2 ∉ (l.map Prod.snd).take k)
    (huniq : ∀ c ∈ l, c.2 = a.2 → c = a) : b.1 ≤ a.1 := by
  rw [← map_take] at hin hout
  obtain ⟨c, hc, hca⟩ := mem_map.1 hin
  rw [huniq c (mem_of_mem_take hc) hca] at hc
  have hdrop : b ∈ l.drop k := by
    rw [← take_append_drop k l, mem_append] at hb
    exact hb.resolve_left fun h => hout (mem_map_of_mem h)
  rw [← take_append_drop k l] at hsorted
  exact (pairwise_append.1 hsorted).2.2 a hc b hdrop

theorem selected_dominates {d : Dict PyStr α} {headroom : ℕ} {a b : ℕ × PyStr} (ha : a ∈ scored wide nameDesc request d)
    (hb : b ∈ scored wide nameDesc request d) (hba : b.2 ∉ alwaysNames d)
    (hin : a.2 ∈ selectedNames wide nameDesc request d headroom) (hout : b.2 ∉ selectedNames wide nameDesc request d headroom) :
    b.1 ≤ a.1 := by
  have huniq : ∀ c ∈ scored wide nameDesc request d, c.2 = a.2 → c = a := by
    intro c hc hca
    obtain ⟨t, ht, hscore⟩ := mem_scored.1 hc
    obtain ⟨u, hu, hscore'⟩ := mem_scored.1 ha
    rw [hca, hu, Option.some.injEq] at ht
    exact Prod.ext (by rw [hscore, hscore', hca, ht]) hca
  have hsorted : (scored wide nameDesc request d).Pairwise (fun a b => b.1 ≤ a.1) := pairwise_insertionSort _ _
  have hothers := hsorted.filter (fun s => s.2 ∉ alwaysNames d)
  have hmem : b ∈ (scored wide nameDesc request d).filter (fun s => s.2 ∉ alwaysNames d) :=
    mem_filter.2 ⟨hb, by simpa using hba⟩
  unfold selectedNames at hin hout
  dsimp only at hin hout
  split_ifs at hin hout with hhits
  · exact le_of_take hothers hmem hin hout fun c hc => huniq c (mem_filter.1 hc).1
  · by_cases hscore : 1 ≤ b.1
    · exact le_of_take (hothers.filter _) (mem_filter.2 ⟨hmem, by simpa using hscore⟩) hin hout
        fun c hc => huniq c (mem_filter.1 (mem_filter.1 hc).1).1
    · omega

theorem length_selectedNames (d : Dict PyStr α) (headroom : ℕ) :
    (selectedNames wide nameDesc request d headroom).length ≤ headroom := by
  unfold selectedNames
  dsimp only
  split_ifs <;> exact length_take_le _ _

theorem mem_alwaysNames {n : PyStr} :
    n ∈ alwaysNames (byName nameDesc tools) ↔ n ∈ alwaysKeep ∧ n ∈ tools.map (toolName nameDesc) := by
  rw [alwaysNames, mem_filter, decide_eq_true_iff, mem_keys_byName]

/-- **Tool shortlist.** Below the number of always-keep tools that are present it raises; otherwise it is as specified. -/
theorem shortlist_spec (request : PyStr) (tools : List α) (maxTools : ℤ)
    (hmax : ((alwaysNames (byName nameDesc tools)).length : ℤ) ≤ maxTools) :
    ∃ out, selectShortlistedTools wide nameDesc request tools maxTools = .ok out ∧
      Spec wide nameDesc request tools maxTools out := by
  have hnonneg : 0 ≤ maxTools := (Int.natCast_nonneg _).trans hmax
  simp only [selectShortlistedTools, not_lt.2 hnonneg, not_lt.2 hmax, if_false]
  split_ifs with hall
  · have hnodup := nodup_iff_length.2 hall.1
    refine ⟨tools, rfl, hall.2, hnodup, fun t ht => ?_, fun _ _ hn => hn, fun t ht _ _ hout => absurd ht hout, fun _ _ => rfl⟩
    obtain ⟨u, hu⟩ := Option.isSome_iff_exists.1
      (Dict.get?_isSome_iff.2 (@mem_keys_byName _ nameDesc _ _ |>.2 (mem_map_of_mem ht)))
    have hfind := hu
    rw [get?_byName] at hfind
    have hmem : u ∈ tools := mem_reverse.1 (mem_of_find?_eq_some hfind)
    rw [isLast_iff, hu, inj_on_of_nodup_map hnodup hmem ht (name_of_get? hu)]
  · set headroom := maxTools.toNat - (alwaysNames (byName nameDesc tools)).length
    set selected := selectedNames wide nameDesc request (byName nameDesc tools) headroom with hsel
    obtain ⟨hnodup, hmem, hlast⟩ := @mem_emit _ nameDesc _ (selected ++ alwaysNames (byName nameDesc tools)) tools
      (fun _ ht => ht) []
    refine ⟨_, rfl, ?_, hnodup, hlast, fun n hn htools => ?_, fun t ht htlast htalways htout u hu hualways => ?_, fun h hle => ?_⟩
    · have hsub := (subperm_of_subset hnodup fun n hn => ((hmem n).1 hn).1).length_le
      have hlen : selected.length ≤ headroom := length_selectedNames _ _
      rw [length_map, length_append] at hsub
      omega
    · exact (hmem n).2 ⟨mem_append_right _ (mem_alwaysNames.2 ⟨hn, htools⟩), htools, not_mem_nil⟩
    · have hkept := ((hmem _).1 (mem_map_of_mem hu)).1
      have hin := (mem_append.1 hkept).resolve_right fun h => hualways (mem_alwaysNames.1 h).1
      have hout : toolName nameDesc t ∉ selected := by
        intro h
        obtain ⟨v, hv, hname⟩ := mem_map.1 ((hmem _).2 ⟨mem_append_left _ h, mem_map_of_mem ht, not_mem_nil⟩)
        have hvlast := isLast_iff.1 (hlast v hv)
        rw [hname, isLast_iff.1 htlast, Option.some.injEq] at hvlast
        exact htout (hvlast ▸ hv)
      exact selected_dominates (a := (_, toolName nameDesc u)) (b := (_, toolName nameDesc t))
        (mem_scored.2 ⟨u, isLast_iff.1 (hlast u hu), rfl⟩) (mem_scored.2 ⟨t, isLast_iff.1 htlast, rfl⟩)
        (fun h => htalways (mem_alwaysNames.1 h).1) hin hout
    · exact absurd ⟨nodup_iff_length.1 h, hle⟩ hall

end Select

/-- three tools, two of one name -/
def shadowed : List (PyStr × PyStr) := [("alpha", "weather"), ("alpha", ""), ("beta", "")]

theorem shortlist_spec_shadowed : ∃ out,
    selectShortlistedTools (fun c => [c]) id (PyStr.ofString "weather") shadowed 2 = .ok out ∧
      Spec (fun c => [c]) id "weather" shadowed 2 out :=
  shortlist_spec "weather" shadowed 2 (by decide +kernel)

/-- **A shadowed tool.** The first tool shares a word with the request and is left out; the tools that are kept share none. -/
theorem shadowed_left_out : ∃ out,
    selectShortlistedTools (fun c => [c]) id (PyStr.ofString "weather") shadowed 2 = .ok out ∧
      shadowed[0] ∉ out ∧ toolName id shadowed[0] ∉ alwaysKeep ∧
      ∃ u ∈ out, toolName id u ∉ alwaysKeep ∧ score (fun c => [c]) id "weather" (toolName id u) u <
          score (fun c => [c]) id "weather" (toolName id shadowed[0]) shadowed[0] :=
  ⟨[("alpha", ""), ("beta", "")], by decide +kernel, by decide +kernel, by decide +kernel, ("beta", ""), by decide +kernel,
    by decide +kernel, by decide +kernel⟩

end Teardrop.Shortlist
