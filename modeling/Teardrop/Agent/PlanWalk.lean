/-
The walk of the executor over a plan, apart from the tools.

Stage after stage, from `current_stage_index` on, the calls whose dependencies are complete are presented and become
complete; a call that is passed over is not visited again. The index is what the plan says, so it may be past stages that
have calls, or negative: then the last stages come first and come once more at the end.
-/
import Teardrop.Agent.Executor

namespace Teardrop

open List

theorem pyIndex_eq_some {α : Type} {l : List α} {i : ℤ} {a : α} :
    pyIndex l i = some a ↔ ∃ k : ℕ, l[k]? = some a ∧ (i = k ∨ i = k - l.length) := by
  unfold pyIndex
  split_ifs with hpos hneg
  · constructor
    · intro h
      exact ⟨i.toNat, h, .inl (by omega)⟩
    · rintro ⟨k, hk, rfl | hi⟩
      · exact hk
      · have hlt := (List.getElem?_eq_some_iff.1 hk).1
        omega
  · constructor
    · intro h
      exact ⟨(i + l.length).toNat, h, .inr (by omega)⟩
    · rintro ⟨k, hk, rfl | rfl⟩
      · omega
      · have heq : ((k : ℤ) - l.length + l.length).toNat = k := by omega
        rw [heq]
        exact hk
  · refine ⟨nofun, ?_⟩
    rintro ⟨k, -, rfl | rfl⟩
    · omega
    · omega

namespace Agent

/-! ## The walk -/

/-- the ids of the calls that the current stage presents -/
def Plan.presents (p : Plan) : List PyStr :=
  match pyIndex p.stages p.currentStageIndex with
  | some stage => (p.ready stage).map PlanCall.callId
  | none => []

def Plan.next (p : Plan) : Plan := p.advance p.presents

/-- the plan after `n` stages -/
def Plan.walk (p : Plan) : ℕ → Plan
  | 0 => p
  | n + 1 => (p.walk n).next

/-- how many stages the walk has -/
def Plan.rounds (p : Plan) : ℕ := (p.stages.length - p.currentStageIndex).toNat

/-- `c` is a call of the `k`-th stage -/
def Plan.At (p : Plan) (k : ℕ) (c : PlanCall) : Prop := ∃ stage, p.stages[k]? = some stage ∧ c ∈ stage.calls

/-- the walk does not leave the stages, presents every call once, and a call after all that it depends on -/
structure Plan.Walks (p : Plan) : Prop where
  inRange : -(p.stages.length : ℤ) ≤ p.currentStageIndex
  once : ∀ c ∈ p.calls, ((List.range p.rounds).flatMap (fun n => (p.walk n).presents)).count c.callId = 1
  ordered : ∀ n < p.rounds, ∀ c ∈ p.calls, c.callId ∈ (p.walk n).presents →
    ∀ d ∈ c.dependsOn, ∃ m < n, d ∈ (p.walk m).presents

/-- the plans whose walk is complete -/
structure Plan.Layout (p : Plan) : Prop where
  inRange : -(p.stages.length : ℤ) ≤ p.currentStageIndex
  ahead : ∀ k c, p.At k c → p.currentStageIndex ≤ k
  earlier : ∀ k c, p.At k c → ∀ d ∈ c.dependsOn, ∃ k' < k, ∃ c', p.At k' c' ∧ c'.callId = d
  /-- a stage that a negative index visits twice has only calls that still wait at the first visit -/
  wrapped : ∀ k c, p.At k c → p.stages.length + p.currentStageIndex ≤ k → ∃ d ∈ c.dependsOn, d ∉ p.completedCallIds

/-! ## Calls and stages -/

variable {p : Plan} {n : ℕ}

variable {c : PlanCall} {x : PyStr}

theorem Plan.mem_calls : c ∈ p.calls ↔ ∃ k, p.At k c := by
  unfold Plan.calls Plan.At
  rw [mem_flatMap]
  constructor
  · rintro ⟨stage, hstage, hc⟩
    obtain ⟨k, hk⟩ := mem_iff_getElem?.1 hstage
    exact ⟨k, stage, hk, hc⟩
  · rintro ⟨k, stage, hk, hc⟩
    exact ⟨stage, mem_of_getElem? hk, hc⟩

theorem Plan.At.lt {k : ℕ} (h : p.At k c) : k < p.stages.length := by
  obtain ⟨stage, hstage, -⟩ := h
  exact (List.getElem?_eq_some_iff.1 hstage).1

theorem Plan.At.unique (hids : (p.calls.map PlanCall.callId).Nodup) {k k' : ℕ} {c' : PlanCall} (h : p.At k c)
    (h' : p.At k' c') (heq : c.callId = c'.callId) : k = k' := by
  obtain ⟨stage, hstage, hc⟩ := h
  obtain ⟨stage', hstage', hc'⟩ := h'
  rw [Plan.calls, map_flatMap, nodup_flatMap] at hids
  obtain ⟨hlt, hk⟩ := List.getElem?_eq_some_iff.1 hstage
  obtain ⟨hlt', hk'⟩ := List.getElem?_eq_some_iff.1 hstage'
  have hdisjoint := pairwise_iff_getElem.1 hids.2
  have hmem : c.callId ∈ stage.calls.map PlanCall.callId := mem_map_of_mem hc
  have hmem' : c.callId ∈ stage'.calls.map PlanCall.callId := heq ▸ mem_map_of_mem hc'
  rcases lt_trichotomy k k' with hless | heq' | hmore
  · have hdis := hdisjoint k k' hlt hlt' hless
    rw [Function.onFun, hk, hk'] at hdis
    exact absurd hmem' (hdis hmem)
  · exact heq'
  · have hdis := hdisjoint k' k hlt' hlt hmore
    rw [Function.onFun, hk, hk'] at hdis
    exact absurd hmem (hdis hmem')

/-! ## What a stage presents -/

@[simp]
theorem Plan.walk_stages (p : Plan) (n : ℕ) : (p.walk n).stages = p.stages := by
  induction n with
  | zero => rfl
  | succ n ih => exact ih

@[simp]
theorem Plan.walk_index (p : Plan) (n : ℕ) : (p.walk n).currentStageIndex = p.currentStageIndex + n := by
  induction n with
  | zero => exact (add_zero _).symm
  | succ n ih =>
    change (p.walk n).currentStageIndex + 1 = _
    rw [ih]
    push_cast
    ring

theorem Plan.mem_advance {ids : List PyStr} :
    x ∈ (p.advance ids).completedCallIds ↔ x ∈ p.completedCallIds ∨ (x ∈ ids ∧ x ≠ []) := by
  have hfold : ∀ done : List PyStr, x ∈ ids.foldl (fun done id => if id ≠ [] ∧ id ∉ done then done ++ [id] else done) done ↔
        x ∈ done ∨ (x ∈ ids ∧ x ≠ []) := by
    induction ids with
    | nil => simp
    | cons id ids ih =>
      intro done
      rw [foldl_cons, ih]
      split_ifs with hnew <;> grind
  exact hfold p.completedCallIds

/-- a call is presented in the round that visits its stage, when its dependencies are complete -/
theorem Plan.mem_presents :
    x ∈ (p.walk n).presents ↔ ∃ k c, p.At k c ∧
      (p.currentStageIndex + n = k ∨ p.currentStageIndex + n = k - p.stages.length) ∧ c.callId = x ∧
      ∀ d ∈ c.dependsOn, d ∈ (p.walk n).completedCallIds := by
  unfold Plan.presents
  rw [Plan.walk_stages, Plan.walk_index]
  constructor
  · intro h
    split at h
    · rename_i stage hstage
      obtain ⟨k, hk, hround⟩ := pyIndex_eq_some.1 hstage
      obtain ⟨c, hc, rfl⟩ := mem_map.1 h
      obtain ⟨hc, hready⟩ := mem_filter.1 hc
      exact ⟨k, c, ⟨stage, hk, hc⟩, hround, rfl, fun d hd => of_decide_eq_true (all_eq_true.1 hready d hd)⟩
    · cases h
  · rintro ⟨k, c, ⟨stage, hk, hc⟩, hround, rfl, hready⟩
    rw [pyIndex_eq_some.2 ⟨k, hk, hround⟩]
    apply mem_map_of_mem
    exact mem_filter.2 ⟨hc, all_eq_true.2 fun d hd => decide_eq_true (hready d hd)⟩

theorem Plan.presents_nodup (hids : (p.calls.map PlanCall.callId).Nodup) (n : ℕ) : (p.walk n).presents.Nodup := by
  unfold Plan.presents
  rw [Plan.walk_stages]
  split
  · rename_i stage hstage
    obtain ⟨k, hk, -⟩ := pyIndex_eq_some.1 hstage
    rw [Plan.calls, map_flatMap, nodup_flatMap] at hids
    exact (hids.1 stage (mem_of_getElem? hk)).sublist (filter_sublist.map _)
  · exact nodup_nil

/-- complete after `n` rounds: what the plan says at first, and what was presented since -/
theorem Plan.mem_completed (hne : ∀ c ∈ p.calls, c.callId ≠ []) :
    x ∈ (p.walk n).completedCallIds ↔ x ∈ p.completedCallIds ∨ ∃ m < n, x ∈ (p.walk m).presents := by
  induction n with
  | zero => simp [Plan.walk]
  | succ n ih =>
    have hsome : x ∈ (p.walk n).presents → x ≠ [] := by
      intro hx
      obtain ⟨k, c, hat, -, rfl, -⟩ := Plan.mem_presents.1 hx
      exact hne c (Plan.mem_calls.2 ⟨k, hat⟩)
    rw [Plan.walk, Plan.next, Plan.mem_advance, ih, or_assoc]
    apply or_congr_right
    constructor
    · rintro (⟨m, hm, hx⟩ | ⟨hx, -⟩)
      · exact ⟨m, hm.trans n.lt_succ_self, hx⟩
      · exact ⟨n, n.lt_succ_self, hx⟩
    · rintro ⟨m, hm, hx⟩
      rcases Nat.lt_succ_iff_lt_or_eq.1 hm with hlt | rfl
      · exact .inl ⟨m, hlt, hx⟩
      · exact .inr ⟨hx, hsome hx⟩

theorem Plan.lt_rounds : n < p.rounds ↔ p.currentStageIndex + n < p.stages.length := by
  unfold Plan.rounds
  omega

theorem two_le_count {α : Type} [BEq α] [LawfulBEq α] {f : ℕ → List α} {x : α} {m : ℕ} (hm : x ∈ f m) (hn : x ∈ f n)
    (hlt : m < n) (N : ℕ) (hN : n < N) : 2 ≤ ((range N).flatMap f).count x := by
  induction N with
  | zero => exact absurd hN (Nat.not_lt_zero n)
  | succ N ih =>
    rw [range_succ, flatMap_append, count_append, flatMap_singleton]
    rcases Nat.lt_succ_iff_lt_or_eq.1 hN with hless | rfl
    · exact (ih hless).trans (Nat.le_add_right _ _)
    · have hbefore : x ∈ (range n).flatMap f := mem_flatMap.2 ⟨m, mem_range.2 hlt, hm⟩
      have hone := one_le_count_iff.2 hbefore
      have hone' := one_le_count_iff.2 hn
      omega

/-! ## From the layout to the walk -/

/-- under the layout a round presents the whole stage it is at, and nothing while the index is negative -/
theorem Plan.Layout.presents (h : p.Layout) (hne : ∀ c ∈ p.calls, c.callId ≠ []) (n : ℕ) (x : PyStr) :
    x ∈ (p.walk n).presents ↔ ∃ k c, p.At k c ∧ p.currentStageIndex + n = k ∧ c.callId = x := by
  induction n using Nat.strong_induction_on generalizing x with
  | _ n ih =>
    constructor
    · intro hx
      obtain ⟨k, c, hat, hround, rfl, hready⟩ := Plan.mem_presents.1 hx
      rcases hround with hround | hround
      · exact ⟨k, c, hat, hround, rfl⟩
      · exfalso
        obtain ⟨d, hd, hnot⟩ := h.wrapped k c hat (by omega)
        rcases (Plan.mem_completed hne).1 (hready d hd) with hdone | ⟨m, hm, hpresented⟩
        · exact hnot hdone
        · obtain ⟨k', c', -, hround', -⟩ := (ih m hm d).1 hpresented
          have hlt := hat.lt
          omega
    · rintro ⟨k, c, hat, hround, rfl⟩
      refine Plan.mem_presents.2 ⟨k, c, hat, .inl hround, rfl, fun d hd => ?_⟩
      obtain ⟨k', hk', c', hat', rfl⟩ := h.earlier k c hat d hd
      have hahead := h.ahead k' c' hat'
      refine (Plan.mem_completed hne).2 (.inr ⟨(k' - p.currentStageIndex).toNat, by omega, ?_⟩)
      exact (ih _ (by omega) _).2 ⟨k', c', hat', by omega, rfl⟩

theorem Plan.Layout.walks (h : p.Layout) (hids : (p.calls.map PlanCall.callId).Nodup) (hne : ∀ c ∈ p.calls, c.callId ≠ []) :
    p.Walks := by
  refine ⟨h.inRange, fun c hc => ?_, fun n hn c hc hx d hd => ?_⟩
  · obtain ⟨k, hat⟩ := Plan.mem_calls.1 hc
    have hahead := h.ahead k c hat
    have hlt := hat.lt
    apply count_eq_one_of_mem
    · rw [nodup_flatMap]
      refine ⟨fun n _ => Plan.presents_nodup hids n, ?_⟩
      apply nodup_range.pairwise_of_forall_ne
      intro m _ n _ hmn x hm hn
      obtain ⟨k₁, c₁, hat₁, hround₁, rfl⟩ := (h.presents hne m x).1 hm
      obtain ⟨k₂, c₂, hat₂, hround₂, heq⟩ := (h.presents hne n _).1 hn
      have hsame := hat₂.unique hids hat₁ heq
      omega
    · refine mem_flatMap.2 ⟨(k - p.currentStageIndex).toNat, ?_, ?_⟩
      · rw [mem_range, Plan.lt_rounds]
        omega
      · exact (h.presents hne _ _).2 ⟨k, c, hat, by omega, rfl⟩
  · obtain ⟨k, c', hat, hround, heq⟩ := (h.presents hne n _).1 hx
    obtain ⟨j, hj⟩ := Plan.mem_calls.1 hc
    obtain rfl := hj.unique hids hat heq.symm
    obtain ⟨k', hk', c'', hat', rfl⟩ := h.earlier j c hj d hd
    have hahead := h.ahead k' c'' hat'
    exact ⟨(k' - p.currentStageIndex).toNat, by omega, (h.presents hne _ _).2 ⟨k', c'', hat', by omega, rfl⟩⟩

/-! ## From the walk to the layout -/

theorem Plan.completed_mono (hne : ∀ c ∈ p.calls, c.callId ≠ []) {m : ℕ} (hmn : m ≤ n)
    (h : x ∈ (p.walk m).completedCallIds) : x ∈ (p.walk n).completedCallIds := by
  rcases (Plan.mem_completed hne).1 h with hdone | ⟨i, hi, hx⟩
  · exact (Plan.mem_completed hne).2 (.inl hdone)
  · exact (Plan.mem_completed hne).2 (.inr ⟨i, by omega, hx⟩)

/-- a complete walk presents nothing while the index is negative: it would present it again later -/
theorem Plan.Walks.negative (h : p.Walks) (hne : ∀ c ∈ p.calls, c.callId ≠ []) (hneg : p.currentStageIndex + n < 0)
    (x : PyStr) : x ∉ (p.walk n).presents := by
  intro hx
  obtain ⟨k, c, hat, hround, rfl, hready⟩ := Plan.mem_presents.1 hx
  have hagain : c.callId ∈ (p.walk (n + p.stages.length)).presents := by
    refine Plan.mem_presents.2 ⟨k, c, hat, .inl (by push_cast; omega), rfl, fun d hd => ?_⟩
    exact Plan.completed_mono hne (Nat.le_add_right _ _) (hready d hd)
  have htwo := two_le_count (f := fun n => (p.walk n).presents) hx hagain (by omega) p.rounds (Plan.lt_rounds.2 (by push_cast; omega))
  rw [h.once c (Plan.mem_calls.2 ⟨k, hat⟩)] at htwo
  omega

theorem Plan.Walks.layout (h : p.Walks) (hids : (p.calls.map PlanCall.callId).Nodup) (hne : ∀ c ∈ p.calls, c.callId ≠ []) :
    p.Layout := by
  -- the round in which a call is presented, and that it is the round of its stage
  have hround : ∀ k c, p.At k c → ∃ n < p.rounds, c.callId ∈ (p.walk n).presents ∧ p.currentStageIndex + n = k := by
    intro k c hat
    have hmem : c.callId ∈ (range p.rounds).flatMap (fun n => (p.walk n).presents) := by
      rw [← one_le_count_iff, h.once c (Plan.mem_calls.2 ⟨k, hat⟩)]
    obtain ⟨n, hn, hx⟩ := mem_flatMap.1 hmem
    refine ⟨n, mem_range.1 hn, hx, ?_⟩
    obtain ⟨k', c', hat', hround, heq, -⟩ := Plan.mem_presents.1 hx
    obtain rfl := hat'.unique hids hat heq
    rcases hround with hround | hround
    · exact hround
    · have hlt := hat'.lt
      exact absurd hx (h.negative hne (by omega) _)
  refine ⟨h.inRange, fun k c hat => ?_, fun k c hat d hd => ?_, fun k c hat hwrap => ?_⟩
  · obtain ⟨n, -, -, hk⟩ := hround k c hat
    omega
  · obtain ⟨n, hn, hx, hk⟩ := hround k c hat
    obtain ⟨m, hm, hpresented⟩ := h.ordered n hn c (Plan.mem_calls.2 ⟨k, hat⟩) hx d hd
    obtain ⟨k', c', hat', hround', heq, -⟩ := Plan.mem_presents.1 hpresented
    refine ⟨k', ?_, c', hat', heq⟩
    rcases hround' with hround' | hround'
    · omega
    · have hlt := hat'.lt
      exact absurd hpresented (h.negative hne (by omega) d)
  · have hlt := hat.lt
    by_contra hall
    push Not at hall
    -- at its first visit the call would be ready
    have hneg : p.currentStageIndex + ((k - p.stages.length - p.currentStageIndex).toNat : ℕ) < 0 := by omega
    apply h.negative hne hneg c.callId
    refine Plan.mem_presents.2 ⟨k, c, hat, .inr (by omega), rfl, fun d hd => ?_⟩
    exact (Plan.mem_completed hne).2 (.inl (hall d hd))

/-- **Complete walks.** A walk over a plan with different, non-empty ids is complete exactly for the plans laid out so. -/
theorem walks_iff_layout (hids : (p.calls.map PlanCall.callId).Nodup) (hne : ∀ c ∈ p.calls, c.callId ≠ []) :
    p.Walks ↔ p.Layout :=
  ⟨fun h => h.layout hids hne, fun h => h.walks hids hne⟩

end Agent

end Teardrop
