/-
The hit counters of the discovery surfaces (`teardrop/funnel_counters.py`): hits are counted in the process, by surface and
hour, and flushes add the counts to `discovery_stage_counts`.

A flush copies the counters, awaits its write, which is committed as a whole or not at all, and drops the keys of its copy when
it resumes. Hits and other flushes may come in between. `recorded` is a log of the hits that were counted.
-/
import Teardrop.Core.Dict
import Teardrop.Core.Runs

namespace Teardrop.Discovery

open Teardrop.Runs

/-! ## Surfaces -/

def clientClasses : List String := ["bot", "mcp", "browser", "script", "unknown"]

def mcpHosts : List String :=
  ["claude", "cursor", "vscode", "openai", "inspector", "x402", "cline", "roo", "windsurf", "zed", "continue", "goose",
    "cherry", "librechat", "n8n", "dify", "openwebui", "kiro", "augment", "copilot", "qwen", "gemini", "sdk", "bot", "other",
    "none"]

def sourceTags : List String := ["smithery", "glama", "pulsemcp", "mcp-so", "agent-tools", "github", "docs", "other"]

def validSurfaces : List String :=
  ["agent_card", "x402_discovery", "mcp_server_card", "catalog", "quote", "tools_list", "tools_list_anon",
    "mcp_402_challenge", "mcp_402_no_payment", "mcp_402_payment_invalid", "mcp_modern_envelope", "mcp_request",
    "tools_call_free_anon"] ++
  ["mcp_402_anon_client:", "discover_client:", "tools_list_anon_client:", "tools_call_free_anon_client:"].flatMap
    (fun stem => clientClasses.map (stem ++ ·)) ++
  ["mcp_initialize:", "mcp_call_client:"].flatMap (fun stem => mcpHosts.map (stem ++ ·)) ++
  ["tools_list_anon_src:", "mcp_402_anon_src:", "tools_call_free_anon_src:", "x402_settled_src:"].flatMap
    (fun stem => sourceTags.map (stem ++ ·))

/-- `[a-z][a-z0-9_]{0,63}` -/
def isFreeToolName : List Char → Bool
  | [] => false
  | c :: cs => c.isLower && cs.length ≤ 63 && cs.all (fun d => d.isLower || d.isDigit || d = '_')

def freeToolStem : List Char := "tools_call_free_anon_tool:".toList

def isValidSurface (surface : String) : Bool :=
  surface ∈ validSurfaces ||
    (freeToolStem.isPrefixOf surface.toList && isFreeToolName (surface.toList.drop freeToolStem.length))

/-! ## The counters -/

/-- a surface and an hour -/
abbrev Key := String × ℤ

abbrev Counts := Dict Key ℕ

inductive Flush where
  /-- it awaits its write -/
  | sent (pending : Counts)
  /-- its write is committed -/
  | written (pending : Counts)
  /-- it returned the number of its buckets -/
  | returned (flushed : ℕ)

structure St where
  counters : Counts := Dict.empty
  stored : Key → ℕ := fun _ => 0
  recorded : Key → ℕ := fun _ => 0
  flushes : List Flush := []

inductive Op where
  /-- `record_discovery_hit` at a time in microseconds -/
  | hit (surface : String) (now : ℤ)
  | start
  | write (i : ℕ)
  | fail (i : ℕ)
  | resume (i : ℕ)

def bucketHour (now : ℤ) : ℤ := now / 3600000000

/-- `for key in pending: _counters.pop(key, None)` -/
def dropKeys (pending counters : Counts) : Counts := pending.keys.foldl Dict.erase counters

def recordHit (enabled : Bool) (surface : String) (now : ℤ) (s : St) : St :=
  if enabled && isValidSurface surface then
    let key := (surface, bucketHour now)
    { s with
      counters := s.counters.set key (s.counters.getD key 0 + 1)
      recorded := Function.update s.recorded key (s.recorded key + 1) }
  else s

/-- a flush begins: without counters it returns at once -/
def startFlush (s : St) : St :=
  if s.counters.entries = [] then { s with flushes := s.flushes ++ [.returned 0] }
  else { s with flushes := s.flushes ++ [.sent s.counters] }

def step (enabled : Bool) (s : St) : Op → St
  | .hit surface now => recordHit enabled surface now s
  | .start => startFlush s
  | .write i =>
    match s.flushes[i]? with
    | some (.sent pending) =>
      { s with stored := fun k => s.stored k + pending.getD k 0, flushes := s.flushes.set i (.written pending) }
    | _ => s
  | .fail i =>
    match s.flushes[i]? with
    | some (.sent _) => { s with flushes := s.flushes.set i (.returned 0) }
    | _ => s
  | .resume i =>
    match s.flushes[i]? with
    | some (.written pending) =>
      { s with
        counters := dropKeys pending s.counters, flushes := s.flushes.set i (.returned pending.keys.length) }
    | _ => s

/-! ## The balance -/

/-- what a flush has stored and not yet dropped -/
def Flush.unsettled (k : Key) : Flush → ℕ
  | .written pending => pending.getD k 0
  | _ => 0

def unsettled (s : St) (k : Key) : ℕ := (s.flushes.map (Flush.unsettled k)).sum

/-- stored and pending hits are the recorded ones, but for those that a flush has stored and is about to drop -/
def Balanced (s : St) : Prop := ∀ k, s.stored k + s.counters.getD k 0 = s.recorded k + unsettled s k

/-- a flush that resumes finds the counts it copied: no hit was added to them, and no other flush dropped them -/
def Unchanged (s : St) : Op → Prop
  | .resume i =>
    match s.flushes[i]? with
    | some (.written pending) => ∀ k ∈ pending.keys, s.counters.getD k 0 = pending.getD k 0
    | _ => True
  | _ => True

theorem getD_dropKeys (pending counters : Counts) (k : Key) :
    (dropKeys pending counters).getD k 0 = if k ∈ pending.keys then 0 else counters.getD k 0 := by
  have hfold : ∀ (ks : List Key) (counters : Counts),
      (ks.foldl Dict.erase counters).getD k 0 = if k ∈ ks then 0 else counters.getD k 0 := by
    intro ks
    induction ks with
    | nil => simp
    | cons k' ks ih =>
      intro counters
      rw [List.foldl_cons, ih]
      by_cases hmem : k ∈ ks
      · simp [hmem]
      · by_cases hk : k = k'
        · simp [hk, Dict.getD]
        · simp [hk, Dict.getD]
  exact hfold pending.keys counters

theorem getD_of_notMem {counts : Counts} {k : Key} (h : k ∉ counts.keys) : counts.getD k 0 = 0 := by
  rw [Dict.getD, Dict.get?_eq_none_iff.2 h]
  rfl

theorem unsettled_set {s : St} {i : ℕ} {flush : Flush} (h : s.flushes[i]? = some flush) (flush' : Flush) (k : Key) :
    ((s.flushes.set i flush').map (Flush.unsettled k)).sum + flush.unsettled k = unsettled s k + flush'.unsettled k := by
  obtain ⟨hi, rfl⟩ := List.getElem?_eq_some_iff.1 h
  have hsplit : s.flushes = s.flushes.take i ++ s.flushes[i] :: s.flushes.drop (i + 1) := by simp
  have hset : s.flushes.set i flush' = s.flushes.take i ++ flush' :: s.flushes.drop (i + 1) := by
    rw [List.set_eq_take_append_cons_drop, if_pos hi]
  rw [unsettled, hset]
  conv_rhs => rw [hsplit]
  simp only [List.map_append, List.map_cons, List.sum_append, List.sum_cons]
  omega

theorem unsettled_snoc {s s' : St} {flush : Flush} (h : s'.flushes = s.flushes ++ [flush]) (hnew : ∀ k, flush.unsettled k = 0)
    (k : Key) : unsettled s' k = unsettled s k := by
  rw [unsettled, h, List.map_append, List.sum_append]
  simp [hnew, unsettled]

theorem recordHit_balanced {enabled : Bool} {surface : String} {now : ℤ} {s : St} (h : Balanced s) :
    Balanced (recordHit enabled surface now s) := by
  unfold recordHit
  split_ifs
  · intro k
    have hk := h k
    simp only [unsettled, Dict.getD_set, Function.update_apply] at hk ⊢
    split_ifs with heq
    · subst heq
      omega
    · exact hk
  · exact h

theorem startFlush_balanced {s : St} (h : Balanced s) : Balanced (startFlush s) := by
  unfold startFlush
  split_ifs
  · intro k
    rw [unsettled_snoc rfl (fun _ => rfl)]
    exact h k
  · intro k
    rw [unsettled_snoc rfl (fun _ => rfl)]
    exact h k

theorem step_balanced_iff (enabled : Bool) (s : St) (op : Op) (h : Balanced s) :
    Balanced (step enabled s op) ↔ Unchanged s op := by
  cases op with
  | hit surface now => exact iff_of_true (recordHit_balanced h) trivial
  | start => exact iff_of_true (startFlush_balanced h) trivial
  | write i =>
    refine iff_of_true ?_ trivial
    rw [step]
    split
    · rename_i pending hflush
      intro k
      have hset := unsettled_set hflush (.written pending) k
      have hk := h k
      simp only [Flush.unsettled] at hset
      simp only [unsettled] at hset hk ⊢
      omega
    · exact h
  | fail i =>
    refine iff_of_true ?_ trivial
    rw [step]
    split
    · rename_i pending hflush
      intro k
      have hset := unsettled_set hflush (.returned 0) k
      have hk := h k
      simp only [Flush.unsettled] at hset
      simp only [unsettled] at hset hk ⊢
      omega
    · exact h
  | resume i =>
    rw [step, Unchanged]
    split
    · rename_i pending hflush
      have hkey : ∀ k, s.stored k + (dropKeys pending s.counters).getD k 0 = s.recorded k +
          ((s.flushes.set i (.returned pending.keys.length)).map (Flush.unsettled k)).sum ↔
          (k ∈ pending.keys → s.counters.getD k 0 = pending.getD k 0) := by
        intro k
        have hset := unsettled_set hflush (.returned pending.keys.length) k
        have hk := h k
        simp only [Flush.unsettled] at hset
        rw [getD_dropKeys]
        by_cases hmem : k ∈ pending.keys
        · simp only [hmem, if_true, true_implies]
          omega
        · have hzero := getD_of_notMem hmem
          simp only [hmem, if_false, false_implies, iff_true]
          omega
      exact ⟨fun hb k => (hkey k).1 (hb k), fun hu k => (hkey k).2 (hu k)⟩
    · exact iff_of_true h trivial

/-- between its flushes' writes and their resumptions, stored and pending hits are the recorded ones -/
theorem Balanced.settled {s : St} (h : Balanced s) (hidle : ∀ pending, .written pending ∉ s.flushes) (k : Key) :
    s.stored k + s.counters.getD k 0 = s.recorded k := by
  have hzero : unsettled s k = 0 := by
    apply List.sum_eq_zero
    intro n hn
    obtain ⟨flush, hflush, rfl⟩ := List.mem_map.1 hn
    cases flush with
    | sent _ | returned _ => rfl
    | written pending => exact absurd hflush (hidle pending)
  rw [h k, hzero, add_zero]

/-- **Neither lost nor doubled.** For every interleaving of hits and flushes: every state of the run balances if and only if
every flush that resumes finds the counts it copied. In such a run, in every state in which no flush is about to drop what it
has stored, the stored and the pending hits of every surface and hour are the recorded ones. -/
theorem counters_exact_iff (enabled : Bool) (ops : List Op) :
    ((∀ n, Balanced (run (step enabled) {} (ops.take n))) ↔ Legal (step enabled) Unchanged {} ops) ∧
      (Legal (step enabled) Unchanged {} ops → ∀ n,
        let s := run (step enabled) {} (ops.take n)
        (∀ pending, .written pending ∉ s.flushes) → ∀ k, s.stored k + s.counters.getD k 0 = s.recorded k) := by
  have hiff : (∀ n, Balanced (run (step enabled) {} (ops.take n))) ↔ Legal (step enabled) Unchanged {} ops :=
    legal_iff (step enabled) Unchanged Balanced (step_balanced_iff enabled) ops (fun _ => rfl)
  exact ⟨hiff, fun hlegal n hidle k => (hiff.2 hlegal n).settled hidle k⟩

/-- a hit while a flush awaits its write -/
def lateHit : St := run (step true) {} [.hit "quote" 0, .start, .hit "quote" 1, .write 0, .resume 0]

/-- two flushes at once -/
def overlap : St := run (step true) {} [.hit "quote" 0, .start, .start, .write 0, .resume 0, .write 1, .resume 1]

/-- the one loses a hit, the other stores one twice -/
theorem discovery_hits_miscounted :
    lateHit.stored ("quote", 0) + lateHit.counters.getD ("quote", 0) 0 = 1 ∧ lateHit.recorded ("quote", 0) = 2 ∧
      overlap.stored ("quote", 0) + overlap.counters.getD ("quote", 0) 0 = 2 ∧ overlap.recorded ("quote", 0) = 1 := by
  decide +kernel

end Teardrop.Discovery
