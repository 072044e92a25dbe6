/-
Prices through their caches (`billing/pricing.py::get_live_pricing_for_model`, `get_live_pricing` and, for the latter,
`teardrop/cache.py::TTLCache.get`): Redis first, then the process, then the database.

Several processes share a Redis and call in any order. `pricing_rules` does not change meanwhile, and no rule becomes effective
(`Meanwhile`). `Weather` says whether there is a Redis client, whether its read and its write succeed, and what the clocks show;
a key may vanish at any time, and a process may start anew. What pydantic makes of the decoded dict is a parameter (`World`);
`World.Lawful`: it reads back the two dumps the program writes. The pool is there: without it the query has no answer either.
-/
import Teardrop.Billing.PricingTable
import Teardrop.Core.Dict
import Teardrop.Core.IsoFormat
import Teardrop.Core.JsonCanonical

namespace Teardrop.Billing.LivePricing

open PyJson DateTime

/-! ## Rules as texts -/

structure World where
  /-- `PricingRule(**data)` of a dict; `none` is a `ValidationError` -/
  validate : List (PyStr × PyJson) → Option PricingRecord
  /-- a datetime in UTC as `model_dump(mode="json")` writes it -/
  jsonTime : ℤ → PyStr
  /-- the recursion the interpreter has left behind the first level -/
  levels : ℕ
  /-- `pricing_cache_ttl_seconds`, in microseconds -/
  ttl : ℤ

/-- the entries of a dumped rule -/
def entries (time : ℤ → PyStr) (r : PricingRecord) : List (PyStr × PyJson) :=
  [(PyStr.ofString "id", .str (PyStr.ofString r.id)), (PyStr.ofString "name", .str (PyStr.ofString r.name)),
   (PyStr.ofString "run_price_usdc", .int r.runPriceUsdc),
   (PyStr.ofString "tokens_in_cost_per_1k", .int r.tokensInCostPer1k),
   (PyStr.ofString "tokens_out_cost_per_1k", .int r.tokensOutCostPer1k),
   (PyStr.ofString "tool_call_cost", .int r.toolCallCost),
   (PyStr.ofString "effective_from", .str (time r.effectiveFrom)),
   (PyStr.ofString "created_at", .str (time r.createdAt))]

/-- `str(datetime)` of an instant in UTC -/
def strTime (t : ℤ) : PyStr := stampText ' ' (zoneText (some 0)) t

/-- the times of a rule are datetimes -/
def Dated (r : PricingRecord) : Prop := inRange r.effectiveFrom = true ∧ inRange r.createdAt = true

instance (r : PricingRecord) : Decidable (Dated r) := inferInstanceAs (Decidable (_ ∧ _))

/-- pydantic reads back what was dumped -/
structure World.Lawful (w : World) : Prop where
  scalar : ∀ t, surrogates (w.jsonTime t) = false
  json : ∀ r, Dated r → w.validate (entries w.jsonTime r) = some r
  plain : ∀ r, Dated r → w.validate (entries strTime r) = some r

variable (w : World)

/-- `json.dumps(rule.model_dump(mode="json") if rule else None)` -/
def ruleText (rule : Option PricingRecord) : Except JsonError PyStr :=
  dumps ⟨true, false⟩ (w.levels + 1) (rule.elim .null (fun r => .obj (entries w.jsonTime r)))

/-- what a text under a model's key gives; `none` is an exception -/
def readRule (text : PyStr) : Option (Option PricingRecord) :=
  match loads (w.levels + 1) text with
  | .ok .null => some none
  | .ok (.obj data) => (w.validate data).map some
  | _ => none

/-- `json.dumps(v.model_dump(), default=str)` -/
def liveText (r : PricingRecord) : Except JsonError PyStr := dumps ⟨true, false⟩ (w.levels + 1) (.obj (entries strTime r))

/-- `PricingRule(**json.loads(raw))`; `none` is an exception -/
def readLive (text : PyStr) : Option PricingRecord :=
  match loads (w.levels + 1) text with
  | .ok (.obj data) => w.validate data
  | _ => none

theorem entries_nodup (time : ℤ → PyStr) (r : PricingRecord) : ((entries time r).map Prod.fst).Nodup := by
  simp only [entries, List.map_cons, List.map_nil]
  decide

variable {time : ℤ → PyStr} {text : PyStr} {x a : String}

theorem loads_entries (htime : ∀ t, surrogates (time t) = false) {r : PricingRecord}
    (h : dumps ⟨true, false⟩ (w.levels + 1) (.obj (entries time r)) = .ok text) :
    loads (w.levels + 1) text = .ok (.obj (entries time r)) := by
  have hfit : intsFit (.obj (entries time r)) = true := by
    unfold dumps at h
    split_ifs at h with hdepth hfit
    simpa using hfit
  have hwf : Wf (.obj (entries time r)) := by
    refine ⟨entries_nodup time r, ?_⟩
    simpa [entries, WfFields, Wf, intsFit, intsFitFields] using hfit
  have hplain : hasSurrogate (.obj (entries time r)) = false := by
    simp [entries, hasSurrogate, hasSurrogateFields, htime]
  exact loads_dumps_scalar hwf hplain h

theorem surrogates_strTime (t : ℤ) : surrogates (strTime t) = false := surrogates_stampText ' ' t (by decide)

theorem readRule_text {w : World} (hw : w.Lawful) {rule : Option PricingRecord} (hdated : ∀ r, rule = some r → Dated r)
    (h : ruleText w rule = .ok text) : readRule w text = some rule := by
  cases rule with
  | none =>
    have hloads := loads_dumps h
    rw [readRule, hloads]
    rfl
  | some r =>
    rw [readRule, loads_entries w hw.scalar h]
    simp [hw.json r (hdated r rfl)]

theorem readLive_text {w : World} (hw : w.Lawful) {r : PricingRecord} (hdated : Dated r) (h : liveText w r = .ok text) :
    readLive w text = some r := by
  rw [readLive, loads_entries w surrogates_strTime h]
  exact hw.plain r hdated

/-! ## The caches -/

structure Request where
  provider : String
  model : String
  isByok : Bool

/-- `f"{provider}:{model}:{is_byok}"` -/
def Request.cacheKey (r : Request) : String := r.provider ++ ":" ++ r.model ++ (if r.isByok then ":True" else ":False")

def Request.redisKey (r : Request) : String :=
  "teardrop:pricing:" ++ (r.provider ++ ":" ++ r.model ++ (if r.isByok then ":byok" else ":std"))

def liveKey : String := "teardrop:pricing:" ++ "active"

/-- one process: the last global rule, the rules by key, and until when each counts -/
structure Proc where
  live : Option PricingRecord
  liveExpires : ℤ
  prices : Dict String (Option PricingRecord × ℤ)

def freshProc : Proc := ⟨none, 0, Dict.empty⟩

structure St where
  redis : Dict String PyStr
  procs : ℕ → Proc

def emptySt : St := ⟨Dict.empty, fun _ => freshProc⟩

def St.setProc (s : St) (who : ℕ) (p : Proc) : St := { s with procs := fun i => if i = who then p else s.procs i }

/-- what a call meets: Redis, the clocks of its three readings, and `NOW()` -/
structure Weather where
  client : Bool
  readOk : Bool
  clientAfter : Bool
  writeOk : Bool
  first : ℤ
  again : ℤ
  stored : ℤ
  now : ℤ

/-- a GET, where there is a client and it succeeds -/
def St.redisGet (s : St) (e : Weather) (key : String) : Option PyStr := if e.client && e.readOk then s.redis.get? key else none

/-- a SETEX, where there is a client, the value can be written as JSON, and the command succeeds -/
def St.redisSet (s : St) (e : Weather) (key : String) (text : Except JsonError PyStr) : St :=
  match text with
  | .ok text => if e.clientAfter && e.writeOk then { s with redis := s.redis.set key text } else s
  | .error _ => s

/-- the loader's rule, stored in both tiers unless there is none -/
def loadLive (table : PricingTable) (s : St) (who : ℕ) (e : Weather) : Option PricingRecord × St :=
  match getCurrentPricing table e.now with
  | none => (none, s)
  | some rule =>
    (some rule, (s.setProc who { s.procs who with live := some rule, liveExpires := e.stored + w.ttl }).redisSet e liveKey
      (liveText w rule))

/-- `TTLCache.get` of the global rule -/
def getLivePricing (table : PricingTable) (s : St) (who : ℕ) (e : Weather) : Option PricingRecord × St :=
  let proc := s.procs who
  match (s.redisGet e liveKey).bind (readLive w) with
  | some rule => (some rule, s)
  | none =>
    if proc.live ≠ none ∧ (e.first < proc.liveExpires ∨ e.again < proc.liveExpires) then (proc.live, s)
    else loadLive w table s who e

/-- the entry of a key, while it counts -/
def Proc.entry (p : Proc) (key : String) (e : Weather) : Option (Option PricingRecord) :=
  match p.prices.get? key with
  | some (rule, expires) => if e.first < expires ∨ e.again < expires then some rule else none
  | none => none

/-- the query's rule, stored in both tiers, also where there is none -/
def loadRule (table : PricingTable) (s : St) (who : ℕ) (e : Weather) (r : Request) : Option PricingRecord × St :=
  let rule := getCurrentPricingForModel table e.now r.provider r.model r.isByok
  let proc := { s.procs who with prices := (s.procs who).prices.set r.cacheKey (rule, e.stored + w.ttl) }
  (rule, (s.setProc who proc).redisSet e r.redisKey (ruleText w rule))

def getLivePricingForModel (table : PricingTable) (s : St) (who : ℕ) (e : Weather) (r : Request) : Option PricingRecord × St :=
  if r.provider = "" ∧ r.model = "" then getLivePricing w table s who e
  else
    match (s.redisGet e r.redisKey).bind (readRule w) with
    | some rule => (rule, s)
    | none =>
      match (s.procs who).entry r.cacheKey e with
      | some rule => (rule, s)
      | none => loadRule w table s who e r

/-! ## Runs -/

inductive Op where
  | call (who : ℕ) (e : Weather) (r : Request)
  /-- a key expires in Redis, or is evicted -/
  | vanish (key : String)
  | restart (who : ℕ)

def step (table : PricingTable) (s : St) : Op → St
  | .call who e r => (getLivePricingForModel w table s who e r).2
  | .vanish key => { s with redis := s.redis.erase key }
  | .restart who => s.setProc who freshProc

/-- each call of a run with its answer -/
def answers (table : PricingTable) : List Op → St → List (Request × Option PricingRecord)
  | [], _ => []
  | .call who e r :: ops, s =>
    (r, (getLivePricingForModel w table s who e r).1) :: answers table ops (step w table s (.call who e r))
  | .vanish key :: ops, s => answers table ops (step w table s (.vanish key))
  | .restart who :: ops, s => answers table ops (step w table s (.restart who))

def calls : List Op → List (Request × Weather)
  | [] => []
  | .call _ e r :: ops => (r, e) :: calls ops
  | .vanish _ :: ops => calls ops
  | .restart _ :: ops => calls ops

/-! ## A table that stays as it is -/

/-- a table from `start` to `stop`: nothing is written to it, and no rule becomes effective -/
structure Meanwhile extends PricingTable where
  start : ℤ
  stop : ℤ
  quiet : ∀ row ∈ rows, ¬ (start < row.effectiveFrom ∧ row.effectiveFrom ≤ stop)
  dated : ∀ row ∈ rows, Dated row.toPricingRecord

def Meanwhile.covers (m : Meanwhile) (t : ℤ) : Prop := m.start ≤ t ∧ t ≤ m.stop

instance (m : Meanwhile) (t : ℤ) : Decidable (m.covers t) := inferInstanceAs (Decidable (_ ∧ _))

variable {w : World} {m : Meanwhile}

theorem effective_iff {t : ℤ} (ht : m.covers t) {row : PricingRow} (hrow : row ∈ m.rows) :
    row.effectiveFrom ≤ t ↔ row.effectiveFrom ≤ m.start := by
  have hquiet := m.quiet row hrow
  obtain ⟨hlow, hhigh⟩ := ht
  omega

theorem currentPricing_covers {t : ℤ} (ht : m.covers t) :
    getCurrentPricing m.toPricingTable t = getCurrentPricing m.toPricingTable m.start := by
  unfold getCurrentPricing
  congr 1
  apply List.filter_congr
  intro row hrow
  simp [effective_iff ht hrow]

theorem currentPricingForModel_covers {t : ℤ} (ht : m.covers t) (provider model : String) (isByok : Bool) :
    getCurrentPricingForModel m.toPricingTable t provider model isByok =
      getCurrentPricingForModel m.toPricingTable m.start provider model isByok := by
  unfold getCurrentPricingForModel
  congr 1
  apply List.filter_congr
  intro row hrow
  simp [effective_iff ht hrow]

/-- what the query answers, all the while -/
def Meanwhile.rule (m : Meanwhile) (r : Request) : Option PricingRecord :=
  getCurrentPricingForModel m.toPricingTable m.start r.provider r.model r.isByok

def Meanwhile.globalRule (m : Meanwhile) : Option PricingRecord := getCurrentPricing m.toPricingTable m.start

variable {r : Request} {rule : PricingRecord} {e : Weather}

theorem rule_dated (m : Meanwhile) (h : m.rule r = some rule) : Dated rule := by
  obtain ⟨row, hrow, rfl⟩ := currentPricingForModel_mem h
  exact m.dated row hrow

theorem globalRule_dated (m : Meanwhile) (h : m.globalRule = some rule) : Dated rule := by
  obtain ⟨row, hrow, rfl⟩ := currentPricing_mem h
  exact m.dated row hrow

/-- the name a request goes by in both tiers -/
def Request.pair (r : Request) : String := r.provider ++ ":" ++ r.model

/-- requests that the caches take for one have one answer: those of no provider and no model, which are answered with the
global rule, and those whose provider and model are written alike -/
structure Agreeable (m : Meanwhile) (requests : List Request) : Prop where
  shortcut : ∀ r ∈ requests, r.provider = "" → r.model = "" → m.rule r = m.globalRule
  keys : ∀ r ∈ requests, ∀ r' ∈ requests, r.pair = r'.pair → r.isByok = r'.isByok → m.rule r = m.rule r'

/-! ## Keys -/

theorem append_ends {y b : String} (h : x ++ a = y ++ b) (hends : a.toList.reverse.take 2 ≠ b.toList.reverse.take 2)
    (ha : 2 ≤ a.toList.length) (hb : 2 ≤ b.toList.length) : False := by
  have hchars := congrArg (fun s => s.toList.reverse.take 2) h
  simp only [String.toList_append, List.reverse_append] at hchars
  rw [List.take_append_of_le_length (by rw [List.length_reverse]; exact ha),
    List.take_append_of_le_length (by rw [List.length_reverse]; exact hb)] at hchars
  exact hends hchars

theorem string_append_cancel {y : String} (h : x ++ a = y ++ a) : x = y := by
  have hchars := congrArg String.toList h
  simp only [String.toList_append] at hchars
  exact String.toList_inj.1 (List.append_cancel_right hchars)

theorem string_cancel_append {b : String} (h : x ++ a = x ++ b) : a = b := by
  have hchars := congrArg String.toList h
  simp only [String.toList_append] at hchars
  exact String.toList_inj.1 (List.append_cancel_left hchars)

theorem cacheKey_eq {r' : Request} (h : r.cacheKey = r'.cacheKey) : r.pair = r'.pair ∧ r.isByok = r'.isByok := by
  rw [Request.cacheKey, Request.cacheKey] at h
  cases hr : r.isByok <;> cases hr' : r'.isByok <;> simp only [hr, hr', if_true, if_false, Bool.false_eq_true] at h
  · exact ⟨string_append_cancel h, rfl⟩
  · exact (append_ends h (by decide) (by decide) (by decide)).elim
  · exact (append_ends h (by decide) (by decide) (by decide)).elim
  · exact ⟨string_append_cancel h, rfl⟩

theorem redisKey_eq {r' : Request} (h : r.redisKey = r'.redisKey) : r.pair = r'.pair ∧ r.isByok = r'.isByok := by
  have h := string_cancel_append h
  cases hr : r.isByok <;> cases hr' : r'.isByok <;> simp only [hr, hr', if_true, if_false, Bool.false_eq_true] at h
  · exact ⟨string_append_cancel h, rfl⟩
  · exact (append_ends h (by decide) (by decide) (by decide)).elim
  · exact (append_ends h (by decide) (by decide) (by decide)).elim
  · exact ⟨string_append_cancel h, rfl⟩

theorem redisKey_ne_live (r : Request) : r.redisKey ≠ liveKey := by
  intro h
  have h : r.provider ++ ":" ++ r.model ++ (if r.isByok then ":byok" else ":std") = "" ++ "active" := string_cancel_append h
  cases hr : r.isByok <;> simp only [hr, if_true, if_false, Bool.false_eq_true] at h
  · exact append_ends h (by decide) (by decide) (by decide)
  · exact append_ends h (by decide) (by decide) (by decide)

/-! ## Both tiers hold what the query answers -/

/-- every entry is of a request of the run, and is its rule -/
structure Inv (w : World) (m : Meanwhile) (requests : List Request) (s : St) : Prop where
  live : ∀ who rule, (s.procs who).live = some rule → m.globalRule = some rule
  liveText : ∀ text, s.redis.get? liveKey = some text → ∃ rule, m.globalRule = some rule ∧ readLive w text = some rule
  prices : ∀ who key rule expires, (s.procs who).prices.get? key = some (rule, expires) →
    ∃ r ∈ requests, key = r.cacheKey ∧ rule = m.rule r
  texts : ∀ key text, key ≠ liveKey → s.redis.get? key = some text →
    ∃ r ∈ requests, key = r.redisKey ∧ readRule w text = some (m.rule r)

theorem inv_empty (requests : List Request) : Inv w m requests emptySt where
  live _ _ h := by cases h
  liveText _ h := by cases h
  prices _ _ _ _ h := by cases h
  texts _ _ _ h := by cases h

variable {requests : List Request} {s : St}

theorem Inv.setProc (hs : Inv w m requests s) (who : ℕ) {p : Proc} (hlive : ∀ rule, p.live = some rule → m.globalRule = some rule)
    (hprices : ∀ key rule expires, p.prices.get? key = some (rule, expires) → ∃ r ∈ requests, key = r.cacheKey ∧ rule = m.rule r) :
    Inv w m requests (s.setProc who p) where
  live i rule h := by
    simp only [St.setProc] at h
    split_ifs at h
    · exact hlive rule h
    · exact hs.live i rule h
  liveText := hs.liveText
  prices i key rule expires h := by
    simp only [St.setProc] at h
    split_ifs at h
    · exact hprices key rule expires h
    · exact hs.prices i key rule expires h
  texts := hs.texts

theorem inv_setLive (hw : w.Lawful) (hs : Inv w m requests s) (e : Weather) (hrule : m.globalRule = some rule) :
    Inv w m requests (s.redisSet e liveKey (liveText w rule)) := by
  cases htext : liveText w rule with
  | error err => exact hs
  | ok text =>
    simp only [St.redisSet]
    split_ifs
    · refine ⟨hs.live, ?_, hs.prices, ?_⟩
      · intro text' h
        rw [Dict.get?_set, if_pos rfl] at h
        obtain rfl := Option.some.inj h
        exact ⟨rule, hrule, readLive_text hw (globalRule_dated m hrule) htext⟩
      · intro key text' hne h
        rw [Dict.get?_set, if_neg hne] at h
        exact hs.texts key text' hne h
    · exact hs

theorem inv_setRule (hw : w.Lawful) (hs : Inv w m requests s) (e : Weather) (hr : r ∈ requests) :
    Inv w m requests (s.redisSet e r.redisKey (ruleText w (m.rule r))) := by
  cases htext : ruleText w (m.rule r) with
  | error err => exact hs
  | ok text =>
    simp only [St.redisSet]
    split_ifs
    · refine ⟨hs.live, ?_, hs.prices, ?_⟩
      · intro text' h
        rw [Dict.get?_set, if_neg (redisKey_ne_live r).symm] at h
        exact hs.liveText text' h
      · intro key text' hne h
        rw [Dict.get?_set] at h
        split_ifs at h with hkey
        · obtain rfl := Option.some.inj h
          exact ⟨r, hr, hkey, readRule_text hw (fun _ hrule => rule_dated m hrule) htext⟩
        · exact hs.texts key text' hne h
    · exact hs

/-! ## Calls -/

theorem redisGet_bind {α : Type} {key : String} {read : PyStr → Option α} {a : α}
    (h : (s.redisGet e key).bind read = some a) : ∃ text, s.redis.get? key = some text ∧ read text = some a := by
  obtain ⟨text, htext, hread⟩ := Option.bind_eq_some_iff.1 h
  rw [St.redisGet] at htext
  split_ifs at htext
  exact ⟨text, htext, hread⟩

theorem loadLive_spec (hw : w.Lawful) (hs : Inv w m requests s) (who : ℕ) (he : m.covers e.now) :
    (loadLive w m.toPricingTable s who e).1 = m.globalRule ∧ Inv w m requests (loadLive w m.toPricingTable s who e).2 := by
  have hquery : getCurrentPricing m.toPricingTable e.now = m.globalRule := currentPricing_covers he
  cases hglobal : m.globalRule with
  | none =>
    simp only [loadLive, hquery, hglobal]
    exact ⟨trivial, hs⟩
  | some rule =>
    have hproc : Inv w m requests (s.setProc who { s.procs who with live := some rule, liveExpires := e.stored + w.ttl }) := by
      refine Inv.setProc hs who ?_ ?_
      · intro rule' h
        rw [hglobal]
        exact h
      · exact hs.prices who
    simp only [loadLive, hquery, hglobal]
    exact ⟨trivial, inv_setLive hw hproc e hglobal⟩

theorem getLivePricing_spec (hw : w.Lawful) (hs : Inv w m requests s) (who : ℕ) (he : m.covers e.now) :
    (getLivePricing w m.toPricingTable s who e).1 = m.globalRule ∧ Inv w m requests (getLivePricing w m.toPricingTable s who e).2 := by
  unfold getLivePricing
  cases hread : (s.redisGet e liveKey).bind (readLive w) with
  | some rule =>
    obtain ⟨text, htext, hrule⟩ := redisGet_bind hread
    obtain ⟨rule', hglobal, hrule'⟩ := hs.liveText text htext
    rw [hrule] at hrule'
    obtain rfl := Option.some.inj hrule'
    exact ⟨hglobal.symm, hs⟩
  | none =>
    simp only
    by_cases hkept : (s.procs who).live ≠ none ∧ (e.first < (s.procs who).liveExpires ∨ e.again < (s.procs who).liveExpires)
    · rw [if_pos hkept]
      obtain ⟨rule, hrule⟩ := Option.ne_none_iff_exists'.1 hkept.1
      exact ⟨hrule.trans (hs.live who rule hrule).symm, hs⟩
    · rw [if_neg hkept]
      exact loadLive_spec hw hs who he

theorem loadRule_spec (hw : w.Lawful) (hs : Inv w m requests s) (who : ℕ) (he : m.covers e.now) (hr : r ∈ requests) :
    (loadRule w m.toPricingTable s who e r).1 = m.rule r ∧ Inv w m requests (loadRule w m.toPricingTable s who e r).2 := by
  have hquery : getCurrentPricingForModel m.toPricingTable e.now r.provider r.model r.isByok = m.rule r :=
    currentPricingForModel_covers he r.provider r.model r.isByok
  have hproc : Inv w m requests (s.setProc who
      { s.procs who with prices := (s.procs who).prices.set r.cacheKey (m.rule r, e.stored + w.ttl) }) := by
    refine Inv.setProc hs who ?_ ?_
    · exact hs.live who
    · intro key rule expires h
      rw [Dict.get?_set] at h
      split_ifs at h with hkey
      · exact ⟨r, hr, hkey, (congrArg Prod.fst (Option.some.inj h)).symm⟩
      · exact hs.prices who key rule expires h
  simp only [loadRule, hquery]
  exact ⟨trivial, inv_setRule hw hproc e hr⟩

theorem call_spec (hw : w.Lawful) (hagree : Agreeable m requests) (hs : Inv w m requests s) (who : ℕ) (he : m.covers e.now)
    (hr : r ∈ requests) :
    (getLivePricingForModel w m.toPricingTable s who e r).1 = m.rule r ∧
      Inv w m requests (getLivePricingForModel w m.toPricingTable s who e r).2 := by
  unfold getLivePricingForModel
  by_cases hempty : r.provider = "" ∧ r.model = ""
  · rw [if_pos hempty, hagree.shortcut r hr hempty.1 hempty.2]
    exact getLivePricing_spec hw hs who he
  · rw [if_neg hempty]
    cases hread : (s.redisGet e r.redisKey).bind (readRule w) with
    | some rule =>
      obtain ⟨text, htext, hrule⟩ := redisGet_bind hread
      obtain ⟨r', hr', hkey, hrule'⟩ := hs.texts r.redisKey text (redisKey_ne_live r) htext
      obtain ⟨hpair, hbyok⟩ := redisKey_eq hkey
      rw [hrule] at hrule'
      obtain rfl := Option.some.inj hrule'
      exact ⟨(hagree.keys r hr r' hr' hpair hbyok).symm, hs⟩
    | none =>
      cases hentry : (s.procs who).entry r.cacheKey e with
      | some rule =>
        rw [Proc.entry] at hentry
        cases hget : (s.procs who).prices.get? r.cacheKey with
        | none => simp [hget] at hentry
        | some kept =>
          obtain ⟨rule', expires⟩ := kept
          simp only [hget] at hentry
          split_ifs at hentry
          obtain rfl := Option.some.inj hentry
          obtain ⟨r', hr', hkey, hrule⟩ := hs.prices who r.cacheKey rule' expires hget
          obtain ⟨hpair, hbyok⟩ := cacheKey_eq hkey
          exact ⟨hrule.trans (hagree.keys r hr r' hr' hpair hbyok).symm, hs⟩
      | none => exact loadRule_spec hw hs who he hr

theorem inv_vanish (hs : Inv w m requests s) (key : String) : Inv w m requests { s with redis := s.redis.erase key } := by
  have hkept : ∀ k text, (s.redis.erase key).get? k = some text → s.redis.get? k = some text := by
    intro k text h
    rw [Dict.get?_erase] at h
    split_ifs at h
    exact h
  exact ⟨hs.live, fun text h => hs.liveText text (hkept _ text h), hs.prices, fun k text hne h => hs.texts k text hne (hkept k text h)⟩

theorem inv_restart (hs : Inv w m requests s) (who : ℕ) : Inv w m requests (s.setProc who freshProc) := by
  refine hs.setProc who ?_ ?_
  · intro rule h
    cases h
  · intro key rule expires h
    cases h

theorem answers_spec (hw : w.Lawful) (hagree : Agreeable m requests) (ops : List Op) (s : St) (hs : Inv w m requests s)
    (hcalls : ∀ c ∈ calls ops, c.1 ∈ requests ∧ m.covers c.2.now) :
    ∀ a ∈ answers w m.toPricingTable ops s, a.2 = m.rule a.1 := by
  induction ops generalizing s with
  | nil =>
    intro a ha
    cases ha
  | cons op ops ih =>
    cases op with
    | call who e r =>
      obtain ⟨hr, he⟩ := hcalls (r, e) List.mem_cons_self
      obtain ⟨hanswer, hnext⟩ := call_spec hw hagree hs who he hr
      intro a ha
      rcases List.mem_cons.1 ha with rfl | ha
      · exact hanswer
      · exact ih _ hnext (fun c hc => hcalls c (List.mem_cons_of_mem _ hc)) a ha
    | vanish key => exact ih _ (inv_vanish hs key) hcalls
    | restart who => exact ih _ (inv_restart hs who) hcalls

/-- **Cached prices are the query's.** In every run whose calls agree, whatever Redis and the clocks do, every answer is
what the query gives at any time of the period. -/
theorem cached_prices (w : World) (hw : w.Lawful) (m : Meanwhile) (ops : List Op)
    (hnow : ∀ c ∈ calls ops, m.covers c.2.now) (hagree : Agreeable m ((calls ops).map Prod.fst)) :
    ∀ a ∈ answers w m.toPricingTable ops emptySt, ∀ t, m.covers t →
      a.2 = getCurrentPricingForModel m.toPricingTable t a.1.provider a.1.model a.1.isByok := by
  intro a ha t ht
  rw [currentPricingForModel_covers ht]
  refine answers_spec hw hagree ops emptySt (inv_empty _) ?_ a ha
  intro c hc
  exact ⟨List.mem_map_of_mem hc, hnow c hc⟩

/-! ### Pydantic on plain dicts, and runs of three calls -/

def textField (data : List (PyStr × PyJson)) (key : String) : Option String :=
  match lookup (PyStr.ofString key) data with
  | some (.str s) => some (String.ofList (s.map toChar))
  | _ => none

def intField (data : List (PyStr × PyJson)) (key : String) : Option ℤ :=
  match lookup (PyStr.ofString key) data with
  | some (.int n) => some n
  | _ => none

/-- the instant of a time with an offset -/
def timeField (data : List (PyStr × PyJson)) (key : String) : Option ℤ :=
  match lookup (PyStr.ofString key) data with
  | some (.str s) => (fromisoformat s).bind (fun t => t.offset.map (fun o => t.wall - o))
  | _ => none

def sampleValidate (data : List (PyStr × PyJson)) : Option PricingRecord :=
  match textField data "id", textField data "name", intField data "run_price_usdc", intField data "tokens_in_cost_per_1k",
    intField data "tokens_out_cost_per_1k", intField data "tool_call_cost", timeField data "effective_from",
    timeField data "created_at" with
  | some id, some name, some run, some tokensIn, some tokensOut, some tool, some effective, some created =>
    some ⟨⟨id, run, tokensIn, tokensOut, tool⟩, name, effective, created⟩
  | _, _, _, _, _, _, _, _ => none

def sampleWorld : World where
  validate := sampleValidate
  jsonTime := stampText 'T' (punct 'Z')
  levels := 9
  ttl := 300000000

theorem chars_ofString (s : String) : String.ofList ((PyStr.ofString s).map toChar) = s := by
  rw [PyStr.ofString, List.map_map]
  have hid : toChar ∘ PyChar.ofChar = id := funext toChar_ofChar
  rw [hid, List.map_id, String.ofList_toList]

theorem sampleValidate_entries (htime : ∀ t, inRange t = true → fromisoformat (time t) = some ⟨t, some 0⟩)
    {r : PricingRecord} (hr : Dated r) : sampleValidate (entries time r) = some r := by
  have hid : textField (entries time r) "id" = some r.id := congrArg some (chars_ofString r.id)
  have hname : textField (entries time r) "name" = some r.name := congrArg some (chars_ofString r.name)
  have hrun : intField (entries time r) "run_price_usdc" = some r.runPriceUsdc := rfl
  have hin : intField (entries time r) "tokens_in_cost_per_1k" = some r.tokensInCostPer1k := rfl
  have hout : intField (entries time r) "tokens_out_cost_per_1k" = some r.tokensOutCostPer1k := rfl
  have htool : intField (entries time r) "tool_call_cost" = some r.toolCallCost := rfl
  have heffective : timeField (entries time r) "effective_from" = some r.effectiveFrom := by
    show (fromisoformat (time r.effectiveFrom)).bind _ = _
    rw [htime _ hr.1]
    simp
  have hcreated : timeField (entries time r) "created_at" = some r.createdAt := by
    show (fromisoformat (time r.createdAt)).bind _ = _
    rw [htime _ hr.2]
    simp
  rw [sampleValidate, hid, hname, hrun, hin, hout, htool, heffective, hcreated]

theorem sampleWorld_lawful : sampleWorld.Lawful where
  scalar t := surrogates_stampText 'T' t (by decide)
  json r hr := sampleValidate_entries (fun _ ht => fromisoformat_stampText ht _ (fun _ hc => parseTime_z hc)) hr
  plain r hr := by
    refine sampleValidate_entries (fun t ht => fromisoformat_stampText ht _ (fun c hc => parseTime_text hc ?_)) hr
    rintro o ⟨⟩
    decide

def sampleRow (id provider model : String) (isByok : Bool) (price : ℤ) : PricingRow where
  id := id
  runPriceUsdc := price
  tokensInCostPer1k := price
  tokensOutCostPer1k := price
  toolCallCost := 0
  name := id
  effectiveFrom := 0
  createdAt := 0
  provider := provider
  model := model
  isByok := isByok

/-- a global rule on each kind of keys, and two models whose names are written alike -/
def sampleTable : Meanwhile where
  rows := [sampleRow "std" "" "" false 10, sampleRow "byok" "" "" true 1, sampleRow "first" "a:b" "c" false 20,
    sampleRow "second" "a" "b:c" false 30]
  ids := by decide
  start := 5
  stop := 9
  quiet := by decide
  dated := by decide

/-- no Redis, and nothing kept for so long that it counts no more -/
def calm (now : ℤ) : Weather := ⟨false, false, false, false, now, now, now, now⟩

theorem cached_prices_sample : ∃ l, l = answers sampleWorld sampleTable.toPricingTable
    [.call 0 (calm 5) ⟨"a:b", "c", false⟩, .call 0 (calm 6) ⟨"a:b", "c", false⟩, .call 0 (calm 7) ⟨"", "", false⟩] emptySt ∧
    ∀ a ∈ l, ∀ t, sampleTable.covers t → a.2 = getCurrentPricingForModel sampleTable.toPricingTable t a.1.provider a.1.model a.1.isByok := by
  refine ⟨_, rfl, cached_prices sampleWorld sampleWorld_lawful sampleTable _ (by decide) ⟨?_, ?_⟩⟩
  · decide
  · decide

/-- **Two runs whose answers are not the query's.** A BYOK request without provider and model is answered with the rule of
the platform's keys; and `a` with `b:c` is answered with the rule of `a:b` with `c`, asked for before. -/
theorem cached_prices_fail : (∃ a ∈ answers sampleWorld sampleTable.toPricingTable [.call 0 (calm 5) ⟨"", "", true⟩] emptySt,
      a.2 ≠ getCurrentPricingForModel sampleTable.toPricingTable 5 a.1.provider a.1.model a.1.isByok) ∧
    (∃ a ∈ answers sampleWorld sampleTable.toPricingTable
        [.call 0 (calm 5) ⟨"a:b", "c", false⟩, .call 0 (calm 6) ⟨"a", "b:c", false⟩] emptySt,
      a.2 ≠ getCurrentPricingForModel sampleTable.toPricingTable 6 a.1.provider a.1.model a.1.isByok) := by
  decide +kernel

end Teardrop.Billing.LivePricing
