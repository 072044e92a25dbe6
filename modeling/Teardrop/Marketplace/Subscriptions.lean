/-
Subscriptions to marketplace tools (`marketplace/subscriptions.py`), with the deactivation of all subscriptions of a tool that
is unpublished, disabled or deleted (`update_org_tool`, `delete_org_tool`, and the circuit breaker).

A subscription is looked up by its org and tool, which the schema makes unique. What the tool lookup finds, the new UUID and
whether the statement fails otherwise come with the call.
-/
import Teardrop.Core.PyStr
import Teardrop.Core.Runs
import Teardrop.Core.Table

namespace Teardrop.Subscriptions

/-! ## Model -/

structure MarketplaceSubscription where
  id : PyStr
  orgId : PyStr
  qualifiedToolName : PyStr
  isActive : Bool
  subscribedAt : ℤ
  subscribedSchemaHash : Option PyStr

def MarketplaceSubscription.key (r : MarketplaceSubscription) : PyStr × PyStr := (r.orgId, r.qualifiedToolName)

/-- `UNIQUE(org_id, qualified_tool_name)` -/
abbrev Rows := Table MarketplaceSubscription.key

inductive SubscribeError where
  | valueError (msg : PyStr)
  | platformTool (msg : PyStr)
  | selfSubscribe (msg : PyStr)

/-- a row of `get_marketplace_tool_by_name` -/
structure ToolRow where
  orgId : PyStr
  schemaHash : Option PyStr

structure SubscribeCall where
  orgId : PyStr
  qualifiedToolName : PyStr
  toolRow : Option ToolRow
  /-- `uuid.uuid4()` -/
  subId : PyStr
  now : ℤ
  /-- the statement raises -/
  fault : Bool

def platformSlug : PyStr := "platform"

/-- the checks before the statement: the hash of the tool -/
def SubscribeCall.checked (a : SubscribeCall) : Except SubscribeError (Option PyStr) :=
  let (orgSlug, slash, _) := PyStr.partition '/' a.qualifiedToolName
  if slash = [] then .error (.valueError "Tool name must be qualified: \x7borg_slug\x7d/\x7btool_name\x7d")
  else if orgSlug = platformSlug then
    .error (.platformTool ((("'" : PyStr) ++ a.qualifiedToolName) ++
      ("' is a built-in platform tool and is always available without subscription." : PyStr)))
  else match a.toolRow with
    | none => .error (.valueError (("Marketplace tool not found: " : PyStr) ++ a.qualifiedToolName))
    | some tool =>
      if tool.orgId = a.orgId then
        .error (.selfSubscribe (("Cannot subscribe to your own published tool: " : PyStr) ++ a.qualifiedToolName))
      else .ok (tool.schemaHash.filter (· ≠ []))

/-- `INSERT ... ON CONFLICT (org_id, qualified_tool_name) DO UPDATE`: a row keeps its id; `none` when it raises -/
def upsert (rows : Rows) (sub : MarketplaceSubscription) (fault : Bool) : Option Rows :=
  if fault then none
  else match rows.get? sub.key with
    | some _ => some (rows.update (fun r => if r.key = sub.key then
        { r with isActive := true, subscribedAt := sub.subscribedAt, subscribedSchemaHash := sub.subscribedSchemaHash } else r)
        (fun r => by split_ifs <;> rfl))
    | none => if sub.id ∈ rows.rows.map (·.id) then none else rows.insert? sub

def subscribeToTool (rows : Rows) (a : SubscribeCall) : Except SubscribeError MarketplaceSubscription × Rows :=
  match a.checked with
  | .error e => (.error e, rows)
  | .ok hash =>
    let sub : MarketplaceSubscription := ⟨a.subId, a.orgId, a.qualifiedToolName, true, a.now, hash⟩
    match upsert rows sub a.fault with
    | some rows' => (.ok sub, rows')
    | none => (.error (.valueError (("Failed to subscribe to " : PyStr) ++ a.qualifiedToolName)), rows)

/-- `UPDATE ... SET is_active = FALSE` -/
def deactivate (rows : Rows) (p : MarketplaceSubscription → Bool) : Rows :=
  rows.update (fun r => if p r && r.isActive then { r with isActive := false } else r) (fun r => by split_ifs <;> rfl)

def unsubscribeFromTool (rows : Rows) (subscriptionId orgId : PyStr) : Bool × Rows :=
  let p := fun r : MarketplaceSubscription => decide (r.id = subscriptionId ∧ r.orgId = orgId)
  (rows.rows.countP (fun r => p r && r.isActive) ≠ 0, deactivate rows p)

structure World where
  rows : Rows
  /-- the id of the latest successful subscription of an org to a tool -/
  answered : PyStr × PyStr → Option PyStr

inductive Op where
  | subscribe (a : SubscribeCall)
  | unsubscribe (subscriptionId orgId : PyStr)
  /-- the deactivation of a tool -/
  | cascade (qualifiedToolName : PyStr)

def step (w : World) : Op → World
  | .subscribe a => match subscribeToTool w.rows a with
    | (.ok sub, rows) => ⟨rows, Function.update w.answered sub.key (some sub.id)⟩
    | (.error _, rows) => { w with rows }
  | .unsubscribe subscriptionId orgId => { w with rows := (unsubscribeFromTool w.rows subscriptionId orgId).2 }
  | .cascade name => { w with rows := deactivate w.rows (fun r => r.qualifiedToolName = name) }

def run (w : World) (ops : List Op) : World := Runs.run step w ops

/-- nothing answered yet -/
def init (rows : Rows) : World := ⟨rows, fun _ => none⟩

/-! ## Usable ids -/

structure Usable (w : World) : Prop where
  /-- an answered id is the id of the row -/
  own : ∀ k id, w.answered k = some id → (w.rows.get? k).map (·.id) = some id
  /-- and unsubscribes it while it is active -/
  works : ∀ k id r, w.answered k = some id → w.rows.get? k = some r → r.isActive = true →
    (unsubscribeFromTool w.rows id k.1).1 = true
  single : ∀ k, w.rows.rows.countP (fun r => r.key = k ∧ r.isActive = true) ≤ 1

/-- a subscription that passes the checks and is not failed finds no row of the org for the tool, unless under the id it draws -/
def First (w : World) : Op → Prop
  | .subscribe a => ∀ hash, a.checked = .ok hash → a.fault = false →
      ∀ r, w.rows.get? (a.orgId, a.qualifiedToolName) = some r → r.id = a.subId
  | _ => True

theorem usable_of_own {w : World} (h : ∀ k id, w.answered k = some id → (w.rows.get? k).map (·.id) = some id) : Usable w where
  own := h
  works k id r hk hr hactive := by
    have hid := h k id hk
    rw [hr, Option.map_some, Option.some.injEq] at hid
    have hkey := Table.key_of_get? hr
    have hmatch : (decide (r.id = id ∧ r.orgId = k.1) && r.isActive) = true := by
      simp [hid, ← hkey, MarketplaceSubscription.key, hactive]
    have hpos := List.countP_pos_iff (p := fun r => decide (r.id = id ∧ r.orgId = k.1) && r.isActive).2
      ⟨r, Table.mem_of_get? hr, hmatch⟩
    exact decide_eq_true hpos.ne'
  single k := by
    have hle : w.rows.rows.countP (fun r => r.key = k ∧ r.isActive = true) ≤ (w.rows.rows.map (·.key)).count k := by
      rw [List.count, List.countP_map]
      exact List.countP_mono_left fun r _ hr => by simp_all
    exact hle.trans (List.nodup_iff_count_le_one.1 w.rows.nodup k)

/-- an update that keeps ids keeps the answers true -/
theorem usable_update {w : World} (h : Usable w) {f : MarketplaceSubscription → MarketplaceSubscription}
    (hf : ∀ r, (f r).key = r.key) (hid : ∀ r, (f r).id = r.id) : Usable { w with rows := w.rows.update f hf } := by
  refine usable_of_own fun k id hk => ?_
  have hown := h.own k id hk
  simp only [Table.get?_update, Option.map_map]
  rwa [show (fun r => r.id) ∘ f = fun r => r.id from funext hid]

theorem usable_deactivate {w : World} (h : Usable w) (p : MarketplaceSubscription → Bool) :
    Usable { w with rows := deactivate w.rows p } :=
  usable_update h _ (fun r => by split_ifs <;> rfl)

/-- the row after a successful subscription has the id of the old one, if there was one -/
theorem upsert_get? {rows rows' : Rows} {sub : MarketplaceSubscription} {fault : Bool} (h : upsert rows sub fault = some rows')
    (k : PyStr × PyStr) : (rows'.get? k).map (·.id) =
      if k = sub.key then some (((rows.get? sub.key).map (·.id)).getD sub.id) else (rows.get? k).map (·.id) := by
  unfold upsert at h
  rw [ite_eq_iff] at h
  obtain ⟨-, h⟩ := h.resolve_left (fun h => by cases h.2)
  split at h
  · rename_i r hr
    cases h
    rw [Table.get?_update, Option.map_map]
    have hid : ∀ o : Option MarketplaceSubscription, o.map ((fun r => r.id) ∘ fun r => if r.key = sub.key then
        { r with isActive := true, subscribedAt := sub.subscribedAt, subscribedSchemaHash := sub.subscribedSchemaHash } else r) =
          o.map (·.id) := fun o => Option.map_congr fun r _ => by dsimp only [Function.comp]; split_ifs <;> rfl
    rw [hid]
    split_ifs with hk
    · rw [hk, hr]
      rfl
    · rfl
  · rename_i hnone
    split_ifs at h
    rw [Table.get?_insert h]
    by_cases hk : k = sub.key
    · simp [hk, hnone]
    · simp [hk, Ne.symm hk]

theorem upsert_of_row {rows : Rows} {sub r : MarketplaceSubscription} (h : rows.get? sub.key = some r) :
    upsert rows sub false ≠ none := by
  simp [upsert, h]

theorem step_iff {w : World} (h : Usable w) (o : Op) : Usable (step w o) ↔ First w o := by
  cases o with
  | unsubscribe subscriptionId orgId => exact ⟨fun _ => trivial, fun _ => usable_deactivate h _⟩
  | cascade name => exact ⟨fun _ => trivial, fun _ => usable_deactivate h _⟩
  | subscribe a =>
    simp only [step, First, subscribeToTool]
    cases a.checked with
    | error e => simpa using h
    | ok hash =>
      dsimp only
      generalize hsub : (⟨a.subId, a.orgId, a.qualifiedToolName, true, a.now, hash⟩ : MarketplaceSubscription) = sub
      have hkey : sub.key = (a.orgId, a.qualifiedToolName) := by rw [← hsub]; rfl
      have hid : sub.id = a.subId := by rw [← hsub]
      rw [← hkey, ← hid]
      cases hup : upsert w.rows sub a.fault with
      | none =>
        refine ⟨fun _ _ _ hfault r hr => ?_, fun _ => h⟩
        rw [hfault] at hup
        exact absurd hup (upsert_of_row hr)
      | some rows' =>
        constructor
        · intro hafter _ _ _ r hr
          have hown := hafter.own sub.key sub.id (Function.update_self ..)
          rw [upsert_get? hup, if_pos rfl, hr] at hown
          exact Option.some.inj hown
        · intro hfirst
          have hfault : a.fault = false := by
            by_contra hfault
            simp [upsert, hfault] at hup
          refine usable_of_own fun k id hk => ?_
          rw [upsert_get? hup]
          dsimp only at hk
          by_cases hsame : k = sub.key
          · rw [hsame, Function.update_self] at hk
            rw [if_pos hsame, ← hk]
            cases hr : w.rows.get? sub.key with
            | none => rfl
            | some r => exact congrArg some (hfirst hash rfl hfault r hr)
          · rw [Function.update_of_ne hsame] at hk
            rw [if_neg hsame]
            exact h.own k id hk

/-- **Subscription ids.** In every state of a run the answered ids are usable, exactly when no subscription finds its row. -/
theorem subscription_ids_iff (rows : Rows) (ops : List Op) :
    (∀ n, Usable (run (init rows) (ops.take n))) ↔ Runs.Legal step First (init rows) ops :=
  Runs.legal_iff step First Usable (fun _ o h => step_iff h o) ops (usable_of_own fun _ _ hk => by cases hk)

/-- subscribe, unsubscribe, subscribe again: the second answer carries an id that no row has -/
theorem second_id_unknown : ¬ ∀ n, Usable (run (init Table.empty) (List.take n
      [.subscribe ⟨"org", "acme/weather", some ⟨"acme", none⟩, "1", 0, false⟩, .unsubscribe "1" "org",
        .subscribe ⟨"org", "acme/weather", some ⟨"acme", none⟩, "2", 1, false⟩])) := by
  intro h
  have hown := (h 3).own ("org", "acme/weather") "2" (by decide)
  exact absurd hown (by decide)

end Teardrop.Subscriptions
