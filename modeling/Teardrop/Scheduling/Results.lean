/-
The results of a schedule, page by page: `scheduling/crud.py::list_scheduled_run_results` and its two routes
(`GET /agent/schedules/{id}/runs`, `GET /agent/event-triggers/{id}/runs`), with the keyset cursors of
`shared/pagination.py`.

The tables do not change while they are walked. A result row is joined to the dispatch key of its run; a run has at most
one. Ids are compared in the order of the database's collation, which may be any order of texts (`collate`).
-/
import Mathlib
import Teardrop.Core.Keyset
import Teardrop.Service.Pagination
import Teardrop.Scheduling.Dispatch

namespace Teardrop.Scheduling

open Py DateTime Pagination Keyset PyJson

/-! ## Rows -/

/-- a row of `scheduled_run_results`; ids are uuids -/
structure StoredResult extends ScheduledRunResult where
  id : String
  createdAt : ℤ
  id_ne : id ≠ ""
  dated : inRange createdAt = true

/-- a row of the query, with the columns of its dispatch key where it has one -/
structure ListedResult extends StoredResult where
  chainId : Option String
  hopIndex : Option ℕ

def DispatchKey.run (k : DispatchKey) : String × String := (k.scheduleId, k.runId)

/-- the results and the dispatch keys; a run id is drawn for one dispatch -/
structure ResultTables where
  results : Table StoredResult.id
  keys : Table DispatchKey.slot
  runs : (keys.rows.map DispatchKey.run).Nodup

/-- `r LEFT JOIN event_dispatch_keys k ON k.schedule_id = r.schedule_id AND k.run_id = r.run_id` -/
def joined (keys : List DispatchKey) (r : StoredResult) : List ListedResult :=
  match keys.filter (fun k => k.run = (r.scheduleId, r.runId)) with
  | [] => [⟨r, none, none⟩]
  | k :: ks => (k :: ks).map (fun k => ⟨r, some k.chainId, some k.hopIndex⟩)

/-- what the query selects from before its cursor clause -/
def runRows (db : ResultTables) (scheduleId orgId : String) : List ListedResult :=
  (db.results.rows.flatMap (joined db.keys.rows)).filter (fun r => r.scheduleId = scheduleId && r.orgId = orgId)

theorem joined_eq {keys : List DispatchKey} (hruns : (keys.map DispatchKey.run).Nodup) (r : StoredResult) :
    ∃ chain hop, joined keys r = [⟨r, chain, hop⟩] := by
  have hnodup : ((keys.filter (fun k => k.run = (r.scheduleId, r.runId))).map DispatchKey.run).Nodup :=
    hruns.sublist (List.filter_sublist.map DispatchKey.run)
  have hrun : ∀ k ∈ keys.filter (fun k => k.run = (r.scheduleId, r.runId)), k.run = (r.scheduleId, r.runId) := by
    intro k hk
    simpa using (List.mem_filter.1 hk).2
  unfold joined
  generalize keys.filter (fun k => k.run = (r.scheduleId, r.runId)) = found at hnodup hrun ⊢
  match found with
  | [] => exact ⟨none, none, rfl⟩
  | [k] => exact ⟨some k.chainId, some k.hopIndex, rfl⟩
  | k :: l :: rest =>
    have hk := hrun k (by simp)
    have hl := hrun l (by simp)
    simp [hk, hl] at hnodup

theorem joined_ids {keys : List DispatchKey} (hruns : (keys.map DispatchKey.run).Nodup) (rows : List StoredResult) :
    (rows.flatMap (joined keys)).map (fun r => r.id) = rows.map StoredResult.id := by
  induction rows with
  | nil => rfl
  | cons r rows ih =>
    obtain ⟨chain, hop, hr⟩ := joined_eq hruns r
    rw [List.flatMap_cons, List.map_append, ih, hr]
    rfl

theorem runRows_ids (db : ResultTables) (scheduleId orgId : String) :
    ((runRows db scheduleId orgId).map (fun r => r.id)).Nodup := by
  have hnodup : ((db.results.rows.flatMap (joined db.keys.rows)).map (fun r => r.id)).Nodup := by
    rw [joined_ids db.runs]
    exact db.results.nodup
  exact hnodup.sublist (List.filter_sublist.map _)

/-! ## Pages -/

variable {κ : Type} (collate : String ↪ κ)

/-- `ORDER BY r.created_at DESC, r.id DESC` -/
def latestFirst (r : ListedResult) : (ℤ ×ₗ κ)ᵒᵈ := OrderDual.toDual (toLex (r.createdAt, collate r.id))

theorem latestFirst_nodup (db : ResultTables) (scheduleId orgId : String) :
    ((runRows db scheduleId orgId).map (latestFirst collate)).Nodup := by
  have hids := runRows_ids db scheduleId orgId
  rw [List.Nodup, List.pairwise_map] at hids ⊢
  refine hids.imp ?_
  intro a b hne heq
  apply hne
  have hpair : (a.createdAt, collate a.id) = (b.createdAt, collate b.id) := toLex.injective (OrderDual.toDual.injective heq)
  exact collate.injective (Prod.ext_iff.1 hpair).2

variable [LinearOrder κ] (host : ℤ → Call ℤ)

/-- `(r.created_at, r.id) < (t, id)` -/
def rowBefore (t : ℤ) (id : String) (r : ListedResult) : Bool :=
  r.createdAt < t || (r.createdAt = t && collate r.id < collate id)

/-- the rows a cursor leaves; a cursor of a legacy timestamp has no id -/
def cursorRows (rows : List ListedResult) : Option (Stamp × Option PyStr) → List ListedResult → Prop
  | none, left => left = rows
  | some (c, none), left => ∃ t, toUtc host c = .ok t ∧ left = rows.filter (fun r => r.createdAt < t)
  | some (c, some rowId), left => ∃ t id, toUtc host c = .ok t ∧ rowId = PyStr.ofString id ∧ left = rows.filter (rowBefore collate t id)

def listScheduledRunResults (db : ResultTables) (scheduleId orgId : String) (limit : ℕ) (cursor : Option (Stamp × Option PyStr))
    (page : List ListedResult) : Prop :=
  ∃ left, cursorRows collate host (runRows db scheduleId orgId) cursor left ∧ Page (latestFirst collate) left limit page

/-- `encode_keyset_cursor(row.created_at, row.id)` -/
def rowCursor (r : ListedResult) : PyStr := encodeKeysetCursor ⟨r.createdAt, some 0⟩ (PyStr.ofString r.id)

/-- the two routes: a next cursor after a full page -/
def runsPager (levels : ℕ) (db : ResultTables) (scheduleId orgId : String) (limit : ℕ) : Pager ListedResult PyStr where
  fetch cursor page := ∃ c, parseKeysetCursor levels cursor = .ok c ∧ listScheduledRunResults collate host db scheduleId orgId limit c page
  next page := if page.length = limit then page.getLast?.map rowCursor else none

theorem latestFirst_lt (a b : ListedResult) :
    latestFirst collate a < latestFirst collate b ↔ rowBefore collate a.createdAt a.id b = true := by
  rw [latestFirst, latestFirst, OrderDual.toDual_lt_toDual, Prod.Lex.toLex_lt_toLex, rowBefore]
  simp

theorem stamp_valid (r : ListedResult) : Stamp.Valid ⟨r.createdAt, some 0⟩ := by
  refine ⟨r.dated, ?_⟩
  intro o ho
  obtain rfl := Option.some.inj ho
  decide

theorem ofString_ne_nil {s : String} (h : s ≠ "") : PyStr.ofString s ≠ [] := by
  intro hnil
  exact h (PyStr.ofString_inj (hnil.trans rfl))

theorem parse_rowCursor (levels : ℕ) (r : ListedResult) :
    parseKeysetCursor levels (some (rowCursor r)) = .ok (some (⟨r.createdAt, some 0⟩, some (PyStr.ofString r.id))) := by
  rw [rowCursor, parse_encode levels (stamp_valid r) (ofString_ne_nil r.id_ne), joinPairs_ofString]

theorem cursorRows_rowCursor (rows left : List ListedResult) (a : ListedResult) :
    cursorRows collate host rows (some (⟨a.createdAt, some 0⟩, some (PyStr.ofString a.id))) left ↔
      left = after (latestFirst collate) a rows := by
  have hutc : toUtc host ⟨a.createdAt, some 0⟩ = .ok a.createdAt := by
    simp only [toUtc, sub_zero, if_pos a.dated]
  have hafter : after (latestFirst collate) a rows = rows.filter (rowBefore collate a.createdAt a.id) := by
    apply List.filter_congr
    intro b _
    rw [← Bool.decide_coe (rowBefore collate a.createdAt a.id b)]
    exact decide_eq_decide.2 (latestFirst_lt collate a b)
  rw [hafter]
  constructor
  · rintro ⟨t, id, ht, hid, rfl⟩
    rw [hutc] at ht
    obtain rfl := Except.ok.inj ht
    obtain rfl := PyStr.ofString_inj hid
    rfl
  · rintro rfl
    exact ⟨a.createdAt, a.id, hutc, rfl, rfl⟩

theorem runsPager_pages (levels : ℕ) (db : ResultTables) (scheduleId orgId : String) {limit : ℕ} (hlimit : 0 < limit) :
    Pages (runsPager collate host levels db scheduleId orgId limit) (latestFirst collate) (runRows db scheduleId orgId) limit
      rowCursor := by
  have hfirst : ∀ page, (runsPager collate host levels db scheduleId orgId limit).fetch none page ↔
      Page (latestFirst collate) (runRows db scheduleId orgId) limit page := by
    intro page
    constructor
    · rintro ⟨c, hc, left, hleft, hpage⟩
      obtain rfl := Except.ok.inj hc
      rw [cursorRows] at hleft
      rwa [hleft] at hpage
    · exact fun hpage => ⟨none, rfl, _, rfl, hpage⟩
  refine Pages.of_last hlimit hfirst ?_ (fun m => m = limit) (decide_eq_true rfl) ?_
  · intro a _ page
    have hparse := parse_rowCursor levels a
    constructor
    · rintro ⟨c, hc, left, hleft, hpage⟩
      rw [hparse] at hc
      obtain rfl := Except.ok.inj hc
      rwa [(cursorRows_rowCursor collate host _ _ a).1 hleft] at hpage
    · exact fun hpage => ⟨_, hparse, _, (cursorRows_rowCursor collate host _ _ a).2 rfl, hpage⟩
  · intro page
    simp only [runsPager, decide_eq_true_eq]

/-! ## Round trip and completeness -/

/-- **Keyset cursors are read back, and page completely.** An id is read back exactly when no surrogates in it make a
pair, as in every text of the database; the token is never taken for a legacy timestamp. A walk through the results of a
schedule ends, returns every row once, and in the order of the query. -/
theorem keyset_cursors (levels : ℕ) {t : Stamp} (ht : t.Valid) {rowId : PyStr} (hid : rowId ≠ []) (db : ResultTables)
    (scheduleId orgId : String) {limit : ℕ} (hlimit : 0 < limit) :
    (parseKeysetCursor levels (some (encodeKeysetCursor t rowId)) = .ok (some (t, some rowId)) ↔ hasSplitPair rowId = false) ∧
    (∃ id, parseKeysetCursor levels (some (encodeKeysetCursor t rowId)) = .ok (some (t, some id))) ∧
    Complete (runsPager collate host levels db scheduleId orgId limit) (runRows db scheduleId orgId) ∧
    (∀ pages, Walk (runsPager collate host levels db scheduleId orgId limit) none pages none →
      SortedBy (latestFirst collate) pages.flatten) := by
  have hparse := parse_encode levels ht hid
  have hpages := runsPager_pages collate host levels db scheduleId orgId hlimit
  refine ⟨?_, ⟨joinPairs rowId, hparse⟩, ?_, ?_⟩
  · rw [hparse, ← joinPairs_eq_iff]
    simp
  · exact (complete_iff hpages).2 (unbroken_of_nodup (latestFirst_nodup collate db scheduleId orgId))
  · intro pages hwalk
    exact walk_sorted hpages hwalk Left.start

def sampleResult (id runId : String) (h : id ≠ "") : StoredResult where
  scheduleId := "sched-1"
  orgId := "org-1"
  runId := runId
  status := .completed
  outputText := ""
  costUsdc := 0
  error := ""
  id := id
  createdAt := 1760243004029490
  id_ne := h
  dated := by decide

def sampleTables : ResultTables where
  results := ⟨[sampleResult "a" "run-1" (by decide), sampleResult "b" "run-2" (by decide)], by decide⟩
  keys := ⟨[⟨"sched-1", "key-1", "run-2", "chain-1", 0⟩], by decide⟩
  runs := by decide

theorem keyset_cursors_sample :
    parseKeysetCursor 9 (some (encodeKeysetCursor ⟨1760243004029490, some (-12600000001)⟩ (PyStr.ofString "result-9"))) =
      .ok (some (⟨1760243004029490, some (-12600000001)⟩, some (PyStr.ofString "result-9"))) ∧
    Complete (runsPager (Function.Embedding.refl String) .ok 9 sampleTables "sched-1" "org-1" 1)
      (runRows sampleTables "sched-1" "org-1") := by
  have hvalid : Stamp.Valid ⟨1760243004029490, some (-12600000001)⟩ := ⟨by decide, by rintro o ⟨⟩; decide⟩
  have hid : PyStr.ofString "result-9" ≠ [] := ofString_ne_nil (by decide)
  have hlimit : 0 < 1 := Nat.one_pos
  have h := keyset_cursors (Function.Embedding.refl String) .ok 9 hvalid hid sampleTables "sched-1" "org-1" hlimit
  exact ⟨h.1.2 (by decide), h.2.2.1⟩

/-- an id of a high and a low surrogate is read back as the one character they stand for -/
theorem keyset_split_pair :
    parseKeysetCursor 9 (some (encodeKeysetCursor ⟨0, some 0⟩ [0xd83d, 0xde00])) ≠ .ok (some (⟨0, some 0⟩, some [0xd83d, 0xde00])) := by
  have hvalid : Stamp.Valid ⟨0, some 0⟩ := ⟨by decide, by rintro o ⟨⟩; decide⟩
  rw [parse_encode 9 hvalid (by decide)]
  decide

end Teardrop.Scheduling
