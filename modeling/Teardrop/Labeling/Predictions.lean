/-
`insert_prediction` (`labeling/store.py`), the parsers that expand a payload into targets (`labeling/adapters.py`), and the
two callers, `ingest_scheduled_run_predictions` and `submit_labeling_prediction`, as far as they decide what a call is given.

A call that repeats a key falls through to the target insert of the first one. One transaction is one step: two calls on one
key wait for each other at the unique index. A parser is any function that gives a payload its items, and a time its window;
the items do not depend on the order of keys. Payloads hold Unicode scalar values, as JSONB does.
-/
import Teardrop.Core.Runs
import Teardrop.Core.Tx
import Teardrop.Labeling.Store

namespace Teardrop.Labeling

open Teardrop.Py Teardrop.Hex PyJson List Option PyStr
open Commitments (Sha256)

/-! ## Parsers -/

/-- a registered parser under one definition: what it makes of a payload, and of a time -/
structure Parser where
  items : PyJson → Option (List (PyStr × PyJson))
  window : ℤ → Option (ℤ × ℤ × ℤ)
  order : ∀ p q, Wf p → Wf q → SameUpToOrder p q → (items p).map (List.map Prod.fst) = (items q).map (List.map Prod.fst)

/-- `TargetDraft.__post_init__` -/
def targetDraft (item : PyStr × PyJson) (window : ℤ × ℤ × ℤ) : Option TargetDraft :=
  if hkey : 0 < item.1.length ∧ item.1.length ≤ 256 then
    if hwindow : window.1 < window.2.1 then
      match item.2 with
      | .obj _ => some ⟨item.1, item.2, window.1, window.2.1, window.2.2, hkey, hwindow⟩
      | _ => none
    else none
  else none

/-- the parser called at `predictionAt`; callers refuse an empty list -/
def Parser.expand (parser : Parser) (predictions : PyJson) (predictionAt : ℤ) : Option (List TargetDraft) := do
  let items ← parser.items predictions
  let window ← parser.window predictionAt
  let drafts ← items.mapM (fun item => targetDraft item window)
  if drafts = [] then none else some drafts

/-- the item keys of a payload -/
def Parser.itemKeys (parser : Parser) (predictions : PyJson) : List PyStr :=
  ((parser.items predictions).getD []).map Prod.fst

/-- the loop of `_targets_from_list` -/
def collectItems (key : PyStr) : List PyStr → List PyJson → Option (List (PyStr × PyJson))
  | _, [] => some []
  | seen, value :: values =>
    match value.get? key with
    | some (.str s) =>
      if s.strip = [] ∨ s.strip ∈ seen then none
      else (collectItems key (s.strip :: seen) values).map (fun items => (s.strip, value) :: items)
    | _ => none

def targetsFromList (field key : PyStr) (predictions : PyJson) : Option (List (PyStr × PyJson)) :=
  match predictions.get? field with
  | some (.arr (value :: values)) => collectItems key [] (value :: values)
  | _ => none

/-- from `prediction_at` to `_horizon(definition)` later -/
def horizonWindow (horizonSeconds : ℤ) (predictionAt : ℤ) : Option (ℤ × ℤ × ℤ) :=
  if horizonSeconds ≤ 0 then none
  else
    let windowEnd := predictionAt + horizonSeconds * 1000000
    if DateTime.inRange windowEnd then some (predictionAt, windowEnd, windowEnd) else none

theorem collectItems_canon (key : PyStr) (seen : List PyStr) (values : List PyJson) (h : WfItems values) :
    (collectItems key seen (canonItems values)).map (map Prod.fst) = (collectItems key seen values).map (map Prod.fst) := by
  induction values generalizing seen with
  | nil => rfl
  | cons value values ih =>
    rw [canonItems, collectItems, collectItems, get?_canon h.1 key]
    cases value.get? key with
    | none => rfl
    | some v =>
      cases v with
      | str s =>
        simp only [map_some, canon]
        split_ifs with hbad
        · rfl
        · have hrest := ih (s.strip :: seen) h.2
          rw [Option.map_map, Option.map_map]
          have hcons : ∀ w : PyJson, map Prod.fst ∘ (fun items => (s.strip, w) :: items) =
              (fun keys => s.strip :: keys) ∘ map Prod.fst := fun w => rfl
          rw [hcons, hcons, ← Option.map_map, ← Option.map_map, hrest]
      | null | bool _ | int _ | float _ => simp [canon]
      | arr _ | obj _ => simp [canon]

variable {p : PyJson} {db : Db} {predictionId : PyStr} {targets : List TargetDraft}

theorem targetsFromList_canon (field key : PyStr) (h : Wf p) : (targetsFromList field key (canon p)).map (map Prod.fst) =
      (targetsFromList field key p).map (map Prod.fst) := by
  unfold targetsFromList
  rw [get?_canon h field]
  cases hget : p.get? field with
  | none => rfl
  | some v =>
    have hv : Wf v := wf_get? h hget
    cases v with
    | arr values =>
      cases values with
      | nil => rfl
      | cons value values => exact collectItems_canon key [] (value :: values) hv
    | null | bool _ | int _ | float _ | str _ => simp [canon]
    | obj _ => simp [canon]

/-- `parse_entry_timing` and `parse_eth_protocols` -/
def listParser (field key : PyStr) (horizonSeconds : ℤ) : Parser where
  items := targetsFromList field key
  window := horizonWindow horizonSeconds
  order p q hp hq h := by
    rw [← targetsFromList_canon field key hp, ← targetsFromList_canon field key hq, show canon p = canon q from h]

def parseEntryTiming (horizonSeconds : ℤ) : Parser :=
  listParser (PyStr.ofString "tokens") (PyStr.ofString "id") horizonSeconds

def parseEthProtocols (horizonSeconds : ℤ) : Parser :=
  listParser (PyStr.ofString "protocols") (PyStr.ofString "slug") horizonSeconds

def parseStablecoinRoot (horizonSeconds : ℤ) : Parser where
  items p := some [(PyStr.ofString "root", p)]
  window := horizonWindow horizonSeconds
  order _ _ _ _ _ := rfl

/-- a definition as the callers use it: its schema, and its parser with its configuration -/
structure Definition where
  valid : PyJson → Bool
  parser : Parser

/-! ## Model -/

/-- one submission: the arguments of `insert_prediction` that do not come from the parser, and the values it draws -/
structure Submission where
  key : PredictionKey
  runId : PyStr
  scheduleId : PyStr
  bindingId : Option PyStr
  predictions : PyJson
  predictionAt : Option ℤ
  now : ℤ
  signerAddress : Option PyStr
  signature : Option PyStr
  commit : Bool
  predictionId : PyStr
  salt : PyStr
  targetIds : ℕ → PyStr
  scalar : Scalar predictions

/-- `prediction_at or datetime.now(timezone.utc)` -/
def Submission.createdAt (c : Submission) : ℤ := c.predictionAt.getD c.now

/-- `hashlib.sha256(encoded.encode("utf-8")).hexdigest()` -/
def payloadHash (H : Sha256) (encoded : PyStr) : Call PyStr :=
  match Utf8.encodeUtf8 encoded with
  | none => .error .unicodeEncodeError
  | some bytes => .ok (PyStr.ofString (hex (H.digest bytes)))

/-- the salt and the leaf of a prediction that is to be committed -/
def commitment (H : Sha256) (c : Submission) (payloadSha256 : PyStr) (status : PredictionStatus) :
    Call (Option (PyStr × String)) :=
  if c.commit = true ∧ status = .accepted then do
    let leaf ← predictionLeaf H
      { predictionId := c.predictionId
        orgId := c.key.orgId
        signerAddress := c.signerAddress
        definitionKey := c.key.definitionKey
        definitionVersion := c.key.definitionVersion
        payloadSha256 := payloadSha256
        predictionAt := ⟨c.createdAt, some 0⟩ } c.salt
    return some (c.salt, leaf)
  else return none

/-- `~ '^0x[0-9a-f]{n}$'` -/
def isHexOf (n : ℕ) (s : PyStr) : Bool :=
  s.take 2 = PyStr.ofString "0x" && (s.drop 2).length = n && (s.drop 2).all isLowerHex

/-- the CHECK constraints of a prediction -/
def PredictionRow.checks (r : PredictionRow) : Bool :=
  (r.key.sourceKind ≠ .scheduledRun || (r.runId ≠ [] && r.scheduleId ≠ [])) &&
    r.signerAddress.isNone = r.signature.isNone && r.signerAddress.all (isHexOf 40) && r.signature.all (isHexOf 130) &&
    (r.key.sourceKind ≠ .external || (r.signerAddress.isSome && r.leafSha256.isSome))

/-- one row of the `executemany` -/
def targetRow (predictionId orgId : PyStr) (draft : TargetDraft × PyStr) : Call TargetRow := do
  let _ ← canonicalJson draft.1.itemPayload
  return {
    id := draft.2
    predictionId := predictionId
    orgId := orgId
    itemKey := draft.1.itemKey
    itemPayload := draft.1.itemPayload
    windowStart := draft.1.windowStart
    windowEnd := draft.1.windowEnd
    dueAt := draft.1.dueAt
    status := .pending
    attempts := 0
    lastError := [] }

/-- `INSERT INTO labeling_targets ... ON CONFLICT (prediction_id, item_key) DO NOTHING`, once for each row -/
def insertTargets : List TargetRow → Tx Db Unit
  | [] => return ()
  | row :: rows => do
    let db ← Tx.read id
    if row.item ∈ db.targets.rows.map TargetRow.item then insertTargets rows
    else
      match db.targets.insert? row with
      | none => Tx.raise (.pg .uniqueViolation)
      | some targets => do
        Tx.write (fun db => { db with targets })
        insertTargets rows

/-- the second statement, for a prediction that is stored as accepted -/
def storeTargets (c : Submission) (predictionId : PyStr) (status : PredictionStatus) (targets : List TargetDraft) :
    Tx Db Unit :=
  match status with
  | .invalid => return ()
  | .accepted => do
    let rows ← Tx.lift ((targets.zip ((List.range targets.length).map c.targetIds)).mapM
      (targetRow predictionId c.key.orgId))
    insertTargets rows

/-- the row a submission would insert -/
def predictionRow (c : Submission) (parseError payloadSha256 : PyStr) (status : PredictionStatus)
    (leaf : Option (PyStr × String)) : PredictionRow where
  id := c.predictionId
  key := c.key
  runId := c.runId
  scheduleId := c.scheduleId
  bindingId := c.bindingId
  predictions := c.predictions
  payloadSha256 := payloadSha256
  predictionAt := c.createdAt
  status := status
  parseError := parseError.take 2000
  signerAddress := c.signerAddress
  signature := c.signature
  commitSalt := leaf.map Prod.fst
  leafSha256 := leaf.map Prod.snd

def insertPrediction (H : Sha256) (c : Submission) (targets : List TargetDraft) (parseError : PyStr) :
    Tx Db (PyStr × Bool) := do
  let encoded ← Tx.lift (canonicalJson c.predictions)
  let payloadSha256 ← Tx.lift (payloadHash H encoded)
  let status := if parseError = [] then PredictionStatus.accepted else .invalid
  let leaf ← Tx.lift (commitment H c payloadSha256 status)
  let row := predictionRow c parseError payloadSha256 status leaf
  Tx.require (row.checks = true) (.pg .checkViolation)
  let db ← Tx.read id
  match db.predictions.get? c.key with
  | none =>
    Tx.require (c.predictionId ∉ db.predictions.rows.map PredictionRow.id) (.pg .uniqueViolation)
    match db.predictions.insert? row with
    | none => Tx.raise (.pg .uniqueViolation)
    | some predictions => do
      Tx.write (fun db => { db with predictions })
      storeTargets c c.predictionId status targets
      return (c.predictionId, true)
  | some stored =>
    if c.key.sourceKind = .external ∧ stored.payloadSha256 ≠ payloadSha256 then
      Tx.raise (.valueError "Idempotency key was already used with a different payload")
    else do
      storeTargets c stored.id stored.status targets
      return (stored.id, false)

section System

variable (H : Sha256) (definitions : PyStr → ℤ → Definition)

/-- the targets of a payload under its definition -/
def targetsOf (key : PredictionKey) (predictions : PyJson) (predictionAt : ℤ) : Option (List TargetDraft) :=
  let definition := definitions key.definitionKey key.definitionVersion
  if definition.valid predictions then definition.parser.expand predictions predictionAt else none

/-- the callers: a scheduled run stores what it cannot expand as invalid, the endpoint answers 422 without a call -/
def submit (c : Submission) : Tx Db Unit :=
  match targetsOf definitions c.key c.predictions c.createdAt, c.key.sourceKind with
  | some targets, _ => do
    let _ ← insertPrediction H c targets []
  | none, .scheduledRun => do
    let _ ← insertPrediction H c [] (PyStr.ofString "prediction could not be validated or expanded")
  | none, .external => return ()

/-- one submission in its transaction -/
def step (db : Db) (c : Submission) : Db := (Tx.commit (submit H definitions c) db).2

def run (db : Db) (calls : List Submission) : Db := Runs.run (step H definitions) db calls

end System

/-! ## One transaction -/

/-- a target row holds what a draft says -/
structure Holds (t : TargetRow) (d : TargetDraft) : Prop where
  itemKey : t.itemKey = d.itemKey
  itemPayload : t.itemPayload = d.itemPayload
  windowStart : t.windowStart = d.windowStart
  windowEnd : t.windowEnd = d.windowEnd
  dueAt : t.dueAt = d.dueAt

/-- what the loop over the rows leaves in the table -/
structure Inserted (rows : List TargetRow) (db db' : Db) : Prop where
  predictions : db'.predictions = db.predictions
  results : db'.results = db.results
  kept : ∀ t ∈ db.targets.rows, t ∈ db'.targets.rows
  only : ∀ t ∈ db'.targets.rows, t ∈ db.targets.rows ∨ t ∈ rows ∧ t.item ∉ db.targets.rows.map TargetRow.item
  covered : ∀ row ∈ rows, row.item ∈ db'.targets.rows.map TargetRow.item
  same : (∀ row ∈ rows, row.item ∈ db.targets.rows.map TargetRow.item) → db' = db

variable {c : Submission}

variable {rows : List TargetRow}

theorem insertTargets_spec {r : Unit × Db} (h : insertTargets rows db = .ok r) : Inserted rows db r.2 := by
  induction rows generalizing db with
  | nil =>
    cases h
    exact ⟨rfl, rfl, fun _ h => h, fun _ h => .inl h, fun row hrow => absurd hrow not_mem_nil, fun _ => rfl⟩
  | cons row rows ih =>
    replace h := Tx.read_bind_ok h
    simp only [id_eq] at h
    split_ifs at h with htaken
    · obtain ⟨hpredictions, hresults, hkept, honly, hcovered, hsame⟩ := ih h
      refine ⟨hpredictions, hresults, hkept, ?_, ?_, ?_⟩
      · intro t ht
        rcases honly t ht with ht | ⟨ht, hnew⟩
        · exact .inl ht
        · exact .inr ⟨mem_cons_of_mem _ ht, hnew⟩
      · intro row' hrow'
        rcases mem_cons.1 hrow' with rfl | hrow'
        · obtain ⟨t, ht, hitem⟩ := mem_map.1 htaken
          exact mem_map.2 ⟨t, hkept t ht, hitem⟩
        · exact hcovered row' hrow'
      · intro hall
        exact hsame (fun row' hrow' => hall row' (mem_cons_of_mem _ hrow'))
    · cases hinsert : db.targets.insert? row with
      | none =>
        rw [hinsert] at h
        cases h
      | some targets =>
        rw [hinsert] at h
        obtain ⟨-, hrows⟩ := Table.insert?_eq_some hinsert
        obtain ⟨hpredictions, hresults, hkept, honly, hcovered, hsame⟩ := ih h
        have hmem : ∀ t, t ∈ targets.rows ↔ t ∈ db.targets.rows ∨ t = row := by
          intro t
          rw [hrows, mem_append, mem_singleton]
        refine ⟨hpredictions, hresults, fun t ht => hkept t ((hmem t).2 (.inl ht)), ?_, ?_, ?_⟩
        · intro t ht
          rcases honly t ht with ht | ⟨ht, hnew⟩
          · rcases (hmem t).1 ht with ht | rfl
            · exact .inl ht
            · exact .inr ⟨mem_cons_self, htaken⟩
          · refine .inr ⟨mem_cons_of_mem _ ht, fun hold => hnew ?_⟩
            obtain ⟨u, hu, hitem⟩ := mem_map.1 hold
            exact mem_map.2 ⟨u, (hmem u).2 (.inl hu), hitem⟩
        · intro row' hrow'
          rcases mem_cons.1 hrow' with rfl | hrow'
          · exact mem_map.2 ⟨row', hkept row' ((hmem row').2 (.inr rfl)), rfl⟩
          · exact hcovered row' hrow'
        · intro hall
          exact absurd (hall row mem_cons_self) htaken

/-- what storing the targets of a prediction leaves in the table -/
structure Stored (predictionId : PyStr) (targets : List TargetDraft) (db db' : Db) : Prop where
  predictions : db'.predictions = db.predictions
  results : db'.results = db.results
  kept : ∀ t ∈ db.targets.rows, t ∈ db'.targets.rows
  only : ∀ t ∈ db'.targets.rows, t ∈ db.targets.rows ∨
    t.predictionId = predictionId ∧ t.item ∉ db.targets.rows.map TargetRow.item ∧ t.status = .pending ∧
      ∃ d ∈ targets, Holds t d
  covered : ∀ d ∈ targets, (predictionId, d.itemKey) ∈ db'.targets.rows.map TargetRow.item
  same : (∀ d ∈ targets, (predictionId, d.itemKey) ∈ db.targets.rows.map TargetRow.item) → db' = db

/-- an invalid prediction gets no targets -/
def StoredAs (status : PredictionStatus) (predictionId : PyStr) (targets : List TargetDraft) (db db' : Db) : Prop :=
  match status with
  | .accepted => Stored predictionId targets db db'
  | .invalid => db' = db

theorem targetRow_ok {orgId : PyStr} {draft : TargetDraft × PyStr} {t : TargetRow}
    (h : targetRow predictionId orgId draft = .ok t) :
    t.predictionId = predictionId ∧ t.status = .pending ∧ Holds t draft.1 := by
  obtain ⟨text, -, h⟩ := bind_eq_ok h
  cases h
  exact ⟨rfl, rfl, ⟨rfl, rfl, rfl, rfl, rfl⟩⟩

theorem mapM_targetRow {orgId : PyStr} {drafts : List (TargetDraft × PyStr)}
    (h : drafts.mapM (targetRow predictionId orgId) = .ok rows) :
    (∀ t ∈ rows, t.predictionId = predictionId ∧ t.status = .pending ∧ ∃ d ∈ drafts.map Prod.fst, Holds t d) ∧
      ∀ d ∈ drafts.map Prod.fst, ∃ t ∈ rows, t.item = (predictionId, d.itemKey) := by
  induction drafts generalizing rows with
  | nil =>
    cases h
    exact ⟨fun t ht => absurd ht not_mem_nil, fun d hd => absurd hd not_mem_nil⟩
  | cons draft drafts ih =>
    obtain ⟨t, rest, ht, hrest, rfl⟩ := mapM_cons_ok h
    obtain ⟨hid, hpending, hholds⟩ := targetRow_ok ht
    obtain ⟨hrows, hdrafts⟩ := ih hrest
    constructor
    · intro u hu
      rcases mem_cons.1 hu with rfl | hu
      · exact ⟨hid, hpending, draft.1, mem_cons_self, hholds⟩
      · obtain ⟨huid, hupending, d, hd, hud⟩ := hrows u hu
        exact ⟨huid, hupending, d, mem_cons_of_mem _ hd, hud⟩
    · intro d hd
      rcases mem_cons.1 hd with rfl | hd
      · exact ⟨t, mem_cons_self, by rw [TargetRow.item, hid, hholds.itemKey]⟩
      · obtain ⟨u, hu, hitem⟩ := hdrafts d hd
        exact ⟨u, mem_cons_of_mem _ hu, hitem⟩

theorem storeTargets_spec {status : PredictionStatus} {r : Unit × Db}
    (h : storeTargets c predictionId status targets db = .ok r) : StoredAs status predictionId targets db r.2 := by
  cases status with
  | invalid =>
    cases h
    rfl
  | accepted =>
  obtain ⟨rows, hrows, h⟩ := Tx.lift_bind_ok h
  obtain ⟨hpredictions, hresults, hkept, honly, hcovered, hsame⟩ := insertTargets_spec h
  obtain ⟨hfrom, hto⟩ := mapM_targetRow hrows
  rw [map_fst_zip (by simp)] at hfrom hto
  refine ⟨hpredictions, hresults, hkept, ?_, ?_, ?_⟩
  · intro t ht
    rcases honly t ht with ht | ⟨ht, hnew⟩
    · exact .inl ht
    · obtain ⟨hid, hdraft⟩ := hfrom t ht
      exact .inr ⟨hid, hnew, hdraft⟩
  · intro d hd
    obtain ⟨row, hrow, hitem⟩ := hto d hd
    rw [← hitem]
    exact hcovered row hrow
  · intro hall
    refine hsame (fun row hrow => ?_)
    obtain ⟨hid, -, d, hd, hholds⟩ := hfrom row hrow
    have hitem : row.item = (predictionId, d.itemKey) := by rw [TargetRow.item, hid, hholds.itemKey]
    rw [hitem]
    exact hall d hd

/-- `h` is the hash of the payload `p` -/
def PayloadHash (H : Sha256) (p : PyJson) (h : PyStr) : Prop :=
  ∃ encoded, canonicalJson p = .ok encoded ∧ payloadHash H encoded = .ok h

/-- what a call that returns has done: the first one on a key stores a prediction, a repeated one finds it -/
theorem insertPrediction_cases {H : Sha256} {parseError : PyStr} {r : (PyStr × Bool) × Db}
    (h : insertPrediction H c targets parseError db = .ok r) :
    ∃ payloadSha256, PayloadHash H c.predictions payloadSha256 ∧ ((∃ leaf predictions,
        c.predictionId ∉ db.predictions.rows.map PredictionRow.id ∧
        db.predictions.insert? (predictionRow c parseError payloadSha256
          (if parseError = [] then .accepted else .invalid) leaf) = some predictions ∧
        StoredAs (if parseError = [] then .accepted else .invalid) c.predictionId targets { db with predictions } r.2) ∨
      ∃ stored, db.predictions.get? c.key = some stored ∧
        (c.key.sourceKind = .external → stored.payloadSha256 = payloadSha256) ∧
        StoredAs stored.status stored.id targets db r.2) := by
  obtain ⟨encoded, hencoded, h⟩ := Tx.lift_bind_ok h
  obtain ⟨payloadSha256, hhash, h⟩ := Tx.lift_bind_ok h
  obtain ⟨leaf, -, h⟩ := Tx.lift_bind_ok h
  obtain ⟨-, h⟩ := Tx.require_bind_ok h
  replace h := Tx.read_bind_ok h
  refine ⟨payloadSha256, ⟨encoded, hencoded, hhash⟩, ?_⟩
  simp only [id_eq] at h
  cases hget : db.predictions.get? c.key with
  | none =>
    rw [hget] at h
    obtain ⟨hid, h⟩ := Tx.require_bind_ok h
    cases hinsert : db.predictions.insert? (predictionRow c parseError payloadSha256
        (if parseError = [] then .accepted else .invalid) leaf) with
    | none =>
      rw [hinsert] at h
      cases h
    | some predictions =>
      rw [hinsert] at h
      replace h := Tx.write_bind_ok h
      obtain ⟨u, db', hstore, h⟩ := Tx.bind_ok h
      cases h
      exact .inl ⟨leaf, predictions, hid, hinsert, storeTargets_spec hstore⟩
  | some stored =>
    rw [hget] at h
    simp only at h
    split_ifs at h with hconflict
    · cases h
    · obtain ⟨u, db', hstore, h⟩ := Tx.bind_ok h
      cases h
      rw [not_and, not_not] at hconflict
      exact .inr ⟨stored, rfl, hconflict, storeTargets_spec hstore⟩

/-! ## The tables -/

section System

variable (H : Sha256) (definitions : PyStr → ℤ → Definition)

/-- the targets a stored prediction was expanded into -/
def storedTargets (r : PredictionRow) : Option (List TargetDraft) :=
  targetsOf definitions r.key r.predictions r.predictionAt

/-- what the constraints and the first call on each key establish -/
structure Inv (db : Db) : Prop where
  ids : (db.predictions.rows.map PredictionRow.id).Nodup
  refers : ∀ t ∈ db.targets.rows, ∃ r ∈ db.predictions.rows, r.id = t.predictionId ∧ r.status = .accepted
  expands : ∀ r ∈ db.predictions.rows, r.status = .accepted → ∃ targets, storedTargets definitions r = some targets ∧
    ∀ d ∈ targets, (r.id, d.itemKey) ∈ db.targets.rows.map TargetRow.item
  payloads : ∀ r ∈ db.predictions.rows, PayloadHash H r.predictions r.payloadSha256
  scalar : ∀ r ∈ db.predictions.rows, Scalar r.predictions

/-- the targets of every prediction are among those of the one payload whose hash it holds -/
def Sound (db : Db) : Prop :=
  ∀ r ∈ db.predictions.rows, PayloadHash H r.predictions r.payloadSha256 ∧
    ∀ t ∈ db.targets.rows, t.predictionId = r.id →
      ∃ targets, storedTargets definitions r = some targets ∧ ∃ d ∈ targets, Holds t d

/-- the item keys of a payload at a time -/
def itemKeys (targets : Option (List TargetDraft)) : List PyStr := (targets.getD []).map TargetDraft.itemKey

/-- a call that repeats the key of an accepted scheduled run names only items of the payload stored under the key -/
def NamesStored (db : Db) (c : Submission) : Prop :=
  ∀ stored ∈ db.predictions.get? c.key, stored.status = .accepted → c.key.sourceKind = .scheduledRun →
    ∀ k ∈ itemKeys (targetsOf definitions c.key c.predictions c.createdAt), k ∈ itemKeys (storedTargets definitions stored)

instance : ∀ db c, Decidable (NamesStored definitions db c) := fun db c =>
  inferInstanceAs (Decidable (∀ stored ∈ db.predictions.get? c.key, stored.status = .accepted →
    c.key.sourceKind = .scheduledRun → ∀ k ∈ itemKeys (targetsOf definitions c.key c.predictions c.createdAt),
      k ∈ itemKeys (storedTargets definitions stored)))

theorem step_cases (db : Db) (c : Submission) :
    step H definitions db c = db ∨
      ∃ targets parseError r, insertPrediction H c targets parseError db = .ok r ∧ step H definitions db c = r.2 ∧
        ((targetsOf definitions c.key c.predictions c.createdAt = some targets ∧ parseError = []) ∨
          (targetsOf definitions c.key c.predictions c.createdAt = none ∧ targets = [] ∧ parseError ≠ [])) := by
  unfold step
  rcases Tx.commit_cases (submit H definitions c) db with ⟨a, db', hok, hcommit⟩ | ⟨e, -, hcommit⟩
  · rw [hcommit]
    unfold submit at hok
    cases htargets : targetsOf definitions c.key c.predictions c.createdAt with
    | some targets =>
      rw [htargets] at hok
      obtain ⟨r, db'', hcall, hok⟩ := Tx.bind_ok hok
      cases hok
      exact .inr ⟨targets, [], (r, db'), hcall, rfl, .inl ⟨rfl, rfl⟩⟩
    | none =>
      rw [htargets] at hok
      cases hkind : c.key.sourceKind with
      | scheduledRun =>
        rw [hkind] at hok
        obtain ⟨r, db'', hcall, hok⟩ := Tx.bind_ok hok
        cases hok
        exact .inr ⟨[], _, (r, db'), hcall, rfl, .inr ⟨rfl, rfl, by decide⟩⟩
      | external =>
        rw [hkind] at hok
        cases hok
        exact .inl rfl
  · rw [hcommit]
    exact .inl rfl

theorem inv_empty : Inv H definitions emptyDb where
  ids := nodup_nil
  refers _ h := absurd h not_mem_nil
  expands _ h := absurd h not_mem_nil
  payloads _ h := absurd h not_mem_nil
  scalar _ h := absurd h not_mem_nil

theorem step_effect (db : Db) (c : Submission) :
    step H definitions db c = db ∨
      ∃ targets status payloadSha256 leaf parseError, PayloadHash H c.predictions payloadSha256 ∧
        (status = .accepted → targetsOf definitions c.key c.predictions c.createdAt = some targets) ∧
        (∀ d ∈ targets, d.itemKey ∈ itemKeys (targetsOf definitions c.key c.predictions c.createdAt)) ∧
        ((∃ predictions, c.predictionId ∉ db.predictions.rows.map PredictionRow.id ∧
            db.predictions.insert? (predictionRow c parseError payloadSha256 status leaf) = some predictions ∧
            StoredAs status c.predictionId targets { db with predictions } (step H definitions db c)) ∨
          ∃ stored, db.predictions.get? c.key = some stored ∧
            (c.key.sourceKind = .external → stored.payloadSha256 = payloadSha256) ∧
            StoredAs stored.status stored.id targets db (step H definitions db c)) := by
  rcases step_cases H definitions db c with hstep | ⟨targets, parseError, r, hcall, hstep, hderived⟩
  · exact .inl hstep
  · right
    obtain ⟨payloadSha256, hhash, heffect⟩ := insertPrediction_cases hcall
    rw [← hstep] at heffect
    have haccepted : (if parseError = [] then PredictionStatus.accepted else .invalid) = .accepted →
        targetsOf definitions c.key c.predictions c.createdAt = some targets := by
      intro hstatus
      rcases hderived with ⟨htargets, -⟩ | ⟨-, -, herror⟩
      · exact htargets
      · rw [if_neg herror] at hstatus
        cases hstatus
    have hkeys : ∀ d ∈ targets, d.itemKey ∈ itemKeys (targetsOf definitions c.key c.predictions c.createdAt) := by
      intro d hd
      rcases hderived with ⟨htargets, -⟩ | ⟨-, rfl, -⟩
      · rw [htargets]
        exact mem_map_of_mem hd
      · cases hd
    rcases heffect with ⟨leaf, predictions, hid, hinsert, hstored⟩ | hrepeat
    · exact ⟨targets, _, payloadSha256, leaf, parseError, hhash, haccepted, hkeys, .inl ⟨predictions, hid, hinsert, hstored⟩⟩
    · exact ⟨targets, _, payloadSha256, none, parseError, hhash, haccepted, hkeys, .inr hrepeat⟩

variable {db' : Db} {stored : PredictionRow} {drafts : List TargetDraft} {S : Set Bytes}

theorem item_mem_of_kept (h : ∀ t ∈ db.targets.rows, t ∈ db'.targets.rows) {k : PyStr × PyStr}
    (hk : k ∈ db.targets.rows.map TargetRow.item) : k ∈ db'.targets.rows.map TargetRow.item := by
  obtain ⟨t, ht, rfl⟩ := mem_map.1 hk
  exact mem_map_of_mem (h t ht)

variable {H definitions}

variable {row : PredictionRow} {predictions : Table PredictionRow.key} {window : ℤ × ℤ × ℤ}

theorem inv_insert (h : Inv H definitions db) (hid : row.id ∉ db.predictions.rows.map PredictionRow.id)
    (hinsert : db.predictions.insert? row = some predictions) (hhash : PayloadHash H row.predictions row.payloadSha256)
    (hscalar : Scalar row.predictions) (htargets : row.status = .accepted → storedTargets definitions row = some targets)
    (hstored : StoredAs row.status row.id targets { db with predictions } db') : Inv H definitions db' := by
  obtain ⟨-, hrows⟩ := Table.insert?_eq_some hinsert
  have hpredictions : db'.predictions = predictions := by
    cases hstatus : row.status with
    | accepted =>
      rw [hstatus] at hstored
      exact hstored.predictions
    | invalid =>
      rw [hstatus] at hstored
      rw [hstored]
  have hmem : ∀ r, r ∈ db'.predictions.rows ↔ r ∈ db.predictions.rows ∨ r = row := by
    intro r
    rw [hpredictions, hrows, mem_append, mem_singleton]
  have hkept : ∀ t ∈ db.targets.rows, t ∈ db'.targets.rows := by
    intro t ht
    cases hstatus : row.status with
    | accepted =>
      rw [hstatus] at hstored
      exact hstored.kept t ht
    | invalid =>
      rw [hstatus] at hstored
      rw [hstored]
      exact ht
  constructor
  · rw [hpredictions, hrows, map_append]
    refine List.Nodup.append h.ids (nodup_singleton _) ?_
    intro k hk hk'
    rw [map_singleton, mem_singleton] at hk'
    exact hid (hk' ▸ hk)
  · intro t ht
    have hcases : t ∈ db.targets.rows ∨ (t.predictionId = row.id ∧ row.status = .accepted) := by
      cases hstatus : row.status with
      | accepted =>
        rw [hstatus] at hstored
        rcases hstored.only t ht with ht | ⟨hp, -, -⟩
        · exact .inl ht
        · exact .inr ⟨hp, rfl⟩
      | invalid =>
        rw [hstatus] at hstored
        rw [hstored] at ht
        exact .inl ht
    rcases hcases with ht | ⟨hp, hstatus⟩
    · obtain ⟨r, hr, hrefers⟩ := h.refers t ht
      exact ⟨r, (hmem r).2 (.inl hr), hrefers⟩
    · exact ⟨row, (hmem row).2 (.inr rfl), hp.symm, hstatus⟩
  · intro r hr hstatus
    rcases (hmem r).1 hr with hr | rfl
    · obtain ⟨ds, hds, hall⟩ := h.expands r hr hstatus
      exact ⟨ds, hds, fun d hd => item_mem_of_kept hkept (hall d hd)⟩
    · rw [hstatus] at hstored
      exact ⟨targets, htargets hstatus, hstored.covered⟩
  · intro r hr
    rcases (hmem r).1 hr with hr | rfl
    · exact h.payloads r hr
    · exact hhash
  · intro r hr
    rcases (hmem r).1 hr with hr | rfl
    · exact h.scalar r hr
    · exact hscalar

theorem inv_stored (h : Inv H definitions db) (hmem : stored ∈ db.predictions.rows)
    (hstored : StoredAs stored.status stored.id targets db db') : Inv H definitions db' := by
  cases hstatus : stored.status with
  | invalid =>
    rw [hstatus] at hstored
    rw [hstored]
    exact h
  | accepted =>
    rw [hstatus] at hstored
    obtain ⟨hpredictions, -, hkept, honly, -, -⟩ := hstored
    constructor
    · rw [hpredictions]
      exact h.ids
    · intro t ht
      rw [hpredictions]
      rcases honly t ht with ht | ⟨hp, -, -⟩
      · exact h.refers t ht
      · exact ⟨stored, hmem, hp.symm, hstatus⟩
    · intro r hr hr'
      rw [hpredictions] at hr
      obtain ⟨ds, hds, hall⟩ := h.expands r hr hr'
      exact ⟨ds, hds, fun d hd => item_mem_of_kept hkept (hall d hd)⟩
    · rw [hpredictions]
      exact h.payloads
    · rw [hpredictions]
      exact h.scalar

theorem inv_call (h : Inv H definitions db) (c : Submission) : Inv H definitions (step H definitions db c) := by
  rcases step_effect H definitions db c with hsame | ⟨targets, status, payloadSha256, leaf, parseError, hhash, haccepted,
    hkeys, ⟨predictions, hid, hinsert, hstored⟩ | ⟨stored, hget, -, hstored⟩⟩
  · rw [hsame]
    exact h
  · exact inv_insert h hid hinsert hhash c.scalar haccepted hstored
  · exact inv_stored h (Table.mem_of_get? hget) hstored

theorem stored_same (h : Inv H definitions db) (hmem : stored ∈ db.predictions.rows)
    (hkeys : stored.status = .accepted → ∀ d ∈ targets, d.itemKey ∈ itemKeys (storedTargets definitions stored))
    (hstored : StoredAs stored.status stored.id targets db db') : db' = db := by
  cases hstatus : stored.status with
  | invalid =>
    rw [hstatus] at hstored
    exact hstored
  | accepted =>
    rw [hstatus] at hstored
    obtain ⟨ds, hds, hall⟩ := h.expands stored hmem hstatus
    apply hstored.same
    intro d hd
    have hkey := hkeys hstatus d hd
    rw [hds] at hkey
    obtain ⟨d', hd', hsame⟩ := mem_map.1 hkey
    rw [← hsame]
    exact hall d' hd'

/-! ## One payload -/

theorem targetDraft_itemKey {item : PyStr × PyJson} {d : TargetDraft} (h : targetDraft item window = some d) :
    d.itemKey = item.1 := by
  unfold targetDraft at h
  split_ifs at h
  split at h
  · cases h
    rfl
  · cases h

theorem mapM_targetDraft {items : List (PyStr × PyJson)}
    (h : items.mapM (fun item => targetDraft item window) = some drafts) :
    drafts.map TargetDraft.itemKey = items.map Prod.fst := by
  induction items generalizing drafts with
  | nil =>
    cases h
    rfl
  | cons item items ih =>
    rw [mapM_cons] at h
    obtain ⟨d, hd, h⟩ := bind_eq_some_iff.1 h
    obtain ⟨ds, hds, h⟩ := bind_eq_some_iff.1 h
    cases h
    rw [map_cons, map_cons, targetDraft_itemKey hd, ih hds]

theorem expand_itemKeys {parser : Parser} {t : ℤ} (h : parser.expand p t = some drafts) :
    (parser.items p).map (map Prod.fst) = some (drafts.map TargetDraft.itemKey) := by
  obtain ⟨items, hitems, h⟩ := bind_eq_some_iff.1 h
  obtain ⟨window, -, h⟩ := bind_eq_some_iff.1 h
  obtain ⟨ds, hds, h⟩ := bind_eq_some_iff.1 h
  split_ifs at h
  cases h
  rw [hitems, map_some, mapM_targetDraft hds]

theorem itemKeys_of_same {key : PredictionKey} {q : PyJson} {t u : ℤ} (hp : Wf p) (hq : Wf q) (h : SameUpToOrder p q)
    (hq' : targetsOf definitions key q u = some drafts) :
    ∀ k ∈ itemKeys (targetsOf definitions key p t), k ∈ itemKeys (targetsOf definitions key q u) := by
  intro k hk
  rw [hq']
  cases hdrafts : targetsOf definitions key p t with
  | none =>
    rw [hdrafts] at hk
    cases hk
  | some drafts' =>
    rw [hdrafts] at hk
    unfold targetsOf at hdrafts hq'
    simp only at hdrafts hq'
    split_ifs at hdrafts hq'
    have hleft := expand_itemKeys hdrafts
    have hright := expand_itemKeys hq'
    rw [(definitions key.definitionKey key.definitionVersion).parser.order p q hp hq h, hright] at hleft
    have hsame : drafts.map TargetDraft.itemKey = drafts'.map TargetDraft.itemKey := some.inj hleft
    show k ∈ drafts.map TargetDraft.itemKey
    rw [hsame]
    exact hk

theorem wf_of_hash {h : PyStr} (hp : Scalar p) (hhash : PayloadHash H p h) : Wf p := by
  obtain ⟨encoded, hencoded, -⟩ := hhash
  exact hp.wf (canonicalJson_ok.1 hencoded).2.2.1

/-- what hashing the payload hashes is in `S` -/
def PayloadIn (S : Set Bytes) (p : PyJson) : Prop :=
  ∀ encoded bytes, canonicalJson p = .ok encoded → Utf8.encodeUtf8 encoded = some bytes → bytes ∈ S

theorem same_of_hash (hS : Set.InjOn H.digest S) {q : PyJson} {h : PyStr} (hp : Scalar p) (hq : Scalar q)
    (hin : PayloadIn S p) (hin' : PayloadIn S q) (hp' : PayloadHash H p h) (hq' : PayloadHash H q h) :
    SameUpToOrder p q := by
  obtain ⟨encoded, hencoded, hhash⟩ := hp'
  obtain ⟨encoded', hencoded', hhash'⟩ := hq'
  unfold payloadHash at hhash hhash'
  cases hbytes : Utf8.encodeUtf8 encoded with
  | none =>
    rw [hbytes] at hhash
    cases hhash
  | some bytes =>
    cases hbytes' : Utf8.encodeUtf8 encoded' with
    | none =>
      rw [hbytes'] at hhash'
      cases hhash'
    | some bytes' =>
      rw [hbytes] at hhash
      rw [hbytes', ← hhash] at hhash'
      have hdigest : H.digest bytes' = H.digest bytes := hex_injective (ofString_inj (Except.ok.inj hhash'))
      have htext : bytes' = bytes := hS (hin' _ _ hencoded' hbytes') (hin _ _ hencoded hbytes) hdigest
      rw [htext] at hbytes'
      obtain rfl := Utf8.encodeUtf8_inj hbytes hbytes'
      exact (canonicalJson_ok_iff hp hq hencoded).1 hencoded'

/-- **Repeating a payload.** A call on a stored key, with the stored payload, changes nothing. -/
theorem step_same_payload (h : Inv H definitions db) (hget : db.predictions.get? c.key = some stored)
    (hsame : SameUpToOrder c.predictions stored.predictions) : step H definitions db c = db := by
  have hmem := Table.mem_of_get? hget
  have hkey : stored.key = c.key := Table.key_of_get? hget
  rcases step_effect H definitions db c with hstep | ⟨targets, status, payloadSha256, leaf, parseError, hhash, -, hkeys,
    ⟨predictions, -, hinsert, -⟩ | ⟨stored', hget', -, hstored⟩⟩
  · exact hstep
  · have hnone : db.predictions.get? c.key = none := (Table.insert?_eq_some hinsert).1
    rw [hget] at hnone
    cases hnone
  · rw [hget] at hget'
    obtain rfl := some.inj hget'
    refine stored_same h hmem ?_ hstored
    intro haccepted d hd
    obtain ⟨ds, hds, -⟩ := h.expands stored hmem haccepted
    have hwf := wf_of_hash c.scalar hhash
    have hwf' := wf_of_hash (h.scalar stored hmem) (h.payloads stored hmem)
    unfold storedTargets at hds ⊢
    rw [hkey] at hds ⊢
    exact itemKeys_of_same hwf hwf' hsame hds _ (hkeys d hd)

theorem sound_insert (h : Inv H definitions db) (hsound : Sound H definitions db)
    (hid : row.id ∉ db.predictions.rows.map PredictionRow.id) (hinsert : db.predictions.insert? row = some predictions)
    (hhash : PayloadHash H row.predictions row.payloadSha256)
    (htargets : row.status = .accepted → storedTargets definitions row = some targets)
    (hstored : StoredAs row.status row.id targets { db with predictions } db') : Sound H definitions db' := by
  obtain ⟨-, hrows⟩ := Table.insert?_eq_some hinsert
  -- no target refers to the new prediction yet
  have hfresh : ∀ t ∈ db.targets.rows, t.predictionId ≠ row.id := by
    intro t ht heq
    obtain ⟨r, hr, hrefers, -⟩ := h.refers t ht
    exact hid (mem_map.2 ⟨r, hr, hrefers.trans heq⟩)
  have hnew : ∀ t ∈ db'.targets.rows, t ∈ db.targets.rows ∨
      (t.predictionId = row.id ∧ row.status = .accepted ∧ ∃ d ∈ targets, Holds t d) := by
    intro t ht
    cases hstatus : row.status with
    | accepted =>
      rw [hstatus] at hstored
      rcases hstored.only t ht with ht | ⟨hp, -, -, hd⟩
      · exact .inl ht
      · exact .inr ⟨hp, rfl, hd⟩
    | invalid =>
      rw [hstatus] at hstored
      rw [hstored] at ht
      exact .inl ht
  have hpredictions : db'.predictions = predictions := by
    cases hstatus : row.status with
    | accepted =>
      rw [hstatus] at hstored
      exact hstored.predictions
    | invalid =>
      rw [hstatus] at hstored
      rw [hstored]
  intro r hr
  rw [hpredictions, hrows, mem_append, mem_singleton] at hr
  rcases hr with hr | rfl
  · refine ⟨(hsound r hr).1, fun t ht heq => ?_⟩
    rcases hnew t ht with ht | ⟨hp, -, -⟩
    · exact (hsound r hr).2 t ht heq
    · exact absurd (mem_map.2 ⟨r, hr, heq.symm.trans hp⟩) hid
  · refine ⟨hhash, fun t ht heq => ?_⟩
    rcases hnew t ht with ht | ⟨-, hstatus, hd⟩
    · exact absurd heq (hfresh t ht)
    · exact ⟨targets, htargets hstatus, hd⟩

/-- **One call.** -/
theorem sound_call (hS : Set.InjOn H.digest S) (h : Inv H definitions db)
    (hin : ∀ r ∈ db.predictions.rows, PayloadIn S r.predictions) (hsound : Sound H definitions db)
    (hin' : PayloadIn S c.predictions) (hnames : NamesStored definitions db c) :
    Sound H definitions (step H definitions db c) := by
  rcases step_effect H definitions db c with hstep | ⟨targets, status, payloadSha256, leaf, parseError, hhash, haccepted,
    hkeys, ⟨predictions, hid, hinsert, hstored⟩ | ⟨stored, hget, hexternal, hstored⟩⟩
  · rw [hstep]
    exact hsound
  · exact sound_insert h hsound hid hinsert hhash haccepted hstored
  · have hmem := Table.mem_of_get? hget
    have hsame : step H definitions db c = db := by
      cases hkind : c.key.sourceKind with
      | scheduledRun =>
        exact stored_same h hmem (fun hstatus d hd => hnames stored hget hstatus hkind _ (hkeys d hd)) hstored
      | external =>
        have hpayload := h.payloads stored hmem
        rw [hexternal hkind] at hpayload
        exact step_same_payload h hget
          (same_of_hash hS c.scalar (h.scalar stored hmem) hin' (hin stored hmem) hhash hpayload)
    rw [hsame]
    exact hsound

theorem payloadIn_call (hin : ∀ r ∈ db.predictions.rows, PayloadIn S r.predictions) (hin' : PayloadIn S c.predictions) :
    ∀ r ∈ (step H definitions db c).predictions.rows, PayloadIn S r.predictions := by
  have hstored : ∀ {status : PredictionStatus} {id : PyStr} {targets : List TargetDraft} {d d' : Db},
      StoredAs status id targets d d' → d'.predictions = d.predictions := by
    intro status id targets d d' h
    cases status with
    | accepted => exact h.predictions
    | invalid => exact congrArg Db.predictions h
  rcases step_effect H definitions db c with hstep | ⟨targets, status, payloadSha256, leaf, parseError, -, -, -,
    ⟨predictions, -, hinsert, hafter⟩ | ⟨stored, -, -, hafter⟩⟩
  · rw [hstep]
    exact hin
  · rw [hstored hafter]
    intro r hr
    rw [(Table.insert?_eq_some hinsert).2, mem_append, mem_singleton] at hr
    rcases hr with hr | rfl
    · exact hin r hr
    · exact hin'
  · rw [hstored hafter]
    exact hin

variable (H definitions)

theorem reach_inv (calls : List Submission) (hin : ∀ c ∈ calls, PayloadIn S c.predictions) :
    Inv H definitions (run H definitions emptyDb calls) ∧
      ∀ r ∈ (run H definitions emptyDb calls).predictions.rows, PayloadIn S r.predictions := by
  induction calls using reverseRecOn with
  | nil => exact ⟨inv_empty H definitions, fun r hr => absurd hr not_mem_nil⟩
  | append_singleton calls c ih =>
    obtain ⟨hinv, hpayloads⟩ := ih (fun c' hc' => hin c' (mem_append_left _ hc'))
    unfold run at hinv hpayloads ⊢
    rw [Runs.run_snoc]
    exact ⟨inv_call hinv c, payloadIn_call hpayloads (hin c (by simp))⟩

/-- **Targets of one payload.** In every run whose repeated calls for scheduled runs name only items of the stored payload,
the targets of every prediction in every state reached are targets of the payload it was stored with; and in any reachable
state, a call with the payload stored under its key changes nothing. -/
theorem targets_of_payload {S : Set Bytes} (hS : Set.InjOn H.digest S) (calls : List Submission)
    (hin : ∀ c ∈ calls, PayloadIn S c.predictions) :
    (Runs.Legal (step H definitions) (NamesStored definitions) emptyDb calls →
      ∀ n, Sound H definitions (run H definitions emptyDb (calls.take n))) ∧
    ∀ n c stored, (run H definitions emptyDb (calls.take n)).predictions.get? c.key = some stored →
      SameUpToOrder c.predictions stored.predictions →
      step H definitions (run H definitions emptyDb (calls.take n)) c = run H definitions emptyDb (calls.take n) := by
  have hreach : ∀ n, _ := fun n => reach_inv H definitions (calls.take n) (fun c hc => hin c (mem_of_mem_take hc))
  refine ⟨fun hlegal n => ?_, fun n c stored hget hsame => step_same_payload (hreach n).1 hget hsame⟩
  induction n with
  | zero => exact fun r hr => absurd hr not_mem_nil
  | succ n ih =>
    by_cases hn : n < calls.length
    · have hsplit : calls.take (n + 1) = calls.take n ++ [calls[n]] := take_succ_eq_append_getElem hn
      have hlegal' := hlegal
      rw [← take_append_drop (n + 1) calls, hsplit, Runs.legal_append, Runs.legal_append] at hlegal'
      rw [hsplit]
      unfold run at ih ⊢
      rw [Runs.run_snoc]
      exact sound_call hS (hreach n).1 (hreach n).2 ih (hin _ (getElem_mem hn)) hlegal'.1.2.1
    · have hall : calls.take (n + 1) = calls.take n := by
        rw [take_of_length_le (by omega), take_of_length_le (by omega)]
      rw [hall]
      exact ih

end System

/-! ## A repeated run -/

def sampleDefinitions : PyStr → ℤ → Definition := fun _ _ => ⟨fun _ => true, parseEntryTiming 604800⟩

/-- an entry timing payload that names one token -/
def tokenPayload (id : String) : PyJson :=
  .obj [(PyStr.ofString "tokens", .arr [.obj [(PyStr.ofString "id", .str (PyStr.ofString id))]])]

theorem scalar_tokenPayload (id : String) : Scalar (tokenPayload id) := by
  constructor
  · simp [tokenPayload, Wf, WfFields, WfItems]
  · simp [tokenPayload, hasSurrogate, hasSurrogateFields, hasSurrogateItems]

/-- the capture of scheduled run `run`, as prediction `id` -/
def sampleCapture (run id token : String) : Submission where
  key :=
    { orgId := PyStr.ofString "o1"
      sourceKind := .scheduledRun
      sourceId := PyStr.ofString run
      definitionKey := PyStr.ofString "entry_timing"
      definitionVersion := 1 }
  runId := PyStr.ofString run
  scheduleId := PyStr.ofString "s1"
  bindingId := none
  predictions := tokenPayload token
  predictionAt := some 1735689600000000
  now := 1735689600000000
  signerAddress := none
  signature := none
  commit := false
  predictionId := PyStr.ofString id
  salt := []
  targetIds i := PyStr.ofString id ++ renderNat i
  scalar := scalar_tokenPayload token

/-- SHA-256 at the two payloads -/
def tokenSha : Sha256 where
  digest b :=
    if b = (PyStr.ofString "\x7b\"tokens\":[\x7b\"id\":\"a\"\x7d]\x7d").map (fun c => UInt8.ofNat c.val) then
      (fromhex "3c5592f940a90457f763cc6c39d951c6de3e0361b2c39e073eaacdf31d480280").getD []
    else if b = (PyStr.ofString "\x7b\"tokens\":[\x7b\"id\":\"b\"\x7d]\x7d").map (fun c => UInt8.ofNat c.val) then
      (fromhex "41cafb94e66789db761978477c3bab20dffc82e94a78ff7b866218ef740128f5").getD []
    else List.replicate 32 0
  length_digest b := by
    split_ifs
    · decide
    · decide
    · rfl

def mixedRun : Db := run tokenSha sampleDefinitions emptyDb [sampleCapture "r1" "p1" "a", sampleCapture "r1" "p2" "b"]

/-- **A mixture.** The repeated capture of a run adds a target of another payload. -/
theorem replay_mixes : ¬ Sound tokenSha sampleDefinitions mixedRun := by
  intro hsound
  have htargets : mixedRun.targets.rows.map TargetRow.item =
      [(ofString "p1", ofString "a"), (ofString "p1", ofString "b")] := by decide
  have hpredictions : mixedRun.predictions.rows.map
      (fun r => (r.id, itemKeys (storedTargets sampleDefinitions r))) = [(ofString "p1", [ofString "a"])] := by
    decide
  have ht : (ofString "p1", ofString "b") ∈ mixedRun.targets.rows.map TargetRow.item := by simp [htargets]
  obtain ⟨t, ht, hitem⟩ := mem_map.1 ht
  have hr : (ofString "p1", [ofString "a"]) ∈
      mixedRun.predictions.rows.map (fun r => (r.id, itemKeys (storedTargets sampleDefinitions r))) := by simp [hpredictions]
  obtain ⟨r, hr, hkeys⟩ := mem_map.1 hr
  have hid : t.predictionId = r.id := (congrArg Prod.fst hitem).trans (congrArg Prod.fst hkeys).symm
  obtain ⟨targets, hstored, d, hd, hholds⟩ := (hsound r hr).2 t ht hid
  have hkey : t.itemKey ∈ itemKeys (storedTargets sampleDefinitions r) := by
    rw [hstored, hholds.itemKey]
    exact mem_map_of_mem hd
  rw [show itemKeys (storedTargets sampleDefinitions r) = _ from congrArg Prod.snd hkeys,
    show t.itemKey = _ from congrArg Prod.snd hitem] at hkey
  exact absurd hkey (by decide)

/-- the bytes whose hash a token payload has -/
def tokenBytes (token : String) : Bytes :=
  ((canonicalJson (tokenPayload token)).toOption.bind Utf8.encodeUtf8).getD []

/-- one run captured twice with one payload, and another run -/
theorem targets_of_payload_repeated : Sound tokenSha sampleDefinitions (run tokenSha sampleDefinitions emptyDb
      ([sampleCapture "r1" "p1" "a", sampleCapture "r1" "p2" "a", sampleCapture "r2" "p3" "b"].take 3)) := by
  have hcollision : Set.InjOn tokenSha.digest {tokenBytes "a", tokenBytes "b"} := by
    rw [Set.injOn_pair]
    intro hsame
    exact absurd hsame (by decide)
  refine (targets_of_payload tokenSha sampleDefinitions hcollision _ ?_).1 (by decide) 3
  intro c hc encoded bytes hencoded hbytes
  have htoken : c.predictions = tokenPayload "a" ∨ c.predictions = tokenPayload "b" := by
    simp only [mem_cons, not_mem_nil, or_false] at hc
    rcases hc with rfl | rfl | rfl
    · exact .inl rfl
    · exact .inl rfl
    · exact .inr rfl
  rcases htoken with htoken | htoken
  · rw [htoken] at hencoded
    exact .inl (by simp [tokenBytes, hencoded, hbytes, Except.toOption])
  · rw [htoken] at hencoded
    exact .inr (by simp [tokenBytes, hencoded, hbytes, Except.toOption])

end Teardrop.Labeling
