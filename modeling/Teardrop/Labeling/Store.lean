/-
The rows of the labeling tables (`migrations/versions/102_squashed_baseline.sql`, 110, 111): predictions, the targets they
are scored on, and results. What the schema promises of a single row is in its type: a target is leased with a token and
an expiry or not at all, and a target has a key and a window. Times are instants in microseconds.
-/
import Teardrop.Core.Table
import Teardrop.Labeling.Leaves

namespace Teardrop.Labeling

open Teardrop.Py

inductive SourceKind where
  | scheduledRun
  | external
deriving DecidableEq

inductive PredictionStatus where
  | accepted
  | invalid
deriving DecidableEq

/-- the columns of `UNIQUE (org_id, source_kind, source_id, definition_key, definition_version)` -/
structure PredictionKey where
  orgId : PyStr
  sourceKind : SourceKind
  sourceId : PyStr
  definitionKey : PyStr
  definitionVersion : ℤ
deriving DecidableEq

/-- a row of `labeling_predictions` -/
structure PredictionRow where
  id : PyStr
  key : PredictionKey
  runId : PyStr
  scheduleId : PyStr
  bindingId : Option PyStr
  predictions : PyJson
  payloadSha256 : PyStr
  predictionAt : ℤ
  status : PredictionStatus
  parseError : PyStr
  signerAddress : Option PyStr
  signature : Option PyStr
  commitSalt : Option PyStr
  leafSha256 : Option String

/-- `leaf_sha256 IS NOT NULL` -/
def PredictionRow.committed (r : PredictionRow) : Bool := r.leafSha256.isSome

/-- `TargetDraft`, whose constructor refuses other keys and windows -/
structure TargetDraft where
  itemKey : PyStr
  itemPayload : PyJson
  windowStart : ℤ
  windowEnd : ℤ
  dueAt : ℤ
  keyLength : 0 < itemKey.length ∧ itemKey.length ≤ 256
  window : windowStart < windowEnd

/-- where a target stands; `labeling_targets_lease_chk` lets a lease have a token and an expiry together only -/
inductive TargetStatus where
  | pending
  | leased (token : ℕ) (expiresAt : ℤ)
  | scored
  | unavailable
  | invalid
deriving DecidableEq

def TargetStatus.terminal : TargetStatus → Bool
  | .pending | .leased _ _ => false
  | .scored | .unavailable | .invalid => true

def TargetStatus.isLeased : TargetStatus → Bool
  | .leased _ _ => true
  | _ => false

/-- a row of `labeling_targets` -/
structure TargetRow where
  id : PyStr
  predictionId : PyStr
  orgId : PyStr
  itemKey : PyStr
  itemPayload : PyJson
  windowStart : ℤ
  windowEnd : ℤ
  dueAt : ℤ
  status : TargetStatus
  attempts : ℕ
  lastError : PyStr

/-- the columns of `UNIQUE (prediction_id, item_key)` -/
def TargetRow.item (t : TargetRow) : PyStr × PyStr := (t.predictionId, t.itemKey)

inductive ScoreStatus where
  | correct
  | incorrect
  | neutral
  | inconclusive
  | unavailable
  | invalid
deriving DecidableEq

inductive ResultSource where
  | automatic
  | external
  | manual
deriving DecidableEq

/-- `ScoreResult`; the score is a float, which nothing here reads -/
structure ScoreResult where
  label : PyStr
  status : ScoreStatus
  actual : Option PyJson
  rationale : PyStr
  source : ResultSource

/-- a row of `labeling_results` -/
structure ResultRow where
  targetId : PyStr
  observationId : Option PyStr
  result : ScoreResult

structure Db where
  predictions : Table PredictionRow.key
  targets : Table TargetRow.id
  results : List ResultRow

def emptyDb : Db := ⟨Table.empty, Table.empty, []⟩

end Teardrop.Labeling
