/-
`anchor_tick` (`labeling/anchor.py`): batches are claimed, their roots sent, the transactions watched and confirmed, by
any number of workers.

One operation is one statement, or one thing a worker learns. Nothing a worker holds is ever dropped, so a late writer may act
on a row read long before. Sealing and the rows of the tables run alongside. The RPC node answers anything; of the wallet it
is assumed that the address returned with a transaction hash is a function of the hash (`sender`). Times are microseconds.
-/
import Teardrop.Core.DateTime
import Teardrop.Core.PyNumber
import Teardrop.Labeling.SealProgress

namespace Teardrop.Anchoring.Worker

open Teardrop.Py Teardrop.Hex PyJson PyNumber
open Commitments (Sha256 merkleRoot)

/-! ## The answers of the node -/

/-- `value.get(k)` -/
def dictGet (value : PyJson) (k : String) : Call PyJson :=
  match value with
  | .obj fields => .ok ((lookup (PyStr.ofString k) fields).getD .null)
  | _ => .error .attributeError

/-- `value[k]` -/
def dictItem (value : PyJson) (k : String) : Call PyJson :=
  match value with
  | .obj fields =>
    match lookup (PyStr.ofString k) fields with
    | some v => .ok v
    | none => .error .keyError
  | _ => .error .typeError

/-- `_rpc`, given the body of the response or what was raised before there was one -/
def rpc (response : Call PyJson) : Call PyJson := do
  let body ← response
  let error ← dictGet body "error"
  if error.truthy then .error (.runtimeError "Anchor RPC returned an error")
  else dictGet body "result"

/-- a row of `_list_submitted` -/
structure SubmittedRow where
  id : String
  merkleRoot : String
  chainId : ℤ
  txHash : String
  anchorAddress : String
  leaseExpired : Bool

/-- the responses one call of `_confirm` is given: to `eth_getTransactionByHash` and `eth_getTransactionReceipt` for the
row's hash, to `eth_getBlockByNumber` for the block of the receipt and for `finalized`; `_rpc_url` may raise before -/
structure Answers where
  url : Call Unit
  tx : Call PyJson
  receipt : Call PyJson
  block : Call PyJson
  finalized : Call PyJson

/-- what `_confirm` does in the end -/
inductive Outcome where
  | wait
  | reset (error : String)
  | confirm (confirmation : Confirmation)

section Node

variable (wide : PyChar → PyStr) (decimal : PyChar → Option ℕ)

/-- `str(value).lower() == text`, for a text that begins with 0x: what `str` makes of anything but a text does not -/
def saysText (value : PyJson) (text : String) : Bool :=
  match value with
  | .str s => PyStr.lower wide s = PyStr.ofString text
  | _ => false

/-- `int(value, 16)` -/
def intOf (value : PyJson) : Call ℤ :=
  match value with
  | .str s =>
    match ofBase16 decimal s with
    | some n => .ok n
    | none => .error (.valueError "invalid literal for int() with base 16")
  | _ => .error .typeError

/-- `datetime.fromtimestamp(seconds, tz=timezone.utc)` -/
def fromTimestamp (seconds : ℤ) : Call ℤ :=
  if DateTime.inRange (seconds * 1000000) then .ok (seconds * 1000000) else .error .overflowError

/-- the transaction carries the root, from and to the recorded address -/
def matchesRow (row : SubmittedRow) (tx : PyJson) : Call Bool := do
  let input ← dictGet tx "input"
  let sentFrom ← dictGet tx "from"
  let sentTo ← dictGet tx "to"
  return saysText wide input ("0x" ++ row.merkleRoot) && saysText wide sentFrom row.anchorAddress &&
    saysText wide sentTo row.anchorAddress

/-- the last part of `_confirm`: the block of a successful, matching transaction -/
def confirmBlock (a : Answers) (receipt : PyJson) : Call Outcome := do
  let number ← dictItem receipt "blockNumber"
  let block ← rpc a.block
  if block = .null then return .wait
  else do
    let finalized ← rpc a.finalized
    if finalized = .null then return .wait
    else do
      let height ← intOf decimal number
      let latest ← dictItem finalized "number"
      let latest ← intOf decimal latest
      if height > latest then return .wait
      else do
        let receiptHash ← dictGet receipt "blockHash"
        if receiptHash.truthy = false then return .wait
        else do
          let blockHash ← dictGet block "hash"
          if pyEq false receiptHash blockHash = false then return .wait
          else do
            let timestamp ← dictItem block "timestamp"
            let seconds ← intOf decimal timestamp
            let anchoredAt ← fromTimestamp seconds
            return .confirm ⟨height, anchoredAt⟩

/-- `_confirm`, up to its write -/
def confirm (row : SubmittedRow) (a : Answers) : Call Outcome := do
  a.url
  let tx ← rpc a.tx
  if tx = .null then return if row.leaseExpired then .reset "anchor transaction not found" else .wait
  else do
    let mined ← dictGet tx "blockNumber"
    if mined = .null then return .wait
    else do
      let receipt ← rpc a.receipt
      if receipt = .null then return .wait
      else do
        let same ← matchesRow wide row tx
        let status ← dictGet receipt "status"
        if status ≠ .str (PyStr.ofString "0x1") ∨ same = false then
          return .reset "anchor transaction reverted or did not match the batch"
        else confirmBlock decimal a receipt

end Node

/-! ## Model -/

/-- a claimed batch: what `_claim_unsent_batch` returns -/
structure Job where
  id : String
  merkleRoot : String
  chainId : ℤ

/-- what is left to write after a send -/
inductive SendResult where
  | submitted (txHash anchorAddress : String)
  | failed (error : String)

structure St where
  world : World
  claimed : List Job
  sent : List (Job × SendResult)
  listed : List SubmittedRow
  decided : List (SubmittedRow × Outcome)
  log : List (SubmittedRow × Answers)

def St.empty : St := ⟨World.empty, [], [], [], [], []⟩

def sendLeaseSeconds : ℤ := 900

def maxBatchesPerTick : ℕ := 8

/-- `_TX_HASH` and `_ADDRESS`: `^0x[0-9a-f]{n}$` -/
def isHexRef (n : ℕ) (s : String) : Bool :=
  s.toList.take 2 = ['0', 'x'] && (s.toList.drop 2).length = n && (s.toList.drop 2).all isLowerHexDigit

/-- the body of the `try` around `_send_root`; `answer` is what it returned, or the class of what it raised -/
def sendResult (answer : Except String (String × String)) : SendResult :=
  match answer with
  | .ok (txHash, address) =>
    if isHexRef 64 txHash && isHexRef 40 address then .submitted txHash address
    else .failed "anchor send failed: ValueError"
  | .error name => .failed ("anchor send failed: " ++ name)

/-- `ORDER BY created_at, id` -/
def createdBefore (collate : String → String → Bool) (b b' : BatchRow) : Prop :=
  b.createdAt < b'.createdAt ∨ b.createdAt = b'.createdAt ∧ collate b.id b'.id = true

instance (collate : String → String → Bool) : DecidableRel (createdBefore collate) :=
  fun _ _ => inferInstanceAs (Decidable (_ ∨ _ ∧ _))

/-- `tx_hash IS NULL AND block_number IS NULL AND (lease_expires_at IS NULL OR lease_expires_at <= NOW())` -/
def claimable (now : ℤ) (b : BatchRow) : Bool :=
  b.submission.isNone && b.confirmation.isNone && b.leaseExpiresAt.all (fun t => t ≤ now)

/-- `UPDATE commitment_batches SET ... WHERE id = $1 AND ...` -/
def updateWhere (batches : Table BatchRow.id) (id : String) (p : BatchRow → Bool) (f : BatchRow → BatchRow)
    (hf : ∀ b, (f b).id = b.id) : Table BatchRow.id :=
  batches.update (fun b => if b.id = id ∧ p b = true then f b else b) (fun b => by
    split_ifs
    · exact hf b
    · rfl)

/-- the row `_claim_unsent_batch` takes: rows others have locked are skipped -/
def claimedRow (collate : String → String → Bool) (now : ℤ) (locked : String → Bool) (batches : Table BatchRow.id) :
    Option BatchRow :=
  ((batches.rows.filter (fun b => claimable now b && !locked b.id)).insertionSort (createdBefore collate)).head?

/-- `_claim_unsent_batch`, at the row it takes -/
def claimRow (now : ℤ) (id : String) (batches : Table BatchRow.id) : Table BatchRow.id :=
  updateWhere batches id (fun _ => true)
    (fun b => { b with leaseExpiresAt := some (now + sendLeaseSeconds * 1000000), attempts := b.attempts + 1 })
    (fun _ => rfl)

def recordSubmission (id txHash anchorAddress : String) (batches : Table BatchRow.id) : Table BatchRow.id :=
  updateWhere batches id (fun b => b.submission.isNone)
    (fun b => { b with submission := some ⟨txHash, anchorAddress⟩, lastError := "" }) (fun _ => rfl)

def releaseUnsent (id error : String) (batches : Table BatchRow.id) : Table BatchRow.id :=
  updateWhere batches id (fun b => b.submission.isNone)
    (fun b => { b with leaseExpiresAt := none, lastError := error }) (fun _ => rfl)

/-- `tx_hash = $2 AND block_number IS NULL` -/
def unconfirmed (txHash : String) (b : BatchRow) : Bool :=
  b.submission.map Submission.txHash = some txHash && b.confirmation.isNone

def resetSubmission (id txHash error : String) (batches : Table BatchRow.id) : Table BatchRow.id :=
  updateWhere batches id (unconfirmed txHash)
    (fun b => { b with submission := none, leaseExpiresAt := none, lastError := error }) (fun _ => rfl)

/-- `_record_confirmation`; the driver refuses a block number beyond 64 bits -/
def recordConfirmation (id txHash : String) (c : Confirmation) (batches : Table BatchRow.id) : Table BatchRow.id :=
  if -2 ^ 63 ≤ c.blockNumber ∧ c.blockNumber < 2 ^ 63 then
    updateWhere batches id (unconfirmed txHash)
      (fun b => { b with confirmation := some c, leaseExpiresAt := none, lastError := "" }) (fun _ => rfl)
  else batches

/-- the row `_list_submitted` returns for a batch -/
def submittedRow (now : ℤ) (b : BatchRow) (sub : Submission) : SubmittedRow :=
  ⟨b.id, b.merkleRoot, b.chainId, sub.txHash, sub.anchorAddress, b.leaseExpiresAt.all (fun t => t ≤ now)⟩

def listSubmitted (collate : String → String → Bool) (now : ℤ) (limit : ℕ) (batches : Table BatchRow.id) :
    List SubmittedRow :=
  (((batches.rows.filter (fun b => b.confirmation.isNone)).insertionSort (createdBefore collate)).filterMap
    (fun b => b.submission.map (submittedRow now b))).take limit

/-- the write that ends a send -/
def writeSend : Job × SendResult → Table BatchRow.id → Table BatchRow.id
  | (job, .submitted txHash anchorAddress) => recordSubmission job.id txHash anchorAddress
  | (job, .failed error) => releaseUnsent job.id error

/-- the write that ends a confirmation -/
def writeOutcome : SubmittedRow × Outcome → Table BatchRow.id → Table BatchRow.id
  | (_, .wait) => id
  | (row, .reset error) => resetSubmission row.id row.txHash error
  | (row, .confirm c) => recordConfirmation row.id row.txHash c

inductive Op where
  | data (o : Anchoring.Op)
  | claim (now : ℤ) (locked : String → Bool)
  | send (i : ℕ) (answer : Except String (String × String))
  | writeSend (i : ℕ)
  | list (now : ℤ)
  | confirm (i : ℕ) (answers : Answers)
  | writeOutcome (i : ℕ)

def St.setBatches (s : St) (batches : Table BatchRow.id) : St := { s with world := { s.world with batches } }

section System

variable (wide : PyChar → PyStr) (decimal : PyChar → Option ℕ) (collate : String → String → Bool) (reg : Registry)
  (H : Sha256)

/-- one operation of one worker -/
def step (s : St) : Op → St
  | .data o => { s with world := Anchoring.step collate reg H s.world o }
  | .claim now locked =>
    match claimedRow collate now locked s.world.batches with
    | none => s
    | some b =>
      { s.setBatches (claimRow now b.id s.world.batches) with
        claimed := s.claimed ++ [⟨b.id, b.merkleRoot, b.chainId⟩] }
  | .send i answer =>
    match s.claimed[i]? with
    | none => s
    | some job => { s with sent := s.sent ++ [(job, sendResult answer)] }
  | .writeSend i =>
    match s.sent[i]? with
    | none => s
    | some result => s.setBatches (writeSend result s.world.batches)
  | .list now => { s with listed := s.listed ++ listSubmitted collate now maxBatchesPerTick s.world.batches }
  | .confirm i answers =>
    match s.listed[i]? with
    | none => s
    | some row =>
      { s with
        log := s.log ++ [(row, answers)]
        decided := match confirm wide decimal row answers with
          | .ok outcome => s.decided ++ [(row, outcome)]
          | .error _ => s.decided }
  | .writeOutcome i =>
    match s.decided[i]? with
    | none => s
    | some d => s.setBatches (writeOutcome d s.world.batches)

def run (s : St) (ops : List Op) : St := Runs.run (step wide decimal collate reg H) s ops

end System

/-! ## What a confirmation has seen -/

/-- the answers show a transaction from and to the address with the root as its input, which succeeded in a block that is
final and has the hash of the receipt -/
structure Shown (wide : PyChar → PyStr) (decimal : PyChar → Option ℕ) (root address : String) (a : Answers)
    (c : Confirmation) (tx receipt block finalized : PyJson) : Prop where
  txAnswer : rpc a.tx = .ok tx
  receiptAnswer : rpc a.receipt = .ok receipt
  blockAnswer : rpc a.block = .ok block
  finalizedAnswer : rpc a.finalized = .ok finalized
  input : ∃ v, dictGet tx "input" = .ok v ∧ saysText wide v ("0x" ++ root) = true
  sentFrom : ∃ v, dictGet tx "from" = .ok v ∧ saysText wide v address = true
  sentTo : ∃ v, dictGet tx "to" = .ok v ∧ saysText wide v address = true
  succeeded : dictGet receipt "status" = .ok (.str (PyStr.ofString "0x1"))
  height : ∃ v, dictItem receipt "blockNumber" = .ok v ∧ intOf decimal v = .ok c.blockNumber
  final : ∃ v latest, dictItem finalized "number" = .ok v ∧ intOf decimal v = .ok latest ∧ c.blockNumber ≤ latest
  hash : ∃ v v', dictGet receipt "blockHash" = .ok v ∧ v.truthy = true ∧ dictGet block "hash" = .ok v' ∧
    pyEq false v v' = true
  time : ∃ v t, dictItem block "timestamp" = .ok v ∧ intOf decimal v = .ok t ∧ fromTimestamp t = .ok c.anchoredAt

section Node

variable {wide : PyChar → PyStr} {decimal : PyChar → Option ℕ}

theorem matchesRow_ok {row : SubmittedRow} {tx : PyJson} (h : matchesRow wide row tx = .ok true) :
    (∃ v, dictGet tx "input" = .ok v ∧ saysText wide v ("0x" ++ row.merkleRoot)) ∧
    (∃ v, dictGet tx "from" = .ok v ∧ saysText wide v row.anchorAddress) ∧
    ∃ v, dictGet tx "to" = .ok v ∧ saysText wide v row.anchorAddress := by
  obtain ⟨input, hinput, h⟩ := bind_eq_ok h
  obtain ⟨sentFrom, hfrom, h⟩ := bind_eq_ok h
  obtain ⟨sentTo, hto, h⟩ := bind_eq_ok h
  have hall := Except.ok.inj h
  rw [Bool.and_eq_true, Bool.and_eq_true] at hall
  exact ⟨⟨input, hinput, hall.1.1⟩, ⟨sentFrom, hfrom, hall.1.2⟩, ⟨sentTo, hto, hall.2⟩⟩

theorem confirmBlock_ok {a : Answers} {receipt : PyJson} {c : Confirmation}
    (h : confirmBlock decimal a receipt = .ok (.confirm c)) :
    ∃ block finalized, rpc a.block = .ok block ∧ rpc a.finalized = .ok finalized ∧
      (∃ v, dictItem receipt "blockNumber" = .ok v ∧ intOf decimal v = .ok c.blockNumber) ∧
      (∃ v latest, dictItem finalized "number" = .ok v ∧ intOf decimal v = .ok latest ∧ c.blockNumber ≤ latest) ∧
      (∃ v v', dictGet receipt "blockHash" = .ok v ∧ v.truthy ∧ dictGet block "hash" = .ok v' ∧
        pyEq false v v') ∧
      ∃ v t, dictItem block "timestamp" = .ok v ∧ intOf decimal v = .ok t ∧ fromTimestamp t = .ok c.anchoredAt := by
  obtain ⟨number, hnumber, h⟩ := bind_eq_ok h
  obtain ⟨block, hblock, h⟩ := bind_eq_ok h
  split_ifs at h with hnone
  · cases h
  obtain ⟨finalized, hfinalized, h⟩ := bind_eq_ok h
  split_ifs at h with hnone'
  · cases h
  obtain ⟨height, hheight, h⟩ := bind_eq_ok h
  obtain ⟨item, hitem, h⟩ := bind_eq_ok h
  obtain ⟨latest, hlatest, h⟩ := bind_eq_ok h
  split_ifs at h with hearly
  · cases h
  obtain ⟨receiptHash, hreceiptHash, h⟩ := bind_eq_ok h
  split_ifs at h with hempty
  · cases h
  obtain ⟨blockHash, hblockHash, h⟩ := bind_eq_ok h
  split_ifs at h with hother
  · cases h
  obtain ⟨timestamp, htimestamp, h⟩ := bind_eq_ok h
  obtain ⟨seconds, hseconds, h⟩ := bind_eq_ok h
  obtain ⟨anchoredAt, hanchoredAt, h⟩ := bind_eq_ok h
  cases h
  exact ⟨block, finalized, hblock, hfinalized, ⟨number, hnumber, hheight⟩, ⟨item, latest, hitem, hlatest, not_lt.1 hearly⟩,
    ⟨receiptHash, blockHash, hreceiptHash, by simpa using hempty, hblockHash, by simpa using hother⟩,
    ⟨timestamp, seconds, htimestamp, hseconds, hanchoredAt⟩⟩

/-- **`_confirm` confirms what it has seen.** -/
theorem confirm_ok {row : SubmittedRow} {a : Answers} {c : Confirmation}
    (h : confirm wide decimal row a = .ok (.confirm c)) :
    ∃ tx receipt block finalized, Shown wide decimal row.merkleRoot row.anchorAddress a c tx receipt block finalized := by
  obtain ⟨_, -, h⟩ := bind_eq_ok h
  obtain ⟨tx, htx, h⟩ := bind_eq_ok h
  split_ifs at h with hnone
  · cases h
  · cases h
  obtain ⟨mined, hmined, h⟩ := bind_eq_ok h
  split_ifs at h with hpending
  · cases h
  obtain ⟨receipt, hreceipt, h⟩ := bind_eq_ok h
  split_ifs at h with hnoreceipt
  · cases h
  obtain ⟨same, hsame, h⟩ := bind_eq_ok h
  obtain ⟨status, hstatus, h⟩ := bind_eq_ok h
  split_ifs at h with hbad
  · cases h
  rw [not_or, not_not, Bool.not_eq_false] at hbad
  rw [hbad.1] at hstatus
  rw [hbad.2] at hsame
  obtain ⟨hinput, hfrom, hto⟩ := matchesRow_ok hsame
  obtain ⟨block, finalized, hblock, hfinalized, hheight, hfinal, hhash, htime⟩ := confirmBlock_ok h
  exact ⟨tx, receipt, block, finalized, ⟨htx, hreceipt, hblock, hfinalized, hinput, hfrom, hto, hstatus, hheight, hfinal,
    hhash, htime⟩⟩

end Node

/-! ## One operation -/

/-- what one operation can do to one batch -/
inductive RowStep (s : St) (o : Op) (b : BatchRow) : BatchRow → Prop
  | same : RowStep s o b b
  | leased (leaseExpiresAt : Option ℤ) (attempts : ℕ) : RowStep s o b { b with leaseExpiresAt, attempts }
  | submitted (job : Job) (txHash anchorAddress : String) (sent : (job, .submitted txHash anchorAddress) ∈ s.sent)
      (free : b.submission = none) :
      RowStep s o b { b with submission := some ⟨txHash, anchorAddress⟩, lastError := "" }
  | released (error : String) (free : b.submission = none) :
      RowStep s o b { b with leaseExpiresAt := none, lastError := error }
  | reset (i : ℕ) (row : SubmittedRow) (error : String) (write : o = .writeOutcome i)
      (decided : s.decided[i]? = some (row, .reset error)) (id : b.id = row.id)
      (submitted : unconfirmed row.txHash b = true) :
      RowStep s o b { b with submission := none, leaseExpiresAt := none, lastError := error }
  | confirmed (row : SubmittedRow) (c : Confirmation) (decided : (row, .confirm c) ∈ s.decided) (id : b.id = row.id)
      (submitted : unconfirmed row.txHash b = true) :
      RowStep s o b { b with confirmation := some c, leaseExpiresAt := none, lastError := "" }

variable {s : St} {b b' : BatchRow}

theorem RowStep.fixed {o : Op} (h : RowStep s o b b') :
    b'.id = b.id ∧ b'.merkleRoot = b.merkleRoot ∧ b'.leafCount = b.leafCount := by
  cases h <;> exact ⟨rfl, rfl, rfl⟩

section System

variable (wide : PyChar → PyStr) (decimal : PyChar → Option ℕ) (collate : String → String → Bool) (reg : Registry)
  (H : Sha256)

theorem data_batches (w : World) (o : Anchoring.Op) : ∃ fresh, (Anchoring.step collate reg H w o).batches.rows =
    w.batches.rows ++ fresh ∧ ∀ b ∈ fresh, b.submission = none ∧ b.confirmation = none := by
  have hsame : ∀ {w' : World}, w'.batches = w.batches →
      ∃ fresh, w'.batches.rows = w.batches.rows ++ fresh ∧ ∀ b ∈ fresh, b.submission = none ∧ b.confirmation = none :=
    fun h => ⟨[], by rw [h, List.append_nil], fun _ hb => absurd hb List.not_mem_nil⟩
  cases o with
  | insert table r =>
    rw [Anchoring.step]
    rcases insertRow_cases table r w with h | ⟨rows, -, -, -, h⟩
    · rw [h]
      exact hsame rfl
    · rw [h]
      exact hsame rfl
  | delete table doomed => exact hsame rfl
  | sealBatch batchId chainId now =>
    rw [Anchoring.step]
    rcases Tx.commit_cases (sealBatch collate reg H batchId chainId now) w with ⟨a, w', h, hcommit⟩ | ⟨e, -, hcommit⟩
    · rw [hcommit]
      have h := Tx.read_bind_ok h
      split_ifs at h with hempty
      · cases h
        exact hsame rfl
      · obtain ⟨root, -, h⟩ := Tx.lift_bind_ok h
        obtain ⟨⟨⟩, w₁, hinsert, h⟩ := Tx.bind_ok h
        obtain ⟨⟨⟩, w₂, hassign, h⟩ := Tx.bind_ok h
        cases h
        have hkept := assignAll_batches reg hassign
        have hrows := (insertBatch_ok hinsert).2.1
        refine ⟨_, by rw [hkept, hrows], fun b hb => ?_⟩
        rw [List.mem_singleton.1 hb]
        exact ⟨rfl, rfl⟩
    · rw [hcommit]
      exact hsame rfl

/-- how one operation changes the batches: each takes a step, and only the data side adds some -/
structure Change (s s' : St) (o : Op) : Prop where
  rows : ∃ (f : BatchRow → BatchRow) (fresh : List BatchRow), s'.world.batches.rows = s.world.batches.rows.map f ++ fresh ∧
    (∀ b, RowStep s o b (f b)) ∧ (∀ b ∈ fresh, b.submission = none ∧ b.confirmation = none) ∧
    ((∃ d, o = .data d) ∨ fresh = [] ∧ s'.world.tables = s.world.tables)

theorem Change.same {s' : St} {o : Op} (h : s'.world = s.world) : Change s s' o :=
  ⟨id, [], by rw [h, List.map_id, List.append_nil], fun _ => .same, fun _ hb => absurd hb List.not_mem_nil,
    .inr ⟨rfl, by rw [h]⟩⟩

theorem Change.update {s' : St} {o : Op} {id : String} {p : BatchRow → Bool} {f : BatchRow → BatchRow}
    (h : s'.world.batches.rows = s.world.batches.rows.map (fun b => if b.id = id ∧ p b then f b else b))
    (htables : s'.world.tables = s.world.tables) (hstep : ∀ b, b.id = id → p b → RowStep s o b (f b)) :
    Change s s' o := by
  refine ⟨fun b => if b.id = id ∧ p b then f b else b, [], ?_, fun b => ?_, fun _ hb => absurd hb List.not_mem_nil,
    .inr ⟨rfl, htables⟩⟩
  · rw [h, List.append_nil]
  · show RowStep s o b (if b.id = id ∧ p b then f b else b)
    split_ifs with hp
    · exact hstep b hp.1 hp.2
    · exact .same

/-- **The step lemma of the batches.** -/
theorem row_step (s : St) (o : Op) : Change s (step wide decimal collate reg H s o) o := by
  have hnone : ∀ {b : BatchRow}, b.submission.isNone → b.submission = none := Option.isNone_iff_eq_none.1
  cases o with
  | data o =>
    obtain ⟨fresh, hrows, hfresh⟩ := data_batches collate reg H s.world o
    exact ⟨id, fresh, by rw [List.map_id]; exact hrows, fun _ => .same, hfresh, .inl ⟨o, rfl⟩⟩
  | claim now locked =>
    simp only [step]
    cases claimedRow collate now locked s.world.batches with
    | none => exact .same rfl
    | some b => exact .update rfl rfl (fun b _ _ => .leased _ _)
  | send i answer =>
    simp only [step]
    cases s.claimed[i]? <;> exact .same rfl
  | writeSend i =>
    simp only [step]
    cases hget : s.sent[i]? with
    | none => exact .same rfl
    | some result =>
      obtain ⟨job, result⟩ := result
      cases result with
      | submitted txHash address =>
        exact .update rfl rfl (fun b _ hp => .submitted job txHash address (List.mem_of_getElem? hget) (hnone hp))
      | failed error => exact .update rfl rfl (fun b _ hp => .released error (hnone hp))
  | list now => exact .same rfl
  | confirm i answers =>
    simp only [step]
    cases s.listed[i]? <;> exact .same rfl
  | writeOutcome i =>
    simp only [step]
    cases hget : s.decided[i]? with
    | none => exact .same rfl
    | some d =>
      obtain ⟨row, outcome⟩ := d
      cases outcome with
      | wait => exact .same rfl
      | reset error => exact .update rfl rfl (fun b hid hp => .reset i row error rfl hget hid hp)
      | confirm c =>
        simp only [writeOutcome, recordConfirmation]
        split_ifs with hfits
        · exact .update rfl rfl (fun b hid hp => .confirmed row c (List.mem_of_getElem? hget) hid hp)
        · exact .same rfl

variable {wide decimal collate reg H}

variable (wide decimal collate reg H) in
theorem row_next (o : Op) (hb : b ∈ s.world.batches.rows) :
    ∃ b' ∈ (step wide decimal collate reg H s o).world.batches.rows, RowStep s o b b' := by
  obtain ⟨f, fresh, hrows, hstep, -, -⟩ := (row_step wide decimal collate reg H s o).rows
  refine ⟨f b, ?_, hstep b⟩
  rw [hrows]
  exact List.mem_append_left _ (List.mem_map_of_mem hb)

theorem row_origin {o : Op} (hb' : b' ∈ (step wide decimal collate reg H s o).world.batches.rows) :
    (∃ b ∈ s.world.batches.rows, RowStep s o b b') ∨ b'.submission = none ∧ b'.confirmation = none := by
  obtain ⟨f, fresh, hrows, hstep, hfresh, -⟩ := (row_step wide decimal collate reg H s o).rows
  rw [hrows] at hb'
  rcases List.mem_append.1 hb' with hb' | hb'
  · obtain ⟨b, hb, rfl⟩ := List.mem_map.1 hb'
    exact .inl ⟨b, hb, hstep b⟩
  · exact .inr (hfresh b' hb')

/-! ## What workers hold -/

variable (wide decimal) in
/-- the answers behind a confirmed batch -/
def Evidence (log : List (SubmittedRow × Answers)) (b : BatchRow) (sub : Submission) (c : Confirmation) : Prop :=
  ∃ row answers, (row, answers) ∈ log ∧ row.id = b.id ∧ row.txHash = sub.txHash ∧ ∃ tx receipt block finalized,
      Shown wide decimal b.merkleRoot sub.anchorAddress answers c tx receipt block finalized

/-- of the wallet: an address it returns with a transaction hash is the sender of that transaction -/
def Signed (sender : String → String) : Op → Prop
  | .send _ (.ok (txHash, address)) => address = sender txHash
  | _ => True

/-- a row read from the table at some time: its root is still the batch's, its address the sender's -/
def Read (sender : String → String) (s : St) (row : SubmittedRow) : Prop :=
  (∃ b ∈ s.world.batches.rows, b.id = row.id ∧ b.merkleRoot = row.merkleRoot) ∧ row.anchorAddress = sender row.txHash

variable (wide decimal) in
structure Inv (sender : String → String) (s : St) : Prop where
  sent : ∀ job txHash address, (job, .submitted txHash address) ∈ s.sent → address = sender txHash
  listed : ∀ row ∈ s.listed, Read sender s row
  decided : ∀ row outcome, (row, outcome) ∈ s.decided →
    row ∈ s.listed ∧ ∃ answers, (row, answers) ∈ s.log ∧ confirm wide decimal row answers = .ok outcome
  address : ∀ b ∈ s.world.batches.rows, ∀ sub, b.submission = some sub → sub.anchorAddress = sender sub.txHash
  evidence : ∀ b ∈ s.world.batches.rows, ∀ c, b.confirmation = some c →
    ∃ sub, b.submission = some sub ∧ Evidence wide decimal s.log b sub c

variable (wide decimal) in
theorem inv_empty (sender : String → String) : Inv wide decimal sender St.empty where
  sent _ _ _ h := absurd h List.not_mem_nil
  listed _ h := absurd h List.not_mem_nil
  decided _ _ h := absurd h List.not_mem_nil
  address _ h := absurd h List.not_mem_nil
  evidence _ h := absurd h List.not_mem_nil

variable (wide decimal) in
/-- what workers hold grows, by what they learn -/
structure Holds (s s' : St) (o : Op) : Prop where
  sent : ∀ x ∈ s'.sent, x ∈ s.sent ∨ ∃ i answer, o = .send i answer ∧ x.2 = sendResult answer
  listed : ∀ row ∈ s'.listed, row ∈ s.listed ∨ ∃ now, ∃ b ∈ s.world.batches.rows, ∃ sub, b.submission = some sub ∧
    row = submittedRow now b sub
  listedKept : ∀ row ∈ s.listed, row ∈ s'.listed
  decided : ∀ x ∈ s'.decided, x ∈ s.decided ∨ x.1 ∈ s.listed ∧ ∃ answers, (x.1, answers) ∈ s'.log ∧
    confirm wide decimal x.1 answers = .ok x.2
  logKept : ∀ x ∈ s.log, x ∈ s'.log

variable (wide decimal collate reg H) in
theorem holds_step (s : St) (o : Op) : Holds wide decimal s (step wide decimal collate reg H s o) o := by
  have hsame : ∀ {s' : St}, s'.sent = s.sent → s'.listed = s.listed → s'.decided = s.decided → s'.log = s.log →
      Holds wide decimal s s' o := by
    intro s' hsent hlisted hdecided hlog
    exact ⟨fun x hx => .inl (hsent ▸ hx), fun x hx => .inl (hlisted ▸ hx), fun x hx => hlisted ▸ hx,
      fun x hx => .inl (hdecided ▸ hx), fun x hx => hlog ▸ hx⟩
  cases o with
  | data o => exact hsame rfl rfl rfl rfl
  | claim now locked =>
    simp only [step]
    cases claimedRow collate now locked s.world.batches <;> exact hsame rfl rfl rfl rfl
  | send i answer =>
    simp only [step]
    cases s.claimed[i]? with
    | none => exact hsame rfl rfl rfl rfl
    | some job =>
      refine ⟨fun x hx => ?_, fun _ h => .inl h, fun _ h => h, fun _ h => .inl h, fun _ h => h⟩
      rcases List.mem_append.1 hx with hx | hx
      · exact .inl hx
      · rw [List.mem_singleton.1 hx]
        exact .inr ⟨i, answer, rfl, rfl⟩
  | writeSend i =>
    simp only [step]
    cases s.sent[i]? <;> exact hsame rfl rfl rfl rfl
  | list now =>
    refine ⟨fun _ h => .inl h, fun row hrow => ?_, fun _ h => List.mem_append_left _ h, fun _ h => .inl h, fun _ h => h⟩
    rcases List.mem_append.1 hrow with hrow | hrow
    · exact .inl hrow
    · obtain ⟨b, hb, hread⟩ := List.mem_filterMap.1 (List.mem_of_mem_take hrow)
      rw [List.mem_insertionSort] at hb
      obtain ⟨sub, hsub, rfl⟩ := Option.map_eq_some_iff.1 hread
      exact .inr ⟨now, b, (List.mem_filter.1 hb).1, sub, hsub, rfl⟩
  | confirm i answers =>
    simp only [step]
    cases hget : s.listed[i]? with
    | none => exact hsame rfl rfl rfl rfl
    | some row =>
      refine ⟨fun _ h => .inl h, fun _ h => .inl h, fun _ h => h, fun x hx => ?_, fun _ h => List.mem_append_left _ h⟩
      cases hconfirm : confirm wide decimal row answers with
      | error e =>
        simp only [hconfirm] at hx
        exact .inl hx
      | ok outcome =>
        simp only [hconfirm] at hx
        rcases List.mem_append.1 hx with hx | hx
        · exact .inl hx
        · rw [List.mem_singleton.1 hx]
          exact .inr ⟨List.mem_of_getElem? hget, answers, List.mem_append_right _ List.mem_cons_self, hconfirm⟩
  | writeOutcome i =>
    simp only [step]
    cases s.decided[i]? <;> exact hsame rfl rfl rfl rfl

variable {sender : String → String} {sub : Submission} {c : Confirmation}

theorem Read.next {row : SubmittedRow} (h : Read sender s row) (o : Op) :
    Read sender (step wide decimal collate reg H s o) row := by
  obtain ⟨⟨b, hb, hid, hroot⟩, haddress⟩ := h
  obtain ⟨b', hb', hstep⟩ := row_next wide decimal collate reg H o hb
  obtain ⟨hid', hroot', -⟩ := hstep.fixed
  exact ⟨⟨b', hb', hid'.trans hid, hroot'.trans hroot⟩, haddress⟩

theorem sendResult_submitted {answer : Except String (String × String)} {txHash address : String}
    (h : sendResult answer = .submitted txHash address) : answer = .ok (txHash, address) := by
  unfold sendResult at h
  split at h
  · split_ifs at h
    cases h
    rfl
  · cases h

theorem unconfirmed_iff {txHash : String} (h : unconfirmed txHash b) :
    (∃ sub, b.submission = some sub ∧ sub.txHash = txHash) ∧ b.confirmation = none := by
  rw [unconfirmed, Bool.and_eq_true, decide_eq_true_eq, Option.isNone_iff_eq_none] at h
  exact ⟨Option.map_eq_some_iff.1 h.1, h.2⟩

theorem row_unique (hb : b ∈ s.world.batches.rows) (hb' : b' ∈ s.world.batches.rows) (hid : b.id = b'.id) : b = b' :=
  List.inj_on_of_nodup_map s.world.batches.nodup hb hb' hid

theorem Evidence.mono {log log' : List (SubmittedRow × Answers)} (hlog : ∀ x ∈ log, x ∈ log') (hid : b'.id = b.id)
    (hroot : b'.merkleRoot = b.merkleRoot) (h : Evidence wide decimal log b sub c) :
    Evidence wide decimal log' b' sub c := by
  obtain ⟨row, answers, hmem, hrow, htx, hshown⟩ := h
  refine ⟨row, answers, hlog _ hmem, hrow.trans hid.symm, htx, ?_⟩
  rw [hroot]
  exact hshown

/-- what a worker decided of a row that still has the hash it read is evidence for the row as it is -/
theorem Inv.evidence_of_decided (hinv : Inv wide decimal sender s) (hb : b ∈ s.world.batches.rows) {row : SubmittedRow}
    (hdecided : (row, .confirm c) ∈ s.decided) (hid : b.id = row.id) (hsub : b.submission = some sub)
    (htx : sub.txHash = row.txHash) : Evidence wide decimal s.log b sub c := by
  obtain ⟨hlisted, answers, hlog, hconfirm⟩ := hinv.decided _ _ hdecided
  obtain ⟨⟨b₀, hb₀, hid₀, hroot⟩, haddress⟩ := hinv.listed row hlisted
  obtain rfl := row_unique hb₀ hb (hid₀.trans hid.symm)
  obtain ⟨tx, receipt, block, finalized, hshown⟩ := confirm_ok hconfirm
  refine ⟨row, answers, hlog, hid.symm, htx.symm, tx, receipt, block, finalized, ?_⟩
  rw [hroot, hinv.address _ hb sub hsub, htx, ← haddress]
  exact hshown

/-- **One operation keeps the invariant.** -/
theorem inv_step (hinv : Inv wide decimal sender s) {o : Op} (hsigned : Signed sender o) :
    Inv wide decimal sender (step wide decimal collate reg H s o) := by
  have hholds := holds_step wide decimal collate reg H s o
  constructor
  · intro job txHash address hmem
    rcases hholds.sent _ hmem with hold | ⟨i, answer, rfl, hresult⟩
    · exact hinv.sent job txHash address hold
    · rw [sendResult_submitted hresult.symm] at hsigned
      exact hsigned
  · intro row hrow
    rcases hholds.listed row hrow with hold | ⟨now, b, hb, sub, hsub, rfl⟩
    · exact (hinv.listed row hold).next o
    · exact Read.next ⟨⟨b, hb, rfl, rfl⟩, hinv.address b hb sub hsub⟩ o
  · intro row outcome hmem
    rcases hholds.decided _ hmem with hold | ⟨hlisted, hknown⟩
    · obtain ⟨hlisted, answers, hlog, hconfirm⟩ := hinv.decided row outcome hold
      exact ⟨hholds.listedKept row hlisted, answers, hholds.logKept _ hlog, hconfirm⟩
    · exact ⟨hholds.listedKept row hlisted, hknown⟩
  · intro b' hb' sub' hsub'
    rcases row_origin hb' with ⟨b, hb, hstep⟩ | ⟨hfree, -⟩
    · cases hstep with
      | same | leased | released _ _ => exact hinv.address _ hb sub' hsub'
      | submitted job txHash address hsent _ =>
        cases hsub'
        exact hinv.sent job txHash address hsent
      | reset => cases hsub'
      | confirmed => exact hinv.address b hb sub' hsub'
    · rw [hfree] at hsub'
      cases hsub'
  · intro b' hb' c' hc'
    rcases row_origin hb' with ⟨b, hb, hstep⟩ | ⟨-, hfree⟩
    · obtain ⟨hid, hroot, -⟩ := hstep.fixed
      have hkept : b.confirmation = some c' → ∃ sub, b.submission = some sub ∧ Evidence wide decimal
          (step wide decimal collate reg H s o).log b' sub c' := by
        intro hc
        obtain ⟨sub, hsub, hevidence⟩ := hinv.evidence b hb c' hc
        exact ⟨sub, hsub, hevidence.mono hholds.logKept hid hroot⟩
      cases hstep with
      | same | leased | released _ _ => exact hkept hc'
      | submitted job txHash address _ hfree =>
        obtain ⟨sub, hsub, -⟩ := hkept hc'
        rw [hfree] at hsub
        cases hsub
      | reset i row error _ _ _ hopen =>
        have hnone := (unconfirmed_iff hopen).2
        rw [show b.confirmation = some c' from hc'] at hnone
        cases hnone
      | confirmed row c hdecided hrow hopen =>
        cases hc'
        obtain ⟨⟨sub, hsub, htx⟩, -⟩ := unconfirmed_iff hopen
        exact ⟨sub, hsub, (hinv.evidence_of_decided hb hdecided hrow hsub htx).mono hholds.logKept rfl rfl⟩
    · rw [hfree] at hc'
      cases hc'

/-! ## Every run -/

variable (collate reg H) in
theorem inv_run {sender : String → String} {s : St} (hinv : Inv wide decimal sender s) {ops : List Op}
    (hsigned : ∀ o ∈ ops, Signed sender o) : Inv wide decimal sender (run wide decimal collate reg H s ops) :=
  Runs.legal_inv _ (fun _ o => Signed sender o) (Inv wide decimal sender) (fun _ _ h ho => inv_step h ho) ops hinv
    (Runs.legal_of_mem _ s ops hsigned)

variable (collate reg H) in
theorem confirmed_step (hinv : Inv wide decimal sender s) (o : Op) (hb : b ∈ s.world.batches.rows)
    (hc : b.confirmation = some c) :
    ∃ b' ∈ (step wide decimal collate reg H s o).world.batches.rows,
      b'.id = b.id ∧ b'.submission = b.submission ∧ b'.confirmation = b.confirmation := by
  obtain ⟨b', hb', hstep⟩ := row_next wide decimal collate reg H o hb
  refine ⟨b', hb', hstep.fixed.1, ?_⟩
  cases hstep with
  | same | leased | released _ _ => exact ⟨rfl, rfl⟩
  | submitted job txHash address _ hfree =>
    obtain ⟨sub, hsub, -⟩ := hinv.evidence b hb c hc
    rw [hfree] at hsub
    cases hsub
  | reset i row error _ _ _ hopen | confirmed row _ _ _ hopen =>
    have hnone := (unconfirmed_iff hopen).2
    rw [hc] at hnone
    cases hnone

variable (collate reg H) in
theorem confirmed_run (hinv : Inv wide decimal sender s) {ops : List Op} (hsigned : ∀ o ∈ ops, Signed sender o)
    (hb : b ∈ s.world.batches.rows) (hc : b.confirmation = some c) :
    ∃ b' ∈ (run wide decimal collate reg H s ops).world.batches.rows,
      b'.id = b.id ∧ b'.submission = b.submission ∧ b'.confirmation = b.confirmation := by
  induction ops generalizing s b with
  | nil => exact ⟨b, hb, rfl, rfl, rfl⟩
  | cons o ops ih =>
    obtain ⟨b₁, hb₁, hid₁, hsub₁, hc₁⟩ := confirmed_step collate reg H hinv o hb hc
    obtain ⟨b', hb', hid, hsub, hconf⟩ := ih (inv_step hinv (hsigned o List.mem_cons_self))
      (fun o' ho' => hsigned o' (List.mem_cons_of_mem o ho')) hb₁ (hc₁.trans hc)
    exact ⟨b', hb', hid.trans hid₁, hsub.trans hsub₁, hconf.trans hc₁⟩

/-- the operation is the write of a reset that was decided of this batch with this hash -/
def Resets (s : St) (o : Op) (b : BatchRow) (sub : Submission) : Prop :=
  ∃ i row error, o = .writeOutcome i ∧ s.decided[i]? = some (row, .reset error) ∧ b.id = row.id ∧ sub.txHash = row.txHash

theorem submission_step (o : Op) (hb : b ∈ s.world.batches.rows) (hsub : b.submission = some sub) :
    ∃ b' ∈ (step wide decimal collate reg H s o).world.batches.rows,
      b'.id = b.id ∧ (b'.submission = some sub ∨ b'.submission = none ∧ b.confirmation = none ∧ Resets s o b sub) := by
  obtain ⟨b', hb', hstep⟩ := row_next wide decimal collate reg H o hb
  refine ⟨b', hb', hstep.fixed.1, ?_⟩
  cases hstep with
  | same | leased | released _ _ | confirmed => exact .inl hsub
  | submitted job txHash address _ hfree =>
    rw [hfree] at hsub
    cases hsub
  | reset i row error hwrite hdecided hid hopen =>
    obtain ⟨⟨sub', hsub', htx⟩, hnone⟩ := unconfirmed_iff hopen
    rw [hsub] at hsub'
    obtain rfl := Option.some.inj hsub'
    exact .inr ⟨rfl, hnone, i, row, error, hwrite, hdecided, hid, htx⟩

end System

/-- **Anchors are final.** In every state of every run: a batch with a confirmation has a transaction that the node reported from
and to the recorded address with the root as its input, successful, in a final block with the receipt's hash; whatever follows,
these stay. An operation that takes the transaction of an unconfirmed batch away is its reset, and leaves none. -/
theorem anchors_final (wide : PyChar → PyStr) (decimal : PyChar → Option ℕ) (collate : String → String → Bool)
    (reg : Registry) (H : Sha256) (sender : String → String) (ops ops' : List Op)
    (hsigned : ∀ o ∈ ops ++ ops', Signed sender o) :
    ∀ b ∈ (run wide decimal collate reg H St.empty ops).world.batches.rows,
      (∀ c, b.confirmation = some c →
        (∃ sub, b.submission = some sub ∧
          Evidence wide decimal (run wide decimal collate reg H St.empty ops).log b sub c) ∧
        ∃ b' ∈ (run wide decimal collate reg H St.empty (ops ++ ops')).world.batches.rows,
          b'.id = b.id ∧ b'.submission = b.submission ∧ b'.confirmation = b.confirmation) ∧
      ∀ o sub, b.submission = some sub →
        ∃ b' ∈ (step wide decimal collate reg H (run wide decimal collate reg H St.empty ops) o).world.batches.rows,
          b'.id = b.id ∧ (b'.submission = some sub ∨ b'.submission = none ∧ b.confirmation = none ∧
            Resets (run wide decimal collate reg H St.empty ops) o b sub) := by
  intro b hb
  have hinv := inv_run collate reg H (inv_empty wide decimal sender) (fun o ho => hsigned o (List.mem_append_left _ ho))
  refine ⟨fun c hc => ⟨hinv.evidence b hb c hc, ?_⟩, fun o sub hsub => submission_step o hb hsub⟩
  have hlater := confirmed_run collate reg H hinv (fun o ho => hsigned o (List.mem_append_right _ ho)) hb hc
  unfold run at hlater ⊢
  rwa [Runs.run_append]

def anchorAddress : String := String.ofList ('0' :: 'x' :: List.replicate 40 'e')

def anchorHash : String := String.ofList ('0' :: 'x' :: List.replicate 64 'c')

def text (s : String) : PyJson := .str (PyStr.ofString s)

def result (fields : List (String × PyJson)) : Call PyJson :=
  .ok (.obj [(PyStr.ofString "result", .obj (fields.map (fun f => (PyStr.ofString f.1, f.2))))])

/-- a mined transaction in a final block -/
def finalAnswers : Answers where
  url := .ok ()
  tx := result [("blockNumber", text "0x10"), ("input", text ("0x" ++ sampleLeaf)), ("from", text anchorAddress),
    ("to", text anchorAddress)]
  receipt := result [("status", text "0x1"), ("blockNumber", text "0x10"), ("blockHash", text "0xab")]
  block := result [("hash", text "0xab"), ("timestamp", text "0x68000000")]
  finalized := result [("number", text "0x20")]

/-- one prediction, sealed, sent and confirmed -/
def anchoredRun : List Op :=
  [.data (.insert "labeling_predictions" ⟨"p", some sampleLeaf, none, fun _ => 0⟩), .data (.sealBatch "batch" 8453 0),
   .claim 0 (fun _ => false), .send 0 (.ok (anchorHash, anchorAddress)), .writeSend 0, .list 0, .confirm 0 finalAnswers,
   .writeOutcome 0]

/-- a run of the worker in a world where no character is beyond ASCII -/
def anchored (ops : List Op) : St := run (fun _ => []) (fun _ => none) byCodePoint both Commitments.twoSha St.empty ops

theorem anchoredRun_batches : (Anchoring.run byCodePoint both Commitments.twoSha World.empty
    [.insert "labeling_predictions" ⟨"p", some sampleLeaf, none, fun _ => 0⟩, .sealBatch "batch" 8453 0]).batches.rows =
      [newBatch "batch" sampleLeaf 1 8453 0] := by
  have hroot : merkleRoot Commitments.twoSha [sampleLeaf] = .ok sampleLeaf := by rw [merkleRoot]
  have hselected : ((pendingItems byCodePoint both (Anchoring.step byCodePoint both Commitments.twoSha World.empty
      (.insert "labeling_predictions" ⟨"p", some sampleLeaf, none, fun _ => 0⟩))).insertionSort Item.before).take
        maxBatchLeaves = [⟨0, "labeling_predictions", "p", sampleLeaf⟩] := by decide
  unfold Anchoring.run
  rw [Runs.run_cons, Runs.run_cons, Runs.run_nil, Anchoring.step.eq_3,
    seal_ok byCodePoint (by decide) hselected hroot (by decide) rfl rfl]
  rfl

theorem anchoredRun_confirms {w : World} (h : w.batches.rows = [newBatch "batch" sampleLeaf 1 8453 0]) :
    (run (fun _ => []) (fun _ => none) byCodePoint both Commitments.twoSha ⟨w, [], [], [], [], []⟩
      (anchoredRun.drop 2)).world.batches.rows.map BatchRow.confirmation = [some ⟨16, 1744830464000000⟩] := by
  obtain ⟨tables, rows, nodup⟩ := w
  subst h
  rfl

theorem anchors_final_one : ∃ b ∈ (anchored anchoredRun).world.batches.rows, b.confirmation = some ⟨16, 1744830464000000⟩ ∧
    (∃ sub, b.submission = some sub ∧
      Evidence (fun _ => []) (fun _ => none) (anchored anchoredRun).log b sub ⟨16, 1744830464000000⟩) ∧
    ∃ b' ∈ (anchored (anchoredRun ++ [.writeSend 0, .writeOutcome 0])).world.batches.rows,
      b'.id = b.id ∧ b'.submission = b.submission ∧ b'.confirmation = b.confirmation := by
  have hconfirms := anchoredRun_confirms anchoredRun_batches
  obtain ⟨b, hb, hc⟩ := List.mem_map.1 (hconfirms.symm ▸ List.mem_cons_self :
    some ⟨16, 1744830464000000⟩ ∈ (anchored anchoredRun).world.batches.rows.map BatchRow.confirmation)
  refine ⟨b, hb, hc, (anchors_final (fun _ => []) (fun _ => none) byCodePoint both Commitments.twoSha
    (fun _ => anchorAddress) anchoredRun [.writeSend 0, .writeOutcome 0] ?_ b hb).1 _ hc⟩
  simp only [anchoredRun, List.cons_append, List.nil_append, List.forall_mem_cons, Signed]
  simp

end Teardrop.Anchoring.Worker
