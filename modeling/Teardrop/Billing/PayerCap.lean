/-
The daily cap of anonymous x402 payers. `reserve_payer_spend` puts the price of a call on the nonce row of its payment,
under an advisory lock of the payer; beside it run claims of nonces, releases and the daily cleanup. The reservation is taken
statement by statement: the lock, the row read `FOR UPDATE`, the rolling sum as of the transaction's start, and the update with
the commit. What needs a lock another session holds waits.

`LOWER`, `str.lower` above ASCII and the key of an advisory lock are parameters (`Texts`); both leave text alone that was lowered
before (`Texts.Lawful`).
-/
import Teardrop.Core.Locks
import Teardrop.Core.Runs
import Teardrop.Billing.X402

namespace Teardrop.Billing

open Teardrop.Py Table List

/-! ## Model -/

/-- what the surroundings make of texts -/
structure Texts where
  /-- `str.lower` above ASCII -/
  wide : Char → List Char
  /-- SQL `LOWER` -/
  sqlLower : String → String
  /-- `hashtextextended(text, 0)` -/
  lockKey : String → ℤ

namespace Texts

def lower (x : Texts) (s : String) : String := String.ofList (PyText.lower x.wide s.toList)

/-- `payer_address.strip().lower()` -/
def payer (x : Texts) (address : String) : String :=
  String.ofList (PyText.lower x.wide (PyText.strip address.toList))

/-- lower-case text is left alone -/
structure Lawful (x : Texts) : Prop where
  python : ∀ address, x.lower (x.payer address) = x.payer address
  sql : ∀ address, x.sqlLower (x.payer address) = x.payer address

end Texts

/-- a call of `reserve_payer_spend`, with the hash of its header -/
structure Reserve where
  nonceHash : String
  payerAddress : String
  amountUsdc : ℤ
  limitUsdc : ℤ

/-- what a row adds to a payer's rolling sum -/
def spendOf (x : Texts) (now : ℤ) (payer : String) (r : NonceRow) : ℤ :=
  if x.sqlLower r.payerAddress = payer ∧ now - hours 24 ≤ r.claimedAt then r.reservedCostUsdc else 0

/-- the sum reserved for a payer on rows claimed in the last 24 hours -/
def rollingSpend (x : Texts) (now : ℤ) (payer : String) (nonces : Table NonceRow.nonceHash) : ℤ :=
  nonces.sum (spendOf x now payer)

/-- the UPDATE of a reservation -/
def reserveRow (h payer : String) (amount : ℤ) (r : NonceRow) : NonceRow :=
  if r.nonceHash = h ∧ r.reservedCostUsdc = 0 then { r with payerAddress := payer, reservedCostUsdc := amount } else r

theorem reserveRow_nonceHash (h payer : String) (amount : ℤ) (r : NonceRow) :
    (reserveRow h payer amount r).nonceHash = r.nonceHash := by
  unfold reserveRow
  split_ifs <;> rfl

def reserveIn (h payer : String) (amount : ℤ) (nonces : Table NonceRow.nonceHash) : Table NonceRow.nonceHash :=
  nonces.update (reserveRow h payer amount) (reserveRow_nonceHash h payer amount)

/-- how far a reservation has come -/
inductive ReservePhase where
  | begun
  /-- it holds the payer's advisory lock -/
  | keyed
  /-- its nonce row is locked, and unreserved -/
  | rowLocked
  /-- the rolling sum is read, and leaves room -/
  | cleared

structure Reserving where
  call : Reserve
  /-- `NOW()`: the start of the transaction -/
  began : ℤ
  phase : ReservePhase

namespace Reserving

def payerLock (x : Texts) (s : Reserving) : Option ℤ :=
  match s.phase with
  | .begun => none
  | _ => some (x.lockKey (x.payer s.call.payerAddress))

def rowLock (s : Reserving) : Option String :=
  match s.phase with
  | .begun => none
  | .keyed => none
  | _ => some s.call.nonceHash

end Reserving

/-- what a call answers -/
inductive NonceAnswer where
  | claimed (h : String) (result : Call Bool)
  | reserved (c : Reserve) (result : Bool)

inductive NonceEvent where
  | tick (elapsed : ℕ)
  | claim (fault failClosed : Bool) (h : String)
  | release (fault : Bool) (h : String)
  /-- `cleanup_expired_payment_nonces()` -/
  | cleanup (fault : Bool)
  /-- `reserve_payer_spend` is called -/
  | reserve (c : Reserve)
  /-- a reservation takes its next statement -/
  | advance (i : ℕ) (fault : Bool)
  /-- a reservation is lost: its transaction is rolled back -/
  | drop (i : ℕ)

structure NonceDesk where
  clock : ℤ
  nonces : Table NonceRow.nonceHash
  sessions : List Reserving

namespace NonceDesk

def initial (clock : ℤ) : NonceDesk := ⟨clock, Table.empty, []⟩

/-- `retention_hours` of the cleanup -/
def expired (clock : ℤ) (r : NonceRow) : Bool := r.claimedAt < clock - hours 24

def finish (w : NonceDesk) (i : ℕ) (c : Reserve) (result : Bool) : NonceDesk × Option NonceAnswer :=
  ({ w with sessions := w.sessions.eraseIdx i }, some (.reserved c result))

def put (w : NonceDesk) (i : ℕ) (s : Reserving) (phase : ReservePhase) : NonceDesk × Option NonceAnswer :=
  ({ w with sessions := w.sessions.set i { s with phase := phase } }, none)

/-- `reserve_payer_spend` up to its transaction -/
def startReserve (x : Texts) (pool : Bool) (w : NonceDesk) (c : Reserve) : NonceDesk × Option NonceAnswer :=
  if x.payer c.payerAddress = "" ∨ c.amountUsdc < 0 ∨ c.limitUsdc ≤ 0 ∨ pool = false then
    (w, some (.reserved c false))
  else if c.amountUsdc = 0 then (w, some (.reserved c true))
  else ({ w with sessions := w.sessions ++ [⟨c, w.clock, .begun⟩] }, none)

/-- the next statement of a reservation -/
def statement (x : Texts) (w : NonceDesk) (i : ℕ) (s : Reserving) : NonceDesk × Option NonceAnswer :=
  let payer := x.payer s.call.payerAddress
  match s.phase with
  | .begun =>
    if x.lockKey payer ∈ Locks.held (Reserving.payerLock x) w.sessions then (w, none) else w.put i s .keyed
  | .keyed =>
    if s.call.nonceHash ∈ Locks.held Reserving.rowLock w.sessions then (w, none)
    else match w.nonces.get? s.call.nonceHash with
      | none => w.finish i s.call false
      | some row =>
        if 0 < row.reservedCostUsdc then
          w.finish i s.call (x.lower row.payerAddress = payer && row.reservedCostUsdc = s.call.amountUsdc)
        else w.put i s .rowLocked
  | .rowLocked =>
    if s.call.limitUsdc < rollingSpend x s.began payer w.nonces + s.call.amountUsdc then w.finish i s.call false
    else w.put i s .cleared
  | .cleared =>
    if ¬ isBigint s.call.amountUsdc then w.finish i s.call false
    else
      let reserved := ((w.nonces.get? s.call.nonceHash).filter (fun r => r.reservedCostUsdc = 0)).isSome
      { w with nonces := reserveIn s.call.nonceHash payer s.call.amountUsdc w.nonces }.finish i s.call reserved

/-- one event, and the answer it gives -/
def stepWith (x : Texts) (pool : Bool) (w : NonceDesk) : NonceEvent → NonceDesk × Option NonceAnswer
  | .tick elapsed => ({ w with clock := w.clock + elapsed }, none)
  | .claim fault failClosed h =>
    let r := claimPaymentNonce pool fault failClosed w.clock h w.nonces
    ({ w with nonces := r.2 }, some (.claimed h r.1))
  | .release fault h =>
    if h ∈ Locks.held Reserving.rowLock w.sessions then (w, none)
    else ({ w with nonces := (releasePaymentNonce pool fault h w.nonces).2 }, none)
  | .cleanup fault =>
    if pool = false ∨ fault = true ∨
        ∃ r ∈ w.nonces.rows, expired w.clock r = true ∧ r.nonceHash ∈ Locks.held Reserving.rowLock w.sessions then (w, none)
    else ({ w with nonces := w.nonces.filter (fun r => !expired w.clock r) }, none)
  | .reserve c => w.startReserve x pool c
  | .advance i fault =>
    match w.sessions[i]? with
    | none => (w, none)
    | some s => if fault then w.finish i s.call false else w.statement x i s
  | .drop i => ({ w with sessions := w.sessions.eraseIdx i }, none)

def step (x : Texts) (pool : Bool) (w : NonceDesk) (ev : NonceEvent) : NonceDesk := (w.stepWith x pool ev).1

def answer (x : Texts) (pool : Bool) (w : NonceDesk) (ev : NonceEvent) : Option NonceAnswer := (w.stepWith x pool ev).2

def run (x : Texts) (pool : Bool) (w : NonceDesk) (evs : List NonceEvent) : NonceDesk := Runs.run (step x pool) w evs

/-! ## What is claimed of a run -/

/-- the event ends the claim of `h`: its release, or a cleanup when its row is past retention -/
def Ends (w : NonceDesk) (h : String) : NonceEvent → Prop
  | .release _ h' => h' = h
  | .cleanup _ => ∃ r, w.nonces.get? h = some r ∧ expired w.clock r = true
  | _ => False

/-- no event of the run ends the claim of `h` -/
def Undisturbed (x : Texts) (pool : Bool) (h : String) : NonceDesk → List NonceEvent → Prop
  | _, [] => True
  | w, ev :: evs => ¬ Ends w h ev ∧ Undisturbed x pool h (w.step x pool ev) evs

end NonceDesk

/-! ## The rolling sum -/

section Sum

variable {x : Texts} {nonces nonces' : Table NonceRow.nonceHash}

theorem spendOf_nonneg {now : ℤ} {payer : String} {r : NonceRow} (h : 0 ≤ r.reservedCostUsdc) :
    0 ≤ spendOf x now payer r := by
  unfold spendOf
  split_ifs
  · exact h
  · exact le_refl 0

theorem rollingSpend_antitone {t t' : ℤ} (ht : t ≤ t') (payer : String) (hpos : ∀ r ∈ nonces.rows, 0 ≤ r.reservedCostUsdc) :
    rollingSpend x t' payer nonces ≤ rollingSpend x t payer nonces := by
  refine sum_mono (fun r hr => ?_)
  have hr := hpos r hr
  unfold spendOf
  split_ifs with h₁ h₂
  · exact le_refl _
  · exact absurd ⟨h₁.1, by omega⟩ h₂
  · exact hr
  · exact le_refl 0

theorem rollingSpend_insert {r : NonceRow} (h : nonces.insert? r = some nonces') (hr : r.reservedCostUsdc = 0) (now : ℤ)
    (payer : String) : rollingSpend x now payer nonces' = rollingSpend x now payer nonces := by
  unfold rollingSpend
  rw [sum_insert h, spendOf, hr, ite_self, add_zero]

theorem rollingSpend_filter_le (p : NonceRow → Bool) (hpos : ∀ r ∈ nonces.rows, 0 ≤ r.reservedCostUsdc) (now : ℤ)
    (payer : String) : rollingSpend x now payer (nonces.filter p) ≤ rollingSpend x now payer nonces :=
  Table.sum_filter_le nonces p (fun r hr => spendOf_nonneg (hpos r hr))

/-- **A reservation adds its amount** to the sum of its own payer, if its row is in the window. -/
theorem rollingSpend_reserveIn {h payer : String} {amount : ℤ} {row : NonceRow} (hrow : nonces.get? h = some row)
    (hfree : row.reservedCostUsdc = 0) (now : ℤ) (q : String) :
    rollingSpend x now q (reserveIn h payer amount nonces) = rollingSpend x now q nonces +
      if x.sqlLower payer = q ∧ now - hours 24 ≤ row.claimedAt then amount else 0 := by
  have hid := key_of_get? hrow
  have hself : reserveRow h payer amount row = { row with payerAddress := payer, reservedCostUsdc := amount } :=
    if_pos ⟨hid, hfree⟩
  have hchange := sum_change hrow (v := spendOf x now q) (w := fun r => spendOf x now q (reserveRow h payer amount r))
    (fun r _ hr => by rw [reserveRow, if_neg (fun hhit => hr hhit.1)])
  have hzero : spendOf x now q row = 0 := by rw [spendOf, hfree, ite_self]
  unfold rollingSpend reserveIn
  rw [sum_update, hchange, hself, hzero, sub_zero]
  rfl

theorem get?_reserveIn (h payer : String) (amount : ℤ) (k : String) :
    (reserveIn h payer amount nonces).get? k = (nonces.get? k).map (reserveRow h payer amount) :=
  get?_update _ _ _ k

theorem get?_reserveIn_other {h payer : String} {amount : ℤ} {k : String} (hk : k ≠ h) :
    (reserveIn h payer amount nonces).get? k = nonces.get? k := by
  rw [get?_reserveIn]
  cases hrow : nonces.get? k with
  | none => rfl
  | some r =>
    have hid := key_of_get? hrow
    rw [Option.map_some, reserveRow, if_neg (fun hhit => hk (hid.symm.trans hhit.1))]

end Sum

/-! ## What one event does to the store -/

/-- what claims, releases and cleanups do to the rows -/
inductive NonceChange (w : NonceDesk) : NonceEvent → Table NonceRow.nonceHash → Prop where
  | claimed {fault failClosed : Bool} {h : String} {nonces : Table NonceRow.nonceHash} :
      w.nonces.insert? ⟨h, w.clock, "", 0⟩ = some nonces → NonceChange w (.claim fault failClosed h) nonces
  | released {fault : Bool} {h : String} : h ∉ Locks.held Reserving.rowLock w.sessions →
      NonceChange w (.release fault h) (w.nonces.filter (fun r => r.nonceHash ≠ h))
  | cleaned {fault : Bool} : (∀ r ∈ w.nonces.rows, NonceDesk.expired w.clock r = true →
      r.nonceHash ∉ Locks.held Reserving.rowLock w.sessions) →
      NonceChange w (.cleanup fault) (w.nonces.filter (fun r => !NonceDesk.expired w.clock r))

/-- what an event does to the sessions: at most one begins, ends or comes to its next phase -/
inductive SessionChange (x : Texts) (w : NonceDesk) (ev : NonceEvent) : List Reserving → Prop where
  | same : SessionChange x w ev w.sessions
  | began {c : Reserve} : ev = .reserve c → 0 < c.amountUsdc → SessionChange x w ev (w.sessions ++ [⟨c, w.clock, .begun⟩])
  | ended (i : ℕ) : SessionChange x w ev (w.sessions.eraseIdx i)
  | keyed {i : ℕ} {s : Reserving} : w.sessions[i]? = some s → s.phase = .begun →
      x.lockKey (x.payer s.call.payerAddress) ∉ Locks.held (Reserving.payerLock x) w.sessions →
      SessionChange x w ev (w.sessions.set i { s with phase := .keyed })
  | rowLocked {i : ℕ} {s : Reserving} {row : NonceRow} : w.sessions[i]? = some s → s.phase = .keyed →
      s.call.nonceHash ∉ Locks.held Reserving.rowLock w.sessions → w.nonces.get? s.call.nonceHash = some row →
      row.reservedCostUsdc ≤ 0 → SessionChange x w ev (w.sessions.set i { s with phase := .rowLocked })
  | cleared {i : ℕ} {s : Reserving} : w.sessions[i]? = some s → s.phase = .rowLocked →
      rollingSpend x s.began (x.payer s.call.payerAddress) w.nonces + s.call.amountUsdc ≤ s.call.limitUsdc →
      SessionChange x w ev (w.sessions.set i { s with phase := .cleared })

/-- **What one event does.** It changes the rows, or the sessions, or ends the session that reserved. -/
inductive DeskStep (x : Texts) (w : NonceDesk) (ev : NonceEvent) : NonceDesk → Prop where
  | ticked {clock : ℤ} : w.clock ≤ clock → DeskStep x w ev { w with clock := clock }
  | rows {nonces : Table NonceRow.nonceHash} : NonceChange w ev nonces → DeskStep x w ev { w with nonces := nonces }
  | sessions {sessions : List Reserving} : SessionChange x w ev sessions → DeskStep x w ev { w with sessions := sessions }
  | reserved {i : ℕ} {s : Reserving} : ev = .advance i false → w.sessions[i]? = some s → s.phase = .cleared → DeskStep x w ev
        { w with
          nonces := reserveIn s.call.nonceHash (x.payer s.call.payerAddress) s.call.amountUsdc w.nonces
          sessions := w.sessions.eraseIdx i }

theorem claim_snd (pool fault failClosed : Bool) (now : ℤ) (h : String) (nonces : Table NonceRow.nonceHash) :
    (claimPaymentNonce pool fault failClosed now h nonces).2 = nonces ∨
    nonces.insert? ⟨h, now, "", 0⟩ = some (claimPaymentNonce pool fault failClosed now h nonces).2 := by
  cases pool with
  | false => exact Or.inl rfl
  | true =>
    cases fault with
    | true => exact Or.inl rfl
    | false =>
      cases hins : nonces.insert? ⟨h, now, "", 0⟩ with
      | none => simp [claimPaymentNonce, hins]
      | some nonces' => simp [claimPaymentNonce, hins]

theorem release_snd (pool fault : Bool) (h : String) (nonces : Table NonceRow.nonceHash) :
    (releasePaymentNonce pool fault h nonces).2 = nonces ∨
    (releasePaymentNonce pool fault h nonces).2 = nonces.filter (fun r => r.nonceHash ≠ h) := by
  cases pool with
  | false => exact Or.inl rfl
  | true =>
    cases fault with
    | true => exact Or.inl rfl
    | false => exact Or.inr rfl

namespace NonceDesk

variable {x : Texts} {pool : Bool} {w : NonceDesk}

theorem step_cases (x : Texts) (pool : Bool) (w : NonceDesk) (ev : NonceEvent) : DeskStep x w ev (w.step x pool ev) := by
  have same : DeskStep x w ev w := .sessions .same
  cases ev with
  | tick elapsed => exact .ticked (by omega)
  | claim fault failClosed h =>
    simp only [step, stepWith]
    rcases claim_snd pool fault failClosed w.clock h w.nonces with hsame | hins
    · rw [hsame]
      exact same
    · exact .rows (.claimed hins)
  | release fault h =>
    simp only [step, stepWith]
    split_ifs with hheld
    · exact same
    · rcases release_snd pool fault h w.nonces with hsame | hdeleted
      · rw [hsame]
        exact same
      · rw [hdeleted]
        exact .rows (.released hheld)
  | cleanup fault =>
    simp only [step, stepWith]
    split_ifs with hskip
    · exact same
    · push Not at hskip
      exact .rows (.cleaned hskip.2.2)
  | reserve c =>
    simp only [step, stepWith, startReserve]
    split_ifs with hrefused hzero
    · exact same
    · exact same
    · push Not at hrefused
      exact .sessions (.began rfl (by omega))
  | advance i fault =>
    simp only [step, stepWith]
    cases hi : w.sessions[i]? with
    | none => exact same
    | some s =>
      dsimp only
      split_ifs with hfault
      · exact .sessions (.ended i)
      · unfold statement
        cases hs : s.phase with
        | begun =>
          dsimp only
          split_ifs with hheld
          · exact same
          · exact .sessions (.keyed hi hs hheld)
        | keyed =>
          dsimp only
          split_ifs with hheld
          · exact same
          · cases hrow : w.nonces.get? s.call.nonceHash with
            | none => exact .sessions (.ended i)
            | some row =>
              dsimp only
              split_ifs with hreserved
              · exact .sessions (.ended i)
              · exact .sessions (.rowLocked hi hs hheld hrow (not_lt.1 hreserved))
        | rowLocked =>
          dsimp only
          split_ifs with hlimit
          · exact .sessions (.ended i)
          · exact .sessions (.cleared hi hs (not_lt.1 hlimit))
        | cleared =>
          dsimp only
          by_cases hbig : isBigint s.call.amountUsdc
          · rw [if_neg (not_not.2 hbig)]
            have hfault : fault = false := by simpa using hfault
            subst hfault
            exact .reserved rfl hi hs
          · rw [if_pos hbig]
            exact .sessions (.ended i)
  | drop i => exact .sessions (.ended i)

end NonceDesk

/-! ## The invariant -/

/-- the row the session has locked is there, and unreserved -/
def Reserving.Locked (nonces : Table NonceRow.nonceHash) (s : Reserving) : Prop :=
  ∃ row, nonces.get? s.call.nonceHash = some row ∧ row.reservedCostUsdc = 0

/-- what holds of a session in its phase -/
structure Reserving.Ok (x : Texts) (clock : ℤ) (nonces : Table NonceRow.nonceHash) (s : Reserving) : Prop where
  amount : 0 < s.call.amountUsdc
  began : s.began ≤ clock
  locked : s.rowLock.isSome → s.Locked nonces
  room : s.phase = .cleared →
    rollingSpend x s.began (x.payer s.call.payerAddress) nonces + s.call.amountUsdc ≤ s.call.limitUsdc

structure NonceDesk.Inv (x : Texts) (w : NonceDesk) : Prop where
  payers : Locks.Exclusive (Reserving.payerLock x) w.sessions
  rows : Locks.Exclusive Reserving.rowLock w.sessions
  nonneg : ∀ r ∈ w.nonces.rows, 0 ≤ r.reservedCostUsdc
  sessions : ∀ s ∈ w.sessions, s.Ok x w.clock w.nonces

variable {s : Reserving} {ev : NonceEvent}

/-- a session keeps what it knows: its locked row stays, and what is summed for its payer only falls -/
theorem Reserving.Ok.mono {x : Texts} {clock clock' : ℤ} {nonces nonces' : Table NonceRow.nonceHash}
    (h : s.Ok x clock nonces) (hclock : clock ≤ clock') (hrow : ∀ k, s.rowLock = some k → nonces'.get? k = nonces.get? k)
    (hsum : s.phase = .cleared → rollingSpend x s.began (x.payer s.call.payerAddress) nonces' ≤ rollingSpend x s.began (x.payer s.call.payerAddress) nonces) :
    s.Ok x clock' nonces' where
  amount := h.amount
  began := h.began.trans hclock
  locked := by
    intro hlock
    have hkey : s.rowLock = some s.call.nonceHash := by
      unfold Reserving.rowLock at hlock ⊢
      cases hs : s.phase <;> simp [hs] at hlock ⊢
    obtain ⟨row, hget, hfree⟩ := h.locked hlock
    exact ⟨row, (hrow _ hkey).trans hget, hfree⟩
  room := by
    intro hs
    have hroom := h.room hs
    have hless := hsum hs
    omega

theorem NonceChange.keeps {x : Texts} {w : NonceDesk} {nonces : Table NonceRow.nonceHash} (h : NonceChange w ev nonces)
    (hpos : ∀ r ∈ w.nonces.rows, 0 ≤ r.reservedCostUsdc) :
    (∀ r ∈ nonces.rows, 0 ≤ r.reservedCostUsdc) ∧
    (∀ t q, rollingSpend x t q nonces ≤ rollingSpend x t q w.nonces) ∧
    ∀ k ∈ Locks.held Reserving.rowLock w.sessions, (w.nonces.get? k).isSome → nonces.get? k = w.nonces.get? k := by
  cases h with
  | claimed hins =>
    obtain ⟨hfree, hrows⟩ := insert?_eq_some hins
    refine ⟨fun r hr => ?_, fun t q => (rollingSpend_insert hins rfl t q).le, fun k _ hsome => ?_⟩
    · rw [hrows] at hr
      rcases mem_append.1 hr with hr | hr
      · exact hpos r hr
      · rw [mem_singleton.1 hr]
    · rw [get?_insert hins]
      refine if_neg (fun heq => ?_)
      rw [← heq, hfree] at hsome
      cases hsome
  | @released fault hash hheld =>
    refine ⟨fun r hr => hpos r (mem_filter.1 hr).1, rollingSpend_filter_le _ hpos, fun k hk _ => ?_⟩
    rw [get?_filter]
    cases hrow : w.nonces.get? k with
    | none => rfl
    | some r =>
      have hid : r.nonceHash = k := key_of_get? hrow
      refine Option.filter_some_pos ?_
      simp only [decide_eq_true_eq, ne_eq, hid]
      exact fun heq => hheld (heq ▸ hk)
  | cleaned hexp =>
    refine ⟨fun r hr => hpos r (mem_filter.1 hr).1, rollingSpend_filter_le _ hpos, fun k hk _ => ?_⟩
    rw [get?_filter]
    cases hrow : w.nonces.get? k with
    | none => rfl
    | some r =>
      have hid : r.nonceHash = k := key_of_get? hrow
      refine Option.filter_some_pos ?_
      cases hr : NonceDesk.expired w.clock r with
      | false => rfl
      | true => exact absurd (hid ▸ hk) (hexp r (mem_of_get? hrow) hr)

namespace NonceDesk

variable {x : Texts} {pool : Bool} {w : NonceDesk}

theorem Inv.initial (clock : ℤ) : Inv x (initial clock) where
  payers := Locks.Exclusive.nil
  rows := Locks.Exclusive.nil
  nonneg := fun r hr => by cases hr
  sessions := fun s hs => by cases hs

theorem Inv.put (h : Inv x w) {i : ℕ} (hi : w.sessions[i]? = some s) {phase : ReservePhase}
    (hpayers : Locks.Exclusive (Reserving.payerLock x) (w.sessions.set i { s with phase := phase }))
    (hrows : Locks.Exclusive Reserving.rowLock (w.sessions.set i { s with phase := phase }))
    (hok : Reserving.Ok x w.clock w.nonces { s with phase := phase }) :
    Inv x { w with sessions := w.sessions.set i { s with phase := phase } } where
  payers := hpayers
  rows := hrows
  nonneg := h.nonneg
  sessions := by
    intro s' hs'
    rcases Locks.mem_set hi hs' with rfl | hs'
    · exact hok
    · exact h.sessions s' (mem_of_mem_eraseIdx hs')

theorem Inv.session (h : Inv x w) {sessions : List Reserving} (hc : SessionChange x w ev sessions) :
    Inv x { w with sessions := sessions } := by
  cases hc with
  | same => exact h
  | @began c _ hamount =>
    refine ⟨h.payers.snoc rfl, h.rows.snoc rfl, h.nonneg, fun s hs => ?_⟩
    rcases mem_append.1 hs with hs | hs
    · exact h.sessions s hs
    · rw [mem_singleton.1 hs]
      exact ⟨hamount, le_refl _, (fun hlock => by cases hlock), fun hs => by cases hs⟩
  | ended i =>
    exact ⟨h.payers.erase i, h.rows.erase i, h.nonneg, fun s hs => h.sessions s (mem_of_mem_eraseIdx hs)⟩
  | @keyed i s hi hs hfree =>
    have hok := h.sessions s (mem_of_getElem? hi)
    refine h.put hi (h.payers.acquire hi (by simp [Reserving.payerLock, hs]) rfl hfree)
      (h.rows.keep hi (by simp [Reserving.rowLock, hs])) ?_
    exact ⟨hok.amount, hok.began, (fun hlock => by cases hlock), fun hs => by cases hs⟩
  | @rowLocked i s row hi hs hfree hrow hunreserved =>
    have hok := h.sessions s (mem_of_getElem? hi)
    refine h.put hi (h.payers.keep hi (by simp [Reserving.payerLock, hs]))
      (h.rows.acquire hi (by simp [Reserving.rowLock, hs]) rfl hfree) ?_
    have hzero : row.reservedCostUsdc = 0 := le_antisymm hunreserved (h.nonneg row (mem_of_get? hrow))
    exact ⟨hok.amount, hok.began, fun _ => ⟨row, hrow, hzero⟩, fun hs => by cases hs⟩
  | @cleared i s hi hs hroom =>
    have hok := h.sessions s (mem_of_getElem? hi)
    refine h.put hi (h.payers.keep hi (by simp [Reserving.payerLock, hs]))
      (h.rows.keep hi (by simp [Reserving.rowLock, hs])) ?_
    exact ⟨hok.amount, hok.began, fun _ => hok.locked (by simp [Reserving.rowLock, hs]), fun _ => hroom⟩

theorem Inv.reserve (h : Inv x w) (hx : x.Lawful) {i : ℕ} (hi : w.sessions[i]? = some s) (hs : s.phase = .cleared) :
    Inv x { w with
      nonces := reserveIn s.call.nonceHash (x.payer s.call.payerAddress) s.call.amountUsdc w.nonces
      sessions := w.sessions.eraseIdx i } := by
  have hok := h.sessions s (mem_of_getElem? hi)
  obtain ⟨row, hrow, hfree⟩ := hok.locked (by simp [Reserving.rowLock, hs])
  refine ⟨h.payers.erase i, h.rows.erase i, fun r hr => ?_, fun s' hs' => ?_⟩
  · obtain ⟨r₀, hr₀, rfl⟩ := mem_map.1 hr
    unfold reserveRow
    split_ifs
    · exact hok.amount.le
    · exact h.nonneg r₀ hr₀
  · refine (h.sessions s' (mem_of_mem_eraseIdx hs')).mono (le_refl _) (fun k hk => ?_) (fun hs'' => ?_)
    · refine get?_reserveIn_other (fun heq => ?_)
      exact h.rows.apart hi (k := s.call.nonceHash) (by simp [Reserving.rowLock, hs]) s' hs' (heq ▸ hk)
    · -- another payer: the same one would hold the same advisory lock
      have hother : x.payer s'.call.payerAddress ≠ x.payer s.call.payerAddress := by
        intro heq
        refine h.payers.apart hi (k := x.lockKey (x.payer s.call.payerAddress)) (by simp [Reserving.payerLock, hs]) s' hs' ?_
        simp [Reserving.payerLock, hs'', heq]
      rw [rollingSpend_reserveIn hrow hfree, hx.sql, if_neg (fun hhit => hother hhit.1.symm), add_zero]

theorem step_inv (hx : x.Lawful) (h : Inv x w) (ev : NonceEvent) : Inv x (w.step x pool ev) := by
  have hstep := step_cases x pool w ev
  generalize w.step x pool ev = w' at hstep ⊢
  cases hstep with
  | ticked hclock =>
    exact ⟨h.payers, h.rows, h.nonneg, fun s hs => (h.sessions s hs).mono hclock (fun _ _ => rfl) (fun _ => le_refl _)⟩
  | rows hc =>
    obtain ⟨hpos, hsum, hrow⟩ := hc.keeps (x := x) h.nonneg
    refine ⟨h.payers, h.rows, hpos, fun s hs => ?_⟩
    refine (h.sessions s hs).mono (le_refl _) (fun k hk => hrow k (Locks.mem_held hs hk) ?_) (fun _ => hsum _ _)
    obtain ⟨row, hget, -⟩ := (h.sessions s hs).locked (by rw [hk]; rfl)
    have hkey : k = s.call.nonceHash := by
      unfold Reserving.rowLock at hk
      cases hs : s.phase <;> simp [hs] at hk <;> exact hk.symm
    rw [hkey, hget]
    rfl
  | sessions hc => exact h.session hc
  | reserved _ hi hs => exact h.reserve hx hi hs

theorem run_inv (hx : x.Lawful) (clock : ℤ) (evs : List NonceEvent) : Inv x (run x pool (initial clock) evs) :=
  Runs.run_inv (step x pool) (Inv x) (fun _ ev h => step_inv hx h ev) evs (Inv.initial clock)

/-! ## Rows stay while nothing ends them -/

theorem step_keeps_row {h : String} {r : NonceRow} (hrow : w.nonces.get? h = some r) (hends : ¬ Ends w h ev) :
    ∃ r', (w.step x pool ev).nonces.get? h = some r' ∧ (r.reservedCostUsdc ≠ 0 → r' = r) := by
  have hid := key_of_get? hrow
  have hstep := step_cases x pool w ev
  generalize w.step x pool ev = w' at hstep ⊢
  cases hstep with
  | ticked _ | sessions _ => exact ⟨r, hrow, fun _ => rfl⟩
  | rows hc =>
    refine ⟨r, ?_, fun _ => rfl⟩
    cases hc with
    | claimed hins =>
      have hfree := (insert?_eq_some hins).1
      rw [get?_insert hins, if_neg (fun heq => ?_)]
      · exact hrow
      · rw [heq, hrow] at hfree
        cases hfree
    | @released fault h' _ =>
      have hne : h' ≠ h := hends
      rw [get?_filter, hrow]
      exact Option.filter_some_pos (by simpa [hid] using hne.symm)
    | cleaned _ =>
      have hfresh : expired w.clock r = false := by
        cases hr : expired w.clock r with
        | false => rfl
        | true => exact absurd ⟨r, hrow, hr⟩ hends
      rw [get?_filter, hrow]
      exact Option.filter_some_pos (by simp [hfresh])
  | @reserved i s _ _ _ =>
    refine ⟨reserveRow s.call.nonceHash (x.payer s.call.payerAddress) s.call.amountUsdc r, ?_, fun hreserved => ?_⟩
    · rw [get?_reserveIn, hrow, Option.map_some]
    · rw [reserveRow, if_neg (fun hhit => hreserved hhit.2)]

theorem run_keeps_row {h : String} {r : NonceRow} (hrow : w.nonces.get? h = some r) {evs : List NonceEvent}
    (hcalm : Undisturbed x pool h w evs) :
    ∃ r', (run x pool w evs).nonces.get? h = some r' ∧ (r.reservedCostUsdc ≠ 0 → r' = r) := by
  induction evs generalizing w r with
  | nil => exact ⟨r, hrow, fun _ => rfl⟩
  | cons ev evs ih =>
    obtain ⟨r₁, hrow₁, hsame₁⟩ : ∃ r', (w.step x pool ev).nonces.get? h = some r' ∧ (r.reservedCostUsdc ≠ 0 → r' = r) :=
      step_keeps_row hrow hcalm.1
    obtain ⟨r₂, hrow₂, hsame₂⟩ := ih hrow₁ hcalm.2
    refine ⟨r₂, hrow₂, fun hreserved => ?_⟩
    have h₁ := hsame₁ hreserved
    subst h₁
    exact hsame₂ hreserved

/-! ## Answers -/

/-- how a reservation succeeds: it asks for nothing, for what its row is reserved for already, or it reserves -/
inductive Succeeds (x : Texts) (pool : Bool) (w : NonceDesk) (ev : NonceEvent) (c : Reserve) : Prop where
  | nothing : c.amountUsdc = 0 → w.step x pool ev = w → Succeeds x pool w ev c
  | again {row : NonceRow} : w.nonces.get? c.nonceHash = some row → 0 < row.reservedCostUsdc →
      x.lower row.payerAddress = x.payer c.payerAddress → row.reservedCostUsdc = c.amountUsdc →
      (w.step x pool ev).nonces = w.nonces → Succeeds x pool w ev c
  | anew {i : ℕ} {s : Reserving} : w.sessions[i]? = some s → s.phase = .cleared → s.call = c → w.step x pool ev = { w with
        nonces := reserveIn c.nonceHash (x.payer c.payerAddress) c.amountUsdc w.nonces
        sessions := w.sessions.eraseIdx i } → Succeeds x pool w ev c

/-- what is behind an answer -/
inductive Answered (x : Texts) (pool : Bool) (w : NonceDesk) (ev : NonceEvent) : NonceAnswer → Prop where
  | claim {fault failClosed : Bool} {h : String} : ev = .claim fault failClosed h →
      Answered x pool w ev (.claimed h (claimPaymentNonce pool fault failClosed w.clock h w.nonces).1)
  | refused {c : Reserve} : Answered x pool w ev (.reserved c false)
  | granted {c : Reserve} : Succeeds x pool w ev c → Answered x pool w ev (.reserved c true)

theorem answer_cases {a : NonceAnswer} (h : w.answer x pool ev = some a) : Answered x pool w ev a := by
  cases ev with
  | tick _ | drop _ => cases h
  | claim fault failClosed hash =>
    cases h
    exact .claim rfl
  | release _ _ | cleanup _ =>
    simp only [answer, stepWith] at h
    split_ifs at h
  | reserve c =>
    by_cases hrefused : x.payer c.payerAddress = "" ∨ c.amountUsdc < 0 ∨ c.limitUsdc ≤ 0 ∨ pool = false
    · simp only [answer, stepWith, startReserve, if_pos hrefused] at h
      cases h
      exact .refused
    · by_cases hzero : c.amountUsdc = 0
      · simp only [answer, stepWith, startReserve, if_neg hrefused, if_pos hzero] at h
        cases h
        refine .granted (.nothing hzero ?_)
        simp [step, stepWith, startReserve, if_neg hrefused, if_pos hzero]
      · simp only [answer, stepWith, startReserve, if_neg hrefused, if_neg hzero] at h
        cases h
  | advance i fault =>
    simp only [answer, stepWith] at h
    cases hi : w.sessions[i]? with
    | none =>
      rw [hi] at h
      cases h
    | some s =>
      rw [hi] at h
      cases fault with
      | true =>
        cases h
        exact .refused
      | false =>
        have hstep : w.step x pool (.advance i false) = (w.statement x i s).1 := by simp [step, stepWith, hi]
        dsimp only at h
        rw [if_neg (by decide)] at h
        unfold statement at h hstep
        cases hs : s.phase with
        | begun =>
          rw [hs] at h
          dsimp only at h
          split_ifs at h
          cases h
        | keyed =>
          rw [hs] at h hstep
          dsimp only at h hstep
          by_cases hheld : s.call.nonceHash ∈ Locks.held Reserving.rowLock w.sessions
          · rw [if_pos hheld] at h
            cases h
          · rw [if_neg hheld] at h hstep
            cases hrow : w.nonces.get? s.call.nonceHash with
            | none =>
              rw [hrow] at h
              cases h
              exact .refused
            | some row =>
              rw [hrow] at h hstep
              dsimp only at h hstep
              by_cases hreserved : 0 < row.reservedCostUsdc
              · rw [if_pos hreserved] at h hstep
                cases hb : decide (x.lower row.payerAddress = x.payer s.call.payerAddress) &&
                    decide (row.reservedCostUsdc = s.call.amountUsdc) with
                | false =>
                  rw [hb] at h
                  cases h
                  exact .refused
                | true =>
                  rw [hb] at h
                  cases h
                  rw [Bool.and_eq_true, decide_eq_true_eq, decide_eq_true_eq] at hb
                  exact .granted (.again hrow hreserved hb.1 hb.2 (by rw [hstep]; rfl))
              · rw [if_neg hreserved] at h
                cases h
        | rowLocked =>
          rw [hs] at h
          dsimp only at h
          split_ifs at h
          · cases h
            exact .refused
          · cases h
        | cleared =>
          rw [hs] at h hstep
          dsimp only at h hstep
          by_cases hbig : isBigint s.call.amountUsdc
          · rw [if_neg (not_not.2 hbig)] at h hstep
            cases hb : ((w.nonces.get? s.call.nonceHash).filter (fun r => r.reservedCostUsdc = 0)).isSome with
            | false =>
              rw [hb] at h
              cases h
              exact .refused
            | true =>
              rw [hb] at h
              cases h
              exact .granted (.anew hi hs rfl hstep)
          · rw [if_pos hbig] at h
            cases h
            exact .refused

theorem claimed_ok {h : String} (ha : w.answer x true ev = some (.claimed h (.ok true))) :
    w.nonces.get? h = none ∧ ∃ r, (w.step x true ev).nonces.get? h = some r := by
  generalize hr : (Except.ok true : Call Bool) = result at ha
  cases answer_cases ha with
  | @claim fault failClosed _ hev =>
    subst hev
    simp only [step, stepWith]
    cases fault with
    | true => cases hr
    | false =>
      cases hins : w.nonces.insert? ⟨h, w.clock, "", 0⟩ with
      | none => simp [claimPaymentNonce, hins] at hr
      | some nonces =>
        have hsnd : (claimPaymentNonce true false failClosed w.clock h w.nonces).2 = nonces := by
          simp [claimPaymentNonce, hins]
        refine ⟨(insert?_eq_some hins).1, ⟨h, w.clock, "", 0⟩, ?_⟩
        rw [hsnd, get?_insert hins, if_pos rfl]

theorem granted_cases {c : Reserve} (ha : w.answer x pool ev = some (.reserved c true)) : Succeeds x pool w ev c := by
  generalize hr : true = result at ha
  cases answer_cases ha with
  | refused => cases hr
  | granted h => exact h

/-! ## The cap -/

theorem Inv.reserve_within (h : Inv x w) (hx : x.Lawful) {i : ℕ} (hi : w.sessions[i]? = some s) (hs : s.phase = .cleared)
    (q : String) :
    rollingSpend x w.clock q (reserveIn s.call.nonceHash (x.payer s.call.payerAddress) s.call.amountUsdc w.nonces) ≤
      if q = x.payer s.call.payerAddress then s.call.limitUsdc else rollingSpend x w.clock q w.nonces := by
  have hok := h.sessions s (mem_of_getElem? hi)
  obtain ⟨row, hrow, hfree⟩ := hok.locked (by simp [Reserving.rowLock, hs])
  have hroom := hok.room hs
  have hamount := hok.amount
  rw [rollingSpend_reserveIn hrow hfree, hx.sql]
  by_cases hq : q = x.payer s.call.payerAddress
  · subst hq
    rw [if_pos rfl]
    have hslide := rollingSpend_antitone (x := x) hok.began (x.payer s.call.payerAddress) h.nonneg
    split_ifs <;> omega
  · rw [if_neg hq, if_neg (fun hhit => hq hhit.1.symm), add_zero]

/-- the event asks for no more than `m` -/
def Asks (m : ℤ) : NonceEvent → Prop
  | .reserve c => c.limitUsdc ≤ m
  | _ => True

/-- nobody's limit, and nobody's sum, is above `m` -/
structure Capped (x : Texts) (m : ℤ) (w : NonceDesk) : Prop where
  limits : ∀ s ∈ w.sessions, s.call.limitUsdc ≤ m
  sums : ∀ q, rollingSpend x w.clock q w.nonces ≤ m

theorem step_limits {m : ℤ} (h : ∀ s ∈ w.sessions, s.call.limitUsdc ≤ m) (hev : Asks m ev) :
    ∀ s ∈ (w.step x pool ev).sessions, s.call.limitUsdc ≤ m := by
  have moved : ∀ {i : ℕ} {s : Reserving} {phase : ReservePhase}, w.sessions[i]? = some s →
      ∀ s' ∈ w.sessions.set i { s with phase := phase }, s'.call.limitUsdc ≤ m := by
    intro i s phase hi s' hs'
    rcases Locks.mem_set hi hs' with rfl | hs'
    · exact h s (mem_of_getElem? hi)
    · exact h s' (mem_of_mem_eraseIdx hs')
  have hstep := step_cases x pool w ev
  generalize w.step x pool ev = w' at hstep ⊢
  cases hstep with
  | ticked _ | rows _ => exact h
  | sessions hc =>
    cases hc with
    | same => exact h
    | @began c heq _ =>
      subst heq
      intro s hs
      rcases mem_append.1 hs with hs | hs
      · exact h s hs
      · rw [mem_singleton.1 hs]
        exact hev
    | ended i => exact fun s hs => h s (mem_of_mem_eraseIdx hs)
    | keyed hi _ _ => exact moved hi
    | rowLocked hi _ _ _ _ => exact moved hi
    | cleared hi _ _ => exact moved hi
  | reserved _ _ _ => exact fun s hs => h s (mem_of_mem_eraseIdx hs)

theorem step_capped {m : ℤ} (hx : x.Lawful) (h : Inv x w) (hcap : Capped x m w) (hev : Asks m ev) :
    Capped x m (w.step x pool ev) := by
  refine ⟨step_limits hcap.limits hev, fun q => ?_⟩
  have hstep := step_cases x pool w ev
  generalize w.step x pool ev = w' at hstep ⊢
  cases hstep with
  | ticked hclock => exact (rollingSpend_antitone hclock q h.nonneg).trans (hcap.sums q)
  | rows hc => exact ((hc.keeps h.nonneg).2.1 w.clock q).trans (hcap.sums q)
  | sessions _ => exact hcap.sums q
  | @reserved i s _ hi hs =>
    refine (h.reserve_within hx hi hs q).trans ?_
    split_ifs
    · exact hcap.limits s (mem_of_getElem? hi)
    · exact hcap.sums q

theorem run_capped {m : ℤ} (hx : x.Lawful) (hm : 0 ≤ m) (clock : ℤ) (evs : List NonceEvent)
    (hevs : ∀ ev ∈ evs, Asks m ev) : Capped x m (run x pool (initial clock) evs) := by
  refine Runs.history_rule (step x pool) (fun w evs => (∀ ev ∈ evs, Asks m ev) → Capped x m w) ?_ ?_ evs hevs
  · exact fun _ => ⟨(fun s hs => by cases hs), fun q => hm⟩
  · intro evs ev ih hevs
    have hbefore := ih (fun ev' hev' => hevs ev' (mem_append_left _ hev'))
    exact step_capped hx (run_inv hx clock evs) hbefore (hevs ev (mem_append_right _ mem_cons_self))

theorem granted_row {c : Reserve} (h : Inv x w) (hx : x.Lawful) (ha : w.answer x pool ev = some (.reserved c true))
    (hamount : c.amountUsdc ≠ 0) :
    ∃ row, (w.step x pool ev).nonces.get? c.nonceHash = some row ∧ row.reservedCostUsdc = c.amountUsdc ∧
      x.lower row.payerAddress = x.payer c.payerAddress := by
  cases granted_cases ha with
  | nothing hzero _ => exact absurd hzero hamount
  | @again row hrow _ hpayer hcost hstep => exact ⟨row, hstep ▸ hrow, hcost, hpayer⟩
  | @anew i s hi hs hc hstep =>
    subst hc
    obtain ⟨row, hrow, hfree⟩ := (h.sessions s (mem_of_getElem? hi)).locked (by simp [Reserving.rowLock, hs])
    refine ⟨{ row with payerAddress := x.payer s.call.payerAddress, reservedCostUsdc := s.call.amountUsdc }, ?_, rfl, ?_⟩
    · rw [hstep, get?_reserveIn, hrow, Option.map_some, reserveRow, if_pos ⟨key_of_get? hrow, hfree⟩]
    · exact hx.python s.call.payerAddress

end NonceDesk

/-- **The payer cap.** In every run: (a) with a bound store, between a successful claim of a hash and what ends it no other claim
of it succeeds; (b) a call that reserves leaves the sum of its payer over the last 24 hours within its limit, and after any
success the sum is at most every bound on the limits asked for so far; and until its row is ended, two successful reservations
of one hash are for the same payer and amount. -/
theorem payer_cap (x : Texts) (hx : x.Lawful) (pool : Bool) (clock : ℤ) (before : List NonceEvent) (w : NonceDesk)
    (hw : w = NonceDesk.run x pool (.initial clock) before) :
    (pool = true → ∀ h first mid second, w.answer x pool first = some (.claimed h (.ok true)) →
      NonceDesk.Undisturbed x pool h (w.step x pool first) mid →
      ((w.step x pool first).run x pool mid).answer x pool second ≠ some (.claimed h (.ok true))) ∧
    (∀ ev c, w.answer x pool ev = some (.reserved c true) →
      (c.amountUsdc ≠ 0 → (w.nonces.get? c.nonceHash).map NonceRow.reservedCostUsdc = some 0 →
        rollingSpend x (w.step x pool ev).clock (x.payer c.payerAddress) (w.step x pool ev).nonces ≤ c.limitUsdc) ∧
      ∀ m, 0 ≤ m → (∀ ev' ∈ before ++ [ev], NonceDesk.Asks m ev') →
        rollingSpend x (w.step x pool ev).clock (x.payer c.payerAddress) (w.step x pool ev).nonces ≤ m) ∧
    ∀ first mid second c c', c.nonceHash = c'.nonceHash → c.amountUsdc ≠ 0 → c'.amountUsdc ≠ 0 →
      w.answer x pool first = some (.reserved c true) →
      NonceDesk.Undisturbed x pool c.nonceHash (w.step x pool first) mid →
      ((w.step x pool first).run x pool mid).answer x pool second = some (.reserved c' true) →
      x.payer c.payerAddress = x.payer c'.payerAddress ∧ c.amountUsdc = c'.amountUsdc := by
  have hinv : w.Inv x := hw ▸ NonceDesk.run_inv hx clock before
  refine ⟨?_, ?_, ?_⟩
  · rintro rfl h first mid second hfirst hcalm hsecond
    obtain ⟨-, r, hr⟩ := NonceDesk.claimed_ok hfirst
    obtain ⟨r', hr', -⟩ := NonceDesk.run_keeps_row hr hcalm
    have hfree := (NonceDesk.claimed_ok hsecond).1
    rw [hr'] at hfree
    cases hfree
  · intro ev c hgranted
    refine ⟨fun hamount hunreserved => ?_, fun m hm hasks => ?_⟩
    · cases NonceDesk.granted_cases hgranted with
      | nothing hzero _ => exact absurd hzero hamount
      | again hrow hreserved _ _ _ =>
        rw [hrow] at hunreserved
        have hzero : _ = _ := Option.some.inj hunreserved
        omega
      | @anew i s hi hs hc hstep =>
        subst hc
        rw [hstep]
        have hwithin := hinv.reserve_within hx hi hs (x.payer s.call.payerAddress)
        rwa [if_pos rfl] at hwithin
    · have hrun : w.step x pool ev = NonceDesk.run x pool (.initial clock) (before ++ [ev]) := by
        rw [hw]
        exact (Runs.run_snoc _ _ _ _).symm
      rw [hrun]
      exact (NonceDesk.run_capped hx hm clock (before ++ [ev]) hasks).sums _
  · intro first mid second c c' hhash hamount hamount' hfirst hcalm hsecond
    obtain ⟨row, hrow, hcost, hpayer⟩ := NonceDesk.granted_row hinv hx hfirst hamount
    obtain ⟨row', hrow', hsame⟩ := NonceDesk.run_keeps_row hrow hcalm
    have hsame := hsame (hcost ▸ hamount)
    subst hsame
    -- the second call finds that same row, so what it asked for is what the first one did
    have hfound : ((w.step x pool first).run x pool mid).nonces.get? c'.nonceHash = some row' := hhash ▸ hrow'
    have hinv' : ((w.step x pool first).run x pool mid).Inv x :=
      Runs.run_inv _ (NonceDesk.Inv x) (fun _ ev h => NonceDesk.step_inv hx h ev) mid (NonceDesk.step_inv hx hinv first)
    cases NonceDesk.granted_cases hsecond with
    | nothing hzero _ => exact absurd hzero hamount'
    | again hfound' _ hpayer' hcost' _ =>
      rw [hfound] at hfound'
      cases hfound'
      exact ⟨hpayer.symm.trans hpayer', hcost.symm.trans hcost'⟩
    | @anew i s hi hs hc _ =>
      subst hc
      obtain ⟨row, hrow, hfree⟩ := (hinv'.sessions s (mem_of_getElem? hi)).locked (by simp [Reserving.rowLock, hs])
      rw [hfound] at hrow
      cases hrow
      exact absurd (hcost.symm.trans hfree) hamount

/-- texts where nothing above ASCII has two cases -/
def asciiTexts : Texts := ⟨fun c => [c], id, fun _ => 0⟩

theorem asciiTexts_lawful : asciiTexts.Lawful where
  python := by
    intro address
    unfold Texts.lower Texts.payer
    rw [String.toList_ofList]
    exact congrArg String.ofList (PyText.lower_idem _)
  sql := fun _ => rfl

/-- one nonce claimed and reserved at 5, within a limit of 10 -/
def reservedRun : List NonceEvent :=
  [.claim false false "n", .reserve ⟨"n", " 0xAB", 5, 10⟩, .advance 0 false, .advance 0 false, .advance 0 false]

theorem payer_cap_reserved :
    rollingSpend asciiTexts 0 "0xab" ((NonceDesk.run asciiTexts true (.initial 0) reservedRun).step asciiTexts true
      (.advance 0 false)).nonces ≤ 10 :=
  ((payer_cap asciiTexts asciiTexts_lawful true 0 reservedRun _ rfl).2.1 (.advance 0 false) ⟨"n", " 0xAB", 5, 10⟩
    (by rfl)).1 (by decide) (by decide)

/-- **A repeat ignores the limit.** With 5 reserved for a payer, a call for 0, and one for the same 5 again, succeed under
a limit of 1. And without a pool a hash is claimed twice. -/
theorem repeat_ignores_limit : (let w := NonceDesk.run asciiTexts true (.initial 0) (reservedRun ++ [.advance 0 false])
     rollingSpend asciiTexts w.clock "0xab" w.nonces = 5 ∧
     w.answer asciiTexts true (.reserve ⟨"n", "0xab", 0, 1⟩) = some (.reserved ⟨"n", "0xab", 0, 1⟩ true) ∧
     (w.run asciiTexts true [.reserve ⟨"n", "0xab", 5, 1⟩, .advance 0 false]).answer asciiTexts true (.advance 0 false) =
       some (.reserved ⟨"n", "0xab", 5, 1⟩ true)) ∧
    (let w := NonceDesk.run asciiTexts false (.initial 0) [.claim false false "n"]
     (NonceDesk.initial 0).answer asciiTexts false (.claim false false "n") = some (.claimed "n" (.ok true)) ∧
     w.answer asciiTexts false (.claim false false "n") = some (.claimed "n" (.ok true))) := by
  refine ⟨⟨by decide, by rfl, by rfl⟩, by rfl, by rfl⟩

end Teardrop.Billing
