import UnifyConsole.Payment.Order
import UnifyConsole.Lib.Prog

/-!
# Gateway callbacks and completions

The calls that write `top_ups`, as programs of single statements and transactions:
`EpayNotify` of `controller/topup.go`, the callbacks that lead to `Recharge` and its
sisters, the completion by an administrator, and the calls that place an order or
give it up.  Any number of servers run them.

`LockOrder` is one mutex for each server and trade number.  A call that waits for it
makes its step when the mutex is free; a step that it makes too early ends the call,
which is one more run in which it does nothing.  A process that crashes is a call
that makes no further step, and the process that replaces it is a new server.  What
the database refuses is an input of the call.

Callbacks are verified before they reach these functions; `EpayNotify` is the one whose
checks are modelled, because it answers the gateway before it credits the order.  The
completion of subscription orders, which the callbacks try first, is left out.

`OrderMove` says what a step of any call can do to the orders and the wallets, and
`keeps_prog` that no call does anything else.
-/

namespace UnifyConsole.Payment

open Lib Account
open Prog Table Tx

/-! ### Steps -/

abbrev TopUpProg := Prog Db

abbrev TopUpResult := Except TopUpError Unit

def transaction {α : Type} (commits : Bool) (x : TopUpTx α) : TopUpProg (Except TopUpError α) :=
  Prog.transact commits .database x

def lockOrder (server : Nat) (tradeNo : String) : TopUpProg Bool :=
  Prog.atomic fun s =>
    if (server, tradeNo) ∈ s.orderLocks then (false, s)
    else (true, { s with orderLocks := (server, tradeNo) :: s.orderLocks })

def unlockOrder (server : Nat) (tradeNo : String) : TopUpProg Unit :=
  Prog.atomic fun s => ((), { s with orderLocks := s.orderLocks.erase (server, tradeNo) })

/-- `LockOrder(tradeNo); defer UnlockOrder(tradeNo)`. -/
def underLock {α : Type} (server : Nat) (tradeNo : String) (waiting : α) (p : TopUpProg α) :
    TopUpProg α := do
  let taken ← lockOrder server tradeNo
  if taken then do
    let answer ← p
    unlockOrder server tradeNo
    pure answer
  else pure waiting

/-! ### The callback of epay -/

structure VerifyInfo where
  serviceTradeNo : String
  type : String
  verifyStatus : Bool
  tradeSuccess : Bool

/-- A callback; `none` where no verified parameters come of the form. -/
structure EpayRequest where
  webhookEnabled : Bool
  verifyInfo : Option VerifyInfo

/-- Whether the statements of `EpayNotify` go through. -/
structure EpayFaults where
  reads : Bool
  saves : Bool
  resolves : Bool
  resolvesAgain : Bool
  adds : Bool

/-- `IncreaseUserQuota`, statement by statement. -/
def increaseUserQuota (path : Path) (o : TopUp) (quota : Int) (faults : EpayFaults) :
    TopUpProg TopUpResult :=
  if quota < 0 then pure (.error (.account .negativeQuota))
  else do
    let resolved ← transaction faults.resolves (account (resolveBillingEntity o.userId))
    match resolved with
    | .error e => pure (.error e)
    | .ok entity =>
      if entity.isTenant then do
        -- `adjustBillingQuota` resolves the wallet once more
        let resolved ← transaction faults.resolvesAgain (account (resolveBillingEntity o.userId))
        match resolved with
        | .error e => pure (.error e)
        | .ok entity =>
          transaction faults.adds
            (Tx.write fun s => s.credit ⟨o.tradeNo, path, entity.wallet, quota⟩)
      else
        transaction faults.adds
          (Tx.write fun s => s.credit ⟨o.tradeNo, path, .user o.userId, quota⟩)

/-- What `EpayNotify` does with the mutex of the order held. -/
def epayComplete (quotaPerUnit : ℚ) (info : VerifyInfo) (faults : EpayFaults) :
    TopUpProg Unit := do
  let found ← Prog.look fun s =>
    if faults.reads then s.topUps.find? info.serviceTradeNo else none
  match found with
  | none => pure ()
  | some topUp =>
    if topUp.paymentProvider ≠ .epay then pure ()
    else if topUp.status ≠ .pending then pure ()
    else do
      let saved ← transaction faults.saves (Tx.write fun s => s.save
        { topUp with paymentMethod := info.type, status := .success })
      match saved with
      | .error _ => pure ()
      | .ok _ => do
        let _ ← increaseUserQuota .epayNotify topUp (amountQuota quotaPerUnit topUp) faults
        pure ()

/-- `EpayNotify`: what it writes back to the gateway. -/
def epayNotify (quotaPerUnit : ℚ) (server : Nat) (req : EpayRequest) (faults : EpayFaults) :
    TopUpProg String :=
  if req.webhookEnabled then
    match req.verifyInfo with
    | none => pure "fail"
    | some info =>
      if info.verifyStatus then
        if info.tradeSuccess then do
          underLock server info.serviceTradeNo () (epayComplete quotaPerUnit info faults)
          pure "success"
        else pure "success"
      else pure "fail"
  else pure "fail"

/-! ### Completion -/

/-- `充值失败，请稍后重试`, whatever went wrong in the transaction. -/
def retryLater : TopUpResult → TopUpResult
  | .ok a => .ok a
  | .error _ => .error .rechargeFailed

/-- `Recharge` and its sisters around their transactions. -/
def rechargeWith (tradeNo : String) (commits : Bool) (x : TopUpTx Unit) :
    TopUpProg TopUpResult :=
  if tradeNo = "" then pure (.error .noTradeNo)
  else do
    let r ← transaction commits x
    pure (retryLater r)

section Completion

variable (quotaPerUnit : ℚ) (now : Int) (commits : Bool)

def recharge (referenceId customerId : String) : TopUpProg TopUpResult :=
  rechargeWith referenceId commits (rechargeTx quotaPerUnit now referenceId customerId)

def rechargeCreem (referenceId customerEmail : String) : TopUpProg TopUpResult :=
  rechargeWith referenceId commits (rechargeCreemTx now referenceId customerEmail)

def rechargeWaffo (tradeNo : String) : TopUpProg TopUpResult :=
  rechargeWith tradeNo commits (rechargeWaffoTx quotaPerUnit now tradeNo)

def rechargeWaffoPancake (tradeNo : String) : TopUpProg TopUpResult :=
  rechargeWith tradeNo commits (rechargeWaffoPancakeTx quotaPerUnit now tradeNo)

/-- The errors that `rechargeBinancePay` passes on. -/
def binancePayAnswer : TopUpResult → TopUpResult
  | .ok a => .ok a
  | .error .binancePayTxnUsed => .error .binancePayTxnUsed
  | .error .topUpStatusInvalid => .error .topUpStatusInvalid
  | .error .paymentMethodMismatch => .error .paymentMethodMismatch
  | .error _ => .error .rechargeFailed

def rechargeBinance (tradeNo : String) (txn : BinancePayTransaction) (adminId : Int) :
    TopUpProg TopUpResult :=
  if trimSpace tradeNo = "" then pure (.error .noTradeNo)
  else if trimSpace txn.transactionId = "" then pure (.error .missingTransactionId)
  else do
    let manual := decide (0 < adminId)
    let path := if manual then Path.rechargeBinancePayManual else Path.rechargeBinancePay
    let r ← transaction commits (rechargeBinancePayTx quotaPerUnit now path tradeNo txn manual)
    pure (binancePayAnswer r)

def rechargeBinancePay (tradeNo : String) (txn : BinancePayTransaction) :
    TopUpProg TopUpResult :=
  rechargeBinance quotaPerUnit now commits tradeNo txn 0

def rechargeBinancePayManual (tradeNo : String) (txn : BinancePayTransaction) (adminId : Int) :
    TopUpProg TopUpResult :=
  if adminId ≤ 0 then pure (.error .missingAdministrator)
  else rechargeBinance quotaPerUnit now commits tradeNo txn adminId

def manualCompleteTopUp (tradeNo : String) : TopUpProg TopUpResult :=
  if tradeNo = "" then pure (.error .noTradeNo)
  else transaction commits (manualCompleteTopUpTx quotaPerUnit now tradeNo)

/-- `AdminCompleteTopUp`: a Binance Pay order is not completed blindly. -/
def adminCompleteTopUp (server : Nat) (tradeNo : String) :
    TopUpProg TopUpResult := do
  let found ← Prog.look fun s => s.topUps.find? tradeNo
  if found.any (fun o => decide (o.paymentProvider = .binancePay)) then
    pure (.error .binancePayNeedsMatch)
  else
    underLock server tradeNo (.error .waiting)
      (manualCompleteTopUp quotaPerUnit now commits tradeNo)

end Completion

/-! ### Placing an order and giving it up -/

/-- An order is placed; the Waffo gateways mark it failed when no payment link comes back. -/
def requestPay (order : TopUp) (inserts linkFails updates : Bool) :
    TopUpProg TopUpResult := do
  let placed ← transaction inserts
    (insertTopUp { order with status := .pending, completeTime := 0 })
  match placed with
  | .error e => pure (.error e)
  | .ok topUp =>
    if linkFails then
      transaction updates (Tx.write fun s => s.save { topUp with status := .failed })
    else pure (.ok ())

/-- `sessionAsyncPaymentFailed` of `controller/topup_stripe.go`. -/
def sessionAsyncPaymentFailed (referenceId : String) (updates : Bool) :
    TopUpProg TopUpResult := do
  let found ← Prog.look fun s => s.topUps.find? referenceId
  match found with
  | none => pure (.ok ())
  | some topUp =>
    if topUp.paymentProvider ≠ .stripe then pure (.ok ())
    else if topUp.status ≠ .pending then pure (.ok ())
    else transaction updates (Tx.write fun s => s.save { topUp with status := .failed })

/-! ### The calls -/

inductive PaymentCall where
  | requestPay (order : TopUp) (inserts linkFails updates : Bool)
  | epayNotify (server : Nat) (req : EpayRequest) (now : Int) (faults : EpayFaults)
  | recharge (server : Nat) (referenceId customerId : String) (now : Int) (commits : Bool)
  | rechargeCreem (server : Nat) (referenceId customerEmail : String) (now : Int) (commits : Bool)
  | rechargeWaffo (server : Nat) (tradeNo : String) (now : Int) (commits : Bool)
  | rechargeWaffoPancake (server : Nat) (tradeNo : String) (now : Int) (commits : Bool)
  | rechargeBinancePay (server : Nat) (tradeNo : String) (txn : BinancePayTransaction) (now : Int)
      (commits : Bool)
  | rechargeBinancePayManual (server : Nat) (tradeNo : String) (txn : BinancePayTransaction)
      (adminId now : Int) (commits : Bool)
  | adminCompleteTopUp (server : Nat) (tradeNo : String) (now : Int) (commits : Bool)
  | sessionAsyncPaymentFailed (server : Nat) (referenceId : String) (updates : Bool)
  | sessionExpired (server : Nat) (referenceId : String) (commits : Bool)
  | waffoPaymentFailed (tradeNo : String) (commits : Bool)
  | expireBinancePayTopUps (cutoff now : Int) (commits : Bool)

inductive Answer where
  | written (body : String)
  | returned (r : TopUpResult)

def PaymentCall.prog (quotaPerUnit : ℚ) : PaymentCall → TopUpProg Answer
  | .requestPay order inserts linkFails updates =>
    Answer.returned <$> Payment.requestPay order inserts linkFails updates
  | .epayNotify server req _ faults =>
    Answer.written <$> Payment.epayNotify quotaPerUnit server req faults
  | .recharge server referenceId customerId now commits =>
    Answer.returned <$> underLock server referenceId (.error .waiting)
      (Payment.recharge quotaPerUnit now commits referenceId customerId)
  | .rechargeCreem server referenceId customerEmail now commits =>
    Answer.returned <$> underLock server referenceId (.error .waiting)
      (Payment.rechargeCreem now commits referenceId customerEmail)
  | .rechargeWaffo server tradeNo now commits =>
    Answer.returned <$> underLock server tradeNo (.error .waiting)
      (Payment.rechargeWaffo quotaPerUnit now commits tradeNo)
  | .rechargeWaffoPancake server tradeNo now commits =>
    Answer.returned <$> underLock server tradeNo (.error .waiting)
      (Payment.rechargeWaffoPancake quotaPerUnit now commits tradeNo)
  | .rechargeBinancePay server tradeNo txn now commits =>
    Answer.returned <$> underLock server tradeNo (.error .waiting)
      (Payment.rechargeBinancePay quotaPerUnit now commits tradeNo txn)
  | .rechargeBinancePayManual server tradeNo txn adminId now commits =>
    Answer.returned <$> underLock server tradeNo (.error .waiting)
      (Payment.rechargeBinancePayManual quotaPerUnit now commits tradeNo txn adminId)
  | .adminCompleteTopUp server tradeNo now commits =>
    Answer.returned <$> Payment.adminCompleteTopUp quotaPerUnit now commits server tradeNo
  | .sessionAsyncPaymentFailed server referenceId updates =>
    Answer.returned <$> underLock server referenceId (.error .waiting)
      (Payment.sessionAsyncPaymentFailed referenceId updates)
  | .sessionExpired server referenceId commits =>
    Answer.returned <$> underLock server referenceId (.error .waiting)
      (transaction commits (updatePendingTopUpStatusTx referenceId (some .stripe) .expired))
  | .waffoPaymentFailed tradeNo commits =>
    Answer.returned <$>
      transaction commits (updatePendingTopUpStatusTx tradeNo (some .waffo) .failed)
  | .expireBinancePayTopUps cutoff now commits =>
    Answer.returned <$> transaction commits (Payment.expireBinancePayTopUps cutoff now)

def PaymentCall.notified : PaymentCall → Option String
  | .epayNotify _ req _ _ => req.verifyInfo.map VerifyInfo.serviceTradeNo
  | _ => none

def PaymentCall.path? : PaymentCall → Option Path
  | .epayNotify _ _ _ _ => some .epayNotify
  | .recharge _ _ _ _ _ => some .recharge
  | .rechargeCreem _ _ _ _ _ => some .rechargeCreem
  | .rechargeWaffo _ _ _ _ => some .rechargeWaffo
  | .rechargeWaffoPancake _ _ _ _ => some .rechargeWaffoPancake
  | .rechargeBinancePay _ _ _ _ _ => some .rechargeBinancePay
  | .rechargeBinancePayManual _ _ _ _ _ _ => some .rechargeBinancePayManual
  | .adminCompleteTopUp _ _ _ _ => some .manualCompleteTopUp
  | _ => none

def PaymentCall.moment : PaymentCall → Int
  | .epayNotify _ _ now _ => now
  | .recharge _ _ _ now _ => now
  | .rechargeCreem _ _ _ now _ => now
  | .rechargeWaffo _ _ now _ => now
  | .rechargeWaffoPancake _ _ now _ => now
  | .rechargeBinancePay _ _ _ now _ => now
  | .rechargeBinancePayManual _ _ _ _ now _ => now
  | .adminCompleteTopUp _ _ now _ => now
  | _ => 0

/-! ### Completing in one transaction -/

section CompletesOnce

variable (quotaPerUnit : ℚ) (path : Path) (now : Int)

/-- The program completes an order in one transaction, if it does anything. -/
inductive CompletesOnce : {α : Type} → TopUpProg α → Prop
  | pure {α : Type} (a : α) : CompletesOnce (pure a)
  | map {α β : Type} (f : α → β) {p : TopUpProg α} (h : CompletesOnce p) : CompletesOnce (f <$> p)
  | look {α β : Type} (f : Db → β) {k : β → TopUpProg α} (h : ∀ b, CompletesOnce (k b)) :
      CompletesOnce (Prog.look f >>= k)
  | underLock {α : Type} {server : Nat} {tradeNo : String} {waiting : α} {p : TopUpProg α}
      (h : CompletesOnce p) : CompletesOnce (underLock server tradeNo waiting p)
  | transaction {α : Type} {commits : Bool} {x : TopUpTx α}
      (hx : ∀ s r, x s = .ok r → Settles quotaPerUnit path now s r.2) :
      CompletesOnce (transaction commits x)

variable {quotaPerUnit path now} {commits : Bool} {tradeNo : String}

theorem completesOnce_rechargeWith {x : TopUpTx Unit}
    (hx : ∀ s r, x s = .ok r → Settles quotaPerUnit path now s r.2) :
    CompletesOnce quotaPerUnit path now (rechargeWith tradeNo commits x) := by
  unfold rechargeWith
  split
  · exact .pure _
  · exact .map retryLater (.transaction hx)

theorem completesOnce_rechargeBinance {txn : BinancePayTransaction} {adminId : Int}
    (hpath : path = if decide (0 < adminId) then .rechargeBinancePayManual
      else .rechargeBinancePay) :
    CompletesOnce quotaPerUnit path now
      (rechargeBinance quotaPerUnit now commits tradeNo txn adminId) := by
  unfold rechargeBinance
  split
  · exact .pure _
  split
  · exact .pure _
  dsimp only
  rw [← hpath]
  exact .map binancePayAnswer (.transaction fun s r hok => rechargeBinancePayTx_ok hpath hok)

theorem completesOnce_adminCompleteTopUp {server : Nat} :
    CompletesOnce quotaPerUnit .manualCompleteTopUp now
      (adminCompleteTopUp quotaPerUnit now commits server tradeNo) := by
  refine .look _ fun found => ?_
  split
  · exact .pure _
  refine .underLock ?_
  unfold manualCompleteTopUp
  split
  · exact .pure _
  · exact .transaction fun s r hok => manualCompleteTopUpTx_ok hok

/-- **Every call that completes an order, but for epay, does it in one transaction.** -/
theorem completesOnce_prog {c : PaymentCall} (hpath : c.path? = some path)
    (hepay : path ≠ .epayNotify) :
    CompletesOnce quotaPerUnit path c.moment (c.prog quotaPerUnit) := by
  cases c with
  | epayNotify => exact absurd (Option.some.inj hpath).symm hepay
  | recharge =>
    cases hpath
    exact .map _ (.underLock (completesOnce_rechargeWith fun s r hok => rechargeTx_ok hok))
  | rechargeCreem =>
    cases hpath
    exact .map _ (.underLock (completesOnce_rechargeWith fun s r hok => rechargeCreemTx_ok hok))
  | rechargeWaffo | rechargeWaffoPancake =>
    cases hpath
    exact .map _ (.underLock (completesOnce_rechargeWith
      (fun s r hok => rechargeDollarsTx_ok rfl rfl (fun _ => trivial) hok)))
  | rechargeBinancePay =>
    cases hpath
    exact .map _ (.underLock (completesOnce_rechargeBinance rfl))
  | rechargeBinancePayManual =>
    cases hpath
    refine .map _ (.underLock ?_)
    unfold rechargeBinancePayManual
    split
    · exact .pure _
    · exact completesOnce_rechargeBinance (by rw [if_pos (decide_eq_true (by omega))])
  | adminCompleteTopUp =>
    cases hpath
    exact .map _ completesOnce_adminCompleteTopUp
  | requestPay | sessionAsyncPaymentFailed | sessionExpired | waffoPaymentFailed
  | expireBinancePayTopUps => cases hpath

end CompletesOnce

/-! ### What a step can do -/

/-- The row that a call has read and will write over, or has marked and will credit. -/
inductive Hand where
  | empty
  | holds (o : TopUp)
  | marked (o : TopUp)

section Keeps

variable (quotaPerUnit : ℚ) (c : PaymentCall)

/-- The steps of a call, with the row it has in hand. -/
inductive OrderMove : Hand → Db → Hand → Db → Prop
  | refl {h : Hand} {s : Db} : OrderMove h s h s
  | locks {h : Hand} {s : Db} (orderLocks : List (Nat × String)) :
      OrderMove h s h { s with orderLocks := orderLocks }
  | read {s : Db} {o : TopUp} (hrow : s.topUps.find? o.tradeNo = some o)
      (hstatus : o.status = .pending) (hc : ∀ t, c.notified = some t → t = o.tradeNo) :
      OrderMove .empty s (.holds o) s
  | place {s : Db} {o : TopUp} {topUps : Table TopUp.tradeNo}
      (hnew : s.topUps.insert? o = some topUps) (hstatus : o.status = .pending)
      (htime : o.completeTime = 0) (hc : c.notified = none) :
      OrderMove .empty s (.holds o) { s with topUps := topUps }
  | close {h : Hand} {s : Db} {o : TopUp} {status : TopUpStatus}
      (hrow : s.topUps.find? o.tradeNo = some o) (hstatus : o.status = .pending)
      (hclosed : status = .failed ∨ status = .expired) :
      OrderMove h s h (s.save { o with status := status })
  | expire {h : Hand} {s : Db} (cutoff now : Int) :
      OrderMove h s h { s with
        topUps := s.topUps.update (fun o => o.isOverdue cutoff)
          (fun o => { o with status := .expired, completeTime := now }) (fun _ => rfl) }
  | complete {h : Hand} {s s' : Db} {path : Path} {now : Int} {o : TopUp} {entity : BillingEntity}
      (hdone : Completes quotaPerUnit path now o entity s s') : OrderMove h s h s'
  | fail {s : Db} {o : TopUp} :
      OrderMove (.holds o) s .empty (s.save { o with status := .failed })
  | mark {s : Db} {o : TopUp} (method : String) (hc : c.notified = some o.tradeNo)
      (hprovider : o.paymentProvider = .epay) (hstatus : o.status = .pending) :
      OrderMove (.holds o) s (.marked o)
        (s.save { o with paymentMethod := method, status := .success })
  | add {s : Db} {o : TopUp} (wallet : Wallet) :
      OrderMove (.marked o) s .empty
        (s.credit ⟨o.tradeNo, .epayNotify, wallet, amountQuota quotaPerUnit o⟩)

/-- A program that keeps to the moves, begun with a row in hand. -/
def Keeps {α : Type} (h : Hand) (p : TopUpProg α) : Prop :=
  Prog.Follows (OrderMove quotaPerUnit c) (fun _ _ => True) h p

variable {α β : Type} {quotaPerUnit c} {h : Hand}

theorem keeps_pure (a : α) : Keeps quotaPerUnit c h (pure a) := trivial

variable {p : TopUpProg α}

theorem keeps_bind {k : α → TopUpProg β} (hp : Keeps quotaPerUnit c h p)
    (hk : ∀ h a, Keeps quotaPerUnit c h (k a)) : Keeps quotaPerUnit c h (p >>= k) :=
  follows_bind (Follows.mono hp fun h a _ => hk h a)

theorem keeps_map (f : α → β) (hp : Keeps quotaPerUnit c h p) :
    Keeps quotaPerUnit c h (f <$> p) := keeps_bind hp fun _ _ => keeps_pure _

variable {commits : Bool}

theorem keeps_transaction {x : TopUpTx α}
    (hx : ∀ s r, x s = .ok r → OrderMove quotaPerUnit c h s h r.2) :
    Keeps quotaPerUnit c h (transaction commits x) := by
  refine follows_atomic fun s => ?_
  rcases run_cases commits .database x s with ⟨a, hok, -⟩ | ⟨hs, -⟩
  · exact ⟨h, hx s _ hok, trivial⟩
  · rw [hs]
    exact ⟨h, .refl, trivial⟩

variable {tradeNo : String}

theorem keeps_underLock {server : Nat} {waiting : α} (hp : Keeps quotaPerUnit c h p) :
    Keeps quotaPerUnit c h (underLock server tradeNo waiting p) := by
  refine follows_bind (follows_atomic fun s => ?_)
  by_cases hheld : (server, tradeNo) ∈ s.orderLocks
  · rw [if_pos hheld]
    exact ⟨h, .refl, keeps_pure _⟩
  rw [if_neg hheld]
  refine ⟨h, .locks _, keeps_bind hp fun h _ => ?_⟩
  exact keeps_bind (follows_atomic fun s => ⟨h, .locks _, trivial⟩)
    (fun _ _ => keeps_pure _)

variable {now : Int}

theorem CompletesOnce.keeps {path : Path} (hp : CompletesOnce quotaPerUnit path now p) :
    ∀ h, Keeps quotaPerUnit c h p := by
  induction hp with
  | pure a => exact fun h => keeps_pure a
  | map f _ ih => exact fun h => keeps_map f (ih h)
  | look f _ ih => exact fun h => follows_bind (follows_look fun s => ⟨h, .refl, ih _ h⟩)
  | underLock _ ih => exact fun h => keeps_underLock (ih h)
  | transaction hx =>
    refine fun h => keeps_transaction fun s r hok => ?_
    rcases hx s r hok with hs | ⟨o, entity, -, hdone⟩
    · rw [hs]
      exact .refl
    · exact .complete hdone

theorem keeps_updatePending {provider : Option PaymentProvider} {status : TopUpStatus}
    (hclosed : status = .failed ∨ status = .expired) :
    Keeps quotaPerUnit c h
      (transaction commits (updatePendingTopUpStatusTx tradeNo provider status)) := by
  refine keeps_transaction fun s r hok => ?_
  simp only [updatePendingTopUpStatusTx, bind_ok, ensure_ok, fetch_ok, write_ok] at hok
  obtain ⟨_, _, ⟨-, -, rfl⟩, o, _, ⟨_, hrow, rfl, rfl⟩, _, _, ⟨-, -, rfl⟩, _, _, ⟨hstatus, -, rfl⟩,
    rfl⟩ := hok
  obtain rfl : o.tradeNo = tradeNo := key_of_find? hrow
  exact .close hrow hstatus hclosed

theorem keeps_requestPay {order : TopUp} {inserts linkFails updates : Bool}
    (hc : c.notified = none) :
    Keeps quotaPerUnit c .empty (requestPay order inserts linkFails updates) := by
  refine follows_bind (follows_atomic fun s => ?_)
  rcases run_cases inserts .database (insertTopUp
    { order with status := .pending, completeTime := 0 }) s with ⟨o, hok, ha⟩ | ⟨hs, e, ha⟩
  · obtain ⟨topUps, hnew, hr⟩ := insertTopUp_ok hok
    obtain ⟨rfl, hs⟩ := Prod.mk.inj hr
    rw [ha, hs]
    refine ⟨.holds _, .place hnew (by simp) (by simp) hc, ?_⟩
    dsimp only
    split
    · refine follows_atomic fun s => ?_
      cases updates with
      | true => exact ⟨.empty, .fail, trivial⟩
      | false => exact ⟨_, .refl, trivial⟩
    · exact keeps_pure _
  · rw [hs, ha]
    exact ⟨.empty, .refl, keeps_pure _⟩

theorem keeps_sessionAsyncPaymentFailed {referenceId : String} {updates : Bool}
    (hc : c.notified = none) :
    Keeps quotaPerUnit c .empty (sessionAsyncPaymentFailed referenceId updates) := by
  refine follows_bind (follows_look fun s => ?_)
  cases hrow : s.topUps.find? referenceId with
  | none => exact ⟨.empty, .refl, keeps_pure _⟩
  | some o =>
    dsimp only
    split
    · exact ⟨.empty, .refl, keeps_pure _⟩
    split
    · exact ⟨.empty, .refl, keeps_pure _⟩
    rename_i hstatus
    obtain rfl : o.tradeNo = referenceId := key_of_find? hrow
    refine ⟨.holds o, .read hrow (not_not.mp hstatus) (fun t ht => ?_), ?_⟩
    · rw [hc] at ht
      cases ht
    refine follows_atomic fun s => ?_
    cases updates with
    | true => exact ⟨.empty, .fail, trivial⟩
    | false => exact ⟨_, .refl, trivial⟩

/-- Adding quota credits one wallet, if it does anything. -/
theorem follows_increaseUserQuota {γ : Type} {G : γ → Db → γ → Db → Prop} {g : γ} {path : Path}
    {o : TopUp} {quota : Int} {faults : EpayFaults} (hrefl : ∀ s, G g s g s)
    (hcredit : ∀ s wallet, ∃ g', G g s g' (s.credit ⟨o.tradeNo, path, wallet, quota⟩)) :
    Prog.Follows G (fun _ _ => True) g (increaseUserQuota path o quota faults) := by
  have hresolve : ∀ {commits : Bool} {k : Except TopUpError BillingEntity →
      TopUpProg TopUpResult}, (∀ r, Follows G (fun _ _ => True) g (k r)) →
      Follows G (fun _ _ => True) g
        (transaction commits (account (resolveBillingEntity o.userId)) >>= k) := by
    intro commits k hk
    refine follows_bind (follows_atomic fun s => ⟨g, ?_, hk _⟩)
    rcases run_cases commits .database (account (resolveBillingEntity o.userId)) s with
      ⟨entity, hok, -⟩ | ⟨hs, -⟩
    · rw [(account_resolve_ok.mp hok).2.2]
      exact hrefl s
    · rw [hs]
      exact hrefl s
  have hadd : ∀ wallet, Follows G (fun _ _ => True) g (transaction faults.adds
      (write fun s => s.credit ⟨o.tradeNo, path, wallet, quota⟩)) := by
    intro wallet
    refine follows_atomic fun s => ?_
    cases faults.adds with
    | true =>
      obtain ⟨g', h⟩ := hcredit s wallet
      exact ⟨g', h, trivial⟩
    | false => exact ⟨g, hrefl s, trivial⟩
  unfold increaseUserQuota
  split
  · trivial
  refine hresolve fun r => ?_
  cases r with
  | error => trivial
  | ok entity =>
    dsimp only
    split
    · refine hresolve fun r => ?_
      cases r with
      | error => trivial
      | ok => exact hadd _
    · exact hadd _

theorem keeps_epayComplete {info : VerifyInfo} {faults : EpayFaults}
    (hc : c.notified = some info.serviceTradeNo) :
    Keeps quotaPerUnit c .empty (epayComplete quotaPerUnit info faults) := by
  refine follows_bind (follows_look fun s => ?_)
  cases hreads : faults.reads with
  | false => exact ⟨.empty, .refl, keeps_pure _⟩
  | true =>
    cases hrow : s.topUps.find? info.serviceTradeNo with
    | none => exact ⟨.empty, .refl, keeps_pure _⟩
    | some o =>
      rw [if_pos rfl]
      dsimp only
      split
      · exact ⟨.empty, .refl, keeps_pure _⟩
      rename_i hprovider
      split
      · exact ⟨.empty, .refl, keeps_pure _⟩
      rename_i hstatus
      have htrade : o.tradeNo = info.serviceTradeNo := key_of_find? hrow
      rw [← htrade] at hrow hc
      refine ⟨.holds o, .read hrow (not_not.mp hstatus) (fun t ht => ?_), ?_⟩
      · rw [hc] at ht
        exact (Option.some.inj ht).symm
      refine follows_bind (follows_atomic fun s => ?_)
      cases faults.saves with
      | false => exact ⟨_, .refl, keeps_pure _⟩
      | true =>
        exact ⟨.marked o, .mark _ hc (not_not.mp hprovider) (not_not.mp hstatus),
          keeps_bind (follows_increaseUserQuota (fun _ => .refl) fun _ wallet => ⟨_, .add wallet⟩)
            (fun _ _ => keeps_pure _)⟩

/-- **Every call keeps to the moves.** -/
theorem keeps_prog (quotaPerUnit : ℚ) (c : PaymentCall) :
    Keeps quotaPerUnit c .empty (c.prog quotaPerUnit) := by
  cases c with
  | requestPay => exact keeps_map _ (keeps_requestPay rfl)
  | epayNotify =>
    refine keeps_map _ ?_
    unfold epayNotify
    split
    · split
      · exact keeps_pure _
      rename_i info hinfo
      split
      · split
        · refine keeps_bind (keeps_underLock (keeps_epayComplete ?_)) fun _ _ => keeps_pure _
          simp [PaymentCall.notified, hinfo]
        · exact keeps_pure _
      · exact keeps_pure _
    · exact keeps_pure _
  | recharge | rechargeCreem | rechargeWaffo | rechargeWaffoPancake | rechargeBinancePay
  | rechargeBinancePayManual | adminCompleteTopUp =>
    exact (completesOnce_prog rfl (by decide)).keeps _
  | sessionAsyncPaymentFailed =>
    exact keeps_map _ (keeps_underLock (keeps_sessionAsyncPaymentFailed rfl))
  | sessionExpired =>
    exact keeps_map _ (keeps_underLock (keeps_updatePending (.inr rfl)))
  | waffoPaymentFailed => exact keeps_map _ (keeps_updatePending (.inl rfl))
  | expireBinancePayTopUps cutoff now =>
    refine keeps_map _ (keeps_transaction fun s r hok => ?_)
    rw [write_ok.mp hok]
    exact .expire cutoff now

end Keeps

end UnifyConsole.Payment
