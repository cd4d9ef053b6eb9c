import UnifyConsole.Billing.Funding

/-!
# Billing sessions

`service/billing_session.go`: one request reserves, settles or refunds through a
`BillingSession`, which keeps three counters and four flags next to its funding
source.  `Reserve` and `Settle` hold the session's mutex from start to end.
`Refund` only decides under the mutex and hands the refund itself to a worker,
so the state of a session has a list of jobs, and a worker runs the oldest one
whenever it gets to it.

`SessionCall` lists everything that can happen to a session.  `channel` is the
relay moving on to another upstream channel between two attempts.
-/

namespace UnifyConsole.Billing

open Lib Account Credit

variable {R α : Type}

structure BillingSession (R : Type) where
  relayInfo : RelayInfo R
  funding : Funding R
  preConsumedQuota : Int
  tokenConsumed : Int
  extraReserved : Int
  trusted : Bool
  fundingSettled : Bool
  settled : Bool
  refunded : Bool

/-- `model.PendingSettlement`, as far as a charge fills it in. -/
structure PendingSettlement where
  key : String
  requestId : String
  userId : Int
  walletDelta : Int
  tokenId : Int
  tokenDelta : Int

/-- The values `Refund` copies for its worker. -/
structure RefundJob where
  tokenId : Int
  isPlayground : Bool
  tokenConsumed : Int

/-- A session with the database, the parked settlements and the waiting refunds. -/
structure SessionState (R : Type) where
  session : BillingSession R
  db : CreditDb R
  parked : List PendingSettlement
  jobs : List RefundJob

abbrev SessionAct (R α : Type) := Act (SessionState R) BillingError α

/-! ### Access -/

def session : SessionAct R (BillingSession R) := Act.read SessionState.session

def update (f : BillingSession R → BillingSession R) : SessionAct R Unit :=
  Act.write fun st => { st with session := f st.session }

def database (x : Act (CreditDb R) BillingError α) : SessionAct R α :=
  Act.zoom SessionState.db (fun st db => { st with db := db }) id x

def SessionState.setFunding (st : SessionState R) (funding : Funding R) (db : CreditDb R) :
    SessionState R :=
  { st with session := { st.session with funding := funding }, db := db }

def onWallet (w : WalletFunding) (x : WalletFunding.Method R Unit) : SessionAct R Unit :=
  Act.zoom (fun st => (w, st.db)) (fun st r => st.setFunding (.wallet r.1) r.2) id x

def onPromo (p : PromoFunding R) (x : PromoFunding.Method R Unit) : SessionAct R Unit :=
  Act.zoom (fun st => (p, st.db)) (fun st r => st.setFunding (.promo r.1) r.2) id x

/-! ### Token quota -/

def preConsumeTokenQuota (info : RelayInfo R) (cached : Option Token) (quota : Int) :
    Act (CreditDb R) BillingError Unit :=
  if quota < 0 then Act.fail (.account .negativeQuota)
  else if info.isPlayground then pure ()
  else do
    let token ← onStore (getTokenByKey cached info.tokenKey)
    if info.tokenUnlimited = false ∧ token.remainQuota < quota
    then Act.fail (.tokenQuotaNotEnough token.remainQuota quota)
    else onStore (decreaseTokenQuota info.tokenId quota)

def reserveToken (cached : Option Token) (delta : Int) : SessionAct R Unit := do
  let s ← session
  if delta ≤ 0 ∨ s.relayInfo.isPlayground = true then pure ()
  else
    Act.mapError (.api .preConsumeTokenQuotaFailed 403)
      (database (preConsumeTokenQuota s.relayInfo cached delta))

/-! ### Parking -/

def isConnectionClassError (e : BillingError) : Bool := decide (e = .account .database)

def parkChargeSettlement (info : RelayInfo R) (walletDelta tokenDelta : Int) :
    SessionAct R Unit :=
  if walletDelta = 0 ∧ tokenDelta = 0 then pure ()
  else Act.write fun st => { st with
    parked := st.parked ++ [
      { key := (if walletDelta = 0 then "token" else "charge") ++ ":" ++ info.requestId
        requestId := info.requestId
        userId := info.userId
        walletDelta := walletDelta
        tokenId := info.tokenId
        tokenDelta := tokenDelta }] }

def parkRefusedWalletSettlement (delta : Int) (e : BillingError) : SessionAct R Bool := do
  let s ← session
  if s.funding.source ≠ .wallet ∨ isConnectionClassError e = false then pure false
  else do
    parkChargeSettlement s.relayInfo delta (if s.relayInfo.isPlayground then 0 else delta)
    pure true

def parkRefusedTokenSettlement (delta : Int) (e : BillingError) : SessionAct R Bool := do
  let s ← session
  if s.relayInfo.isPlayground = true ∨ isConnectionClassError e = false then pure false
  else do
    parkChargeSettlement s.relayInfo 0 delta
    pure true

/-! ### Refunding -/

def BillingSession.needsRefundLocked (s : BillingSession R) : Bool :=
  if s.settled || s.refunded || s.fundingSettled then false
  else if 0 < s.tokenConsumed then true
  else
    match s.funding with
    | .promo p => decide (0 < p.preConsumed)
    | .wallet _ => false

def refund : SessionAct R Unit := do
  let s ← session
  if s.settled || s.refunded || !s.needsRefundLocked then pure ()
  else do
    update (fun s => { s with refunded := true })
    Act.write fun st => { st with
      jobs := st.jobs ++ [⟨s.relayInfo.tokenId, s.relayInfo.isPlayground, s.tokenConsumed⟩] }

def fundingRefund : SessionAct R Unit := do
  let s ← session
  match s.funding with
  | .wallet w => onWallet w w.refund
  | .promo p => onPromo p p.refund

/-- What the worker does.  Errors are only logged. -/
def RefundJob.run (job : RefundJob) : SessionAct R Unit := do
  let _ ← Act.attempt (fundingRefund (R := R))
  if 0 < job.tokenConsumed ∧ job.isPlayground = false then do
    let _ ← Act.attempt (database (R := R) (onStore
      (increaseTokenQuota job.tokenId job.tokenConsumed)))
    pure ()
  else pure ()

def work : SessionAct R Unit := do
  match ← Act.read SessionState.jobs with
  | [] => pure ()
  | job :: jobs => do
    Act.write (fun st => { st with jobs := jobs })
    job.run

/-- The state when the workers have run everything that is waiting. -/
def SessionState.finish (st : SessionState R) : SessionState R :=
  st.jobs.foldl (fun st job => (job.run st).2) { st with jobs := [] }

/-! ### Compatibility fields -/

/-- The session with the fields of its request that mirror it. -/
def BillingSession.synced (s : BillingSession R) : BillingSession R :=
  { s with
    relayInfo := { s.relayInfo with
      finalPreConsumedQuota := s.preConsumedQuota
      billingSource := some s.funding.source
      creditReservationId := match s.funding with
        | .promo p => p.reservationId
        | .wallet _ => s.relayInfo.creditReservationId } }

def syncRelayInfo : SessionAct R Unit := update BillingSession.synced

section Priced

variable [Ratio R]

/-! ### Settling -/

def fundingSettle (env : Setting R) (delta : Int) : SessionAct R Unit := do
  let s ← session
  match s.funding with
  | .wallet w => onWallet w (w.settle delta)
  | .promo p => onPromo p (p.settle env s.relayInfo delta)

/-- Step 1 of `Settle`: whether the settlement was parked. -/
def settleFunding (env : Setting R) (delta : Int) : SessionAct R Bool := do
  let s ← session
  if s.fundingSettled then pure false
  else
    match ← Act.attempt (fundingSettle env delta) with
    | .ok _ => do
      update (fun s => { s with fundingSettled := true })
      pure false
    | .error (e : BillingError) => do
      match ← parkRefusedWalletSettlement delta e with
      | true => pure true
      | false => Act.fail e

/-- Step 2 of `Settle`: what is left of an error of the token. -/
def settleToken (delta : Int) : SessionAct R (Except BillingError Unit) := do
  let s ← session
  if s.relayInfo.isPlayground then pure (.ok ())
  else
    match ← Act.attempt (database (onStore (if 0 < delta
      then decreaseTokenQuota s.relayInfo.tokenId delta
      else increaseTokenQuota s.relayInfo.tokenId (-delta)))) with
    | .ok _ => pure (.ok ())
    | .error (e : BillingError) => do
      match ← parkRefusedTokenSettlement delta e with
      | true => pure (.ok ())
      | false => pure (.error e)

def settle (env : Setting R) (actualQuota : Int) : SessionAct R Unit := do
  let s ← session
  if s.settled then pure ()
  else
    let delta := actualQuota - s.preConsumedQuota
    if delta = 0 then do
      fundingSettle env 0
      update fun s => { s with fundingSettled := true, settled := true }
    else do
      match ← settleFunding env delta with
      | true => update fun s => { s with fundingSettled := true, settled := true }
      | false => do
        let tokenErr ← settleToken delta
        update (fun s => { s with settled := true })
        Act.answer tokenErr

/-! ### Reserving -/

/-- The counters after `delta` more was reserved. -/
def BillingSession.addReserved (s : BillingSession R) (delta : Int) : BillingSession R :=
  { s with
    preConsumedQuota := s.preConsumedQuota + delta
    tokenConsumed := s.tokenConsumed + delta
    extraReserved := s.extraReserved + delta }

def reserveFunding (env : Setting R) (delta : Int) : SessionAct R Unit := do
  let s ← session
  match s.funding with
  | .wallet w => onWallet w (w.reserve delta)
  | .promo p => Act.mapError PromoFunding.reserveError (onPromo p (p.reserve env delta))

def rollbackFundingReserve (env : Setting R) (delta : Int) : SessionAct R Unit := do
  let s ← session
  match s.funding with
  | .wallet w => onWallet w (w.rollbackReserve delta)
  | .promo p => do
    let _ ← Act.attempt (onPromo p (p.rollbackReserve env delta))
    pure ()

def reserve (env : Setting R) (cached : Option Token) (targetQuota : Int) : SessionAct R Unit := do
  let s ← session
  if s.settled = true ∨ s.refunded = true ∨ s.trusted = true ∨ targetQuota ≤ s.preConsumedQuota
  then pure ()
  else
    let delta := targetQuota - s.preConsumedQuota
    if delta ≤ 0 then pure ()
    else do
      reserveFunding env delta
      match ← Act.attempt (reserveToken cached delta) with
      | .error (e : BillingError) => do
        rollbackFundingReserve env delta
        Act.fail e
      | .ok _ => do
        update (fun s => s.addReserved delta)
        syncRelayInfo

/-! ### Opening a session -/

/-- `shouldTrust`; `tokenQuota` is the token's quota as the request context has
it. -/
def BillingSession.shouldTrust (s : BillingSession R) (env : Setting R) (tokenQuota : Int) :
    Bool :=
  if s.relayInfo.forcePreConsume then false
  else if env.trustQuota ≤ 0 then false
  else if !(s.relayInfo.tokenUnlimited || decide (env.trustQuota < tokenQuota)) then false
  else
    match s.funding with
    | .wallet _ => decide (env.trustQuota < s.relayInfo.userQuota)
    | .promo _ => false

def fundingPreConsume (env : Setting R) (amount : Int) : SessionAct R Unit := do
  let s ← session
  match s.funding with
  | .wallet w => onWallet w (w.preConsume amount)
  | .promo p => onPromo p (p.preConsume env s.relayInfo amount)

/-- Step 1 of `preConsume`. -/
def preConsumeToken (cached : Option Token) (effectiveQuota : Int) : SessionAct R Unit := do
  let s ← session
  if 0 < effectiveQuota then do
    Act.mapError (.api .preConsumeTokenQuotaFailed 403)
      (database (preConsumeTokenQuota s.relayInfo cached effectiveQuota))
    update fun s => { s with tokenConsumed := effectiveQuota }
  else pure ()

def rollbackToken : SessionAct R Unit := do
  let s ← session
  if 0 < s.tokenConsumed ∧ s.relayInfo.isPlayground = false then do
    let _ ← Act.attempt (database (R := R)
      (onStore (increaseTokenQuota s.relayInfo.tokenId s.tokenConsumed)))
    update fun s => { s with tokenConsumed := 0 }
  else pure ()

/-- An error of the funding source as `preConsume` reports it. -/
def preConsumeError (e : BillingError) : BillingError :=
  if e = .credit .creditGrantInsufficient ∨ e = .credit .creditPoolInventoryShortage ∨
    e = .credit .creditPoolUnavailable
  then .api .insufficientUserQuota 409 e
  else newError .updateDataError e

/-- Step 2 of `preConsume`. -/
def preConsumeFunding (env : Setting R) (effectiveQuota : Int) : SessionAct R Unit := do
  match ← Act.attempt (fundingPreConsume env effectiveQuota) with
  | .error (e : BillingError) => do
    rollbackToken
    Act.fail (preConsumeError e)
  | .ok _ => do
    update (fun s => { s with preConsumedQuota := effectiveQuota })
    syncRelayInfo

def preConsume (env : Setting R) (tokenQuota : Int) (cached : Option Token) (quota : Int) :
    SessionAct R Unit := do
  let s ← session
  let trusted := s.shouldTrust env tokenQuota
  let effectiveQuota := if trusted then 0 else quota
  update (fun s => { s with trusted := trusted })
  preConsumeToken cached effectiveQuota
  preConsumeFunding env effectiveQuota

def freshSession (info : RelayInfo R) (funding : Funding R) : BillingSession R :=
  { relayInfo := info, funding := funding, preConsumedQuota := 0, tokenConsumed := 0
    extraReserved := 0, trusted := false, fundingSettled := false, settled := false
    refunded := false }

/-- A session that has pre-consumed `quota`. -/
def openSession (env : Setting R) (tokenQuota : Int) (cached : Option Token) (info : RelayInfo R)
    (funding : Funding R) (quota : Int) : Act (CreditDb R) BillingError (SessionState R) :=
  fun db =>
    let r := preConsume env tokenQuota cached quota ⟨freshSession info funding, db, [], []⟩
    (r.1.map (fun _ => r.2), r.2.db)

/-- `tryWallet` of `NewBillingSession`. -/
def tryWallet (env : Setting R) (tokenQuota : Int) (cached : Option Token) (info : RelayInfo R)
    (quota : Int) : Act (CreditDb R) BillingError (SessionState R) := do
  let userQuota ← Act.mapError (newError .queryDataError) (onStore (getUserQuota info.userId))
  if userQuota ≤ 0
  then Act.fail (.api .insufficientUserQuota 403 (.userQuotaNotEnough userQuota))
  else if userQuota - quota < 0
  then Act.fail (.api .insufficientUserQuota 403 (.preConsumeNotEnough userQuota quota))
  else
    openSession env tokenQuota cached { info with userQuota := userQuota }
      (.wallet ⟨info.userId, 0⟩) quota

/-- `NewBillingSession` for a login without an active subscription. -/
def newBillingSession (env : Setting R) (tokenQuota : Int) (cached : Option Token)
    (info : RelayInfo R) (quota : Int) : Act (CreditDb R) BillingError (SessionState R) :=
  if 0 < info.creditPoolId ∧ 0 < info.creditGrantId then
    openSession env tokenQuota cached info
      (.promo { grantId := info.creditGrantId, poolId := info.creditPoolId, reservationId := 0,
                preConsumed := 0, customerRatio := info.groupRatio,
                costRatio := env.channelCostRatio info.channelId }) quota
  else tryWallet env tokenQuota cached info quota

/-! ### Runs -/

inductive SessionCall (R : Type) where
  | reserve (env : Setting R) (cached : Option Token) (targetQuota : Int)
  | settle (env : Setting R) (actualQuota : Int)
  | refund
  | work
  | channel (channelId : Int)

def SessionCall.act : SessionCall R → SessionAct R Unit
  | .reserve env cached targetQuota => Billing.reserve env cached targetQuota
  | .settle env actualQuota => Billing.settle env actualQuota
  | .refund => Billing.refund
  | .work => Billing.work
  | .channel channelId =>
    update fun s => { s with relayInfo := { s.relayInfo with channelId := channelId } }

def SessionState.after (st : SessionState R) (cs : List (SessionCall R)) : SessionState R :=
  cs.foldl (fun st c => (c.act st).2) st

@[simp] theorem SessionState.after_concat (st : SessionState R) (cs : List (SessionCall R))
    (c : SessionCall R) : st.after (cs ++ [c]) = (c.act (st.after cs)).2 := by
  simp [SessionState.after]

end Priced

end UnifyConsole.Billing
