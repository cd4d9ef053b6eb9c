import UnifyConsole.Account.Quota
import UnifyConsole.Billing.QuotaMath
import UnifyConsole.Credit.Pool
import UnifyConsole.Lib.Act

/-!
# Funding sources

`service/funding_source.go`: what a request is paid from.  A wallet is debited
and credited directly.  Promotional credit is held by a reservation, and the
funding source keeps a copy of the amount it asked for.

Every database function is a transaction of its own, so a method that fails in
the middle leaves its earlier statements in place.  Methods are calls over the
funding source and the database.  Subscriptions are not modelled here.
-/

namespace UnifyConsole.Billing

open Lib Account Credit

variable {R α : Type}

/-! ### Errors -/

inductive ErrorCode where
  | insufficientUserQuota
  | preConsumeTokenQuotaFailed
  | updateDataError
  | queryDataError
  | modelPriceError
deriving DecidableEq

inductive BillingError where
  | account (e : AccountError)
  | credit (e : CreditError)
  | tokenQuotaNotEnough (remain need : Int)
  | userQuotaNotEnough (remain : Int)
  | preConsumeNotEnough (remain need : Int)
  | userQuotaShort (remain need : Int)
  | negativePreConsume (quota : Int)
  | quotaClamp (clamp : QuotaClamp)
  /-- `types.NewAPIError`. -/
  | api (code : ErrorCode) (statusCode : Nat) (cause : BillingError)
deriving DecidableEq

/-- `types.NewError`: an error that already is an API error stays as it is. -/
def newError (code : ErrorCode) (e : BillingError) : BillingError :=
  match e with
  | .api _ _ _ => e
  | e => .api code 500 e

/-! ### The request -/

inductive BillingSource where
  | wallet
  | subscription
  | promotional
deriving DecidableEq

/-- The fields of `relaycommon.RelayInfo` that billing reads and writes. -/
structure RelayInfo (R : Type) where
  requestId : String
  userId : Int
  tokenId : Int
  tokenKey : String
  tokenUnlimited : Bool
  isPlayground : Bool
  forcePreConsume : Bool
  userQuota : Int
  channelId : Int
  creditPoolId : Int
  creditGrantId : Int
  /-- `PriceData.GroupRatioInfo.GroupRatio`. -/
  groupRatio : R
  finalPreConsumedQuota : Int
  billingSource : Option BillingSource
  creditReservationId : Int

/-- The settings and the clock as a call finds them. -/
structure Setting (R : Type) where
  now : Int
  trustQuota : Int
  /-- `GetChannelCostRatio`. -/
  channelCostRatio : Int → R

/-! ### Statements of a call -/

def onStore (x : AccountTx α) : Act (CreditDb R) BillingError α :=
  Act.zoom CreditDb.store (fun db s => { db with store := s }) BillingError.account (Act.commit x)

def onCredit (x : CreditTx R α) : Act (CreditDb R) BillingError α :=
  Act.mapError BillingError.credit (Act.commit x)

def onDb {F : Type} (x : Act (CreditDb R) BillingError α) : Act (F × CreditDb R) BillingError α :=
  Act.zoom Prod.snd (fun st db => (st.1, db)) id x

/-! ### `WalletFunding` -/

structure WalletFunding where
  userId : Int
  consumed : Int

namespace WalletFunding

abbrev Method (R α : Type) := Act (WalletFunding × CreditDb R) BillingError α

def addConsumed (delta : Int) (st : WalletFunding × CreditDb R) : WalletFunding × CreditDb R :=
  ({ st.1 with consumed := st.1.consumed + delta }, st.2)

def preConsume (w : WalletFunding) (amount : Int) : Method R Unit :=
  if amount ≤ 0 then pure ()
  else do
    onDb (onStore (tryDecreaseUserQuota w.userId amount))
    Act.write fun st => ({ st.1 with consumed := amount }, st.2)

def settle (w : WalletFunding) (delta : Int) : Method R Unit :=
  if delta = 0 then pure ()
  else if 0 < delta then onDb (onStore (decreaseUserQuota w.userId delta))
  else onDb (onStore (increaseUserQuota w.userId (-delta)))

def refund (w : WalletFunding) : Method R Unit :=
  if w.consumed ≤ 0 then pure ()
  else onDb (onStore (increaseUserQuota w.userId w.consumed))

/-- The wallet case of `reserveFunding`. -/
def reserve (w : WalletFunding) (delta : Int) : Method R Unit := do
  Act.mapError (newError .updateDataError) (onDb (onStore (decreaseUserQuota w.userId delta)))
  Act.write (addConsumed delta)

/-- The wallet case of `rollbackFundingReserve`, which only logs an error. -/
def rollbackReserve (w : WalletFunding) (delta : Int) : Method R Unit := do
  match ← Act.attempt (onDb (onStore (increaseUserQuota w.userId delta))) with
  | .ok _ => Act.write (addConsumed (-delta))
  | .error (_ : BillingError) => pure ()

end WalletFunding

/-! ### `PromoFunding` -/

structure PromoFunding (R : Type) where
  grantId : Int
  poolId : Int
  reservationId : Int
  preConsumed : Int
  customerRatio : R
  costRatio : R

namespace PromoFunding

abbrev Method (R α : Type) := Act (PromoFunding R × CreditDb R) BillingError α

def setPreConsumed (amount : Int) (st : PromoFunding R × CreditDb R) :
    PromoFunding R × CreditDb R :=
  ({ st.1 with preConsumed := amount }, st.2)

/-- An error of `Reserve` as `reserveFunding` reports it. -/
def reserveError (e : BillingError) : BillingError :=
  if e = .credit .creditGrantInsufficient ∨ e = .credit .creditPoolInventoryShortage
  then .api .insufficientUserQuota 409 e
  else newError .updateDataError e

def refund (p : PromoFunding R) : Method R Unit :=
  if p.reservationId ≤ 0 then pure ()
  else onDb (onCredit (refundCreditPoolReservation p.reservationId))

variable [Ratio R]

/-- The reservation `PreConsume` asks for. -/
def request (p : PromoFunding R) (info : RelayInfo R) (amount : Int) : ReserveRequest R :=
  { requestId := info.requestId, userId := info.userId, grantId := p.grantId, poolId := p.poolId,
    channelId := info.channelId, customerQuota := amount,
    poolQuota := creditPoolCostQuota amount p.customerRatio p.costRatio,
    customerRatio := p.customerRatio, costRatio := p.costRatio }

def preConsume (p : PromoFunding R) (env : Setting R) (info : RelayInfo R) (amount : Int) :
    Method R Unit :=
  if amount ≤ 0 then pure ()
  else do
    let reservation ← onDb (onCredit (reserveCreditPool (p.request info amount) env.now))
    Act.write fun st =>
      ({ st.1 with reservationId := reservation.id, preConsumed := amount }, st.2)

/-- The cost ratio is replaced before the settlement is tried. -/
def settle (p : PromoFunding R) (env : Setting R) (info : RelayInfo R) (delta : Int) : Method R Unit :=
  if p.reservationId ≤ 0 then pure ()
  else do
    let actualCustomer := p.preConsumed + delta
    let costRatio := env.channelCostRatio info.channelId
    Act.write fun st => ({ st.1 with costRatio := costRatio }, st.2)
    let actualPool := creditPoolCostQuota actualCustomer p.customerRatio costRatio
    onDb (onCredit (settleCreditPoolReservationAtCost p.reservationId info.channelId
      actualCustomer actualPool costRatio env.now))
    Act.write (setPreConsumed actualCustomer)

/-- Move the pending reservation to `targetCustomer`. -/
def resize (p : PromoFunding R) (env : Setting R) (targetCustomer : Int) : Method R Unit := do
  let targetPool := creditPoolCostQuota targetCustomer p.customerRatio p.costRatio
  onDb (onCredit (resizePendingCreditPoolReservation p.reservationId targetCustomer targetPool
    env.now))
  Act.write (setPreConsumed targetCustomer)

def reserve (p : PromoFunding R) (env : Setting R) (delta : Int) : Method R Unit :=
  if delta ≤ 0 ∨ p.reservationId ≤ 0 then pure () else p.resize env (p.preConsumed + delta)

def rollbackReserve (p : PromoFunding R) (env : Setting R) (delta : Int) : Method R Unit :=
  if delta ≤ 0 ∨ p.reservationId ≤ 0 then pure ()
  else if p.preConsumed - delta ≤ 0 then p.refund
  else p.resize env (p.preConsumed - delta)

end PromoFunding

inductive Funding (R : Type) where
  | wallet (w : WalletFunding)
  | promo (p : PromoFunding R)

def Funding.source : Funding R → BillingSource
  | .wallet _ => .wallet
  | .promo _ => .promotional

end UnifyConsole.Billing
