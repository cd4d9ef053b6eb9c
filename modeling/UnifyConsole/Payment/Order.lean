import Mathlib
import UnifyConsole.Account.Quota
import UnifyConsole.Account.Tenant
import UnifyConsole.Billing.QuotaMath

/-!
# Top-up orders

`model/topup.go` and `model/binance_pay.go`: an order is a row of `top_ups`, and
completing it marks the row and adds the quota it is worth to the wallet of the
payer.  Every function here reads the row under `SELECT … FOR UPDATE` and does
both in one transaction; `EpayNotify`, which does not, is in `Payment.Calls`.

Prices are exact: `Money` and `QuotaPerUnit` are rationals, and a conversion to
`int` cuts off what is behind the point.  The trade number is unique and never
changes, so it names an order; the primary key is left out.

The state has one list that the code does not have: the quota additions that were
made, each with the order, the function and the wallet.  `Db.credit` is the only
statement that touches a balance, and it makes the note with it.
-/

namespace UnifyConsole.Payment

open Lib Account
open Billing (truncate quotaFromDecimalChecked QuotaClamp)
open Table Tx

/-! ### Rows -/

inductive TopUpStatus where
  | pending
  | success
  | failed
  | expired
deriving DecidableEq

inductive PaymentProvider where
  | epay
  | stripe
  | creem
  | waffo
  | waffoPancake
  | binancePay
  | balance
  | admin
  | other (name : String)
deriving DecidableEq

/-- A row of `top_ups`. -/
structure TopUp where
  tradeNo : String
  userId : Int
  tenantId : Int
  customerGroup : String
  amount : Int
  money : ℚ
  paymentMethod : String
  paymentProvider : PaymentProvider
  createTime : Int
  completeTime : Int
  status : TopUpStatus

/-- The columns of `users` that gateways write. -/
structure Payer where
  userId : Int
  email : String
  stripeCustomer : String

/-- `BinancePayTransaction`: a transaction and the order it paid. -/
structure BinancePayTransaction where
  transactionId : String
  source : String
  tradeNo : String
  amount : String
  currency : String
  payerId : String
  transactTime : Int

/-- The functions that add the quota of an order. -/
inductive Path where
  | epayNotify
  | recharge
  | rechargeCreem
  | rechargeWaffo
  | rechargeWaffoPancake
  | rechargeBinancePay
  | rechargeBinancePayManual
  | manualCompleteTopUp
deriving DecidableEq

structure Credit where
  tradeNo : String
  path : Path
  wallet : Wallet
  quota : Int
deriving DecidableEq

/-- The database, the order mutexes that the servers hold and the additions made. -/
structure Db where
  accounts : Store
  payers : Table Payer.userId
  topUps : Table TopUp.tradeNo
  binancePayTransactions : Table BinancePayTransaction.transactionId
  orderLocks : List (Nat × String)
  credits : List Credit

inductive TopUpError where
  | noTradeNo
  | orderNotFound
  | topUpNotFound
  | paymentMethodMismatch
  | topUpStatusInvalid
  | orderStatusWrong
  | notPending
  | invalidQuota
  | quotaClamped (clamp : QuotaClamp)
  | missingTransactionId
  | missingAdministrator
  | binancePayTxnUsed
  | binancePayNeedsMatch
  | duplicateTradeNo
  | rechargeFailed
  | unknownAdjustmentMode
  | waiting
  | account (e : AccountError)
  | database
deriving DecidableEq

abbrev TopUpTx := Tx Db TopUpError

def account {α : Type} (x : AccountTx α) : TopUpTx α :=
  Tx.zoom Db.accounts (fun s a => { s with accounts := a }) TopUpError.account x

/-! ### Statements -/

/-- `TopUp.BeforeSave`: the company that owns the payment. -/
def TopUp.beforeSave (o : TopUp) (accounts : Store) : TopUp :=
  if (o.customerGroup ≠ "" ∧ o.tenantId ≠ 0) ∨ o.userId = 0 then o
  else
    match accounts.users.find? o.userId with
    | none => o
    | some user => { o with customerGroup := user.group, tenantId := user.tenantId }

namespace Db

variable (s : Db)

/-- `UPDATE top_ups SET … WHERE id = …`, all columns. -/
def store (o : TopUp) : Db :=
  { s with
    topUps := s.topUps.update (fun r => decide (r.tradeNo = o.tradeNo))
      (fun r => { o with tradeNo := r.tradeNo }) (fun _ => rfl) }

/-- `tx.Save(topUp)`. -/
def save (o : TopUp) : Db := s.store (o.beforeSave s.accounts)

/-- `quota + …` on a wallet. -/
def credit (c : Credit) : Db :=
  { s with
    accounts := s.accounts.setQuota c.wallet (fun _ => true) (fun q => q + c.quota)
    credits := c :: s.credits }

/-- `UPDATE users SET stripe_customer = …`. -/
def setStripeCustomer (userId : Int) (customerId : String) : Db :=
  { s with
    payers := s.payers.update (fun p => decide (p.userId = userId))
      (fun p => { p with stripeCustomer := customerId }) (fun _ => rfl) }

/-- `UPDATE users SET email = …`. -/
def setEmail (userId : Int) (email : String) : Db :=
  { s with
    payers := s.payers.update (fun p => decide (p.userId = userId))
      (fun p => { p with email := email }) (fun _ => rfl) }

def creditsOf (tradeNo : String) : List Credit :=
  s.credits.filter fun c => decide (c.tradeNo = tradeNo)

end Db

def insertTopUp (o : TopUp) : TopUpTx TopUp := do
  let accounts ← Tx.read Db.accounts
  let o := o.beforeSave accounts
  Tx.writeSome (fun s => (s.topUps.insert? o).map fun t => { s with topUps := t })
    .duplicateTradeNo
  pure o

def increaseUserQuotaWithTx (path : Path) (o : TopUp) (quota : Int) : TopUpTx Unit := do
  Tx.ensure (0 ≤ quota) (.account .negativeQuota)
  let entity ← account (adjustBillingQuotaWithTx o.userId quota)
  Tx.write fun s => { s with credits := ⟨o.tradeNo, path, entity.wallet, quota⟩ :: s.credits }

/-! ### What an order is worth -/

section Quota

variable (quotaPerUnit : ℚ)

/-- `Amount` is in dollars. -/
def amountQuota (o : TopUp) : Int := truncate (o.amount * quotaPerUnit)

/-- `Money` is in dollars. -/
def moneyQuota (o : TopUp) : Int := truncate (o.money * quotaPerUnit)

def binancePayQuota (o : TopUp) : Except TopUpError Int :=
  match quotaFromDecimalChecked (o.amount * quotaPerUnit) with
  | (_, some clamp) => .error (.quotaClamped clamp)
  | (quota, none) => if quota ≤ 0 then .error .invalidQuota else .ok quota

def manualQuota (o : TopUp) : Int :=
  if o.paymentProvider = .stripe then moneyQuota quotaPerUnit o else amountQuota quotaPerUnit o

def Path.quota : Path → TopUp → Int
  | .epayNotify => amountQuota quotaPerUnit
  | .recharge => moneyQuota quotaPerUnit
  | .rechargeCreem => TopUp.amount
  | .rechargeWaffo => amountQuota quotaPerUnit
  | .rechargeWaffoPancake => amountQuota quotaPerUnit
  | .rechargeBinancePay => fun o => (quotaFromDecimalChecked (o.amount * quotaPerUnit)).1
  | .rechargeBinancePayManual => fun o => (quotaFromDecimalChecked (o.amount * quotaPerUnit)).1
  | .manualCompleteTopUp => manualQuota quotaPerUnit

end Quota

def Path.provider? : Path → Option PaymentProvider
  | .epayNotify => some .epay
  | .recharge => some .stripe
  | .rechargeCreem => some .creem
  | .rechargeWaffo => some .waffo
  | .rechargeWaffoPancake => some .waffoPancake
  | .rechargeBinancePay => some .binancePay
  | .rechargeBinancePayManual => some .binancePay
  | .manualCompleteTopUp => none

structure Path.Accepts (path : Path) (o : TopUp) : Prop where
  provider : ∀ provider, path.provider? = some provider → o.paymentProvider = provider
  status : o.status = .pending ∨ (path = .rechargeBinancePayManual ∧ o.status = .expired)

/-- What a function has tested before it completes an order. -/
def Path.Granted (quotaPerUnit : ℚ) (o : TopUp) : Path → Prop
  | .rechargeBinancePay => ∃ quota, binancePayQuota quotaPerUnit o = .ok quota
  | .rechargeBinancePayManual => ∃ quota, binancePayQuota quotaPerUnit o = .ok quota
  | .manualCompleteTopUp => 0 < manualQuota quotaPerUnit o
  | _ => True

/-! ### Completion in one transaction -/

/-- The row of an order completed at `now`. -/
def TopUp.completed (o : TopUp) (now : Int) : TopUp :=
  { o with completeTime := now, status := .success }

section Complete

variable (quotaPerUnit : ℚ) (now : Int)

/-- The transaction of `Recharge`. -/
def rechargeTx (referenceId customerId : String) : TopUpTx Unit := do
  let topUp ← Tx.fetch (fun s => s.topUps.find? referenceId) .orderNotFound
  Tx.ensure (topUp.paymentProvider = .stripe) .paymentMethodMismatch
  Tx.ensure (topUp.status = .pending) .orderStatusWrong
  Tx.write (fun s => s.save (topUp.completed now))
  Tx.write (fun s => s.setStripeCustomer topUp.userId customerId)
  increaseUserQuotaWithTx .recharge topUp (moneyQuota quotaPerUnit topUp)

def fillEmail (userId : Int) (customerEmail : String) : TopUpTx Unit :=
  Tx.when (customerEmail ≠ "") (do
    let payer ← Tx.fetch (fun s => s.payers.find? userId) (.account .recordNotFound)
    Tx.when (payer.email = "") (Tx.write fun s => s.setEmail userId customerEmail))

/-- The transaction of `RechargeCreem`. -/
def rechargeCreemTx (referenceId customerEmail : String) : TopUpTx Unit := do
  let topUp ← Tx.fetch (fun s => s.topUps.find? referenceId) .orderNotFound
  Tx.ensure (topUp.paymentProvider = .creem) .paymentMethodMismatch
  Tx.ensure (topUp.status = .pending) .orderStatusWrong
  Tx.write (fun s => s.save (topUp.completed now))
  fillEmail topUp.userId customerEmail
  increaseUserQuotaWithTx .rechargeCreem topUp topUp.amount

def rechargeDollarsTx (provider : PaymentProvider) (path : Path) (tradeNo : String) :
    TopUpTx Unit := do
  let topUp ← Tx.fetch (fun s => s.topUps.find? tradeNo) .orderNotFound
  Tx.ensure (topUp.paymentProvider = provider) .paymentMethodMismatch
  if topUp.status = .success then pure ()
  else do
    Tx.ensure (topUp.status = .pending) .orderStatusWrong
    Tx.ensure (0 < amountQuota quotaPerUnit topUp) .invalidQuota
    Tx.write (fun s => s.save (topUp.completed now))
    increaseUserQuotaWithTx path topUp (amountQuota quotaPerUnit topUp)

def rechargeWaffoTx : String → TopUpTx Unit :=
  rechargeDollarsTx quotaPerUnit now .waffo .rechargeWaffo

def rechargeWaffoPancakeTx : String → TopUpTx Unit :=
  rechargeDollarsTx quotaPerUnit now .waffoPancake .rechargeWaffoPancake

/-- The transaction of `rechargeBinancePay`. -/
def rechargeBinancePayTx (path : Path) (tradeNo : String) (txn : BinancePayTransaction)
    (manual : Bool) : TopUpTx Unit := do
  let topUp ← Tx.fetch (fun s => s.topUps.find? tradeNo) .orderNotFound
  Tx.ensure (topUp.paymentProvider = .binancePay) .paymentMethodMismatch
  if topUp.status = .success then pure ()
  else do
    Tx.ensure (topUp.status = .pending ∨ (manual = true ∧ topUp.status = .expired))
      .topUpStatusInvalid
    let used ← Tx.read (fun s => s.binancePayTransactions.find? txn.transactionId)
    Tx.ensure (used = none) .binancePayTxnUsed
    let quotaToAdd ← Tx.answer (binancePayQuota quotaPerUnit topUp)
    Tx.writeSome (fun s => (s.binancePayTransactions.insert? { txn with tradeNo := tradeNo }).map
      (fun t => { s with binancePayTransactions := t })) .binancePayTxnUsed
    Tx.write (fun s => s.save (topUp.completed now))
    increaseUserQuotaWithTx path topUp quotaToAdd

/-- The transaction of `ManualCompleteTopUp`. -/
def manualCompleteTopUpTx (tradeNo : String) : TopUpTx Unit := do
  let topUp ← Tx.fetch (fun s => s.topUps.find? tradeNo) .orderNotFound
  if topUp.status = .success then pure ()
  else do
    Tx.ensure (topUp.status = .pending) .notPending
    Tx.ensure (0 < manualQuota quotaPerUnit topUp) .invalidQuota
    Tx.write (fun s => s.save (topUp.completed now))
    increaseUserQuotaWithTx .manualCompleteTopUp topUp (manualQuota quotaPerUnit topUp)

end Complete

/-! ### Giving an order up -/

def updatePendingTopUpStatusTx (tradeNo : String)
    (expectedPaymentProvider : Option PaymentProvider) (targetStatus : TopUpStatus) :
    TopUpTx Unit := do
  Tx.ensure (tradeNo ≠ "") .noTradeNo
  let topUp ← Tx.fetch (fun s => s.topUps.find? tradeNo) .topUpNotFound
  Tx.ensure (expectedPaymentProvider = none ∨ expectedPaymentProvider = some topUp.paymentProvider)
    .paymentMethodMismatch
  Tx.ensure (topUp.status = .pending) .topUpStatusInvalid
  Tx.write fun s => s.save { topUp with status := targetStatus }

def TopUp.isOverdue (o : TopUp) (cutoff : Int) : Bool :=
  decide (o.paymentProvider = .binancePay) && decide (o.status = .pending) &&
    decide (o.createTime < cutoff)

def expireBinancePayTopUps (cutoff now : Int) : TopUpTx Unit :=
  Tx.write fun s => { s with
    topUps := s.topUps.update (fun o => o.isOverdue cutoff)
      (fun o => { o with status := .expired, completeTime := now }) (fun _ => rfl) }

/-! ### What the statements do -/

structure Terms where
  tradeNo : String
  userId : Int
  amount : Int
  money : ℚ
  paymentProvider : PaymentProvider

def TopUp.terms (o : TopUp) : Terms := ⟨o.tradeNo, o.userId, o.amount, o.money, o.paymentProvider⟩

variable {o : TopUp}

/-- What a function adds depends on the terms only. -/
theorem Path.quota_eq_of_terms (quotaPerUnit : ℚ) (path : Path) {o' : TopUp}
    (h : o.terms = o'.terms) : path.quota quotaPerUnit o = path.quota quotaPerUnit o' := by
  simp only [TopUp.terms, Terms.mk.injEq] at h
  obtain ⟨-, -, hamount, hmoney, hprovider⟩ := h
  cases path <;> simp only [Path.quota, manualQuota, moneyQuota, amountQuota, hamount, hmoney,
    hprovider]

section BeforeSave

variable (o : TopUp) (accounts : Store)

/-- The hook writes the snapshot of the company and nothing else. -/
theorem TopUp.beforeSave_cases : ∃ group tenantId,
    o.beforeSave accounts = { o with customerGroup := group, tenantId := tenantId } := by
  unfold TopUp.beforeSave
  split
  · exact ⟨o.customerGroup, o.tenantId, rfl⟩
  split
  · exact ⟨o.customerGroup, o.tenantId, rfl⟩
  · rename_i user _
    exact ⟨user.group, user.tenantId, rfl⟩

@[simp] theorem TopUp.beforeSave_terms : (o.beforeSave accounts).terms = o.terms := by
  obtain ⟨group, tenantId, h⟩ := o.beforeSave_cases accounts
  rw [h]
  rfl

@[simp] theorem TopUp.beforeSave_tradeNo : (o.beforeSave accounts).tradeNo = o.tradeNo :=
  congrArg Terms.tradeNo (o.beforeSave_terms accounts)

@[simp] theorem TopUp.beforeSave_status : (o.beforeSave accounts).status = o.status := by
  obtain ⟨group, tenantId, h⟩ := o.beforeSave_cases accounts
  rw [h]

@[simp] theorem TopUp.beforeSave_completeTime :
    (o.beforeSave accounts).completeTime = o.completeTime := by
  obtain ⟨group, tenantId, h⟩ := o.beforeSave_cases accounts
  rw [h]

end BeforeSave

variable {tradeNo : String}

namespace Db

variable (s : Db)

/-- A row is written over by its trade number. -/
theorem find?_store (o : TopUp) (tradeNo : String) : (s.store o).topUps.find? tradeNo =
    if tradeNo = o.tradeNo then (s.topUps.find? tradeNo).map fun _ => o
    else s.topUps.find? tradeNo := by
  rw [store, find?_update]
  cases hrow : s.topUps.find? tradeNo with
  | none => simp
  | some r =>
    obtain rfl : r.tradeNo = tradeNo := key_of_find? hrow
    by_cases he : r.tradeNo = o.tradeNo
    · simp [he]
    · simp [he]

variable {s}

theorem find?_save {x : TopUp} (hrow : s.topUps.find? tradeNo = some x) (ht : o.tradeNo = tradeNo) :
    (s.save o).topUps.find? tradeNo = some (o.beforeSave s.accounts) := by
  rw [save, find?_store, TopUp.beforeSave_tradeNo, if_pos ht.symm, hrow]
  rfl

theorem find?_save_of_ne (ht : o.tradeNo ≠ tradeNo) :
    (s.save o).topUps.find? tradeNo = s.topUps.find? tradeNo := by
  rw [save, find?_store, TopUp.beforeSave_tradeNo, if_neg (fun e => ht e.symm)]

end Db

variable {s : Db}

theorem insertTopUp_ok {r : TopUp × Db} (hok : insertTopUp o s = .ok r) :
    ∃ topUps, s.topUps.insert? (o.beforeSave s.accounts) = some topUps ∧
      r = (o.beforeSave s.accounts, { s with topUps := topUps }) := by
  simp only [insertTopUp, bind_ok, writeSome_ok, pure_ok, Option.map_eq_some_iff] at hok
  obtain ⟨_, _, ⟨rfl, rfl⟩, _, _, ⟨_, ⟨topUps, hnew, rfl⟩, -, rfl⟩, rfl⟩ := hok
  exact ⟨topUps, hnew, rfl⟩

theorem account_resolve_ok {userId : Int} {r : BillingEntity × Db} :
    account (resolveBillingEntity userId) s = .ok r ↔
      0 < userId ∧ s.accounts.entityOf userId = some r.1 ∧ r.2 = s := by
  obtain ⟨entity, s'⟩ := r
  simp only [account, zoom_ok, resolveBillingEntity_ok, Prod.mk.injEq]
  constructor
  · rintro ⟨_, _, ⟨hu, _, he, rfl, rfl⟩, rfl, rfl⟩
    exact ⟨hu, he, rfl⟩
  · rintro ⟨hu, he, rfl⟩
    exact ⟨entity, s'.accounts, ⟨hu, entity, he, rfl, rfl⟩, rfl, rfl⟩

/-! ### What a completion does -/

/-- A function completes an order: its row is marked and its worth is added to its payer's wallet.
-/
structure Completes (quotaPerUnit : ℚ) (path : Path) (now : Int) (o : TopUp)
    (entity : BillingEntity) (s s' : Db) : Prop where
  row : s.topUps.find? o.tradeNo = some o
  accepts : path.Accepts o
  payer : s.accounts.entityOf o.userId = some entity
  topUps : s'.topUps = (s.save (o.completed now)).topUps
  accounts : s'.accounts = s.accounts.setQuota entity.wallet (fun _ => true)
    (fun q => q + path.quota quotaPerUnit o)
  credits : s'.credits =
    ⟨o.tradeNo, path, entity.wallet, path.quota quotaPerUnit o⟩ :: s.credits

namespace Completes

variable {quotaPerUnit : ℚ} {path : Path} {now : Int} {o : TopUp} {entity : BillingEntity}
  {s s' : Db}

theorem find? (h : Completes quotaPerUnit path now o entity s s') :
    s'.topUps.find? o.tradeNo = some ((o.completed now).beforeSave s.accounts) := by
  rw [h.topUps]
  exact Db.find?_save h.row rfl

theorem find?_of_ne (h : Completes quotaPerUnit path now o entity s s') (ht : o.tradeNo ≠ tradeNo) :
    s'.topUps.find? tradeNo = s.topUps.find? tradeNo := by
  rw [h.topUps]
  exact Db.find?_save_of_ne ht

end Completes

variable {path : Path}

theorem increaseUserQuotaWithTx_ok {quota : Int} {r : Unit × Db} :
    increaseUserQuotaWithTx path o quota s = .ok r ↔
      0 ≤ quota ∧ 0 < o.userId ∧ ∃ entity, s.accounts.entityOf o.userId = some entity ∧
        r = ((), s.credit ⟨o.tradeNo, path, entity.wallet, quota⟩) := by
  simp only [increaseUserQuotaWithTx, account, bind_ok, ensure_ok, zoom_ok, write_ok,
    adjustBillingQuotaWithTx_ok, Prod.mk.injEq]
  constructor
  · rintro ⟨_, _, ⟨hq, -, rfl⟩, entity, _, ⟨_, _, ⟨hu, _, he, rfl, rfl⟩, rfl, rfl⟩, rfl⟩
    exact ⟨hq, hu, entity, he, rfl⟩
  · rintro ⟨hq, hu, entity, he, rfl⟩
    exact ⟨(), s, ⟨hq, trivial, rfl⟩, entity, _, ⟨entity, _, ⟨hu, entity, he, rfl, rfl⟩, rfl, rfl⟩,
      rfl⟩

/-- The step completes an order, or does nothing. -/
def Settles (quotaPerUnit : ℚ) (path : Path) (now : Int) (s s' : Db) : Prop :=
  s' = s ∨ ∃ o entity, path.Granted quotaPerUnit o ∧ Completes quotaPerUnit path now o entity s s'

/-- Marking the row, then anything that leaves the orders and wallets alone, then the
addition. -/
theorem Settles.of_ok {quotaPerUnit : ℚ} {now : Int} {s₁ : Db} {r : Unit × Db}
    (hrow : s.topUps.find? tradeNo = some o) (haccepts : path.Accepts o)
    (hgranted : path.Granted quotaPerUnit o)
    (hok : increaseUserQuotaWithTx path o (path.quota quotaPerUnit o) s₁ = .ok r)
    (htopUps : s₁.topUps = (s.save (o.completed now)).topUps) (haccounts : s₁.accounts = s.accounts)
    (hcredits : s₁.credits = s.credits) : Settles quotaPerUnit path now s r.2 := by
  obtain rfl : o.tradeNo = tradeNo := key_of_find? hrow
  obtain ⟨-, -, entity, hentity, rfl⟩ := increaseUserQuotaWithTx_ok.mp hok
  rw [haccounts] at hentity
  refine .inr ⟨o, entity, hgranted, hrow, haccepts, hentity, htopUps, ?_, ?_⟩
  · rw [← haccounts]
    rfl
  · rw [← hcredits]
    rfl

section Ok

variable {quotaPerUnit : ℚ} {now : Int} {tradeNo : String} {s : Db} {r : Unit × Db}

theorem rechargeTx_ok {customerId : String}
    (hok : rechargeTx quotaPerUnit now tradeNo customerId s = .ok r) :
    Settles quotaPerUnit .recharge now s r.2 := by
  simp only [rechargeTx, bind_ok, fetch_ok, ensure_ok] at hok
  obtain ⟨o, _, ⟨_, hrow, rfl, rfl⟩, _, _, ⟨hprovider, -, rfl⟩, _, _, ⟨hstatus, -, rfl⟩, _, _,
    ⟨-, rfl⟩, _, _, ⟨-, rfl⟩, hincrease⟩ := hok
  have haccepts : Path.recharge.Accepts o :=
    ⟨fun _ hp => Option.some.inj hp ▸ hprovider, .inl hstatus⟩
  exact .of_ok hrow haccepts trivial hincrease rfl rfl rfl

/-- The e-mail address is all that `fillEmail` changes. -/
theorem fillEmail_ok {userId : Int} {customerEmail : String}
    (hok : fillEmail userId customerEmail s = .ok r) :
    ∃ payers, r.2 = { s with payers := payers } := by
  simp only [fillEmail, when_ok, bind_ok, fetch_ok, write_ok] at hok
  rcases hok with ⟨-, _, _, ⟨_, -, -, rfl⟩, ⟨-, rfl⟩ | ⟨-, rfl⟩⟩ | ⟨-, rfl⟩
  · exact ⟨_, rfl⟩
  · exact ⟨_, rfl⟩
  · exact ⟨_, rfl⟩

theorem rechargeCreemTx_ok {customerEmail : String}
    (hok : rechargeCreemTx now tradeNo customerEmail s = .ok r) :
    Settles quotaPerUnit .rechargeCreem now s r.2 := by
  simp only [rechargeCreemTx, bind_ok, fetch_ok, ensure_ok] at hok
  obtain ⟨o, _, ⟨_, hrow, rfl, rfl⟩, _, _, ⟨hprovider, -, rfl⟩, _, _, ⟨hstatus, -, rfl⟩, _, _,
    ⟨-, rfl⟩, _, s₁, hemail, hincrease⟩ := hok
  obtain ⟨payers, rfl⟩ := fillEmail_ok hemail
  have haccepts : Path.rechargeCreem.Accepts o :=
    ⟨fun _ hp => Option.some.inj hp ▸ hprovider, .inl hstatus⟩
  exact .of_ok hrow haccepts trivial hincrease rfl rfl rfl

theorem rechargeDollarsTx_ok {provider : PaymentProvider} (hpath : path.provider? = some provider)
    (hquota : path.quota quotaPerUnit = amountQuota quotaPerUnit)
    (hgranted : ∀ o, path.Granted quotaPerUnit o)
    (hok : rechargeDollarsTx quotaPerUnit now provider path tradeNo s = .ok r) :
    Settles quotaPerUnit path now s r.2 := by
  simp only [rechargeDollarsTx, bind_ok, fetch_ok, ensure_ok] at hok
  obtain ⟨o, _, ⟨_, hrow, rfl, rfl⟩, _, _, ⟨hprovider, -, rfl⟩, hok⟩ := hok
  split at hok
  · left
    rw [pure_ok.mp hok]
  simp only [bind_ok, ensure_ok] at hok
  obtain ⟨_, _, ⟨hstatus, -, rfl⟩, _, _, ⟨-, -, rfl⟩, _, _, ⟨-, rfl⟩, hincrease⟩ := hok
  rw [← hquota] at hincrease
  have haccepts : path.Accepts o :=
    ⟨fun _ hp => Option.some.inj (hpath.symm.trans hp) ▸ hprovider, .inl hstatus⟩
  exact .of_ok hrow haccepts (hgranted o) hincrease rfl rfl rfl

theorem binancePayQuota_ok {quota : Int} (h : binancePayQuota quotaPerUnit o = .ok quota) :
    quota = (quotaFromDecimalChecked (o.amount * quotaPerUnit)).1 ∧ 0 < quota ∧
      (quotaFromDecimalChecked (o.amount * quotaPerUnit)).2 = none := by
  unfold binancePayQuota at h
  split at h
  · cases h
  rename_i hq
  split at h
  · cases h
  · cases h
    rw [hq]
    exact ⟨rfl, by omega, rfl⟩

theorem rechargeBinancePayTx_ok {txn : BinancePayTransaction} {manual : Bool}
    (hpath : path = if manual then .rechargeBinancePayManual else .rechargeBinancePay)
    (hok : rechargeBinancePayTx quotaPerUnit now path tradeNo txn manual s = .ok r) :
    Settles quotaPerUnit path now s r.2 := by
  simp only [rechargeBinancePayTx, bind_ok, fetch_ok, ensure_ok] at hok
  obtain ⟨o, _, ⟨_, hrow, rfl, rfl⟩, _, _, ⟨hprovider, -, rfl⟩, hok⟩ := hok
  split at hok
  · left
    rw [pure_ok.mp hok]
  simp only [bind_ok, ensure_ok, answer_ok, writeSome_ok, Option.map_eq_some_iff] at hok
  obtain ⟨_, _, ⟨hstatus, -, rfl⟩, _, _, ⟨-, rfl⟩, _, _, ⟨-, -, rfl⟩, quota, _,
    ⟨_, hquota, rfl, rfl⟩, _, _, ⟨_, ⟨ledger, -, rfl⟩, -, rfl⟩, _, _, ⟨-, rfl⟩, hincrease⟩ := hok
  obtain ⟨hworth, -, -⟩ := binancePayQuota_ok hquota
  have hsame : path.provider? = some .binancePay ∧ path.quota quotaPerUnit o = quota ∧
      path.Granted quotaPerUnit o := by
    rw [hpath, hworth]
    split <;> exact ⟨rfl, rfl, quota, hquota⟩
  rw [← hsame.2.1] at hincrease
  have haccepts : path.Accepts o :=
    ⟨fun _ hp => Option.some.inj (hsame.1.symm.trans hp) ▸ hprovider, hstatus.imp id
      (fun hm => ⟨by rw [hpath, if_pos hm.1], hm.2⟩)⟩
  exact .of_ok hrow haccepts hsame.2.2 hincrease rfl rfl rfl

theorem manualCompleteTopUpTx_ok (hok : manualCompleteTopUpTx quotaPerUnit now tradeNo s = .ok r) :
    Settles quotaPerUnit .manualCompleteTopUp now s r.2 := by
  simp only [manualCompleteTopUpTx, bind_ok, fetch_ok] at hok
  obtain ⟨o, _, ⟨_, hrow, rfl, rfl⟩, hok⟩ := hok
  split at hok
  · left
    rw [pure_ok.mp hok]
  simp only [bind_ok, ensure_ok] at hok
  obtain ⟨_, _, ⟨hstatus, -, rfl⟩, _, _, ⟨hquota, -, rfl⟩, _, _, ⟨-, rfl⟩, hincrease⟩ := hok
  have haccepts : Path.manualCompleteTopUp.Accepts o :=
    ⟨(fun _ hp => by cases hp), .inl hstatus⟩
  exact .of_ok hrow haccepts hquota hincrease rfl rfl rfl

end Ok

end UnifyConsole.Payment
