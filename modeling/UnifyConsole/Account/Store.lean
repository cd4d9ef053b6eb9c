import UnifyConsole.Lib.Table
import UnifyConsole.Lib.Tx

/-!
# Logins, wallets and billing entities

`model/billing_entity.go`: the quota a login spends lives in one row, its
tenant's when `tenant_id > 0` and its own otherwise.  `Wallet` names that row
and `Store.quota?` reads it.  Every statement of the file that touches a balance
is one `UPDATE` of the quota column of one wallet, so all of them are
`Store.setQuota` with a condition and an assignment, and the two lemmas
`quota?_setQuota` and `walletOf_setQuota` are all that is needed about them: the
statement acts on its own wallet, and it never moves a login to another one.

The cache calls of the source are left out.  They are made after the commit,
read by nothing here, and their results are discarded.
-/

namespace UnifyConsole.Account

open Lib
open Table Tx Option

/-! ### Rows -/

structure User where
  id : Int
  username : String
  displayName : String
  role : Int
  group : String
  quota : Int
  tenantId : Int

structure Tenant where
  id : Int
  name : String
  slug : String
  status : Int
  ownerId : Int
  quota : Int
  group : String

/-- The columns of `tokens` that billing reads. -/
structure Token where
  id : Int
  userId : Int
  key : String
  remainQuota : Int
  usedQuota : Int
  unlimitedQuota : Bool

structure CustomerWallet where
  group : String
  tenantId : Int
deriving DecidableEq

structure PartnershipCustomer where
  id : Int
  group : String
  isDefault : Bool
  tenantId : Int
  removedAt : Int

/-- The tables behind wallets. -/
structure Store where
  users : Table User.id := .empty
  tenants : Table Tenant.id := .empty
  tokens : Table Token.id := .empty
  customerWallets : Table CustomerWallet.group := .empty
  partnershipCustomers : Table PartnershipCustomer.id := .empty

inductive AccountError where
  | invalidUserId
  | recordNotFound
  | insufficientBillingQuota
  | negativeQuota
  | duplicateKey
  | idsRequired
  | operatorAccount
  | alreadyInAnotherPool
  | userIdEmpty
  | noUniqueSlug
  | database
deriving DecidableEq

/-! ### Billing entities -/

structure BillingEntity where
  userId : Int
  tenantId : Int
deriving DecidableEq

def BillingEntity.isTenant (e : BillingEntity) : Bool := decide (0 < e.tenantId)

/-- The row a billing entity stands for. -/
inductive Wallet where
  | user (id : Int)
  | tenant (id : Int)
deriving DecidableEq

def BillingEntity.wallet (e : BillingEntity) : Wallet :=
  if e.isTenant then .tenant e.tenantId else .user e.userId

namespace Store

def quota? (s : Store) : Wallet → Option Int
  | .user id => (s.users.find? id).map User.quota
  | .tenant id => (s.tenants.find? id).map Tenant.quota

/-- `getBillingQuotaFromDB`: a missing row reads as `0`. -/
def balance (s : Store) (w : Wallet) : Int := (s.quota? w).getD 0

/-- `UPDATE … SET quota = f(quota) WHERE id = … AND p(quota)`. -/
def setQuota (s : Store) (w : Wallet) (p : Int → Bool) (f : Int → Int) : Store :=
  match w with
  | .user id =>
    { s with
      users := s.users.update (fun u => decide (u.id = id) && p u.quota)
        (fun u => { u with quota := f u.quota }) (fun _ => rfl) }
  | .tenant id =>
    { s with
      tenants := s.tenants.update (fun t => decide (t.id = id) && p t.quota)
        (fun t => { t with quota := f t.quota }) (fun _ => rfl) }

def quotaMatched (s : Store) (w : Wallet) (p : Int → Bool) : Nat :=
  match w with
  | .user id => s.users.matched fun u => decide (u.id = id) && p u.quota
  | .tenant id => s.tenants.matched fun t => decide (t.id = id) && p t.quota

/-- The billing entity of a login, as `resolveBillingEntity` reads it. -/
def entityOf (s : Store) (userId : Int) : Option BillingEntity :=
  (s.users.find? userId).map fun u => ⟨u.id, u.tenantId⟩

def walletOf (s : Store) (userId : Int) : Option Wallet :=
  (s.entityOf userId).map BillingEntity.wallet

end Store

/-! ### The functions of `billing_entity.go` -/

abbrev AccountTx := Tx Store AccountError

def resolveBillingEntity (userId : Int) : AccountTx BillingEntity := do
  Tx.ensure (0 < userId) .invalidUserId
  Tx.fetch (fun s => s.entityOf userId) .recordNotFound

def getBillingQuotaFromDB (entity : BillingEntity) : AccountTx Int :=
  Tx.read fun s => s.balance entity.wallet

def adjustBillingQuotaWithTx (userId delta : Int) : AccountTx BillingEntity := do
  let entity ← resolveBillingEntity userId
  Tx.write (fun s => s.setQuota entity.wallet (fun _ => true) fun q => q + delta)
  pure entity

def tryDecreaseUserQuotaWithTx (userId quota : Int) : AccountTx BillingEntity := do
  let entity ← resolveBillingEntity userId
  Tx.writeSome (fun s =>
    if s.quotaMatched entity.wallet (fun q => decide (quota ≤ q)) = 1
    then some (s.setQuota entity.wallet (fun q => decide (quota ≤ q)) fun q => q - quota)
    else none) .insufficientBillingQuota
  pure entity

/-! ### Token quota -/

namespace Store

/-- `increaseTokenQuota` of `model/token.go`. -/
def increaseTokenQuota (s : Store) (id quota : Int) : Store :=
  { s with
    tokens := s.tokens.update (fun t => decide (t.id = id))
      (fun t => { t with remainQuota := t.remainQuota + quota, usedQuota := t.usedQuota - quota })
      (fun _ => rfl) }

/-- `decreaseTokenQuota` of `model/token.go`. -/
def decreaseTokenQuota (s : Store) (id quota : Int) : Store :=
  { s with
    tokens := s.tokens.update (fun t => decide (t.id = id))
      (fun t => { t with remainQuota := t.remainQuota - quota, usedQuota := t.usedQuota + quota })
      (fun _ => rfl) }

end Store

/-! ### What the statements do -/

namespace Store

variable {s s' : Store} {w w' : Wallet} {p : Int → Bool} {f : Int → Int}

/-- **A quota statement acts on its own wallet.** -/
theorem quota?_setQuota (s : Store) (w w' : Wallet) (p : Int → Bool) (f : Int → Int) :
    (s.setQuota w p f).quota? w' =
      (s.quota? w').map (fun q => if w' = w ∧ p q = true then f q else q) := by
  cases w with
  | user =>
    cases w' with
    | user id' =>
      simp only [setQuota, quota?, find?_update, map_map]
      cases hu : s.users.find? id' with
      | none => rfl
      | some =>
        have hid := key_of_find? hu
        simp only [map_some, Function.comp, hid, Wallet.user.injEq, Bool.and_eq_true,
          decide_eq_true_eq]
        split <;> rfl
    | tenant => simp [setQuota, quota?, Function.comp_def]
  | tenant =>
    cases w' with
    | user => simp [setQuota, quota?, Function.comp_def]
    | tenant id' =>
      simp only [setQuota, quota?, find?_update, map_map]
      cases ht : s.tenants.find? id' with
      | none => rfl
      | some =>
        have hid := key_of_find? ht
        simp only [map_some, Function.comp, hid, Wallet.tenant.injEq, Bool.and_eq_true,
          decide_eq_true_eq]
        split <;> rfl

/-- A quota statement leaves every login where it was. -/
@[simp] theorem entityOf_setQuota (s : Store) (w : Wallet) (p : Int → Bool) (f : Int → Int)
    (userId : Int) : (s.setQuota w p f).entityOf userId = s.entityOf userId := by
  cases w with
  | user =>
    simp only [setQuota, entityOf, find?_update, map_map]
    congr 1
    funext u
    simp only [Function.comp]
    split <;> rfl
  | tenant => rfl

@[simp] theorem walletOf_setQuota (s : Store) (w : Wallet) (p : Int → Bool) (f : Int → Int)
    (userId : Int) : (s.setQuota w p f).walletOf userId = s.walletOf userId := by
  rw [walletOf, entityOf_setQuota, walletOf]

@[simp] theorem isSome_quota?_setQuota (s : Store) (w w' : Wallet) (p : Int → Bool)
    (f : Int → Int) : ((s.setQuota w p f).quota? w').isSome = (s.quota? w').isSome := by
  rw [quota?_setQuota, isSome_map]

theorem quotaMatched_eq_one_iff :
    s.quotaMatched w p = 1 ↔ ∃ q, s.quota? w = some q ∧ p q = true := by
  cases w with
  | user id =>
    simp only [quotaMatched, quota?]
    rw [matched_key]
    cases s.users.find? id with
    | none => simp
    | some => simp
  | tenant id =>
    simp only [quotaMatched, quota?]
    rw [matched_key]
    cases s.tenants.find? id with
    | none => simp
    | some => simp

/-- The balances after `quota + delta` on a wallet that has a row. -/
theorem balance_add (h : (s.quota? w).isSome = true) (delta : Int) (w' : Wallet) :
    (s.setQuota w (fun _ => true) fun q => q + delta).balance w' =
      s.balance w' + if w' = w then delta else 0 := by
  rw [balance, quota?_setQuota, balance]
  by_cases he : w' = w
  · subst he
    obtain ⟨q, hq⟩ := isSome_iff_exists.mp h
    simp [hq]
  · simp [he]

/-- The same for any wallet of the statement, seen at a wallet that has a row. -/
theorem balance_add_of_row (h : (s.quota? w').isSome = true) (w : Wallet) (delta : Int) :
    (s.setQuota w (fun _ => true) fun q => q + delta).balance w' =
      s.balance w' + if w' = w then delta else 0 := by
  by_cases he : w' = w
  · subst he
    exact balance_add h delta w'
  · simp [balance, quota?_setQuota, he]

/-- The balances after `quota - n WHERE quota >= n` on a wallet that has the
funds. -/
theorem balance_take {n q : Int} (hq : s.quota? w = some q) (hn : n ≤ q) (w' : Wallet) :
    (s.setQuota w (fun q => decide (n ≤ q)) fun q => q - n).balance w' =
      s.balance w' - if w' = w then n else 0 := by
  rw [balance, quota?_setQuota, balance]
  by_cases he : w' = w
  · subst he
    simp [hq, hn]
  · simp [he]

end Store

variable {userId : Int} {s : Store} {r : BillingEntity × Store}

theorem resolveBillingEntity_ok :
    resolveBillingEntity userId s = .ok r ↔
      0 < userId ∧ ∃ entity, s.entityOf userId = some entity ∧ r = (entity, s) := by
  unfold resolveBillingEntity
  simp only [bind_ok, ensure_ok, fetch_ok, Prod.mk.injEq]
  constructor
  · rintro ⟨-, s', ⟨hu, -, rfl⟩, entity, he, rfl⟩
    exact ⟨hu, entity, he, rfl⟩
  · rintro ⟨hu, entity, he, rfl⟩
    exact ⟨(), s, ⟨hu, trivial, rfl⟩, entity, he, rfl⟩

/-- `adjustBillingQuotaWithTx` adds `delta` to the wallet the login has now, if that has a row. -/
theorem adjustBillingQuotaWithTx_ok {delta : Int} :
    adjustBillingQuotaWithTx userId delta s = .ok r ↔
      0 < userId ∧ ∃ entity, s.entityOf userId = some entity ∧
        r = (entity, s.setQuota entity.wallet (fun _ => true) fun q => q + delta) := by
  unfold adjustBillingQuotaWithTx
  simp only [bind_ok, write_ok, pure_ok, resolveBillingEntity_ok, Prod.mk.injEq]
  constructor
  · rintro ⟨e, s', ⟨hu, entity, he, rfl, rfl⟩, -, s'', ⟨-, rfl⟩, rfl⟩
    exact ⟨hu, e, he, rfl⟩
  · rintro ⟨hu, entity, he, rfl⟩
    exact ⟨entity, s, ⟨hu, entity, he, rfl, rfl⟩, (), _, ⟨trivial, rfl⟩, rfl⟩

/-- `tryDecreaseUserQuotaWithTx` takes `quota` from the wallet the login has now, or refuses. -/
theorem tryDecreaseUserQuotaWithTx_ok {quota : Int} :
    tryDecreaseUserQuotaWithTx userId quota s = .ok r ↔
      0 < userId ∧ ∃ entity, s.entityOf userId = some entity ∧
        (∃ q, s.quota? entity.wallet = some q ∧ quota ≤ q) ∧
        r = (entity, s.setQuota entity.wallet (fun q => decide (quota ≤ q)) fun q => q - quota) := by
  unfold tryDecreaseUserQuotaWithTx
  simp only [bind_ok, writeSome_ok, pure_ok, resolveBillingEntity_ok, Prod.mk.injEq]
  constructor
  · rintro ⟨e, s', ⟨hu, entity, he, rfl, rfl⟩, -, s'', ⟨s₁, hs, -, rfl⟩, rfl⟩
    rw [ite_none_right_eq_some, Store.quotaMatched_eq_one_iff, some.injEq] at hs
    obtain ⟨⟨q, hq, hle⟩, rfl⟩ := hs
    exact ⟨hu, e, he, ⟨q, hq, by simpa using hle⟩, rfl⟩
  · rintro ⟨hu, entity, he, ⟨q, hq, hle⟩, rfl⟩
    refine ⟨entity, s, ⟨hu, entity, he, rfl, rfl⟩, (), _, ⟨_, ?_, trivial, rfl⟩, rfl⟩
    rw [if_pos (Store.quotaMatched_eq_one_iff.mpr ⟨q, hq, by simpa using hle⟩)]

end UnifyConsole.Account
