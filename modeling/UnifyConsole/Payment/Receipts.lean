import Mathlib
import UnifyConsole.Payment.Once

/-!
# Receipts

`model/settlement_payments.go` reads the completed orders of a window of time and says
what each of them credited.  It restates, in one table by provider, what the functions
that complete orders do, and it relies on the time of completion that they write.

`receipts_agree` compares the two for every function that completes an order, and for the
adjustments that an operator makes by hand (`model/operator_grant.go`).  They agree, except
that `EpayNotify` writes no time, `ManualCompleteTopUp` takes the quota units of a Creem
order or of an adjustment for dollars, Binance Pay rounds half up, and an adjustment that
overrides a balance is recorded with the balance of an earlier moment.
-/

namespace UnifyConsole.Payment

open Lib Account
open Billing (truncate roundDecimal saturateQuota quotaFromDecimalChecked)
open Prog Table Tx

/-! ### The receipts -/

/-- `creditedQuota`: the quota that an order credited. -/
def creditedQuota (quotaPerUnit : ℚ) (provider : PaymentProvider) (amount : Int) (money : ℚ) : ℚ :=
  match provider with
  | .stripe => money * quotaPerUnit
  | .creem => amount
  | .admin => amount
  | .binancePay => amount * quotaPerUnit
  | _ => amount * quotaPerUnit

def creditedUSD (quotaPerUnit : ℚ) (provider : PaymentProvider) (amount : Int) (money : ℚ) : ℚ :=
  if quotaPerUnit = 0 then 0
  else creditedQuota quotaPerUnit provider amount money / quotaPerUnit

structure TopUpScanRow where
  userId : Int
  customerGroup : String
  paymentProvider : PaymentProvider
  amount : Int
  money : ℚ

/-- The orders completed in the window from `start` to before `stop`. -/
def Db.completedBetween (s : Db) (start stop : Int) : List TopUp :=
  s.topUps.rows.filter fun o => decide (o.status = .success) && decide (start ≤ o.completeTime) &&
    decide (o.completeTime < stop)

/-- The order is among those returned for the window. -/
def Db.Returns (s : Db) (t : String) (start stop : Int) : Prop :=
  ∃ o ∈ s.completedBetween start stop, o.tradeNo = t

instance (s : Db) (t : String) (start stop : Int) : Decidable (s.Returns t start stop) :=
  inferInstanceAs (Decidable (∃ o ∈ s.completedBetween start stop, o.tradeNo = t))

variable {s : Db} {t : String}

theorem Db.returns_iff {start stop : Int} : s.Returns t start stop ↔
    ∃ o, s.topUps.find? t = some o ∧ o.status = .success ∧ start ≤ o.completeTime ∧
      o.completeTime < stop := by
  constructor
  · rintro ⟨o, ho, rfl⟩
    obtain ⟨hmem, hcond⟩ := List.mem_filter.mp ho
    simp only [Bool.and_eq_true, decide_eq_true_eq, and_assoc] at hcond
    exact ⟨o, find?_eq_some_iff.mpr ⟨hmem, rfl⟩, hcond⟩
  · rintro ⟨o, hrow, hcond⟩
    refine ⟨o, List.mem_filter.mpr ⟨mem_of_find? hrow, ?_⟩, key_of_find? hrow⟩
    simpa only [Bool.and_eq_true, decide_eq_true_eq, and_assoc] using hcond

/-! ### Windows -/

/-- Consecutive half-open windows that cover all of time. -/
structure Windows where
  bound : ℤ → Int
  mono : Monotone bound
  covers : ∀ x, ∃ i, bound i ≤ x ∧ x < bound (i + 1)

namespace Windows

def Contains (W : Windows) (i : ℤ) (x : Int) : Prop := W.bound i ≤ x ∧ x < W.bound (i + 1)

/-- A moment lies in one window only. -/
theorem contains_unique (W : Windows) {i j : ℤ} {x : Int} (hi : W.Contains i x)
    (hj : W.Contains j x) : i = j := by
  rcases lt_trichotomy i j with h | h | h
  · have := W.mono (show i + 1 ≤ j by omega)
    exact absurd (lt_of_lt_of_le hi.2 this) (not_lt.mpr hj.1)
  · exact h
  · have := W.mono (show j + 1 ≤ i by omega)
    exact absurd (lt_of_lt_of_le hj.2 this) (not_lt.mpr hi.1)

def seconds : Windows := ⟨id, monotone_id, fun x => ⟨x, le_refl x, Int.lt_succ x⟩⟩

end Windows

/-- For every partition of time, the order is returned for the one window that contains `now`. -/
def Db.ReturnedAt (s : Db) (t : String) (now : Int) : Prop :=
  ∀ W : Windows, ∃ i, W.Contains i now ∧
    ∀ j, s.Returns t (W.bound j) (W.bound (j + 1)) ↔ j = i

variable {o : TopUp}

/-- **The time of completion decides the window.** -/
theorem Db.returnedAt_iff (hrow : s.topUps.find? t = some o) {now : Int} :
    s.ReturnedAt t now ↔ o.status = .success ∧ o.completeTime = now := by
  have hreturns : ∀ start stop, s.Returns t start stop ↔
      o.status = .success ∧ start ≤ o.completeTime ∧ o.completeTime < stop := by
    intro start stop
    rw [Db.returns_iff]
    constructor
    · rintro ⟨x, hx, h⟩
      rw [hrow] at hx
      cases hx
      exact h
    · exact fun h => ⟨o, hrow, h⟩
  constructor
  · intro h
    obtain ⟨i, hi, honly⟩ := h Windows.seconds
    obtain ⟨hstatus, hle, hlt⟩ := (hreturns _ _).mp ((honly i).mpr rfl)
    refine ⟨hstatus, ?_⟩
    have hi1 : i ≤ now := hi.1
    have hi2 : now < i + 1 := hi.2
    have hle' : i ≤ o.completeTime := hle
    have hlt' : o.completeTime < i + 1 := hlt
    omega
  rintro ⟨hstatus, htime⟩ W
  obtain ⟨i, hi⟩ := W.covers now
  refine ⟨i, hi, fun j => ?_⟩
  rw [hreturns, htime]
  constructor
  · rintro ⟨-, hj⟩
    exact W.contains_unique hj hi
  · rintro rfl
    exact ⟨hstatus, hi⟩

/-- The ledger agrees with what the step did for the order at the moment `now`. -/
structure Receipted (quotaPerUnit : ℚ) (s s' : Db) (o : TopUp) (now : Int) : Prop where
  quota : ∀ w, s.accounts.walletOf o.userId = some w → s'.accounts.balance w =
    s.accounts.balance w + truncate (creditedQuota quotaPerUnit o.paymentProvider o.amount o.money)
  window : s'.ReturnedAt o.tradeNo now

/-! ### What every run keeps -/

/-- Pending orders have no time of completion, and the wallets of logins exist. -/
structure Db.Regular (s : Db) : Prop where
  unstamped : ∀ o ∈ s.topUps.rows, o.status = .pending → o.completeTime = 0
  wallets : ∀ u w, s.accounts.walletOf u = some w → (s.accounts.quota? w).isSome = true

namespace Db.Regular

variable {s s' : Db}

theorem pending (h : s.Regular) (hrow : s.topUps.find? t = some o) (hstatus : o.status = .pending) :
    o.completeTime = 0 :=
  h.unstamped o (mem_of_find? hrow) hstatus

/-- An order is written over by a row that is not pending. -/
theorem save (h : s.Regular) (hstatus : o.status ≠ .pending) : (s.save o).Regular := by
  refine ⟨fun x hx hpending => ?_, h.wallets⟩
  have hrow := find?_eq_some_iff.mpr ⟨hx, rfl⟩
  by_cases ht : o.tradeNo = x.tradeNo
  · cases hold : s.topUps.find? x.tradeNo with
    | none =>
      rw [Db.save, Db.find?_store, TopUp.beforeSave_tradeNo, if_pos ht.symm, hold] at hrow
      cases hrow
    | some =>
      rw [Db.find?_save hold ht] at hrow
      cases hrow
      rw [TopUp.beforeSave_status] at hpending
      exact absurd hpending hstatus
  · rw [Db.find?_save_of_ne ht] at hrow
    exact h.pending hrow hpending

theorem credit (h : s.Regular) {w : Wallet} {q : Int} (htopUps : s'.topUps = s.topUps)
    (haccounts : s'.accounts = s.accounts.setQuota w (fun _ => true) fun x => x + q) :
    s'.Regular := by
  refine ⟨by rw [htopUps]; exact h.unstamped, fun u v hv => ?_⟩
  rw [haccounts, Store.walletOf_setQuota] at hv
  rw [haccounts, Store.isSome_quota?_setQuota]
  exact h.wallets u v hv

end Db.Regular

variable {quotaPerUnit : ℚ} {c : PaymentCall} {s' : Db}

theorem OrderMove.regular {h h' : Hand} (hm : OrderMove quotaPerUnit c h s h' s') (hs : s.Regular) :
    s'.Regular := by
  cases hm with
  | refl => exact hs
  | locks => exact ⟨hs.unstamped, hs.wallets⟩
  | read => exact hs
  | place hnew hstatus htime =>
    refine ⟨fun x hx hpending => ?_, hs.wallets⟩
    rcases (mem_insert? hnew).mp hx with hx | rfl
    · exact hs.unstamped x hx hpending
    · exact htime
  | close hrow hstatus hclosed =>
    refine hs.save ?_
    rcases hclosed with rfl | rfl <;> exact nofun
  | expire =>
    refine ⟨fun x hx hpending => ?_, hs.wallets⟩
    rw [mem_update] at hx
    obtain ⟨y, hy, rfl⟩ := hx
    split at hpending
    · cases hpending
    · rename_i hdue
      rw [if_neg hdue]
      exact hs.unstamped y hy hpending
  | @complete _ _ _ _ now o _ hdone =>
    have hsaved : (s.save (o.completed now)).Regular := hs.save nofun
    exact hsaved.credit hdone.topUps hdone.accounts
  | fail | mark => exact hs.save nofun
  | add => exact hs.credit rfl rfl

/-- Every run keeps the state regular. -/
theorem regular_of_reach {s₀ : Db} (h₀ : s₀.Regular) {p : Pool PaymentCall Db Answer}
    (hr : Pool.Reach (PaymentCall.prog quotaPerUnit) (Pool.start s₀) p) : p.state.Regular :=
  Pool.reach_noted (G := OrderMove quotaPerUnit) (F := fun _ _ _ => True)
    (fun c _ _ => ⟨.empty, keeps_prog quotaPerUnit c, trivial⟩)
    (fun _ _ _ _ _ hs _ _ hm => ⟨hm.regular hs, trivial, fun _ _ _ => trivial⟩) hr h₀

/-! ### A call run alone -/

/-- The call, run to its end with nothing else running, completes the order. -/
structure CompletesAlone (quotaPerUnit : ℚ) (c : PaymentCall) (path : Path) (s s' : Db)
    (o : TopUp) : Prop where
  path : c.path? = some path
  run : ((c.prog quotaPerUnit).exec s).2 = s'
  row : s.topUps.find? o.tradeNo = some o
  before : o.status ≠ .success
  after : ∃ o', s'.topUps.find? o.tradeNo = some o' ∧ o'.status = .success

/-- Run alone, the program leaves the orders as they are or completes one of them. -/
def Alone {α : Type} (quotaPerUnit : ℚ) (path : Path) (now : Int) (p : TopUpProg α) : Prop :=
  ∀ s, (p.exec s).2.topUps = s.topUps ∨ ∃ o entity, path.Granted quotaPerUnit o ∧
    Completes quotaPerUnit path now o entity s (p.exec s).2

section Alone

variable {α β : Type} {quotaPerUnit : ℚ} {path : Path} {now : Int}

theorem alone_pure (a : α) : Alone quotaPerUnit path now (pure a : TopUpProg α) := fun _ => .inl rfl

variable {p : TopUpProg α}

theorem alone_map (f : α → β) (hp : Alone quotaPerUnit path now p) :
    Alone quotaPerUnit path now (f <$> p) := by
  intro s
  rw [exec_map]
  exact hp s

/-- A transaction went through with its body, or did nothing. -/
theorem exec_transaction (commits : Bool) (x : TopUpTx α) (s : Db) :
    (∃ a s', x s = .ok (a, s') ∧ (transaction commits x).exec s = (.ok a, s')) ∨
      ∃ e, (transaction commits x).exec s = (.error e, s) := by
  rcases run_cases commits .database x s with ⟨a, hok, hans⟩ | ⟨hs, e, hans⟩
  · exact .inl ⟨a, _, hok, Prod.ext hans rfl⟩
  · exact .inr ⟨e, Prod.ext hans hs⟩

variable {commits : Bool}

theorem alone_transaction {x : TopUpTx α}
    (hx : ∀ s r, x s = .ok r → Settles quotaPerUnit path now s r.2) :
    Alone quotaPerUnit path now (transaction commits x) := by
  intro s
  rcases exec_transaction commits x s with ⟨a, s', hok, hexec⟩ | ⟨e, hexec⟩
  · rw [hexec]
    exact (hx s _ hok).imp (congrArg Db.topUps) id
  · rw [hexec]
    exact .inl rfl

variable {server : Nat} {tradeNo : String}

/-- A program that gets the mutex. -/
theorem exec_underLock {waiting : α} (hfree : (server, tradeNo) ∉ s.orderLocks) :
    (underLock server tradeNo waiting p).exec s =
      let r := p.exec { s with orderLocks := (server, tradeNo) :: s.orderLocks }
      (r.1, { r.2 with orderLocks := r.2.orderLocks.erase (server, tradeNo) }) := by
  simp [underLock, lockOrder, unlockOrder, hfree]

/-- The mutex is no part of what a completion is about. -/
theorem alone_underLock {waiting : α} (hp : Alone quotaPerUnit path now p) :
    Alone quotaPerUnit path now (underLock server tradeNo waiting p) := by
  intro s
  by_cases hheld : (server, tradeNo) ∈ s.orderLocks
  · left
    simp [underLock, lockOrder, hheld]
  rw [exec_underLock hheld]
  rcases hp { s with orderLocks := (server, tradeNo) :: s.orderLocks } with
    hsame | ⟨o, entity, hgranted, hdone⟩
  · exact .inl hsame
  · exact .inr ⟨o, entity, hgranted, hdone.row, hdone.accepts, hdone.payer, hdone.topUps,
      hdone.accounts, hdone.credits⟩

/-- **Every completion but that of epay is one transaction.** -/
theorem CompletesOnce.alone (h : CompletesOnce quotaPerUnit path now p) :
    Alone quotaPerUnit path now p := by
  induction h with
  | pure a => exact alone_pure a
  | map f _ ih => exact alone_map f ih
  | look f _ ih =>
    intro s
    rw [exec_bind, exec_look]
    exact ih _ s
  | underLock _ ih => exact alone_underLock ih
  | transaction hx => exact alone_transaction hx

end Alone

/-- The orders are as they were. -/
def SameOrders (s s' : Db) : Prop := s'.topUps = s.topUps

/-- Adding quota leaves the orders alone. -/
theorem sameOrders_increaseUserQuota (path : Path) (o : TopUp) (quota : Int) (faults : EpayFaults)
    (s : Db) : SameOrders s ((increaseUserQuota path o quota faults).exec s).2 := by
  have hwithin : (increaseUserQuota path o quota faults).Within SameOrders :=
    follows_increaseUserQuota (fun _ => rfl) fun _ _ => ⟨(), rfl⟩
  exact hwithin.exec (R := SameOrders) (fun _ => rfl) (fun _ _ _ h h' => Eq.trans h' h) s

/-- `EpayNotify` run alone: it leaves the orders as they are, or marks a pending one. -/
def MarksOnly (s s' : Db) : Prop :=
  s'.topUps = s.topUps ∨ ∃ o method, s.topUps.find? o.tradeNo = some o ∧ o.status = .pending ∧
    s'.topUps = (s.save { o with paymentMethod := method, status := .success }).topUps

theorem marksOnly_epayComplete (quotaPerUnit : ℚ) (info : VerifyInfo) (faults : EpayFaults)
    (s : Db) : MarksOnly s ((epayComplete quotaPerUnit info faults).exec s).2 := by
  unfold epayComplete
  rw [exec_bind, exec_look]
  cases faults.reads with
  | false => exact .inl rfl
  | true =>
    cases hrow : s.topUps.find? info.serviceTradeNo with
    | none => exact .inl rfl
    | some o =>
      rw [if_pos rfl]
      dsimp only
      split
      · exact .inl rfl
      split
      · exact .inl rfl
      rename_i hstatus
      rw [← key_of_find? hrow] at hrow
      cases hsaves : faults.saves with
      | false => exact .inl rfl
      | true =>
        refine .inr ⟨o, info.type, hrow, not_not.mp hstatus, ?_⟩
        show ((increaseUserQuota .epayNotify o (amountQuota quotaPerUnit o) faults >>=
          fun _ => pure ()).exec _).2.topUps = _
        rw [exec_bind]
        exact sameOrders_increaseUserQuota .epayNotify o (amountQuota quotaPerUnit o) faults _

theorem marksOnly_epayNotify (quotaPerUnit : ℚ) (server : Nat) (req : EpayRequest)
    (faults : EpayFaults) (s : Db) :
    MarksOnly s ((epayNotify quotaPerUnit server req faults).exec s).2 := by
  unfold epayNotify
  split
  · split
    · exact .inl rfl
    rename_i info _
    split
    · split
      · rw [exec_bind]
        by_cases hheld : (server, info.serviceTradeNo) ∈ s.orderLocks
        · left
          simp [underLock, lockOrder, hheld]
        · rw [exec_underLock hheld]
          exact marksOnly_epayComplete quotaPerUnit info faults
            { s with orderLocks := (server, info.serviceTradeNo) :: s.orderLocks }
      · exact .inl rfl
    · exact .inl rfl
  · exact .inl rfl

/-! ### The two tables -/

/-- When the table of the receipts agrees with what a function adds. -/
def Path.Agrees (quotaPerUnit : ℚ) (o : TopUp) : Path → Prop
  | .epayNotify => False
  | .rechargeBinancePay => Int.fract (o.amount * quotaPerUnit) < 1 / 2
  | .rechargeBinancePayManual => Int.fract (o.amount * quotaPerUnit) < 1 / 2
  | .manualCompleteTopUp => o.paymentProvider = .creem ∨ o.paymentProvider = .admin →
      0 < o.amount ∧ 1 ≤ quotaPerUnit ∧ quotaPerUnit < 1 + 1 / o.amount
  | _ => True

section Numbers

variable {quotaPerUnit : ℚ} {o : TopUp}

theorem truncate_intCast (n : Int) : truncate (n : ℚ) = n := by
  unfold truncate
  split
  · exact Int.floor_intCast n
  · rw [← Int.cast_neg, Int.floor_intCast, neg_neg]

variable {x : ℚ}

theorem pos_of_truncate_pos (h : 0 < truncate x) : 0 ≤ x ∧ truncate x = ⌊x⌋ := by
  unfold truncate at h ⊢
  split at h
  · rename_i hx
    rw [if_pos hx]
    exact ⟨hx, rfl⟩
  · rename_i hx
    have : 0 ≤ ⌊-x⌋ := Int.floor_nonneg.mpr (by linarith)
    omega

/-- Dollars taken for quota units agree with them only at a price of about one. -/
theorem truncate_mul_eq_iff {n : Int} (h : 0 < truncate (n * quotaPerUnit)) :
    truncate (n * quotaPerUnit) = n ↔
      0 < n ∧ 1 ≤ quotaPerUnit ∧ quotaPerUnit < 1 + 1 / n := by
  obtain ⟨hpos, hfloor⟩ := pos_of_truncate_pos h
  constructor
  · intro heq
    have hn : 0 < n := heq ▸ h
    have hn' : (0 : ℚ) < n := by exact_mod_cast hn
    rw [hfloor, Int.floor_eq_iff] at heq
    refine ⟨hn, ?_, ?_⟩
    · have := heq.1
      nlinarith
    · have hlt := heq.2
      rw [show (1 : ℚ) + 1 / n = (n + 1) / n by field_simp, lt_div_iff₀ hn']
      linarith
  · rintro ⟨hn, hge, hlt⟩
    have hn' : (0 : ℚ) < n := by exact_mod_cast hn
    rw [hfloor, Int.floor_eq_iff]
    refine ⟨by nlinarith, ?_⟩
    rw [show (1 : ℚ) + 1 / n = (n + 1) / n by field_simp, lt_div_iff₀ hn'] at hlt
    linarith

/-- Rounding half up agrees with cutting off below a half. -/
theorem round_eq_truncate_iff (h : 0 < roundDecimal x) :
    roundDecimal x = truncate x ↔ Int.fract x < 1 / 2 := by
  have hx : 0 ≤ x := by
    by_contra hneg
    rw [roundDecimal, if_neg hneg] at h
    have : 0 ≤ ⌊-x + 1 / 2⌋ := Int.floor_nonneg.mpr (by linarith)
    omega
  rw [roundDecimal, if_pos hx, truncate, if_pos hx, Int.floor_eq_iff, Int.fract]
  constructor
  · rintro ⟨-, hlt⟩
    linarith
  · intro hlt
    have := Int.floor_le x
    constructor <;> linarith

/-- A quota that was not clamped is the rounded amount. -/
theorem quota_of_not_clamped (h : (quotaFromDecimalChecked x).2 = none) :
    (quotaFromDecimalChecked x).1 = roundDecimal x := by
  unfold quotaFromDecimalChecked saturateQuota at h ⊢
  split at h
  · cases h
  rename_i hmax
  split at h
  · cases h
  · rename_i hmin
    rw [if_neg hmax, if_neg hmin]

theorem binancePay_agrees (h : ∃ quota, binancePayQuota quotaPerUnit o = .ok quota) :
    (quotaFromDecimalChecked (o.amount * quotaPerUnit)).1 =
      truncate (o.amount * quotaPerUnit) ↔ Int.fract (o.amount * quotaPerUnit) < 1 / 2 := by
  obtain ⟨quota, hquota⟩ := h
  obtain ⟨rfl, hpos, hclamp⟩ := binancePayQuota_ok hquota
  have hround := quota_of_not_clamped hclamp
  rw [hround] at hpos ⊢
  exact round_eq_truncate_iff hpos

/-- **What a function adds and what the receipts say**, by provider. -/
theorem Path.quota_eq_credited_iff {path : Path} (hepay : path ≠ .epayNotify)
    (haccepts : path.Accepts o) (hgranted : path.Granted quotaPerUnit o) :
    path.quota quotaPerUnit o =
      truncate (creditedQuota quotaPerUnit o.paymentProvider o.amount o.money) ↔
      path.Agrees quotaPerUnit o := by
  have hprovider := haccepts.provider
  cases path with
  | epayNotify => exact absurd rfl hepay
  | recharge | rechargeWaffo | rechargeWaffoPancake =>
    rw [hprovider _ rfl]
    exact iff_of_true rfl trivial
  | rechargeCreem =>
    rw [hprovider _ rfl]
    exact iff_of_true (truncate_intCast _).symm trivial
  | rechargeBinancePay | rechargeBinancePayManual =>
    rw [hprovider _ rfl]
    exact binancePay_agrees hgranted
  | manualCompleteTopUp =>
    -- the quota units of Creem and of adjustments are where the two tables differ
    have hunits : o.paymentProvider = .creem ∨ o.paymentProvider = .admin →
        (Path.quota quotaPerUnit .manualCompleteTopUp o =
          truncate (creditedQuota quotaPerUnit o.paymentProvider o.amount o.money) ↔
        0 < o.amount ∧ 1 ≤ quotaPerUnit ∧ quotaPerUnit < 1 + 1 / o.amount) := by
      intro hp
      have hquota : manualQuota quotaPerUnit o = truncate (o.amount * quotaPerUnit) := by
        rcases hp with hp | hp <;> simp [manualQuota, hp, amountQuota]
      have hcredited : truncate (creditedQuota quotaPerUnit o.paymentProvider o.amount o.money) =
          o.amount := by
        rcases hp with hp | hp <;> rw [hp] <;> exact truncate_intCast _
      have hpos : 0 < truncate (o.amount * quotaPerUnit) := hquota ▸ hgranted
      rw [hcredited, Path.quota, hquota]
      exact truncate_mul_eq_iff hpos
    by_cases hp : o.paymentProvider = .creem ∨ o.paymentProvider = .admin
    · rw [hunits hp]
      exact ⟨fun h _ => h, fun h => h hp⟩
    refine iff_of_true ?_ fun h => absurd h hp
    cases hprov : o.paymentProvider <;>
      simp_all [Path.quota, manualQuota, amountQuota, moneyQuota, creditedQuota]

end Numbers

/-! ### Completed orders -/

/-- **A completed order and its receipt.** -/
theorem CompletesAlone.receipted_iff {path : Path} (h : CompletesAlone quotaPerUnit c path s s' o)
    (hs : s.Regular) (hnow : 0 < c.moment) :
    Receipted quotaPerUnit s s' o c.moment ↔ path.Agrees quotaPerUnit o := by
  obtain ⟨o', hrow', hsuccess⟩ := h.after
  have hunchanged : s'.topUps ≠ s.topUps := by
    intro heq
    rw [heq, h.row] at hrow'
    cases hrow'
    exact h.before hsuccess
  by_cases hepay : path = .epayNotify
  · subst hepay
    refine iff_of_false (fun hreceipt => ?_) fun h => h
    -- the marked row has the time of the pending one, which is none
    have hmarks : MarksOnly s s' := by
      have hpath := h.path
      have hrun := h.run
      cases c with
      | epayNotify server req now faults =>
        rw [PaymentCall.prog, exec_map] at hrun
        rw [← hrun]
        exact marksOnly_epayNotify quotaPerUnit server req faults s
      | _ => cases hpath
    rcases hmarks with hsame | ⟨x, method, hrow, hpending, htopUps⟩
    · exact hunchanged hsame
    have htime : o'.completeTime = 0 := by
      rw [htopUps] at hrow'
      let marked : TopUp := { x with paymentMethod := method, status := .success }
      by_cases ht : x.tradeNo = o.tradeNo
      · have hmarked := Db.find?_save (o := marked) h.row ht
        cases hmarked.symm.trans hrow'
        rw [TopUp.beforeSave_completeTime]
        have htime : x.completeTime = 0 := hs.pending hrow hpending
        exact htime
      · have hother := Db.find?_save_of_ne (s := s) (o := marked) ht
        cases (hother.trans h.row).symm.trans hrow'
        exact absurd hsuccess h.before
    have hnow' := ((Db.returnedAt_iff hrow').mp hreceipt.window).2
    omega
  rcases (completesOnce_prog h.path hepay).alone s with hsame | ⟨x, entity, hgranted, hdone⟩
  · rw [h.run] at hsame
    exact absurd hsame hunchanged
  rw [h.run] at hdone
  -- the order that was completed is this one
  obtain rfl : x = o := by
    by_cases ht : x.tradeNo = o.tradeNo
    · have hrow := hdone.row
      rw [ht, h.row] at hrow
      exact (Option.some.inj hrow).symm
    · rw [hdone.find?_of_ne ht, h.row] at hrow'
      cases hrow'
      exact absurd hsuccess h.before
  have hwallet : s.accounts.walletOf x.userId = some entity.wallet := by
    rw [Store.walletOf, hdone.payer]
    rfl
  have hwindow : s'.ReturnedAt x.tradeNo c.moment := by
    rw [Db.returnedAt_iff hdone.find?, TopUp.beforeSave_status, TopUp.beforeSave_completeTime]
    exact ⟨rfl, rfl⟩
  have hbalance : s'.accounts.balance entity.wallet =
      s.accounts.balance entity.wallet + path.quota quotaPerUnit x := by
    rw [hdone.accounts, Store.balance_add (hs.wallets _ _ hwallet), if_pos rfl]
  rw [← Path.quota_eq_credited_iff hepay hdone.accepts hgranted]
  constructor
  · intro hreceipt
    have := hreceipt.quota _ hwallet
    omega
  intro hquota
  refine ⟨fun w hw => ?_, hwindow⟩
  rw [hwallet] at hw
  cases hw
  rw [hbalance, hquota]

/-! ### Adjustments by an operator -/

inductive AdjustMode where
  | add
  | subtract
  | override
  | other (mode : String)
deriving DecidableEq

/-- A call of `AdjustQuotaByOperator`; `meanwhile` is what others do to the wallets after it read
the balance. -/
structure Adjustment where
  userId : Int
  mode : AdjustMode
  value : Int
  tradeNo : String
  createdAt : Int
  markedAt : Int
  meanwhile : Store → Store
  reads : Bool
  inserts : Bool
  applies : Bool
  marks : Bool

namespace Adjustment

variable (a : Adjustment)

def delta : TopUpProg (Except TopUpError Int) :=
  match a.mode with
  | .add => pure (.ok a.value)
  | .subtract => pure (.ok (-a.value))
  | .override => do
    let current ← transaction a.reads (account (getUserQuota a.userId))
    pure (current.map fun current => a.value - current)
  | .other _ => pure (.error .unknownAdjustmentMode)

def entry (delta : Int) : TopUp :=
  ⟨a.tradeNo, a.userId, 0, "", delta, 0, "admin", .admin, a.createdAt, 0, .pending⟩

def apply : AccountTx Unit :=
  match a.mode with
  | .add => Account.increaseUserQuota a.userId a.value
  | .subtract => Account.decreaseUserQuota a.userId a.value
  | .override => setUserQuota a.userId a.value
  | .other _ => pure ()

def interrupted (s : Db) : Db := { s with accounts := a.meanwhile s.accounts }

end Adjustment

/-- `UPDATE top_ups SET status = …, complete_time = … WHERE id = …`. -/
def Db.markEntry (s : Db) (tradeNo : String) (status : TopUpStatus) (now : Int) : Db :=
  { s with
    topUps := s.topUps.update (fun o => decide (o.tradeNo = tradeNo))
      (fun o => { o with status := status, completeTime := now }) (fun _ => rfl) }

def adjustQuotaByOperator (a : Adjustment) : TopUpProg (Except TopUpError Int) := do
  let delta ← a.delta
  Prog.atomic fun s => ((), a.interrupted s)
  match delta with
  | .error e => pure (.error e)
  | .ok delta =>
    if delta = 0 then pure (.ok 0)
    else do
      let inserted ← transaction a.inserts (insertTopUp (a.entry delta))
      match inserted with
      | .error e => pure (.error e)
      | .ok _ => do
        let applied ← transaction a.applies (account a.apply)
        let status := if applied.isOk then TopUpStatus.success else TopUpStatus.failed
        let _ ← transaction a.marks (Tx.write fun s => s.markEntry a.tradeNo status a.markedAt)
        pure (applied.map fun _ => delta)

/-- An adjustment that overrides the balance finds the balance that it read. -/
def Adjustment.Undisturbed (a : Adjustment) (s : Db) : Prop :=
  a.mode = .override → ∀ w w', s.accounts.walletOf a.userId = some w →
    (a.meanwhile s.accounts).walletOf a.userId = some w' →
    (a.meanwhile s.accounts).balance w' = s.accounts.balance w

namespace Adjustment

variable {a : Adjustment} {s s' : Db} {delta : Int}

def assign (a : Adjustment) (q : Int) : Int :=
  match a.mode with
  | .add => q + a.value
  | .subtract => q + -a.value
  | .override => a.value
  | .other _ => q

/-- What is recorded: the change that the statement makes to the balance that was read. -/
theorem exec_delta (a : Adjustment) (s : Db) : (a.delta.exec s).2 = s ∧
    ∀ delta, (a.delta.exec s).1 = .ok delta → (∀ mode, a.mode ≠ .other mode) ∧
      ∃ q, delta = a.assign q - q ∧ (a.mode = .override →
        ∃ w, s.accounts.walletOf a.userId = some w ∧ q = s.accounts.balance w) := by
  unfold Adjustment.delta Adjustment.assign
  cases hmode : a.mode with
  | add | subtract =>
    refine ⟨rfl, fun delta h => ⟨by simp, 0, ?_, by simp⟩⟩
    rw [← Except.ok.inj h]
    dsimp only
    omega
  | override =>
    rw [exec_bind]
    rcases exec_transaction a.reads (account (getUserQuota a.userId)) s with
      ⟨q, s', hok, hexec⟩ | ⟨e, hexec⟩
    · obtain ⟨q', accounts, hread, heq⟩ := zoom_ok.mp hok
      obtain ⟨rfl, rfl⟩ := Prod.mk.inj heq
      obtain ⟨rfl, -, entity, hentity, rfl⟩ := getUserQuota_ok hread
      rw [hexec]
      refine ⟨rfl, fun delta h => ⟨by simp, _, (Except.ok.inj h).symm,
        fun _ => ⟨entity.wallet, ?_, rfl⟩⟩⟩
      rw [Store.walletOf, hentity]
      rfl
    · rw [hexec]
      exact ⟨rfl, fun delta h => by cases h⟩
  | other => exact ⟨rfl, by simp⟩

/-- The statement acts on the wallet that the login has then. -/
theorem apply_ok {accounts : Store} {r : Unit × Store} (h : a.apply accounts = .ok r)
    (hmode : ∀ mode, a.mode ≠ .other mode) : ∃ w, accounts.walletOf a.userId = some w ∧
      r.2 = accounts.setQuota w (fun _ => true) a.assign := by
  unfold Adjustment.apply at h
  unfold Adjustment.assign
  cases hm : a.mode with
  | add | subtract =>
    simp only [hm, Account.increaseUserQuota, Account.decreaseUserQuota, bind_ok, ensure_ok] at h
    obtain ⟨_, _, ⟨-, -, rfl⟩, hmove⟩ := h
    exact moveUserQuota_ok hmove
  | override =>
    simp only [hm] at h
    exact setUserQuota_ok h
  | other mode => exact absurd hm (hmode mode)

/-- A relative statement changes every balance by the same, an override by what is missing. -/
theorem assign_sub_eq_iff (hmode : ∀ mode, a.mode ≠ .other mode) (q q₀ : Int) :
    a.assign q = q + (a.assign q₀ - q₀) ↔ (a.mode = .override → q = q₀) := by
  unfold Adjustment.assign
  cases hm : a.mode with
  | add | subtract => exact iff_of_true (by dsimp only; omega) (by simp)
  | override =>
    dsimp only
    constructor
    · intro h _
      omega
    · intro h
      have := h rfl
      omega
  | other mode => exact absurd hm (hmode mode)

/-- An adjustment that succeeds: its row was inserted, and marked unless that was refused. -/
theorem exec_ok (h : (adjustQuotaByOperator a).exec s = (.ok delta, s')) (hdelta : delta ≠ 0) :
    (a.delta.exec s).1 = .ok delta ∧ ∃ topUps accounts,
      s.topUps.insert? ((a.entry delta).beforeSave (a.meanwhile s.accounts)) = some topUps ∧
      a.apply (a.meanwhile s.accounts) = .ok ((), accounts) ∧ s'.accounts = accounts ∧
      s'.topUps = if a.marks then
        (({ s with topUps := topUps } : Db).markEntry a.tradeNo .success a.markedAt).topUps
      else topUps := by
  unfold adjustQuotaByOperator at h
  rw [exec_bind, (exec_delta a s).1, exec_bind, exec_atomic] at h
  split at h
  · cases h
  rename_i delta' hok
  split at h
  · obtain ⟨hd, -⟩ := Prod.mk.inj h
    exact absurd (Except.ok.inj hd).symm hdelta
  rw [exec_bind] at h
  rcases exec_transaction a.inserts (insertTopUp (a.entry delta')) (a.interrupted s) with
    ⟨o, s₁, hinsert, hexec⟩ | ⟨e, hexec⟩
  · rw [hexec] at h
    obtain ⟨topUps, hnew, heq⟩ := insertTopUp_ok hinsert
    obtain ⟨rfl, rfl⟩ := Prod.mk.inj heq
    rw [exec_bind] at h
    rcases exec_transaction a.applies (account a.apply) { a.interrupted s with topUps := topUps } with
      ⟨u, s₂, happly, hexec⟩ | ⟨e, hexec⟩
    · rw [hexec, exec_bind] at h
      obtain ⟨_, accounts, happlied, heq⟩ := zoom_ok.mp happly
      obtain ⟨rfl, rfl⟩ := Prod.mk.inj heq
      obtain ⟨hd, hs'⟩ := Prod.mk.inj h
      obtain rfl : delta' = delta := Except.ok.inj hd
      rw [← hs']
      exact ⟨hok, topUps, accounts, hnew, happlied, by cases a.marks <;> rfl,
        by cases a.marks <;> rfl⟩
    · rw [hexec, exec_bind] at h
      cases (Prod.mk.inj h).1
  · rw [hexec] at h
    cases (Prod.mk.inj h).1

/-- **An adjustment and its receipt.** -/
theorem receipted_iff (quotaPerUnit : ℚ)
    (h : (adjustQuotaByOperator a).exec s = (.ok delta, s')) (hdelta : delta ≠ 0)
    (hwallets : ∀ w, (a.meanwhile s.accounts).walletOf a.userId = some w →
      ((a.meanwhile s.accounts).quota? w).isSome = true) :
    Receipted quotaPerUnit (a.interrupted s) s' (a.entry delta) a.markedAt ↔
      a.marks = true ∧ a.Undisturbed s := by
  obtain ⟨hread, topUps, accounts, hnew, happly, rfl, htopUps⟩ := exec_ok h hdelta
  obtain ⟨hmode, q, rfl, hq⟩ := (exec_delta a s).2 delta hread
  obtain ⟨w, hw, haccounts⟩ := apply_ok happly hmode
  -- the balance moved by what was recorded unless it was overridden
  have hbalance : s'.accounts.balance w = a.assign ((a.meanwhile s.accounts).balance w) := by
    obtain ⟨x, hx⟩ := Option.isSome_iff_exists.mp (hwallets w hw)
    dsimp only at haccounts
    rw [haccounts, Store.balance, Store.quota?_setQuota, Store.balance, hx]
    simp
  have hquota : (∀ v, (a.interrupted s).accounts.walletOf a.userId = some v →
      s'.accounts.balance v = (a.interrupted s).accounts.balance v + truncate (creditedQuota
        quotaPerUnit .admin (a.assign q - q) 0)) ↔ a.Undisturbed s := by
    have hcredited : truncate (creditedQuota quotaPerUnit .admin (a.assign q - q) 0) =
        a.assign q - q := truncate_intCast _
    rw [hcredited]
    constructor
    · intro hmoved hoverride v v' hv hv'
      obtain rfl : w = v' := Option.some.inj (hw.symm.trans hv')
      obtain ⟨u, hu, rfl⟩ := hq hoverride
      obtain rfl : u = v := Option.some.inj (hu.symm.trans hv)
      exact (assign_sub_eq_iff hmode _ _).mp (hbalance ▸ hmoved w hw) hoverride
    intro hundisturbed v hv
    obtain rfl : w = v := Option.some.inj (hw.symm.trans hv)
    rw [hbalance]
    refine (assign_sub_eq_iff hmode _ _).mpr fun hoverride => ?_
    obtain ⟨u, hu, rfl⟩ := hq hoverride
    exact hundisturbed hoverride u w hu hw
  -- the row is returned for the moment at which it was marked
  have hwindow : s'.ReturnedAt a.tradeNo a.markedAt ↔ a.marks = true := by
    have hrow : topUps.find? a.tradeNo =
        some ((a.entry (a.assign q - q)).beforeSave (a.meanwhile s.accounts)) := by
      have := find?_insert?_self hnew
      rwa [TopUp.beforeSave_tradeNo] at this
    cases hmarks : a.marks with
    | true =>
      have hmarked : s'.topUps.find? a.tradeNo = some { (a.entry (a.assign q - q)).beforeSave
          (a.meanwhile s.accounts) with status := .success, completeTime := a.markedAt } := by
        rw [htopUps, if_pos hmarks, Db.markEntry, find?_update, hrow]
        have hkey : (a.entry (a.assign q - q)).tradeNo = a.tradeNo := rfl
        simp [hkey]
      exact iff_of_true ((Db.returnedAt_iff hmarked).mpr ⟨rfl, rfl⟩) rfl
    | false =>
      rw [hmarks, if_neg (by decide)] at htopUps
      rw [← htopUps] at hrow
      refine iff_of_false (fun hret => ?_) (by simp)
      have := ((Db.returnedAt_iff hrow).mp hret).1
      rw [TopUp.beforeSave_status] at this
      cases this
  constructor
  · rintro ⟨hq, hw⟩
    exact ⟨hwindow.mp hw, hquota.mp hq⟩
  · rintro ⟨hmarks, hundisturbed⟩
    exact ⟨hquota.mpr hundisturbed, hwindow.mpr hmarks⟩

end Adjustment

/-! ### The ledger -/

/-- **The ledger and the credits.** A completion adds what the table of the receipts says and stamps
the row with its moment, exactly when the path agrees with the table; an adjustment, exactly when
its row was marked and it found the balance that it read. -/
theorem receipts_agree {quotaPerUnit : ℚ} {s₀ : Db} (h₀ : s₀.Regular)
    {p : Pool PaymentCall Db Answer}
    (hr : Pool.Reach (PaymentCall.prog quotaPerUnit) (Pool.start s₀) p) :
    (∀ c path s' o, CompletesAlone quotaPerUnit c path p.state s' o → 0 < c.moment →
      (Receipted quotaPerUnit p.state s' o c.moment ↔ path.Agrees quotaPerUnit o)) ∧
    ∀ (a : Adjustment) (delta : Int) s',
      (adjustQuotaByOperator a).exec p.state = (.ok delta, s') → delta ≠ 0 →
      (∀ w, (a.meanwhile p.state.accounts).walletOf a.userId = some w →
        ((a.meanwhile p.state.accounts).quota? w).isSome = true) →
      (Receipted quotaPerUnit (a.interrupted p.state) s' (a.entry delta) a.markedAt ↔
        a.marks = true ∧ a.Undisturbed p.state) := by
  constructor
  · intro c path s' o h hnow
    exact h.receipted_iff (regular_of_reach h₀ hr) hnow
  · intro a delta s' h hdelta hwallets
    exact a.receipted_iff quotaPerUnit h hdelta hwallets

theorem pendingDb_regular (provider : PaymentProvider) : (pendingDb provider).Regular := by
  refine ⟨fun o hmem _ => ?_, (pendingDb_unpaid provider).wallets⟩
  cases hmem with
  | head => rfl
  | tail _ h => cases h

/-- The order of `pendingDb`. -/
def pendingOrder (provider : PaymentProvider) : TopUp :=
  ⟨"a", 7, 0, "default", 2, 2, "card", provider, 10, 0, .pending⟩

def completedBy (provider : PaymentProvider) (c : PaymentCall) : Db :=
  ((c.prog 500000).exec (pendingDb provider)).2

theorem receipts_agree_waffo :
    Receipted 500000 (pendingDb .waffo) (completedBy .waffo (.rechargeWaffo 1 "a" 20 true))
      (pendingOrder .waffo) 20 :=
  ((receipts_agree (pendingDb_regular .waffo) .refl).1 (.rechargeWaffo 1 "a" 20 true)
    .rechargeWaffo _ (pendingOrder .waffo)
    ⟨rfl, rfl, rfl, by decide, by decide +kernel⟩ (by decide)).mpr trivial

/-- The administrator who completes an order of Creem for two units adds two dollars, where the
ledger counts two units; and the callback of epay leaves the time of completion empty. -/
theorem creem_by_hand_and_epay_unstamped :
    let byHand := completedBy .creem (.adminCompleteTopUp 1 "a" 20 true)
    let byEpay := completedBy .epay (epayPaid 1)
    ((byHand.topUps.find? "a").map TopUp.status = some .success ∧
      byHand.accounts.balance (.user 7) = 100 + 1000000 ∧
      truncate (creditedQuota 500000 .creem 2 2) = 2 ∧
      ¬ Receipted 500000 (pendingDb .creem) byHand (pendingOrder .creem) 20) ∧
    (byEpay.topUps.find? "a").map TopUp.status = some .success ∧
    byEpay.Returns "a" 0 1 ∧ ¬ byEpay.Returns "a" 20 21 := by
  refine ⟨⟨by decide +kernel, by decide +kernel, by decide +kernel, fun h => ?_⟩,
    by decide +kernel, by decide +kernel, by decide +kernel⟩
  exact absurd (h.quota (.user 7) rfl) (by decide +kernel)

end UnifyConsole.Payment
