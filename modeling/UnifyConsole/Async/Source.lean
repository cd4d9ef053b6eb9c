import UnifyConsole.Async.Billing
import UnifyConsole.Credit.Recharge

/-!
# What tasks are paid from

A task is paid from a wallet, a subscription or a credit grant (`TaskDb.fundingOf`), and
`TaskDb.left` is what such a source has left.  `Moved` is a step that charges the source of one task
and no other.

Not every charge that is taken is one: a subscription does not go below zero, a reservation that has
been refunded is not refunded again, and a wallet without a row takes anything.  `Fundable` says of
the sources of unfinished tasks that nothing of this can happen to them.  Then a refund is never
refused, and what is charged to a source and what the rows of its tasks say stay in step
(`Fundable.moved`).
-/

namespace UnifyConsole.Async

open Lib Account Credit
open Table Option TaskDb

variable {R : Type}

/-! ### Sources -/

inductive FundingSource where
  | wallet (w : Wallet)
  | subscription (id : Int)
  | grant (id : Int)
deriving DecidableEq

namespace TaskDb

/-- The source that `chargeFunding` charges for a task. -/
def fundingOf (db : TaskDb R) (t : Task R) : Option FundingSource :=
  if taskIsSubscription t then some (.subscription t.privateData.subscriptionId)
  else if taskIsPromotional t then
    (db.credit.reservations.find? t.privateData.creditReservationId).map fun r => .grant r.grantId
  else (db.credit.store.walletOf t.userId).map .wallet

/-- What a source has left, up to a constant: what is used of a subscription counts against it. -/
def left (db : TaskDb R) : FundingSource → Int
  | .wallet w => db.credit.store.balance w
  | .subscription id => -((db.subscriptions.find? id).map UserSubscription.amountUsed).getD 0
  | .grant id => db.credit.grantQuota id

def quotaOf (db : TaskDb R) (id : Int) : Int := ((db.tasks.find? id).map Task.quota).getD 0

/-- What the tasks unfinished in `db₀` are charged to a source in `s`, as their rows say. -/
def owed (db₀ s : TaskDb R) (source : FundingSource) : Int :=
  db₀.tasks.sum fun t =>
    if t.unfinished = true ∧ db₀.fundingOf t = some source then s.quotaOf t.id else 0

end TaskDb

def UserSubscription.WithinLimit (sub : UserSubscription) : Prop :=
  0 < sub.amountTotal → sub.amountUsed ≤ sub.amountTotal

def Task.OnReservation (t : Task R) (id : Int) : Prop :=
  taskIsSubscription t = false ∧ taskIsPromotional t = true ∧ t.privateData.creditReservationId = id

instance (t : Task R) (id : Int) : Decidable (t.OnReservation id) :=
  inferInstanceAs (Decidable (_ ∧ _ ∧ _))

/-- **The sources of the unfinished tasks are there and have been charged for them.** -/
structure Fundable (db₀ s : TaskDb R) : Prop where
  nonneg : ∀ t ∈ db₀.tasks.rows, t.unfinished = true → 0 ≤ s.quotaOf t.id
  wallet : ∀ t ∈ db₀.tasks.rows, t.unfinished = true → taskIsSubscription t = false →
    taskIsPromotional t = false →
      ∃ w, db₀.fundingOf t = some (.wallet w) ∧ DrawsOn s.credit.store t.userId w
  subscription : ∀ t ∈ db₀.tasks.rows, t.unfinished = true → taskIsSubscription t = true →
    ∃ sub, s.subscriptions.find? t.privateData.subscriptionId = some sub ∧ sub.WithinLimit ∧
      owed db₀ s (.subscription t.privateData.subscriptionId) ≤ sub.amountUsed
  reservation : ∀ t ∈ db₀.tasks.rows, t.unfinished = true → ∀ id, t.OnReservation id →
    ∃ res, s.credit.reservations.find? id = some res ∧
      db₀.fundingOf t = some (.grant res.grantId) ∧
      (s.credit.grants.find? res.grantId).isSome = true ∧ res.heldCustomer = s.quotaOf t.id
  alone : ∀ t ∈ db₀.tasks.rows, ∀ t' ∈ db₀.tasks.rows, t.unfinished = true →
    t'.unfinished = true → ∀ id, t.OnReservation id → t'.OnReservation id → t = t'

/-! ### Charging a source -/

/-- The source of `t` has been charged `delta`, and no other. -/
structure Moved (db₀ : TaskDb R) (t : Task R) (delta : Int) (s s' : TaskDb R) : Prop where
  left : ∀ source, s'.left source =
    s.left source - if db₀.fundingOf t = some source then delta else 0
  draws : ∀ userId w, DrawsOn s.credit.store userId w → DrawsOn s'.credit.store userId w
  limits : ∀ id sub, s.subscriptions.find? id = some sub → sub.WithinLimit →
    ∃ sub', s'.subscriptions.find? id = some sub' ∧ sub'.WithinLimit
  reservations : ∀ id res, s.credit.reservations.find? id = some res →
    ∃ res', s'.credit.reservations.find? id = some res' ∧ res'.grantId = res.grantId ∧
      res'.heldCustomer = res.heldCustomer + if t.OnReservation id then delta else 0
  grants : ∀ id, (s'.credit.grants.find? id).isSome = (s.credit.grants.find? id).isSome

variable {db₀ s s' s'' : TaskDb R} {t : Task R} {delta delta' : Int}

theorem Moved.trans (h : Moved db₀ t delta s s') (h' : Moved db₀ t delta' s' s'') :
    Moved db₀ t (delta + delta') s s'' where
  left source := by
    rw [h'.left, h.left]
    split <;> omega
  draws userId w hd := h'.draws userId w (h.draws userId w hd)
  limits id sub hf hl := by
    obtain ⟨sub', hf', hl'⟩ := h.limits id sub hf hl
    exact h'.limits id sub' hf' hl'
  reservations id res hf := by
    obtain ⟨res', hf', hg', hh'⟩ := h.reservations id res hf
    obtain ⟨res'', hf'', hg'', hh''⟩ := h'.reservations id res' hf'
    refine ⟨res'', hf'', hg''.trans hg', ?_⟩
    rw [hh'', hh']
    split <;> omega
  grants id := (h'.grants id).trans (h.grants id)

/-- A step that changes logins, wallets and tokens at most. -/
theorem moved_of_store (store : Store)
    (hcredit : s'.credit = { s.credit with store := store })
    (hsubs : s'.subscriptions = s.subscriptions)
    (hbalance : ∀ w, store.balance w =
      s.credit.store.balance w - if db₀.fundingOf t = some (.wallet w) then delta else 0)
    (hdraws : ∀ userId w, DrawsOn s.credit.store userId w → DrawsOn store userId w)
    (hother : delta ≠ 0 → ∃ w, db₀.fundingOf t = some (.wallet w))
    (hreservation : delta ≠ 0 → taskIsPromotional t = false) : Moved db₀ t delta s s' where
  left source := by
    have hzero : (∀ w, source ≠ .wallet w) →
        (if db₀.fundingOf t = some source then delta else 0) = 0 := by
      intro hsource
      by_cases h0 : delta = 0
      · simp [h0]
      · obtain ⟨w, hw⟩ := hother h0
        rw [if_neg]
        rw [hw]
        exact fun he => hsource w (some.inj he).symm
    cases source with
    | wallet w =>
      simp only [left, hcredit]
      exact hbalance w
    | subscription id =>
      rw [hzero (fun w h => FundingSource.noConfusion h)]
      simp [left, hsubs]
    | grant id =>
      rw [hzero (fun w h => FundingSource.noConfusion h)]
      simp [left, hcredit, CreditDb.grantQuota]
  draws userId w hd := by
    rw [hcredit]
    exact hdraws userId w hd
  limits id sub hf hl := ⟨sub, by rw [hsubs]; exact hf, hl⟩
  reservations id res hf := by
    refine ⟨res, by rw [hcredit]; exact hf, rfl, ?_⟩
    by_cases h0 : delta = 0
    · simp [h0]
    · have hnot : ¬ t.OnReservation id := by
        intro hon
        have hpromo := hon.2.1
        rw [hreservation h0] at hpromo
        cases hpromo
      rw [if_neg hnot, add_zero]
  grants id := by rw [hcredit]

theorem moved_keep (hcredit : s'.credit = s.credit) (hsubs : s'.subscriptions = s.subscriptions) :
    Moved db₀ t 0 s s' :=
  moved_of_store s.credit.store hcredit hsubs (fun w => by simp) (fun _ _ h => h)
    (fun h => absurd rfl h) fun h => absurd rfl h

/-- Only the tokens change when a token is adjusted. -/
theorem taskAdjustTokenQuota_tokens (t : Task R) (delta : Int) (s : TaskDb R) :
    ∃ tokens, taskAdjustTokenQuota t delta s =
      { s with credit := { s.credit with store := { s.credit.store with tokens := tokens } } } := by
  unfold taskAdjustTokenQuota
  dsimp only
  split
  · exact ⟨s.credit.store.tokens, rfl⟩
  split
  · exact ⟨s.credit.store.tokens, rfl⟩
  split
  · exact ⟨s.credit.store.tokens, rfl⟩
  cases hx : (if 0 < delta then decreaseTokenQuota t.privateData.tokenId delta
      else increaseTokenQuota t.privateData.tokenId (-delta)) s.credit.store with
  | error e => exact ⟨s.credit.store.tokens, rfl⟩
  | ok r =>
    split at hx
    · simp only [decreaseTokenQuota, Tx.bind_ok, Tx.ensure_ok, Tx.write_ok] at hx
      obtain ⟨-, -, ⟨-, -, rfl⟩, rfl⟩ := hx
      exact ⟨_, rfl⟩
    · simp only [increaseTokenQuota, Tx.bind_ok, Tx.ensure_ok, Tx.write_ok] at hx
      obtain ⟨-, -, ⟨-, -, rfl⟩, rfl⟩ := hx
      exact ⟨_, rfl⟩

theorem shifted_taskAdjustTokenQuota (t : Task R) (delta : Int) (s : TaskDb R) :
    Shifted (fun _ => 0) s.credit.store (taskAdjustTokenQuota t delta s).credit.store := by
  obtain ⟨tokens, h⟩ := taskAdjustTokenQuota_tokens t delta s
  rw [h]
  refine ⟨fun _ => rfl, fun w => ?_, fun w _ => ?_⟩
  · cases w <;> rfl
  · rw [add_zero]
    cases w <;> rfl

theorem moved_taskAdjustTokenQuota (x : Task R) (d : Int) :
    Moved db₀ t 0 s (taskAdjustTokenQuota x d s) := by
  obtain ⟨tokens, h⟩ := taskAdjustTokenQuota_tokens x d s
  rw [h]
  refine moved_of_store _ rfl rfl (fun w => ?_) (fun _ _ hd => ⟨hd.valid, hd.entity, ?_⟩)
    (fun h => absurd rfl h) fun h => absurd rfl h
  · rw [ite_self, sub_zero]
    cases w <;> rfl
  · have hrow := hd.row
    cases hd.entity with
    | intro e he =>
      rename_i w
      cases w <;> exact hrow

section Priced

variable [Ratio R] {env : TaskSetting R}

/-- **A charge that is taken** moves the wallet that the task is paid from, if any, and no other. -/
theorem chargeFunding_shifted (h : chargeFunding env t delta s = some s') :
    Shifted (fun w => if s.fundingOf t = some (.wallet w) then -delta else 0) s.credit.store
      s'.credit.store := by
  unfold chargeFunding at h
  unfold fundingOf
  split at h
  · rename_i hsub
    obtain ⟨subs, -, rfl⟩ := map_eq_some_iff.mp h
    refine (Shifted.refl _).of_eq fun w => ?_
    rw [if_pos hsub, if_neg (by simp)]
  rename_i hsub
  simp only [hsub, if_false, Bool.false_eq_true]
  split at h
  · rename_i hpromo
    split at h
    · rename_i credit hx
      obtain rfl := some.inj h
      have hstore : credit.store = s.credit.store := by
        split at hx
        · exact (refundCreditPoolReservation_store _ _).ok hx
        · exact (adjustSettledCreditPoolReservation_store _ _ _ _).ok hx
      show Shifted _ _ credit.store
      rw [hstore]
      refine (Shifted.refl _).of_eq fun w => ?_
      rw [if_pos hpromo, if_neg]
      simp
    · cases h
  rename_i hpromo
  simp only [hpromo, if_false, Bool.false_eq_true]
  split at h
  · rename_i store hx
    obtain rfl := some.inj h
    obtain ⟨w, hw, rfl⟩ := chargeUserQuota_ok hx
    refine (shifted_setQuota _ w (-delta)).of_eq fun w' => ?_
    rw [hw]
    simp only [map_some, some.injEq, FundingSource.wallet.injEq, eq_comm]
  · cases h

variable (env)

/-- **A wallet is charged.** -/
theorem chargeFunding_wallet (hsub : taskIsSubscription t = false)
    (hpromo : taskIsPromotional t = false) {w : Wallet} (hd : DrawsOn s.credit.store t.userId w)
    (delta : Int) :
    ∃ store, chargeFunding env t delta s = some { s with credit := { s.credit with store := store } } ∧
      ∀ tok, Charged w tok delta 0 s.credit.store store := by
  obtain ⟨store, hok, -⟩ := chargeUserQuota_of hd 0 delta
  refine ⟨store, ?_, fun tok => ?_⟩
  · unfold chargeFunding
    rw [hsub, hpromo, hok]
    rfl
  · obtain ⟨store', hok', hc⟩ := chargeUserQuota_of hd tok delta
    rw [hok] at hok'
    cases hok'
    exact hc

theorem moved_wallet (hsub : taskIsSubscription t = false) (hpromo : taskIsPromotional t = false)
    {w : Wallet} (hfund : db₀.fundingOf t = some (.wallet w))
    (hd : DrawsOn s.credit.store t.userId w) (delta : Int) :
    ∃ s', chargeFunding env t delta s = some s' ∧ Moved db₀ t delta s s' := by
  obtain ⟨store, hok, hc⟩ := chargeFunding_wallet env hsub hpromo hd delta
  refine ⟨_, hok, moved_of_store _ rfl rfl (fun w' => ?_) (fun _ _ h => h.charged (hc 0))
    (fun _ => ⟨w, hfund⟩) fun _ => hpromo⟩
  rw [(hc 0).wallet, hfund]
  simp only [some.injEq, FundingSource.wallet.injEq, eq_comm]

/-- A subscription that is not driven below zero. -/
theorem moved_subscription (db₀ : TaskDb R) (hsub : taskIsSubscription t = true) (hne : delta ≠ 0)
    {sub : UserSubscription} (hf : s.subscriptions.find? t.privateData.subscriptionId = some sub)
    (hused : 0 ≤ sub.amountUsed + delta) :
    (delta ≤ 0 → sub.WithinLimit → ∃ s', chargeFunding env t delta s = some s') ∧
      ∀ s', chargeFunding env t delta s = some s' → Moved db₀ t delta s s' := by
  have hpos : ¬ t.privateData.subscriptionId ≤ 0 := by
    have hboth := of_decide_eq_true hsub
    omega
  have hfund : db₀.fundingOf t = some (.subscription t.privateData.subscriptionId) := if_pos hsub
  have hmax : max (sub.amountUsed + delta) 0 = sub.amountUsed + delta := max_eq_left hused
  unfold chargeFunding postConsumeUserSubscriptionDelta
  simp only [hsub, if_true, if_neg hpos, if_neg hne, hf, hmax]
  constructor
  · intro hle hlimit
    rw [if_neg]
    · exact ⟨_, rfl⟩
    · rintro ⟨htotal, hover⟩
      have := hlimit htotal
      omega
  intro s' hs'
  obtain ⟨subs, hsubs, rfl⟩ := map_eq_some_iff.mp hs'
  split at hsubs
  · cases hsubs
  rename_i hlimit
  obtain rfl := some.inj hsubs
  have hfind : ∀ id, (s.subscriptions.update (fun x => decide (x.id = t.privateData.subscriptionId))
      (fun x => { x with amountUsed := sub.amountUsed + delta }) fun _ => rfl).find? id =
        if id = t.privateData.subscriptionId
        then some { sub with amountUsed := sub.amountUsed + delta }
        else s.subscriptions.find? id :=
    find?_update_at hf (decide_eq_true (key_of_find? hf)) fun _ => of_decide_eq_true
  refine ⟨fun source => ?_, fun _ _ h => h, fun id sub' hf' hl' => ?_, fun id res hres => ?_,
    fun _ => rfl⟩
  · rw [hfund]
    cases source with
    | wallet w => simp [left]
    | grant id => simp [left]
    | subscription id =>
      simp only [left, hfind, some.injEq, FundingSource.subscription.injEq]
      by_cases he : t.privateData.subscriptionId = id
      · simp only [← he, if_true, hf, map_some, getD_some]
        omega
      · rw [if_neg (Ne.symm he), if_neg he, sub_zero]
  · rw [hfind]
    by_cases he : id = t.privateData.subscriptionId
    · rw [if_pos he]
      refine ⟨_, rfl, fun htotal => ?_⟩
      by_contra hover
      exact hlimit ⟨htotal, not_le.mp hover⟩
    · rw [if_neg he]
      exact ⟨sub', hf', hl'⟩
  · refine ⟨res, hres, rfl, ?_⟩
    rw [if_neg, add_zero]
    rintro ⟨hnot, -⟩
    rw [hsub] at hnot
    cases hnot

omit [Ratio R] in
/-- A reservation whose row is now `res'`. -/
theorem moved_of_recharged {id : Int} (hon : t.OnReservation id) {res res' : CreditPoolReservation R}
    {credit : CreditDb R} (hf : s.credit.reservations.find? id = some res)
    (hfund : db₀.fundingOf t = some (.grant res.grantId))
    (hr : Recharged res res' delta s.credit credit) (hgrant : res'.grantId = res.grantId)
    (hheld : res'.heldCustomer = res.heldCustomer + delta) :
    Moved db₀ t delta s { s with credit := credit } := by
  obtain rfl := key_of_find? hf
  refine ⟨fun source => ?_, fun userId w hd => ?_, fun id sub hsub hl => ⟨sub, hsub, hl⟩,
    fun id x hx => ?_, hr.rows⟩
  · rw [hfund]
    cases source with
    | wallet w => simp [left, hr.store]
    | subscription id => simp [left]
    | grant id =>
      simp only [left, hr.quota, some.injEq, FundingSource.grant.injEq, eq_comm]
  · show DrawsOn credit.store userId w
    rw [hr.store]
    exact hd
  · show ∃ res₁, credit.reservations.find? id = some res₁ ∧ _
    rw [hr.reservations]
    by_cases he : id = res.id
    · subst he
      obtain rfl : res = x := some.inj (hf.symm.trans hx)
      rw [if_pos rfl, if_pos hon]
      exact ⟨res', rfl, hgrant, hheld⟩
    · rw [if_neg he, if_neg (fun hon' => he (hon'.2.2.symm.trans hon.2.2))]
      exact ⟨x, hx, rfl, (add_zero _).symm⟩

/-- A reservation that holds what the task is charged. -/
theorem moved_reservation {id : Int} (hon : t.OnReservation id) {res : CreditPoolReservation R}
    (hf : s.credit.reservations.find? id = some res)
    (hfund : db₀.fundingOf t = some (.grant res.grantId))
    (hgrant : (s.credit.grants.find? res.grantId).isSome = true)
    (hheld : res.heldCustomer = t.quota) (hquota : 0 ≤ t.quota) (hne : delta ≠ 0) :
    (t.quota + delta = 0 → ∃ s', chargeFunding env t delta s = some s') ∧
      ∀ s', chargeFunding env t delta s = some s' → Moved db₀ t delta s s' := by
  obtain ⟨hsub, hpromo, rfl⟩ := hon
  have hcharge : ∀ x, (if delta < 0 ∧ -delta = t.quota
        then refundCreditPoolReservation t.privateData.creditReservationId
        else adjustSettledCreditPoolReservation t.privateData.creditReservationId delta env.now)
          s.credit = x →
      chargeFunding env t delta s = x.toOption.map (fun r => { s with credit := r.2 }) := by
    intro x hx
    unfold chargeFunding
    simp only [hsub, hpromo, if_true, Bool.false_eq_true, if_false, hx]
    cases x with
    | error | ok => rfl
  by_cases hall : t.quota + delta = 0
  · -- the whole quota: the reservation is live, since it holds it, and is refunded
    have hlive : res.status ≠ .refunded := by
      intro hs
      rw [CreditPoolReservation.heldCustomer, if_pos hs] at hheld
      omega
    have hcustomer : -res.customerQuota = delta := by
      rw [(held_of_live hlive).2] at hheld
      omega
    obtain ⟨credit, hok, hr⟩ := refundCreditPoolReservation_of hf hlive hgrant
    rw [hcustomer] at hr
    have hcf := hcharge (.ok ((), credit)) (by rw [if_pos ⟨by omega, by omega⟩, hok])
    refine ⟨fun _ => ⟨_, hcf⟩, fun s' hs' => ?_⟩
    rw [hcf] at hs'
    obtain rfl := some.inj hs'
    refine moved_of_recharged ⟨hsub, hpromo, rfl⟩ hf hfund hr rfl ?_
    rw [hheld, hall]
    rfl
  · refine ⟨fun h => absurd h hall, fun s' hs' => ?_⟩
    cases hx : (adjustSettledCreditPoolReservation t.privateData.creditReservationId delta env.now)
        s.credit with
    | error e =>
      rw [hcharge (.error e) (by rw [if_neg (fun h => hall (by omega)), hx])] at hs'
      cases hs'
    | ok r =>
      rw [hcharge (.ok r) (by rw [if_neg (fun h => hall (by omega)), hx])] at hs'
      obtain rfl := some.inj hs'
      obtain ⟨res', hg, hh, hr⟩ :=
        (adjustSettledCreditPoolReservation_recharged hf hgrant delta env.now).ok hx
      exact moved_of_recharged ⟨hsub, hpromo, rfl⟩ hf hfund hr hg hh

end Priced

/-! ### Charging for an unfinished task -/

section Payer

variable {t₀ : Task R}

theorem taskIsSubscription_congr (h : t.payer = t₀.payer) :
    taskIsSubscription t = taskIsSubscription t₀ := by
  obtain ⟨-, hsource, hsub, -⟩ := Payer.mk.inj h
  unfold taskIsSubscription
  rw [hsource, hsub]

theorem taskIsPromotional_congr (h : t.payer = t₀.payer) :
    taskIsPromotional t = taskIsPromotional t₀ := by
  obtain ⟨-, hsource, -, hres⟩ := Payer.mk.inj h
  unfold taskIsPromotional
  rw [hsource, hres]

/-- The wallet that a task is paid from is a matter of the logins. -/
theorem fundingOf_wallet_congr (h : s'.credit.store.walletOf t.userId = s.credit.store.walletOf t.userId)
    (w : Wallet) : s'.fundingOf t = some (.wallet w) ↔ s.fundingOf t = some (.wallet w) := by
  unfold fundingOf
  rw [h]
  split
  · exact Iff.rfl
  split
  · simp
  · exact Iff.rfl

theorem fundingOf_congr (h : t.payer = t₀.payer) : db₀.fundingOf t = db₀.fundingOf t₀ := by
  obtain ⟨huser, -, hsub, hres⟩ := Payer.mk.inj h
  unfold fundingOf
  rw [taskIsSubscription_congr h, taskIsPromotional_congr h, huser, hsub, hres]

theorem onReservation_congr (h : t.payer = t₀.payer) (id : Int) :
    t.OnReservation id ↔ t₀.OnReservation id := by
  obtain ⟨-, -, -, hres⟩ := Payer.mk.inj h
  unfold Task.OnReservation
  rw [taskIsSubscription_congr h, taskIsPromotional_congr h, hres]

theorem Moved.congr (h : t.payer = t₀.payer) (hm : Moved db₀ t delta s s') :
    Moved db₀ t₀ delta s s' where
  left source := by
    rw [hm.left, fundingOf_congr h]
  draws := hm.draws
  limits := hm.limits
  reservations id res hf := by
    obtain ⟨res', hf', hg, hh⟩ := hm.reservations id res hf
    refine ⟨res', hf', hg, ?_⟩
    rw [hh]
    simp only [onReservation_congr h]
  grants := hm.grants

/-- What one unfinished task is charged to its source is at most what all of them are. -/
theorem Fundable.quotaOf_le_owed (h : Fundable db₀ s) (ht : t₀ ∈ db₀.tasks.rows)
    (hu : t₀.unfinished = true) {source : FundingSource} (hfund : db₀.fundingOf t₀ = some source) :
    s.quotaOf t₀.id ≤ owed db₀ s source := by
  have hle := le_sum (find?_eq_some_iff.mpr ⟨ht, rfl⟩)
    (g := fun t => if t.unfinished = true ∧ db₀.fundingOf t = some source then s.quotaOf t.id else 0)
    (fun x hx => by
      split
      · rename_i hc
        exact h.nonneg x hx hc.1
      · exact le_refl _)
  simp only [hu, hfund, and_self, if_true] at hle
  exact hle

variable [Ratio R] (env : TaskSetting R)

/-- **Every charge that is taken moves the source of the task, and a full refund is taken.** -/
theorem Fundable.chargeFunding (h : Fundable db₀ s) (delta : Int) (ht : t₀ ∈ db₀.tasks.rows)
    (hu : t₀.unfinished = true) (hpayer : t.payer = t₀.payer) (hquota : t.quota = s.quotaOf t₀.id)
    (hnew : 0 ≤ t.quota + delta) (hne : delta ≠ 0) :
    (t.quota + delta = 0 → ∃ s', Async.chargeFunding env t delta s = some s') ∧
      ∀ s', Async.chargeFunding env t delta s = some s' → Moved db₀ t₀ delta s s' := by
  have hnonneg : 0 ≤ t.quota := hquota ▸ h.nonneg t₀ ht hu
  have hsub := taskIsSubscription_congr hpayer
  have hpromo := taskIsPromotional_congr hpayer
  obtain ⟨huser, -, hsubId, hresId⟩ := Payer.mk.inj hpayer
  cases hs : taskIsSubscription t₀ with
  | true =>
    obtain ⟨sub, hf, hlimit, hcovers⟩ := h.subscription t₀ ht hu hs
    have hle : s.quotaOf t₀.id ≤ owed db₀ s (.subscription t₀.privateData.subscriptionId) :=
      h.quotaOf_le_owed ht hu (if_pos hs)
    have hboth := moved_subscription env db₀ (hsub.trans hs) hne (by rw [hsubId]; exact hf) (by omega)
    exact ⟨fun h0 => hboth.1 (by omega) hlimit, fun s' hs' => (hboth.2 s' hs').congr hpayer⟩
  | false =>
    cases hp : taskIsPromotional t₀ with
    | true =>
      have hon : t₀.OnReservation t₀.privateData.creditReservationId := ⟨hs, hp, rfl⟩
      obtain ⟨res, hf, hfund, hgrant, hheld⟩ := h.reservation t₀ ht hu _ hon
      have hboth := moved_reservation env ((onReservation_congr hpayer _).mpr hon) hf
        ((fundingOf_congr hpayer).trans hfund) hgrant (hheld.trans hquota.symm) hnonneg hne
      exact ⟨hboth.1, fun s' hs' => (hboth.2 s' hs').congr hpayer⟩
    | false =>
      obtain ⟨w, hfund, hd⟩ := h.wallet t₀ ht hu hs hp
      obtain ⟨s₁, hok, hm⟩ := moved_wallet env (hsub.trans hs) (hpromo.trans hp)
        ((fundingOf_congr hpayer).trans hfund) (by rw [huser]; exact hd) delta
      refine ⟨fun _ => ⟨s₁, hok⟩, fun s' hs' => ?_⟩
      obtain rfl : s₁ = s' := some.inj (hok.symm.trans hs')
      exact hm.congr hpayer

end Payer

/-! ### Sources and rows stay in step -/

section Step

variable {t₀ : Task R}

theorem owed_moved (ht : t₀ ∈ db₀.tasks.rows) (hu : t₀.unfinished = true)
    (hquota : ∀ id, s'.quotaOf id = s.quotaOf id + if id = t₀.id then delta else 0)
    (source : FundingSource) :
    owed db₀ s' source =
      owed db₀ s source + if db₀.fundingOf t₀ = some source then delta else 0 := by
  unfold owed
  rw [sum_eq_of_find? (find?_eq_some_iff.mpr ⟨ht, rfl⟩) (g := fun t =>
    if t.unfinished = true ∧ db₀.fundingOf t = some source then s.quotaOf t.id else 0)]
  · simp only [hu, true_and, hquota, if_true]
    split <;> omega
  · intro x hx hne
    have hid : x.id ≠ t₀.id := fun he => hne (db₀.tasks.eq_of_key_eq hx ht he)
    rw [hquota, if_neg hid, add_zero]

/-- **A task is charged `delta` more**, in its row and at its source. -/
theorem Fundable.moved (h : Fundable db₀ s) (ht : t₀ ∈ db₀.tasks.rows) (hu : t₀.unfinished = true)
    (hm : Moved db₀ t₀ delta s s')
    (hquota : ∀ id, s'.quotaOf id = s.quotaOf id + if id = t₀.id then delta else 0)
    (hnew : 0 ≤ s.quotaOf t₀.id + delta) :
    Fundable db₀ s' ∧
      ∀ source, s'.left source + owed db₀ s' source = s.left source + owed db₀ s source := by
  have hkept : ∀ source, s'.left source + owed db₀ s' source =
      s.left source + owed db₀ s source := by
    intro source
    rw [hm.left, owed_moved ht hu hquota]
    split <;> omega
  refine ⟨⟨fun t htm hut => ?_, fun t htm hut hs hp => ?_, fun t htm hut hs => ?_,
    fun t htm hut id hon => ?_, h.alone⟩, hkept⟩
  · rw [hquota]
    have hold := h.nonneg t htm hut
    split
    · rename_i he
      rw [he]
      exact hnew
    · rwa [add_zero]
  · obtain ⟨w, hfund, hd⟩ := h.wallet t htm hut hs hp
    exact ⟨w, hfund, hm.draws _ _ hd⟩
  · obtain ⟨sub, hf, hlimit, hcovers⟩ := h.subscription t htm hut hs
    obtain ⟨sub', hf', hlimit'⟩ := hm.limits _ sub hf hlimit
    refine ⟨sub', hf', hlimit', ?_⟩
    have hsource := hkept (.subscription t.privateData.subscriptionId)
    simp only [left, hf, hf', map_some, getD_some] at hsource
    omega
  · obtain ⟨res, hf, hfund, hgrant, hheld⟩ := h.reservation t htm hut id hon
    obtain ⟨res', hf', hg', hh'⟩ := hm.reservations id res hf
    refine ⟨res', hf', by rw [hg']; exact hfund, by rw [hg', hm.grants]; exact hgrant, ?_⟩
    rw [hh', hheld, hquota]
    congr 1
    -- the reservation is the task's own
    by_cases he : t.id = t₀.id
    · obtain rfl : t = t₀ := db₀.tasks.eq_of_key_eq htm ht he
      rw [if_pos hon, if_pos rfl]
    · rw [if_neg he, if_neg]
      intro hon'
      exact he (congrArg Task.id (h.alone t htm t₀ ht hut hu id hon hon'))

end Step

end UnifyConsole.Async
