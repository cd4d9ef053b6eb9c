import UnifyConsole.Payment.Calls

/-!
# An order is credited once

The completions that test the status and add the quota in one locked transaction
credit an order at most once, and have credited it when its row says `success`.
`OrderSound` is what they keep for one order: while the row is open nothing was added,
and when it is marked the addition is there.  A call that writes over a row it read
before (`sessionAsyncPaymentFailed`, a Waffo order without a payment link) can only
close it.

`EpayNotify` is the exception.  It reads the row without a lock, marks it in one
statement and adds the quota in another, so no run in which it completes the order keeps
the invariant: `order_credited_once` is about the runs in which it meets no pending order
of its own gateway, and `epay_lost_and_doubled` has a run of each kind that is left.
-/

namespace UnifyConsole.Payment

open Lib Account
open Pool TopUp

/-! ### The money -/

def creditedTo (w : Wallet) (credits : List Credit) : Int :=
  ((credits.filter fun c => decide (c.wallet = w)).map Credit.quota).sum

theorem creditedTo_cons (w : Wallet) (c : Credit) (l : List Credit) :
    creditedTo w (c :: l) = (if w = c.wallet then c.quota else 0) + creditedTo w l := by
  unfold creditedTo
  by_cases h : c.wallet = w
  · simp [h]
  · have h' : w ≠ c.wallet := fun e => h e.symm
    simp [h, h']

/-- Logins stay where they are, and the balances have moved by the additions made. -/
structure Paid (s₀ s : Db) : Prop where
  entities : ∀ u, s.accounts.entityOf u = s₀.accounts.entityOf u
  rows : ∀ w, (s.accounts.quota? w).isSome = (s₀.accounts.quota? w).isSome
  booked : ∃ new, s.credits = new ++ s₀.credits ∧
    ∀ w, (s₀.accounts.quota? w).isSome = true →
      s.accounts.balance w = s₀.accounts.balance w + creditedTo w new

namespace Paid

variable {s₀ s s' : Db}

theorem refl (s : Db) : Paid s s :=
  ⟨fun _ => rfl, fun _ => rfl, [], rfl, fun _ _ => by simp [creditedTo]⟩

theorem same (h : Paid s₀ s) (haccounts : s'.accounts = s.accounts)
    (hcredits : s'.credits = s.credits) : Paid s₀ s' := by
  obtain ⟨new, hnew, hbalance⟩ := h.booked
  refine ⟨fun u => ?_, fun w => ?_, new, hcredits.trans hnew, fun w hw => ?_⟩
  · rw [haccounts, h.entities]
  · rw [haccounts, h.rows]
  · rw [haccounts, hbalance w hw]

theorem credit (h : Paid s₀ s) {c : Credit}
    (haccounts : s'.accounts = s.accounts.setQuota c.wallet (fun _ => true) fun q => q + c.quota)
    (hcredits : s'.credits = c :: s.credits) : Paid s₀ s' := by
  obtain ⟨new, hnew, hbalance⟩ := h.booked
  refine ⟨fun u => ?_, fun w => ?_, c :: new, ?_, fun w hw => ?_⟩
  · rw [haccounts, Store.entityOf_setQuota, h.entities]
  · rw [haccounts, Store.isSome_quota?_setQuota, h.rows]
  · rw [hcredits, hnew]
    rfl
  · rw [haccounts, Store.balance_add_of_row (by rw [h.rows]; exact hw), hbalance w hw,
      creditedTo_cons]
    omega

theorem walletOf (h : Paid s₀ s) (u : Int) : s.accounts.walletOf u = s₀.accounts.walletOf u := by
  rw [Store.walletOf, h.entities, Store.walletOf]

end Paid

/-! ### One order -/

/-- What the locked completions keep of an order. -/
structure OrderSound (quotaPerUnit : ℚ) (s₀ : Db) (t : String) (s : Db) : Prop where
  paid : Paid s₀ s
  once : (s.creditsOf t).length ≤ 1
  absent : s.topUps.find? t = none → s.creditsOf t = []
  unpaid : ∀ o, s.topUps.find? t = some o → o.status = .pending ∨ o.status = .expired →
    s.creditsOf t = []
  added : ∀ o, s.topUps.find? t = some o → o.status = .success →
    ∃ c ∈ s.creditsOf t, s₀.accounts.walletOf o.userId = some c.wallet ∧
      c.quota = c.path.quota quotaPerUnit o

/-- The order keeps its row and its terms. -/
def KeepsTerms (t : String) (s s' : Db) : Prop :=
  ∀ o, s.topUps.find? t = some o → ∃ o', s'.topUps.find? t = some o' ∧ o'.terms = o.terms

variable {t : String} {s s' : Db}

theorem keepsTerms_of_eq (h : s'.topUps.find? t = s.topUps.find? t) :
    KeepsTerms t s s' := fun o ho => ⟨o, h.trans ho, rfl⟩

/-- A row in hand is a row of its order, and no callback of epay has the order in hand. -/
def HandFits (t : String) (s : Db) (c : PaymentCall) : Hand → Prop
  | .empty => True
  | .holds o => o.tradeNo = t → (∃ o', s.topUps.find? t = some o' ∧ o'.terms = o.terms) ∧
      (o.paymentProvider = .epay → c.notified ≠ some t)
  | .marked o => o.tradeNo ≠ t

variable {c : PaymentCall}

theorem HandFits.mono {h : Hand} (hfits : HandFits t s c h) (hterms : KeepsTerms t s s') :
    HandFits t s' c h := by
  cases h with
  | empty => trivial
  | holds =>
    intro ht
    obtain ⟨⟨o₁, hrow, heq⟩, hc⟩ := hfits ht
    obtain ⟨o₂, hrow', heq'⟩ := hterms o₁ hrow
    exact ⟨⟨o₂, hrow', heq'.trans heq⟩, hc⟩
  | marked => exact hfits

variable {o : TopUp}

namespace OrderSound

variable {quotaPerUnit : ℚ} {s₀ s s' : Db} {t : String} (h : OrderSound quotaPerUnit s₀ t s)

include h

/-- Steps that do not touch the order. -/
theorem same (hpaid : Paid s₀ s')
    (hrow : s'.topUps.find? t = s.topUps.find? t) (hcredits : s'.creditsOf t = s.creditsOf t) :
    OrderSound quotaPerUnit s₀ t s' := by
  refine ⟨hpaid, ?_, ?_, ?_, ?_⟩
  · rw [hcredits]
    exact h.once
  · rw [hrow, hcredits]
    exact h.absent
  · rw [hrow, hcredits]
    exact h.unpaid
  · rw [hrow, hcredits]
    exact h.added

/-- Steps that write the row over and add nothing: they do not open it again and do not
mark it. -/
theorem rewrite (hpaid : Paid s₀ s') {o' : TopUp}
    (hrow : s.topUps.find? t = some o) (hrow' : s'.topUps.find? t = some o')
    (hcredits : s'.creditsOf t = s.creditsOf t) (hterms : o'.terms = o.terms)
    (hopen : o'.status = .pending ∨ o'.status = .expired →
      o.status = .pending ∨ o.status = .expired)
    (hsuccess : o'.status = .success → o.status = .success) : OrderSound quotaPerUnit s₀ t s' := by
  refine ⟨hpaid, ?_, fun hnone => ?_, fun x hx hstatus => ?_, fun x hx hstatus => ?_⟩
  · rw [hcredits]
    exact h.once
  · rw [hrow'] at hnone
    cases hnone
  · rw [hrow'] at hx
    cases hx
    rw [hcredits]
    exact h.unpaid o hrow (hopen hstatus)
  rw [hrow'] at hx
  cases hx
  obtain ⟨c, hc, hwallet, hquota⟩ := h.added o hrow (hsuccess hstatus)
  refine ⟨c, by rw [hcredits]; exact hc, ?_, ?_⟩
  · rw [show o'.userId = o.userId from congrArg Terms.userId hterms]
    exact hwallet
  · rw [hquota]
    exact (Path.quota_eq_of_terms quotaPerUnit c.path hterms).symm

/-- A locked completion of the order: its row was open, so this is the first addition. -/
theorem complete {path : Path} {now : Int}
    {entity : BillingEntity} (hdone : Completes quotaPerUnit path now o entity s s')
    (ht : o.tradeNo = t) : OrderSound quotaPerUnit s₀ t s' := by
  subst ht
  have hpaid : Paid s₀ s' := h.paid.credit (c := ⟨_, _, _, _⟩) hdone.accounts hdone.credits
  have hnone : s.creditsOf o.tradeNo = [] :=
    h.unpaid o hdone.row (hdone.accepts.status.imp id And.right)
  have hcredits : s'.creditsOf o.tradeNo =
      [⟨o.tradeNo, path, entity.wallet, path.quota quotaPerUnit o⟩] := by
    rw [Db.creditsOf, hdone.credits, List.filter_cons_of_pos (by simp)]
    exact congrArg _ hnone
  have hrow := hdone.find?
  have hterms : ((o.completed now).beforeSave s.accounts).terms = o.terms :=
    beforeSave_terms _ _
  refine ⟨hpaid, ?_, fun hnone => ?_, fun x hx hstatus => ?_, fun x hx _ => ?_⟩
  · rw [hcredits]
    exact le_refl 1
  · rw [hrow] at hnone
    cases hnone
  · rw [hrow] at hx
    cases hx
    simp [completed] at hstatus
  rw [hrow] at hx
  cases hx
  refine ⟨_, by rw [hcredits]; exact List.mem_singleton_self _, ?_, ?_⟩
  · rw [show ((o.completed now).beforeSave s.accounts).userId = o.userId from
      congrArg Terms.userId hterms, ← h.paid.walletOf, Store.walletOf, hdone.payer]
    rfl
  · exact (Path.quota_eq_of_terms quotaPerUnit path hterms).symm

/-- A row in hand or a stored row is written over, and nothing is added. -/
theorem save {x : TopUp} (hrow : s.topUps.find? t = some x)
    (ht : o.tradeNo = t) (hterms : o.terms = x.terms)
    (hopen : o.status = .pending ∨ o.status = .expired → x.status = .pending ∨ x.status = .expired)
    (hsuccess : o.status = .success → x.status = .success) :
    OrderSound quotaPerUnit s₀ t (s.save o) ∧ KeepsTerms t s (s.save o) := by
  have hrow' := Db.find?_save hrow ht
  refine ⟨h.rewrite (h.paid.same rfl rfl) hrow hrow' rfl ?_ ?_ ?_, fun y hy => ?_⟩
  · rw [beforeSave_terms]
    exact hterms
  · rw [beforeSave_status]
    exact hopen
  · rw [beforeSave_status]
    exact hsuccess
  · rw [hrow] at hy
    cases hy
    exact ⟨_, hrow', by rw [beforeSave_terms]; exact hterms⟩

/-- Rows of other orders are written. -/
theorem untouched {topUps : Table tradeNo} (hsame : topUps.find? t = s.topUps.find? t) :
    OrderSound quotaPerUnit s₀ t { s with topUps := topUps } ∧
      KeepsTerms t s { s with topUps := topUps } :=
  ⟨h.same (h.paid.same rfl rfl) hsame rfl, keepsTerms_of_eq hsame⟩

/-- A row of another order is written over. -/
theorem save_of_ne (ht : o.tradeNo ≠ t) :
    OrderSound quotaPerUnit s₀ t (s.save o) ∧ KeepsTerms t s (s.save o) :=
  h.untouched (Db.find?_save_of_ne ht)

/-- A new order. -/
theorem place {topUps : Table tradeNo}
    (hnew : s.topUps.insert? o = some topUps) (hstatus : o.status = .pending) :
    OrderSound quotaPerUnit s₀ t { s with topUps := topUps } ∧
      KeepsTerms t s { s with topUps := topUps } := by
  by_cases ht : o.tradeNo = t
  · subst ht
    have hnone : s.topUps.find? o.tradeNo = none := (Table.insert?_eq_some_iff.mp hnew).1
    have hrow : topUps.find? o.tradeNo = some o := Table.find?_insert?_self hnew
    have hempty := h.absent hnone
    refine ⟨⟨h.paid.same rfl rfl, h.once, fun _ => hempty, fun _ _ _ => hempty,
      fun x hx hsuccess => ?_⟩, fun x hx => ?_⟩
    · cases hrow.symm.trans hx
      rw [hstatus] at hsuccess
      cases hsuccess
    · rw [hnone] at hx
      cases hx
  · refine h.untouched ?_
    rw [Table.find?_insert? hnew, if_neg ht]

/-- The overdue orders are closed. -/
theorem expire (cutoff now : Int) :
    let topUps := s.topUps.update (fun o => o.isOverdue cutoff)
      (fun o => { o with status := .expired, completeTime := now }) (fun _ => rfl)
    OrderSound quotaPerUnit s₀ t { s with topUps := topUps } ∧
      KeepsTerms t s { s with topUps := topUps } := by
  intro topUps
  have hfind : topUps.find? t = (s.topUps.find? t).map (fun o =>
      if o.isOverdue cutoff then { o with status := .expired, completeTime := now } else o) :=
    Table.find?_update t
  cases hrow : s.topUps.find? t with
  | none =>
    rw [hrow] at hfind
    exact h.untouched (hfind.trans hrow.symm)
  | some o =>
    rw [hrow, Option.map_some] at hfind
    by_cases hdue : o.isOverdue cutoff = true
    · rw [if_pos hdue] at hfind
      have hpending : o.status = .pending := by
        simp only [isOverdue, Bool.and_eq_true, decide_eq_true_eq] at hdue
        exact hdue.1.2
      refine ⟨h.rewrite (h.paid.same rfl rfl) hrow hfind rfl rfl (fun _ => .inl hpending)
        nofun, fun x hx => ?_⟩
      cases hrow.symm.trans hx
      exact ⟨_, hfind, rfl⟩
    · rw [if_neg hdue] at hfind
      exact h.untouched (hfind.trans hrow.symm)

omit h in
/-- Something is added for another order. -/
theorem creditsOf_of_ne {c : Credit} (hcredits : s'.credits = c :: s.credits)
    (ht : c.tradeNo ≠ t) : s'.creditsOf t = s.creditsOf t := by
  rw [Db.creditsOf, hcredits, List.filter_cons_of_neg (by simpa using ht), Db.creditsOf]

end OrderSound

/-! ### One step -/

/-- The call is a callback of epay for an order of epay that is still pending. -/
def PaymentCall.notifies (t : String) (s : Db) (c : PaymentCall) : Bool :=
  decide (c.notified = some t) && (s.topUps.find? t).any fun o =>
    decide (o.status = .pending) && decide (o.paymentProvider = .epay)

theorem PaymentCall.provider_of_notifies (h : c.notifies t s = false) (hc : c.notified = some t)
    (hrow : s.topUps.find? t = some o) (hstatus : o.status = .pending) :
    o.paymentProvider ≠ .epay := by
  intro hprovider
  simp [PaymentCall.notifies, hc, hrow, hstatus, hprovider] at h

variable {quotaPerUnit : ℚ}

/-- **One step keeps an order sound**, unless a callback of epay makes it at a pending
order. -/
theorem OrderMove.sound {s₀ : Db} {h h' : Hand} (hm : OrderMove quotaPerUnit c h s h' s')
    (hok : c.notifies t s = false) (hs : OrderSound quotaPerUnit s₀ t s)
    (hfits : HandFits t s c h) :
    (OrderSound quotaPerUnit s₀ t s' ∧ KeepsTerms t s s') ∧ HandFits t s' c h' := by
  cases hm with
  | refl => exact ⟨⟨hs, keepsTerms_of_eq rfl⟩, hfits⟩
  | locks =>
    exact ⟨⟨hs.same (hs.paid.same rfl rfl) rfl rfl, keepsTerms_of_eq rfl⟩, hfits⟩
  | @read _ o hrow hstatus hc =>
    refine ⟨⟨hs, keepsTerms_of_eq rfl⟩, ?_⟩
    rintro rfl
    exact ⟨⟨o, hrow, rfl⟩, fun hprovider hnot =>
      PaymentCall.provider_of_notifies hok hnot hrow hstatus hprovider⟩
  | @place _ o topUps hnew hstatus htime hc =>
    refine ⟨hs.place hnew hstatus, fun ht => ?_⟩
    subst ht
    refine ⟨⟨o, Table.find?_insert?_self hnew, rfl⟩, fun _ hnot => ?_⟩
    rw [hc] at hnot
    cases hnot
  | @close _ _ o status hrow hstatus hclosed =>
    have hstep : OrderSound quotaPerUnit s₀ t (s.save { o with status := status }) ∧
        KeepsTerms t s (s.save { o with status := status }) := by
      by_cases ht : o.tradeNo = t
      · subst ht
        refine hs.save hrow rfl rfl (fun _ => .inl hstatus) fun hsuccess => ?_
        rcases hclosed with rfl | rfl <;> cases hsuccess
      · exact hs.save_of_ne ht
    exact ⟨hstep, hfits.mono hstep.2⟩
  | expire cutoff now =>
    have hstep := hs.expire cutoff now
    exact ⟨hstep, hfits.mono hstep.2⟩
  | @complete _ _ _ path now o entity hdone =>
    have hstep : OrderSound quotaPerUnit s₀ t s' ∧ KeepsTerms t s s' := by
      by_cases ht : o.tradeNo = t
      · refine ⟨hs.complete hdone ht, fun x hx => ?_⟩
        subst ht
        rw [hdone.row] at hx
        cases hx
        exact ⟨_, hdone.find?, beforeSave_terms _ _⟩
      · have hsame := hdone.find?_of_ne ht
        exact ⟨hs.same (hs.paid.credit (c := ⟨_, _, _, _⟩) hdone.accounts hdone.credits) hsame
          (OrderSound.creditsOf_of_ne hdone.credits ht), keepsTerms_of_eq hsame⟩
    exact ⟨hstep, hfits.mono hstep.2⟩
  | @fail _ o =>
    refine ⟨?_, trivial⟩
    by_cases ht : o.tradeNo = t
    · obtain ⟨⟨x, hrow, hterms⟩, -⟩ := hfits ht
      exact hs.save hrow ht hterms.symm fun h => by rcases h with h | h <;> cases h
        nofun
    · exact hs.save_of_ne ht
  | @mark _ o method hc hprovider hstatus =>
    have ht : o.tradeNo ≠ t := by
      rintro rfl
      exact (hfits rfl).2 hprovider hc
    exact ⟨hs.save_of_ne ht, ht⟩
  | @add _ o wallet =>
    exact ⟨⟨hs.same (hs.paid.credit rfl rfl) rfl (OrderSound.creditsOf_of_ne rfl hfits),
      keepsTerms_of_eq rfl⟩, trivial⟩

/-! ### Every run -/

/-- An order that has not been completed, among logins whose wallets exist. -/
structure Db.Unpaid (s : Db) (t : String) : Prop where
  credits : s.creditsOf t = []
  status : ∀ o, s.topUps.find? t = some o → o.status ≠ .success
  wallets : ∀ u w, s.accounts.walletOf u = some w → (s.accounts.quota? w).isSome = true

theorem OrderSound.of_unpaid (h : s.Unpaid t) : OrderSound quotaPerUnit s t s :=
  ⟨Paid.refl s, by rw [h.credits]; exact Nat.zero_le 1, fun _ => h.credits,
    fun _ _ _ => h.credits, fun o hrow hsuccess => absurd hsuccess (h.status o hrow)⟩

/-- The quota of the order was added at most once, to its payer, and the balances have moved by the
additions since `s₀`. -/
structure CreditedOnce (quotaPerUnit : ℚ) (s₀ s : Db) (t : String) : Prop where
  once : (s.creditsOf t).length ≤ 1
  added : ∀ o, s.topUps.find? t = some o → o.status = .success →
    ∃ c ∈ s.creditsOf t, s.accounts.walletOf o.userId = some c.wallet ∧
      c.quota = c.path.quota quotaPerUnit o
  booked : ∃ new, s.credits = new ++ s₀.credits ∧ ∀ u w, s.accounts.walletOf u = some w →
    s.accounts.balance w = s₀.accounts.balance w + creditedTo w new

theorem OrderSound.creditedOnce {s₀ : Db} (h : OrderSound quotaPerUnit s₀ t s) (h₀ : s₀.Unpaid t) :
    CreditedOnce quotaPerUnit s₀ s t := by
  refine ⟨h.once, fun o hrow hsuccess => ?_, ?_⟩
  · rw [h.paid.walletOf]
    exact h.added o hrow hsuccess
  obtain ⟨new, hnew, hbalance⟩ := h.paid.booked
  refine ⟨new, hnew, fun u w hw => hbalance w (h₀.wallets u w ?_)⟩
  rw [← h.paid.walletOf]
  exact hw

/-- **An order is credited once**, in every interleaving and with crashes, if no callback of epay
makes a step while the order is a pending order of epay. -/
theorem order_credited_once {quotaPerUnit : ℚ} {t : String} {s₀ : Db} (h₀ : s₀.Unpaid t)
    {p : Pool PaymentCall Db Answer}
    (hr : ReachIf (PaymentCall.prog quotaPerUnit) (fun c s => c.notifies t s = false)
      (Pool.start s₀) p) : CreditedOnce quotaPerUnit s₀ p.state t := by
  have hsound : OrderSound quotaPerUnit s₀ t p.state :=
    reach_noted (G := OrderMove quotaPerUnit) (F := fun c h s => HandFits t s c h)
      (fun c s _ => ⟨.empty, keeps_prog quotaPerUnit c, trivial⟩)
      (fun c h h' s s' hs hfits hok hm => by
        obtain ⟨⟨hs', hterms⟩, hfits'⟩ := hm.sound hok hs hfits
        exact ⟨hs', hfits', fun _ _ hother => hother.mono hterms⟩)
      hr (OrderSound.of_unpaid h₀)
  exact hsound.creditedOnce h₀

/-! ### One payer -/

def pendingDb (provider : PaymentProvider) : Db where
  accounts := { users := ⟨[⟨7, "payer", "Payer", 1, "default", 100, 0⟩], by decide⟩ }
  payers := ⟨[⟨7, "", ""⟩], by decide⟩
  topUps :=
    ⟨[⟨"a", 7, 0, "default", 2, 2, "card", provider, 10, 0, .pending⟩], List.nodup_singleton _⟩
  binancePayTransactions := .empty
  orderLocks := []
  credits := []

theorem pendingDb_unpaid (provider : PaymentProvider) : (pendingDb provider).Unpaid "a" := by
  refine ⟨rfl, fun o hrow => ?_, fun u w hw => ?_⟩
  · cases Table.mem_of_find? hrow with
    | head => exact nofun
    | tail _ h => cases h
  obtain ⟨entity, hentity, rfl⟩ := Option.map_eq_some_iff.mp hw
  obtain ⟨user, huser, rfl⟩ := Option.map_eq_some_iff.mp hentity
  cases Table.mem_of_find? huser with
  | head => rfl
  | tail _ h => cases h

theorem order_credited_once_two_servers :
    let p := play (PaymentCall.prog 500000)
      [.call (.recharge 1 "a" "cus" 20 true), .call (.recharge 2 "a" "cus" 21 true),
        .call (.adminCompleteTopUp 3 "a" 22 true), .run 1, .run 0, .run 2, .run 0, .run 1, .run 2,
        .run 0, .run 0, .run 1, .run 2] (start (pendingDb .stripe))
    (p.state.creditsOf "a" = [⟨"a", .recharge, .user 7, 1000000⟩] ∧
      (p.state.topUps.find? "a").map status = some .success) ∧
    CreditedOnce 500000 (pendingDb .stripe) p.state "a" :=
  ⟨by decide +kernel, order_credited_once (pendingDb_unpaid .stripe)
    (reach_play_of _ _ _ _ (by decide +kernel))⟩

def epayPaid (server : Nat) : PaymentCall :=
  .epayNotify server ⟨true, some ⟨"a", "alipay", true, true⟩⟩ 20 ⟨true, true, true, true, true⟩

/-- A process that stops after it marked the order has added nothing, and nothing adds it later. Two
servers that have both read the pending row add the quota twice. -/
theorem epay_lost_and_doubled :
    (pendingDb .epay).Unpaid "a" ∧
    (∃ p : Pool PaymentCall Db Answer,
      Reach (PaymentCall.prog 500000) (Pool.start (pendingDb .epay)) p ∧
      (p.state.topUps.find? "a").map TopUp.status = some .success ∧
      p.state.creditsOf "a" = [] ∧ p.state.accounts.balance (.user 7) = 100) ∧
    ∃ p : Pool PaymentCall Db Answer,
      Reach (PaymentCall.prog 500000) (Pool.start (pendingDb .epay)) p ∧
      (p.state.creditsOf "a").length = 2 ∧ p.state.accounts.balance (.user 7) = 2000100 :=
  ⟨pendingDb_unpaid .epay,
    ⟨play (PaymentCall.prog 500000)
        [.call (epayPaid 1), .run 0, .run 0, .run 0, .call (.adminCompleteTopUp 2 "a" 30 true),
          .run 0, .run 0, .run 0, .run 0] (start (pendingDb .epay)),
      reach_play _ _ _, by decide +kernel⟩,
    ⟨play (PaymentCall.prog 500000)
        [.call (epayPaid 1), .call (epayPaid 2), .run 0, .run 1, .run 0, .run 1, .run 0, .run 1,
          .run 0, .run 1, .run 0, .run 1, .run 0, .run 1] (start (pendingDb .epay)),
      reach_play _ _ _, by decide +kernel⟩⟩

end UnifyConsole.Payment
