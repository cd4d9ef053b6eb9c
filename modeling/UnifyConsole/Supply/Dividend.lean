import Mathlib
import UnifyConsole.Supply.Sequential
import UnifyConsole.Supply.Counters
import UnifyConsole.Supply.NoLostUpdate

/-!
# A dividend is paid once

The share of a lot is derived from its counters, and a payout pays what has been
earned less what has been paid.  Over a run of calls the payouts of a lot
telescope: what a lot was paid is what its last payout says it had earned.  On a
lot whose basis is revenue the share only grows, so it is never less than what
was paid.
-/

namespace UnifyConsole.Supply

open Lib Account
open Prog List

/-! ### The share of a row -/

structure CreditLot.SameShare (a b : CreditLot) : Prop where
  deal : a.dealType = b.dealType
  pct : a.revenueSharePct = b.revenueSharePct
  basis : a.revenueShareBasis = b.revenueShareBasis
  revenue : a.shareRevenueUSD = b.shareRevenueUSD
  cost : a.shareCostUSD = b.shareCostUSD
  paid : a.paidShareUSD = b.paidShareUSD

theorem CreditLot.SameShare.earned {a b : CreditLot} (h : a.SameShare b) :
    a.earnedShareUSD = b.earnedShareUSD := by
  unfold earnedShareUSD shareBasisUSD isRevenueShare basisUSD
  rw [h.deal, h.pct, h.basis, h.revenue, h.cost]

variable {s : LotDb} {payouts : List CreditSharePayout}

/-- Only a draw-down and a payout touch the share of a row. -/
theorem RowChange.share_cases {old new : CreditLot} {events : List CreditLotEvent}
    (h : RowChange s old new events payouts) :
    (payouts = [] ∧ new.SameShare old) ∨
    (payouts = [] ∧ old.status = .active ∧ ∃ u lot, new = drawnLot u lot old) ∨
    (∃ env supplierId req, 0 < old.unpaidShareUSD ∧ new = paidLot old old ∧
      payouts = [payoutRow env supplierId req old]) := by
  cases h with
  | edited actor hedit =>
    obtain ⟨shape, he⟩ := editCandidate_keeps hedit
    refine .inl ⟨rfl, ?_⟩
    rw [he]
    exact ⟨rfl, rfl, rfl, rfl, rfl, rfl⟩
  | transitioned htr =>
    refine .inl ⟨rfl, ?_⟩
    rw [(transitionedLot_keeps htr).2.2]
    exact ⟨rfl, rfl, rfl, rfl, rfl, rfl⟩
  | detached | verified | retired | noted => exact .inl ⟨rfl, rfl, rfl, rfl, rfl, rfl, rfl⟩
  | drawn u lot hactive => exact .inr (.inl ⟨rfl, hactive, u, lot, rfl⟩)
  | paid env supplierId req hpos => exact .inr (.inr ⟨env, supplierId, req, hpos, rfl, rfl⟩)

theorem Consumption.revenueUSD_nonneg (u : Consumption) : 0 ≤ u.revenueUSD := by
  unfold Consumption.revenueUSD
  split
  · exact le_refl _
  · rename_i h
    rw [not_or, not_le, not_le] at h
    exact div_nonneg (Int.cast_nonneg h.1.le) h.2.le

theorem Consumption.draw_revenue_nonneg (u : Consumption) (lot : CreditLot) :
    0 ≤ (u.draw lot).revenueUSD := by
  unfold Consumption.draw
  split
  · exact u.revenueUSD_nonneg
  · exact le_refl _

/-- On a revenue basis a draw-down never lowers the share. -/
theorem earned_le_drawn {lot old : CreditLot} (u : Consumption)
    (hbasis : old.revenueShareBasis = .revenue) (hpct : 0 ≤ old.revenueSharePct) :
    old.earnedShareUSD ≤ (drawnLot u lot old).earnedShareUSD := by
  have hrev := u.draw_revenue_nonneg lot
  have hbasisUSD : old.basisUSD = old.shareRevenueUSD := if_pos hbasis
  have hdrawn : (drawnLot u lot old).basisUSD =
      old.shareRevenueUSD + (u.draw lot).revenueUSD := if_pos hbasis
  refine mul_le_mul_of_nonneg_right ?_ hpct
  unfold CreditLot.shareBasisUSD
  rw [hbasisUSD, hdrawn, show (drawnLot u lot old).isRevenueShare = old.isRevenueShare from rfl]
  split
  · split
    · split
      · exact le_refl _
      · rename_i h
        exact not_lt.mp h
    split
    · rename_i h h'
      linarith
    · linarith
  · exact le_refl _

/-! ### What holds after every step -/

/-- What the last payout of a lot says the lot had earned. -/
def lastEarned (lotId : Int) (payouts : List CreditSharePayout) : ℚ :=
  ((payouts.filter fun p => decide (p.lotId = lotId)).getLast?.map
    CreditSharePayout.earnedToDateUSD).getD 0

theorem lastEarned_append_self (payouts : List CreditSharePayout) (p : CreditSharePayout) :
    lastEarned p.lotId (payouts ++ [p]) = p.earnedToDateUSD := by
  simp [lastEarned]

theorem lastEarned_append_of_ne {lotId : Int} (payouts : List CreditSharePayout)
    {added : List CreditSharePayout} (h : ∀ p ∈ added, p.lotId ≠ lotId) :
    lastEarned lotId (payouts ++ added) = lastEarned lotId payouts := by
  have hnil : added.filter (fun p => decide (p.lotId = lotId)) = [] :=
    filter_eq_nil_iff.mpr fun p hp => by simp [h p hp]
  rw [lastEarned, filter_append, hnil, append_nil, lastEarned]

/-- Each payout pays what was earned since the one before it. -/
def Telescopes (payouts : List CreditSharePayout) : Prop :=
  ∀ pre p post, payouts = pre ++ p :: post →
    p.amountUSD = p.earnedToDateUSD - lastEarned p.lotId pre

theorem Telescopes.append (h : Telescopes payouts) {p : CreditSharePayout}
    (hp : p.amountUSD = p.earnedToDateUSD - lastEarned p.lotId payouts) :
    Telescopes (payouts ++ [p]) := by
  intro pre q post he
  rcases eq_nil_or_concat post with rfl | ⟨post', r, rfl⟩
  · obtain ⟨rfl, hq⟩ := append_inj' he rfl
    rw [← (List.cons.inj hq).1]
    exact hp
  · rw [concat_eq_append, ← cons_append, ← append_assoc] at he
    exact h pre q post' (append_inj' he rfl).1

/-- The books of the dividends. -/
structure Dividends (s : LotDb) : Prop where
  paid : ∀ id lot, s.lots.find? id = some lot → lot.paidShareUSD = s.paidOutUSD id
  last : ∀ id lot, s.lots.find? id = some lot → lot.paidShareUSD = lastEarned id s.payouts
  known : ∀ p ∈ s.payouts, s.lots.find? p.lotId ≠ none
  telescopes : Telescopes s.payouts
  pct : ∀ id lot, s.lots.find? id = some lot → 0 ≤ lot.revenueSharePct
  covered : ∀ id lot, s.lots.find? id = some lot → lot.revenueShareBasis = .revenue →
    lot.paidShareUSD ≤ lot.earnedShareUSD

variable {s' : LotDb}

theorem Dividends.congr (h : Dividends s) (hl : s'.lots = s.lots) (hp : s'.payouts = s.payouts) :
    Dividends s' := by
  cases s
  cases s'
  simp only at hl hp
  subst hl hp
  exact ⟨h.paid, h.last, h.known, h.telescopes, h.pct, h.covered⟩

section Written

variable {k : Int} {new : CreditLot}

theorem find?_created (hins : s.lots.insert? new = some s'.lots) (id : Int) :
    s'.lots.find? id = if id = new.id then some new else s.lots.find? id := by
  rw [Table.find?_insert? hins]
  simp only [eq_comm (a := new.id)]

variable (hl : ∀ id, s'.lots.find? id = if id = k then some new else s.lots.find? id)

include hl

/-- What is said of every row follows from what is said of the new one. -/
theorem forall_written {P : Int → CreditLot → Prop} (hnew : P k new)
    (hold : ∀ id lot, id ≠ k → s.lots.find? id = some lot → P id lot) :
    ∀ id lot, s'.lots.find? id = some lot → P id lot := by
  intro id lot hf
  rw [hl] at hf
  split at hf
  · rename_i he
    cases hf
    exact he ▸ hnew
  · rename_i he
    exact hold id lot he hf

/-- A row is written, with the payouts of its lot that are added. -/
theorem Dividends.write {added : List CreditSharePayout} (h : Dividends s)
    (hp : s'.payouts = s.payouts ++ added) (hadded : ∀ p ∈ added, p.lotId = k)
    (hpaid : new.paidShareUSD = s'.paidOutUSD k) (hlast : new.paidShareUSD = lastEarned k s'.payouts)
    (htel : Telescopes s'.payouts) (hpct : 0 ≤ new.revenueSharePct)
    (hcovered : new.revenueShareBasis = .revenue → new.paidShareUSD ≤ new.earnedShareUSD) :
    Dividends s' := by
  have hother : ∀ id, id ≠ k → ∀ p ∈ added, p.lotId ≠ id :=
    fun id hne p hpa he => hne (he.symm.trans (hadded p hpa))
  refine ⟨forall_written hl hpaid (fun id lot hne hf => ?_),
    forall_written hl hlast (fun id lot hne hf => ?_), fun p hpm => ?_, htel,
    forall_written hl hpct (fun id lot _ => h.pct id lot),
    forall_written hl hcovered fun id lot _ => h.covered id lot⟩
  · rw [LotDb.paidOutUSD, hp, sumFor_append, sumFor_of_ne (hother id hne), add_zero]
    exact h.paid id lot hf
  · rw [hp, lastEarned_append_of_ne _ (hother id hne)]
    exact h.last id lot hf
  · rw [hl]
    split
    · simp
    rename_i hne
    rw [hp, List.mem_append] at hpm
    rcases hpm with hpm | hpm
    · exact h.known p hpm
    · exact absurd (hadded p hpm) hne

end Written

/-- A new lot has earned nothing and was paid nothing. -/
theorem Dividends.create {row : CreditLot} (h : Dividends s)
    (hins : s.lots.insert? row = some s'.lots) (hp : s'.payouts = s.payouts) (hvalid : row.Valid)
    (hnew : row.New) : Dividends s' := by
  have hother : ∀ p ∈ s.payouts, p.lotId ≠ row.id :=
    fun p hp he => h.known p hp (he ▸ (Table.insert?_eq_some_iff.mp hins).1)
  refine h.write (find?_created hins) (hp.trans (append_nil _).symm) (by simp) ?_ ?_
    (hp ▸ h.telescopes) hvalid.positive.le fun _ => ?_
  · rw [hnew.paid, LotDb.paidOutUSD, hp, sumFor_of_ne hother]
  · rw [hnew.paid, hp]
    exact (lastEarned_append_of_ne [] hother).symm
  · rw [hnew.paid]
    exact mul_nonneg row.shareBasisUSD_nonneg hvalid.positive.le

section Changed

variable {old new : CreditLot}

/-- A change that pays nothing. -/
theorem Dividends.unpaid (h : Dividends s) (hfind : s.lots.find? old.id = some old)
    (hl : ∀ id, s'.lots.find? id = if id = old.id then some new else s.lots.find? id)
    (hp : s'.payouts = s.payouts) (hpaid : new.paidShareUSD = old.paidShareUSD)
    (hpct : new.revenueSharePct = old.revenueSharePct)
    (hearned : new.revenueShareBasis = .revenue → old.revenueShareBasis = .revenue ∧
      old.earnedShareUSD ≤ new.earnedShareUSD) : Dividends s' := by
  refine h.write hl (hp.trans (append_nil _).symm) (by simp) ?_ ?_ (hp ▸ h.telescopes) ?_
    (fun hb => ?_)
  · rw [hpaid, LotDb.paidOutUSD, hp]
    exact h.paid _ _ hfind
  · rw [hpaid, hp]
    exact h.last _ _ hfind
  · rw [hpct]
    exact h.pct _ _ hfind
  · obtain ⟨hb', hle⟩ := hearned hb
    rw [hpaid]
    exact (h.covered _ _ hfind hb').trans hle

/-- A payout of one lot. -/
theorem Dividends.pay (h : Dividends s) (hfind : s.lots.find? old.id = some old)
    (hl : ∀ id, s'.lots.find? id = if id = old.id then some (paidLot old old)
      else s.lots.find? id) (hpos : 0 < old.unpaidShareUSD) {p : CreditSharePayout}
    (hp : s'.payouts = s.payouts ++ [p]) (hlot : p.lotId = old.id)
    (hamount : p.amountUSD = old.unpaidShareUSD)
    (hearned : p.earnedToDateUSD = old.earnedShareUSD) : Dividends s' := by
  have hunpaid : old.unpaidShareUSD = old.earnedShareUSD - old.paidShareUSD := by
    rcases old.unpaidShareUSD_cases with h0 | ⟨-, he⟩
    · rw [h0] at hpos
      exact absurd hpos (lt_irrefl _)
    · exact he
  refine h.write hl hp (by simp [hlot]) ?_ ?_ ?_ (show 0 ≤ old.revenueSharePct from h.pct _ _ hfind)
    (fun _ => le_refl _)
  · rw [LotDb.paidOutUSD, hp, sumFor_append, sumFor_singleton, if_pos hlot, hamount, hunpaid,
      ← LotDb.paidOutUSD, ← h.paid _ _ hfind, paidLot]
    ring
  · rw [hp, ← hlot, lastEarned_append_self, hearned]
    rfl
  · rw [hp]
    refine h.telescopes.append ?_
    rw [hamount, hearned, hlot, ← h.last _ _ hfind, hunpaid]

end Changed

/-- **One step keeps the books of the dividends.** -/
theorem Dividends.step (h : Dividends s) (hstep : LotStep s s') : Dividends s' := by
  cases hstep with
  | stay hl _ hp | logged _ _ hl _ hp => exact h.congr hl hp
  | created row actor hvalid hnew _ _ hins _ hp => exact h.create hins hp hvalid hnew
  | changed old new hfind hchange hl _ hp =>
    rcases hchange.share_cases with ⟨rfl, hsame⟩ | ⟨rfl, -, u, lot, rfl⟩ |
      ⟨env, supplierId, req, hpos, rfl, rfl⟩
    · exact h.unpaid hfind hl (hp.trans (append_nil _)) hsame.paid hsame.pct
        (fun hb => ⟨hsame.basis.symm.trans hb, hsame.earned.symm.le⟩)
    · exact h.unpaid hfind hl (hp.trans (append_nil _)) rfl rfl
        (fun hb => ⟨hb, earned_le_drawn u hb (h.pct _ _ hfind)⟩)
    · exact h.pay hfind hl hpos hp rfl rfl rfl

theorem Dividends.steps (h : Dividends s) (hsteps : LotSteps s s') : Dividends s' := by
  induction hsteps with
  | refl => exact h
  | tail _ hstep ih => exact ih.step hstep

/-! ### A refused payout -/

def LotDb.money (s : LotDb) : Table CreditLot.id × List CreditSharePayout × Store :=
  (s.lots, s.payouts, s.store)

/-- A program that leaves the money as it was when it answers with an error. -/
structure Refuses {α : Type} (p : Prog LotDb (Except LotError α)) : Prop where
  same : ∀ s e, (p.exec s).1 = .error e → (p.exec s).2.money = s.money

theorem refuses_pure {α : Type} (r : Except LotError α) :
    Refuses (pure r : Prog LotDb (Except LotError α)) := ⟨fun _ _ _ => rfl⟩

theorem refuses_bind {α β : Type} {x : LotDb → β × LotDb}
    {f : β → Prog LotDb (Except LotError α)} (hx : ∀ s, (x s).2.money = s.money)
    (hf : ∀ b, Refuses (f b)) : Refuses (Prog.atomic x >>= f) := by
  refine ⟨fun s e he => ?_⟩
  exact ((hf _).same _ e he).trans (hx s)

theorem refuses_finishPayout (supplierId : Int) (lots : List CreditLot)
    (x : LotTx (List CreditSharePayout)) :
    Refuses (Prog.atomic (finishPayout supplierId lots x)) := by
  refine ⟨fun s e he => ?_⟩
  rw [exec_atomic] at he ⊢
  unfold finishPayout at he ⊢
  cases hx : x s with
  | ok =>
    rw [hx] at he
    cases he
  | error => rfl

/-- **A payout that is refused moves no money**, whatever the state is. -/
theorem refuses_paySupplierShare (env : PayoutEnv) (supplierId : Int) (req : SharePayoutRequest) :
    Refuses (paySupplierShare env supplierId req) := by
  unfold paySupplierShare
  split
  · exact refuses_pure _
  refine refuses_bind (fun s => ?_) fun read => ?_
  · unfold lockSupplier
    split
    · rfl
    · split
      · rfl
      · rfl
  cases read with
  | error => exact refuses_pure _
  | ok =>
    dsimp only
    split
    · exact refuses_finishPayout supplierId [] _
    refine refuses_bind (fun s => ?_) fun lots => ?_
    · unfold lockLots
      dsimp only
      split
      · rfl
      · rfl
    · cases lots with
      | error => exact refuses_finishPayout supplierId [] _
      | ok lots => exact refuses_finishPayout supplierId lots _

/-! ### Whole runs -/

structure LotDb.Empty (s : LotDb) : Prop where
  lots : s.lots.rows = []
  events : s.events = []
  payouts : s.payouts = []
  idle : s.Idle

theorem LotDb.Empty.find (h : s.Empty) (id : Int) : s.lots.find? id = none := by
  rw [Table.find?, h.lots]
  rfl

theorem LotDb.Empty.dividends (h : s.Empty) : Dividends s := by
  refine ⟨?_, ?_, ?_, ?_, ?_, ?_⟩
  · simp [h.find]
  · simp [h.find]
  · simp [h.payouts]
  · intro pre p post he
    rw [h.payouts] at he
    simp at he
  · simp [h.find]
  · simp [h.find]

/-- **A dividend is paid exactly once**, after any calls made one after the other: what a lot was
paid is the sum of its payouts, each for what was earned since the one before; a revenue share is
never overpaid; and a refused payout changes nothing. -/
theorem dividend_paid_once {db₀ : LotDb} (h₀ : db₀.Empty) (calls : List LotCall) :
    (∀ lot ∈ (Pool.execs LotCall.prog calls db₀).lots.rows,
      lot.paidShareUSD = (Pool.execs LotCall.prog calls db₀).paidOutUSD lot.id ∧
      (lot.revenueShareBasis = .revenue → lot.paidShareUSD ≤ lot.earnedShareUSD)) ∧
    (∀ pre p post, (Pool.execs LotCall.prog calls db₀).payouts = pre ++ p :: post →
      p.amountUSD = p.earnedToDateUSD - lastEarned p.lotId pre) ∧
    ∀ env supplierId req e,
      ((paySupplierShare env supplierId req).exec (Pool.execs LotCall.prog calls db₀)).1 =
        .error e →
      ((paySupplierShare env supplierId req).exec (Pool.execs LotCall.prog calls db₀)).2.money =
        (Pool.execs LotCall.prog calls db₀).money := by
  have h := h₀.dividends.steps (steps_execs calls h₀.idle).2
  refine ⟨fun lot hlot => ?_, h.telescopes, fun env supplierId req =>
    (refuses_paySupplierShare env supplierId req).same _⟩
  have hfind := Table.find?_eq_some_iff.mpr ⟨hlot, rfl⟩
  exact ⟨h.paid lot.id lot hfind, h.covered lot.id lot hfind⟩

def supplyDb : LotDb := { sharedDb with lots := .empty }

theorem empty_supplyDb : supplyDb.Empty := ⟨rfl, rfl, rfl, rfl, rfl⟩

def halfShareLot (source : LotSource) (status : LotStatus) : CreditLot :=
  { sharedLot with
    id := 0
    status := status
    source := source
    attestedAt := 0
    attestedBy := ""
    approvedBy := ""
    approvedAt := 0 }

def twoDividends : List LotCall :=
  [.create ⟨.revenue, 0⟩ 100 ⟨halfShareLot .admin .active, rfl, rfl, rfl, rfl, nofun⟩ "root",
    .consume ⟨7, none, some 5, 10, 1, 100, "2026-09-01"⟩,
    .pay ⟨⟨.revenue, 0⟩, 1, "b1"⟩ 1 ⟨"root", .external, "tx1", false⟩,
    .pay ⟨⟨.revenue, 0⟩, 1, "b2"⟩ 1 ⟨"root", .external, "tx2", false⟩,
    .consume ⟨7, none, some 5, 30, 1, 100, "2026-09-02"⟩,
    .pay ⟨⟨.revenue, 0⟩, 1, "b3"⟩ 1 ⟨"root", .external, "tx3", false⟩]

theorem dividend_paid_once_twice :
    supplyDb.Empty ∧
    (Pool.execs LotCall.prog twoDividends supplyDb).payouts.map
      (fun p => (p.amountUSD, p.earnedToDateUSD)) = [(5, 5), (15, 20)] ∧
    ∀ lot ∈ (Pool.execs LotCall.prog twoDividends supplyDb).lots.rows,
      lot.paidShareUSD = (Pool.execs LotCall.prog twoDividends supplyDb).paidOutUSD lot.id :=
  ⟨empty_supplyDb, by decide +kernel,
    fun lot hlot => ((dividend_paid_once empty_supplyDb twoDividends).1 lot hlot).1⟩

end UnifyConsole.Supply
