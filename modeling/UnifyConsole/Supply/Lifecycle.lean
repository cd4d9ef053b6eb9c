import UnifyConsole.Supply.Dividend

/-!
# The lifecycle of a credit lot

A lot is created pending or active, verified, activated, suspended, retired,
reactivated or rejected.  `Lifecycle` is what holds after any calls made one
after the other: a channel serves at most one live lot, an active lot has a
channel, a supplier's own lot was verified before it was activated, and a lot
that was rejected had earned nothing.
-/

namespace UnifyConsole.Supply

open Lib Account
open Table List Pool

/-! ### One change of one lot -/

variable {s : LotDb} {lot : CreditLot}

theorem ensureChannelFree_ok {channelId exceptLotId : Int}
    (h : ensureChannelFree channelId exceptLotId s = .ok ()) (h0 : channelId ≠ 0)
    (hlot : lot ∈ s.lots.rows) (hchannel : lot.channelId = channelId) (hlive : lot.live = true) :
    lot.id = exceptLotId := by
  unfold ensureChannelFree at h
  rw [if_neg h0] at h
  split at h
  · cases h
  split at h
  · cases h
  · rename_i hany
    by_contra hne
    exact hany (List.any_eq_true.mpr ⟨lot, hlot, by simp [hchannel, hne, hlive]⟩)

/-- The three kinds of transition. -/
theorem transitionAllowed_cases {new : LotStatus} {now : Int}
    (h : transitionAllowed lot new now = true) :
    (new = .active ∧ lot.status ≠ .rejected ∧ (lot.status = .pending → lot.source ≠ .supplier)) ∨
    (new = .rejected ∧ (lot.status = .pending ∨ lot.status = .verified)) ∨
    (new = .suspended ∧ lot.status = .active) := by
  unfold transitionAllowed at h
  split at h
  all_goals rename_i hstatus
  all_goals simp only [decide_eq_true_eq, Bool.false_eq_true] at h
  · rcases h with ⟨hn, hsource⟩ | hn
    · exact .inl ⟨hn, by simp [hstatus], fun _ => hsource⟩
    · exact .inr (.inl ⟨hn, .inl hstatus⟩)
  · rcases h with hn | hn
    · exact .inl ⟨hn, by simp [hstatus], by simp [hstatus]⟩
    · exact .inr (.inl ⟨hn, .inr hstatus⟩)
  · exact .inr (.inr ⟨h, hstatus⟩)
  · exact .inl ⟨h, by simp [hstatus], by simp [hstatus]⟩
  · exact .inl ⟨h.1, by simp [hstatus], by simp [hstatus]⟩
  · exact .inl ⟨h.1, by simp [hstatus], by simp [hstatus]⟩

section Change

variable {s : LotDb} {old new : CreditLot} {events : List CreditLotEvent}
  {payouts : List CreditSharePayout}

/-- A live lot keeps the channel it had while it was live, or takes one that is
free. -/
theorem RowChange.channel (h : RowChange s old new events payouts) (hlive : new.live = true)
    (h0 : new.channelId ≠ 0) :
    (old.live = true ∧ new.channelId = old.channelId) ∨
      ensureChannelFree new.channelId old.id s = .ok () := by
  cases h with
  | edited actor hedit hfree =>
    obtain ⟨shape, he⟩ := editCandidate_keeps hedit
    by_cases hc : new.channelId = old.channelId
    · refine .inl ⟨?_, hc⟩
      rw [he] at hlive
      exact hlive
    · exact .inr (hfree hlive hc)
  | @transitioned req _ _ htr =>
    obtain ⟨hallowed, hactive, he⟩ := transitionedLot_keeps htr
    have hchannel : new.channelId = old.channelId := by rw [he]
    rcases transitionAllowed_cases hallowed with ⟨hn, -⟩ | ⟨hn, -⟩ | ⟨-, hold⟩
    · rw [hchannel]
      exact .inr (hactive hn).2
    · rw [he] at hlive
      simp [CreditLot.live, hn] at hlive
    · refine .inl ⟨?_, hchannel⟩
      rw [CreditLot.live, hold]
      decide
  | detached => exact absurd rfl h0
  | verified _ _ _ _ hpending =>
    refine .inl ⟨?_, rfl⟩
    rw [CreditLot.live, hpending]
    decide
  | retired status _ _ hstatus =>
    rcases hstatus with rfl | rfl
    · exact absurd hlive (by simp [CreditLot.live])
    · exact absurd hlive (by simp [CreditLot.live])
  | drawn | noted | paid => exact .inl ⟨hlive, rfl⟩

/-- An active lot has a channel. -/
theorem RowChange.bound (h : RowChange s old new events payouts)
    (hold : old.status = .active → old.channelId ≠ 0) (hactive : new.status = .active) :
    new.channelId ≠ 0 := by
  cases h with
  | edited actor hedit hfree hbound => exact hbound hactive
  | @transitioned req _ _ htr =>
    obtain ⟨-, hact, he⟩ := transitionedLot_keeps htr
    rw [he] at hactive ⊢
    exact (hact hactive).1
  | detached hrejected =>
    rw [show ({ old with channelId := 0 } : CreditLot).status = old.status from rfl,
      hrejected] at hactive
    cases hactive
  | verified => cases hactive
  | retired status _ _ hstatus =>
    rcases hstatus with rfl | rfl
    · cases hactive
    · cases hactive
  | drawn | noted | paid => exact hold hactive

def LotStatus.idle (status : LotStatus) : Prop :=
  status = .pending ∨ status = .verified ∨ status = .rejected

structure CreditLot.Unearned (lot : CreditLot) : Prop where
  revenue : lot.shareRevenueUSD = 0
  cost : lot.shareCostUSD = 0
  paid : lot.paidShareUSD = 0

theorem CreditLot.Unearned.congr {a b : CreditLot} (h : b.Unearned) (hs : a.SameShare b) :
    a.Unearned :=
  ⟨hs.revenue.trans h.revenue, hs.cost.trans h.cost, hs.paid.trans h.paid⟩

/-- What has earned nothing is owed nothing. -/
theorem CreditLot.Unearned.unpaid (h : lot.Unearned) : lot.unpaidShareUSD = 0 := by
  have hbasis : lot.basisUSD = 0 := by
    unfold basisUSD
    rw [h.revenue, h.cost]
    simp
  have hearned : lot.earnedShareUSD = 0 := by
    unfold earnedShareUSD shareBasisUSD
    rw [hbasis]
    simp
  rcases lot.unpaidShareUSD_cases with h0 | ⟨-, he⟩
  · exact h0
  · rw [he, hearned, h.paid, sub_zero]

/-- A lot is rejected only before it has served. -/
theorem RowChange.idle_of_idle (h : RowChange s old new events payouts)
    (hidle : new.status.idle) : old.status.idle := by
  cases h with
  | edited actor hedit =>
    obtain ⟨shape, he⟩ := editCandidate_keeps hedit
    rw [he] at hidle
    exact hidle
  | @transitioned req _ _ htr =>
    obtain ⟨hallowed, -, he⟩ := transitionedLot_keeps htr
    rw [he] at hidle
    rcases transitionAllowed_cases hallowed with ⟨hn, -⟩ | ⟨-, hp | hv⟩ | ⟨hn, -⟩
    · rcases hidle with h | h | h <;> (rw [hn] at h; cases h)
    · exact .inl hp
    · exact .inr (.inl hv)
    · rcases hidle with h | h | h <;> (rw [hn] at h; cases h)
  | verified _ _ _ _ hpending => exact .inl hpending
  | retired status _ _ hstatus =>
    rcases hstatus with rfl | rfl <;> (rcases hidle with h | h | h <;> cases h)
  | detached | drawn | noted | paid => exact hidle

theorem RowChange.unearned (h : RowChange s old new events payouts)
    (hold : old.status.idle → old.Unearned) (hidle : new.status.idle) : new.Unearned := by
  have hun := hold (h.idle_of_idle hidle)
  rcases h.share_cases with ⟨-, hsame⟩ | ⟨-, hactive, u, lot, rfl⟩ | ⟨_, _, _, hpos, -⟩
  · exact hun.congr hsame
  · -- a draw-down finds the lot active and leaves it active
    rw [show (drawnLot u lot old).status = old.status from rfl, hactive] at hidle
    rcases hidle with h | h | h <;> cases h
  · rw [hun.unpaid] at hpos
    exact absurd hpos (lt_irrefl _)

theorem RowChange.source_eq (h : RowChange s old new events payouts) :
    new.source = old.source := by
  cases h with
  | edited actor hedit =>
    obtain ⟨shape, he⟩ := editCandidate_keeps hedit
    rw [he]
    rfl
  | transitioned htr => rw [(transitionedLot_keeps htr).2.2]
  | detached | verified | drawn | retired | noted | paid => rfl

/-- A supplier's own lot that is neither waiting nor rejected has been verified,
now or before. -/
theorem RowChange.verified_first (h : RowChange s old new events payouts)
    (hsource : old.source = .supplier) (hp : new.status ≠ .pending) (hr : new.status ≠ .rejected) :
    (old.status ≠ .pending ∧ old.status ≠ .rejected) ∨
      ∃ v ∈ events, v.lotId = old.id ∧ v.eventType = .verified := by
  cases h with
  | edited actor hedit =>
    obtain ⟨shape, he⟩ := editCandidate_keeps hedit
    rw [he] at hp hr
    exact .inl ⟨hp, hr⟩
  | @transitioned req _ _ htr =>
    obtain ⟨hallowed, -, he⟩ := transitionedLot_keeps htr
    rw [he] at hr
    rcases transitionAllowed_cases hallowed with ⟨-, hnr, hnp⟩ | ⟨hn, -⟩ | ⟨-, ha⟩
    · exact .inl ⟨fun h => hnp h hsource, hnr⟩
    · exact absurd hn hr
    · exact .inl ⟨by simp [ha], by simp [ha]⟩
  | verified => exact .inr ⟨_, mem_singleton_self _, rfl, rfl⟩
  | retired _ _ hactive => exact .inl ⟨by simp [hactive], by simp [hactive]⟩
  | detached | drawn | noted | paid => exact .inl ⟨hp, hr⟩

end Change

/-! ### What holds after every step -/

structure Lifecycle (s : LotDb) : Prop where
  pos : ∀ id lot, s.lots.find? id = some lot → 0 < id
  single : ∀ i j a b, s.lots.find? i = some a → s.lots.find? j = some b → a.live = true →
    b.live = true → a.channelId ≠ 0 → a.channelId = b.channelId → i = j
  bound : ∀ id lot, s.lots.find? id = some lot → lot.status = .active → lot.channelId ≠ 0
  unearned : ∀ id lot, s.lots.find? id = some lot → lot.status.idle → lot.Unearned
  verified : ∀ id lot, s.lots.find? id = some lot → lot.source = .supplier →
    lot.status ≠ .pending → lot.status ≠ .rejected →
    ∃ v ∈ s.events, v.lotId = id ∧ v.eventType = .verified

variable {s' : LotDb} {events : List CreditLotEvent}

/-- More events leave a verification where it was. -/
theorem Lifecycle.congr (h : Lifecycle s) (hl : s'.lots = s.lots)
    (he : s'.events = s.events ++ events) : Lifecycle s' := by
  obtain ⟨hpos, hsingle, hbound, hun, hverified⟩ := h
  rw [← hl] at hpos hsingle hbound hun hverified
  refine ⟨hpos, hsingle, hbound, hun, fun id lot hf hsource hp hr => ?_⟩
  obtain ⟨v, hv, hv'⟩ := hverified id lot hf hsource hp hr
  exact ⟨v, by rw [he]; exact mem_append_left _ hv, hv'⟩

/-- One row is written. -/
theorem Lifecycle.write {k : Int} {new : CreditLot} (h : Lifecycle s)
    (hl : ∀ id, s'.lots.find? id = if id = k then some new else s.lots.find? id)
    (he : s'.events = s.events ++ events) (hpos : 0 < k)
    (hfree : ∀ id lot, id ≠ k → s.lots.find? id = some lot → lot.live = true →
      new.live = true → new.channelId ≠ 0 → lot.channelId ≠ new.channelId)
    (hbound : new.status = .active → new.channelId ≠ 0) (hun : new.status.idle → new.Unearned)
    (hverified : new.source = .supplier → new.status ≠ .pending → new.status ≠ .rejected →
      ∃ v ∈ s'.events, v.lotId = k ∧ v.eventType = .verified) : Lifecycle s' := by
  refine ⟨forall_written hl hpos (fun id lot _ => h.pos id lot), ?_,
    forall_written hl hbound (fun id lot _ => h.bound id lot),
    forall_written hl hun (fun id lot _ => h.unearned id lot),
    forall_written hl hverified fun id lot _ hf hsource hp hr => ?_⟩
  · intro i j a b ha hb hla hlb h0 hc
    rw [hl] at ha hb
    split at ha
    · rename_i hi
      cases ha
      split at hb
      · rename_i hj
        exact hi.trans hj.symm
      · rename_i hj
        exact absurd hc.symm (hfree j b hj hb hlb hla h0)
    · rename_i hi
      split at hb
      · cases hb
        exact absurd hc (hfree i a hi ha hla hlb (hc ▸ h0))
      · exact h.single i j a b ha hb hla hlb h0 hc
  · obtain ⟨v, hv, hv'⟩ := h.verified id lot hf hsource hp hr
    exact ⟨v, by rw [he]; exact mem_append_left _ hv, hv'⟩

theorem Lifecycle.create {row : CreditLot} (h : Lifecycle s)
    (hins : s.lots.insert? row = some s'.lots) (he : s'.events = s.events ++ events)
    (hvalid : row.Valid) (hnew : row.New) (hpos : 0 < row.id)
    (hfree : ensureChannelFree row.channelId 0 s = .ok ()) : Lifecycle s' := by
  refine h.write (find?_created hins) he hpos ?_ hvalid.bound
    (fun _ => ⟨hnew.revenue, hnew.cost, hnew.paid⟩)
    (fun hsource hp _ => absurd (hnew.pending hsource) hp)
  intro id lot _ hf hlive _ h0 hc
  have hid : lot.id = id := key_of_find? hf
  have := ensureChannelFree_ok hfree h0 (mem_of_find? hf) hc hlive
  have := h.pos id lot hf
  omega

theorem Lifecycle.change {old new : CreditLot} {payouts : List CreditSharePayout} (h : Lifecycle s)
    (hfind : s.lots.find? old.id = some old) (hchange : RowChange s old new events payouts)
    (hl : ∀ id, s'.lots.find? id = if id = old.id then some new else s.lots.find? id)
    (he : s'.events = s.events ++ events) : Lifecycle s' := by
  refine h.write hl he (h.pos _ _ hfind) ?_ (hchange.bound (h.bound _ _ hfind))
    (hchange.unearned (h.unearned _ _ hfind)) fun hsource hp hr => ?_
  · intro id lot hne hf hlive hlive' h0 hc
    rcases hchange.channel hlive' h0 with ⟨hold, hsame⟩ | hfree
    · exact hne (h.single id old.id lot old hf hfind hlive hold (hc ▸ h0) (hc.trans hsame))
    · have hid : lot.id = id := key_of_find? hf
      exact hne (hid ▸ ensureChannelFree_ok hfree h0 (mem_of_find? hf) hc hlive)
  · rw [he]
    rw [hchange.source_eq] at hsource
    rcases hchange.verified_first hsource hp hr with ⟨hp', hr'⟩ | ⟨v, hv, hv'⟩
    · obtain ⟨v, hv, hv'⟩ := h.verified _ _ hfind hsource hp' hr'
      exact ⟨v, mem_append_left _ hv, hv'⟩
    · exact ⟨v, mem_append_right _ hv, hv'⟩

/-- **One step keeps the lifecycle.** -/
theorem Lifecycle.step (h : Lifecycle s) (hstep : LotStep s s') : Lifecycle s' := by
  cases hstep with
  | stay hl he => exact h.congr hl (he.trans (append_nil _).symm)
  | logged event _ hl he => exact h.congr hl he
  | created row actor hvalid hnew hpos hfree hins he =>
    exact h.create hins he hvalid hnew hpos hfree
  | changed old new hfind hchange hl he => exact h.change hfind hchange hl he

theorem Lifecycle.steps (h : Lifecycle s) (hsteps : LotSteps s s') : Lifecycle s' := by
  induction hsteps with
  | refl => exact h
  | tail _ hstep ih => exact ih.step hstep

theorem LotDb.Empty.lifecycle (h : s.Empty) : Lifecycle s := by
  refine ⟨?_, ?_, ?_, ?_, ?_⟩ <;> simp [h.find]

/-- **The lifecycle of a lot is safe** after any calls made one after the other, and a supplier's
own lot was verified before it was ever active. -/
theorem lot_lifecycle_safe {db₀ : LotDb} (h₀ : db₀.Empty) (calls : List LotCall) :
    (∀ a ∈ (execs LotCall.prog calls db₀).lots.rows,
      ∀ b ∈ (execs LotCall.prog calls db₀).lots.rows, a.live = true → b.live = true →
        a.channelId ≠ 0 → a.channelId = b.channelId → a = b) ∧
    (∀ lot ∈ (execs LotCall.prog calls db₀).lots.rows, lot.status = .active →
      lot.channelId ≠ 0) ∧
    (∀ earlier, earlier <+: calls → ∀ lot ∈ (execs LotCall.prog earlier db₀).lots.rows,
      lot.source = .supplier → lot.status = .active →
      ∃ v ∈ (execs LotCall.prog earlier db₀).events,
        v.lotId = lot.id ∧ v.eventType = .verified) ∧
    ∀ lot ∈ (execs LotCall.prog calls db₀).lots.rows, lot.status = .rejected →
      lot.shareRevenueUSD = 0 ∧ lot.paidShareUSD = 0 := by
  have hlife : ∀ calls, Lifecycle (execs LotCall.prog calls db₀) :=
    fun calls => h₀.lifecycle.steps (steps_execs calls h₀.idle).2
  have hrow : ∀ {t : LotDb} {lot : CreditLot}, lot ∈ t.lots.rows →
      t.lots.find? lot.id = some lot :=
    fun hlot => Table.find?_eq_some_iff.mpr ⟨hlot, rfl⟩
  have h := hlife calls
  refine ⟨fun a ha b hb hla hlb h0 hc => ?_, fun lot hlot => h.bound _ _ (hrow hlot),
    fun earlier _ lot hlot hsource hactive => ?_, fun lot hlot hrejected => ?_⟩
  · exact eq_of_key_eq _ ha hb (h.single _ _ a b (hrow ha) (hrow hb) hla hlb h0 hc)
  · exact (hlife earlier).verified _ _ (hrow hlot) hsource (by simp [hactive]) (by simp [hactive])
  · have hun := h.unearned _ _ (hrow hlot) (.inr (.inr hrejected))
    exact ⟨hun.revenue, hun.paid⟩

def submittedAndServed : List LotCall :=
  [.create ⟨.revenue, 0⟩ 100 ⟨halfShareLot .supplier .pending, rfl, rfl, rfl, rfl, fun _ => rfl⟩
      "supplier",
    .verify 110 1 "root" "works" 1,
    .activate 120 1 "root",
    .consume ⟨7, none, some 5, 10, 1, 130, "2026-09-01"⟩]

theorem lot_lifecycle_safe_submitted :
    supplyDb.Empty ∧
    (∃ lot ∈ (execs LotCall.prog submittedAndServed supplyDb).lots.rows,
      lot.source = .supplier ∧ lot.status = .active ∧ lot.consumedUSD = 6) ∧
    ∀ lot ∈ (execs LotCall.prog submittedAndServed supplyDb).lots.rows,
      lot.source = .supplier → lot.status = .active →
      ∃ v ∈ (execs LotCall.prog submittedAndServed supplyDb).events,
        v.lotId = lot.id ∧ v.eventType = .verified :=
  ⟨empty_supplyDb, by decide +kernel,
    (lot_lifecycle_safe empty_supplyDb submittedAndServed).2.2.1 submittedAndServed
      (prefix_refl _)⟩

end UnifyConsole.Supply
