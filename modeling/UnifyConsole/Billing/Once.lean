import UnifyConsole.Billing.Wallet
import Mathlib.Data.List.Induction

/-!
# Money moves once

`Meter` is a wallet session without the database: what it holds, what it has
taken, and whether it was settled or refunded.  `Tracks` ties a session to its
meter: the counters are copies of what is held, and the wallet and the token
have lost what the meter says, up to a refund that no worker has run yet.  Every
call moves the meter the way the meter's own operations say.

What the meter shows is that `Settle` is the one call that does not look at
`refunded`.
-/

namespace UnifyConsole.Billing

open Lib Account Credit
open Act List

variable {R : Type}

/-! ### The meter -/

structure Meter where
  held : Int
  debit : Int
  settled : Bool
  refunded : Bool

namespace Meter

/-- `paid` says whether the token could pay for the difference. -/
def reserve (m : Meter) (paid : Bool) (target : Int) : Meter :=
  if m.settled = true ∨ m.refunded = true ∨ target ≤ m.held ∨ paid = false then m
  else { m with held := target, debit := m.debit + (target - m.held) }

def settle (m : Meter) (actual : Int) : Meter :=
  if m.settled = true then m
  else { m with debit := m.debit + (actual - m.held), settled := true }

def refund (m : Meter) : Meter :=
  if m.settled = true ∨ m.refunded = true ∨ m.held ≤ 0 then m
  else { m with debit := m.debit - m.held, refunded := true }

/-- Until it is settled, a session has taken what it holds, and nothing once it
was refunded. -/
structure Even (m : Meter) : Prop where
  held : 0 ≤ m.held
  unsettled : m.settled = false → m.debit = if m.refunded then 0 else m.held

variable {m : Meter}

theorem Even.reserve (h : m.Even) (paid : Bool) (target : Int) : (m.reserve paid target).Even := by
  unfold Meter.reserve
  split
  · exact h
  rename_i hc
  simp only [not_or, Bool.not_eq_true] at hc
  obtain ⟨hs, hr, ht, -⟩ := hc
  have hd := h.unsettled hs
  have hh := h.held
  simp only [hr, Bool.false_eq_true, if_false] at hd
  refine ⟨by simp only; omega, fun _ => ?_⟩
  simp only [hr, Bool.false_eq_true, if_false]
  omega

theorem Even.settle (h : m.Even) (actual : Int) : (m.settle actual).Even := by
  unfold Meter.settle
  split
  · exact h
  · exact ⟨h.held, fun hs => by simp at hs⟩

theorem Even.refund (h : m.Even) : m.refund.Even := by
  unfold Meter.refund
  split
  · exact h
  rename_i hc
  simp only [not_or, Bool.not_eq_true] at hc
  obtain ⟨hs, hr, -⟩ := hc
  have hd := h.unsettled hs
  refine ⟨h.held, fun _ => ?_⟩
  simp only [hr, Bool.false_eq_true, if_false] at hd
  simp only [if_true]
  omega

end Meter

/-! ### Sessions and meters -/

/-- The session is where the meter says, having begun over the store `s₀`. -/
structure Tracks (s₀ : Store) (w : Wallet) (info : RelayInfo R) (st : SessionState R)
    (m : Meter) : Prop where
  same : info.Same st.session.relayInfo
  funding : st.session.funding = .wallet ⟨info.userId, m.held⟩
  preConsumed : st.session.preConsumedQuota = m.held
  tokenConsumed : st.session.tokenConsumed = m.held
  trusted : st.session.trusted = false
  fundingSettled : st.session.fundingSettled = m.settled
  settled : st.session.settled = m.settled
  refunded : st.session.refunded = m.refunded
  even : m.Even
  drawsOn : DrawsOn st.db.store info.userId w
  token : info.isPlayground = false → (st.db.store.tokens.find? info.tokenId).isSome = true
  charged : (st.jobs = [] ∧
      Charged w info.tokenId m.debit (info.tokenShare m.debit) s₀ st.db.store) ∨
    (st.jobs = [⟨info.tokenId, info.isPlayground, m.held⟩] ∧ m.refunded = true ∧ 0 < m.held ∧
      Charged w info.tokenId (m.debit + m.held) (info.tokenShare (m.debit + m.held)) s₀
        st.db.store)

namespace Tracks

variable {s₀ : Store} {w : Wallet} {info : RelayInfo R} {st : SessionState R} {m : Meter}

theorem sessionToken (h : Tracks s₀ w info st m) (hp : st.session.relayInfo.isPlayground = false) :
    (st.db.store.tokens.find? st.session.relayInfo.tokenId).isSome = true := by
  rw [h.same.tokenId]
  exact h.token (h.same.isPlayground ▸ hp)

/-- The session with its money moved by `n` on both sides. -/
theorem charge (h : Tracks s₀ w info st m) {n : Int} {s : Store}
    (hc : Charged w info.tokenId n (info.tokenShare n) st.db.store s) :
    (st.jobs = [] ∧
      Charged w info.tokenId (m.debit + n) (info.tokenShare (m.debit + n)) s₀ s) ∨
    (st.jobs = [⟨info.tokenId, info.isPlayground, m.held⟩] ∧ m.refunded = true ∧ 0 < m.held ∧
      Charged w info.tokenId (m.debit + n + m.held) (info.tokenShare (m.debit + n + m.held))
        s₀ s) := by
  rcases h.charged with ⟨hj, hch⟩ | ⟨hj, hr, hh, hch⟩
  · exact .inl ⟨hj, (hch.trans hc).of_eq rfl (info.tokenShare_add ..)⟩
  refine .inr ⟨hj, hr, hh, (hch.trans hc).of_eq (by omega) ?_⟩
  rw [info.tokenShare_add]
  congr 1
  omega

/-- Waiting refunds apart, the wallet and the token have lost the debit. -/
theorem finish (h : Tracks s₀ w info st m) :
    Charged w info.tokenId m.debit (info.tokenShare m.debit) s₀ st.finish.db.store := by
  rcases h.charged with ⟨hj, hch⟩ | ⟨hj, hr, hh, hch⟩
  · simp only [SessionState.finish, hj, foldl_nil]
    exact hch
  simp only [SessionState.finish, hj, foldl_cons]
  have hf : ({ st with jobs := [] } : SessionState R).session.funding = _ := h.funding
  obtain ⟨s, hs, hc⟩ := refundJob_of hf h.drawsOn hh
    (by rw [h.same.tokenId, h.same.isPlayground]) h.sessionToken
  rw [hs]
  refine (hch.trans (h.same.tokenId ▸ hc)).of_eq (by simp only; omega) ?_
  rw [h.same.share, ← info.tokenShare_neg, info.tokenShare_add]
  congr 1
  simp only
  omega

/-! ### One call -/

theorem work (h : Tracks s₀ w info st m) : Tracks s₀ w info (Billing.work st).2 m := by
  simp only [Billing.work, read_bind]
  rcases h.charged with ⟨hj, hch⟩ | ⟨hj, hr, hh, hch⟩
  · rw [hj]
    exact h
  rw [hj]
  have hf : ({ st with jobs := [] } : SessionState R).session.funding = _ := h.funding
  obtain ⟨s, hs, hc⟩ := refundJob_of hf h.drawsOn hh
    (by rw [h.same.tokenId, h.same.isPlayground]) h.sessionToken
  simp only [write_bind, hs]
  have hfin := h.finish
  simp only [SessionState.finish, hj, foldl_cons, hs] at hfin
  exact { h with
    drawsOn := h.drawsOn.charged hc
    token := fun hp => by
      show (s.tokens.find? info.tokenId).isSome = true
      rw [hc.tokenRows]
      exact h.token hp
    charged := .inl ⟨rfl, hfin⟩ }

theorem refund (h : Tracks s₀ w info st m) : Tracks s₀ w info (Billing.refund st).2 m.refund := by
  have hneeds : st.session.needsRefundLocked =
      !(m.settled || m.refunded || decide (m.held ≤ 0)) := by
    simp only [BillingSession.needsRefundLocked, h.settled, h.refunded, h.fundingSettled,
      h.tokenConsumed, h.funding]
    by_cases hpos : 0 < m.held
    · cases m.settled <;> cases m.refunded <;> simp [hpos]
    · cases m.settled <;> cases m.refunded <;> simp [hpos, not_lt.mp hpos]
  simp only [Billing.refund, session, read_bind, h.settled, h.refunded, hneeds]
  unfold Meter.refund
  by_cases hc : m.settled = true ∨ m.refunded = true ∨ m.held ≤ 0
  · rw [if_pos hc, if_pos (by rcases hc with hc | hc | hc <;> simp [hc])]
    exact h
  have hc' := hc
  simp only [not_or, Bool.not_eq_true, not_le] at hc'
  obtain ⟨hs, hr, hpos⟩ := hc'
  rw [if_neg hc, if_neg (by simp [hs, hr]; omega)]
  rcases h.charged with ⟨hj, hch⟩ | ⟨-, hr', -⟩
  · have heven := h.even.refund
    rw [Meter.refund, if_neg hc] at heven
    exact { h with
      refunded := rfl
      even := heven
      charged := .inr ⟨by
          show st.jobs ++ [_] = _
          rw [hj, h.same.tokenId, h.same.isPlayground, h.tokenConsumed]
          rfl, rfl, hpos, by
          simp only [sub_add_cancel]
          exact hch⟩ }
  · rw [hr] at hr'
    exact Bool.noConfusion hr'

theorem channel [Ratio R] (h : Tracks s₀ w info st m) (channelId : Int) :
    Tracks s₀ w info ((SessionCall.channel channelId : SessionCall R).act st).2 m :=
  { h with same := { h.same with } }

theorem settle [Ratio R] (h : Tracks s₀ w info st m) (env : Setting R) (actual : Int) :
    Tracks s₀ w info (Billing.settle env actual st).2 (m.settle actual) := by
  have heven := h.even.settle actual
  unfold Meter.settle at heven ⊢
  by_cases hs : m.settled = true
  · simp only [Billing.settle, session, read_bind, h.settled, hs, if_true]
    exact h
  rw [Bool.not_eq_true] at hs
  obtain ⟨s, hrun, hc⟩ := settle_of h.funding h.drawsOn h.sessionToken (h.settled.trans hs)
    (h.fundingSettled.trans hs) env actual
  rw [h.same.share, h.same.tokenId, h.preConsumed] at hc
  simp only [hs, Bool.false_eq_true] at heven ⊢
  rw [hrun]
  exact { h with
    fundingSettled := rfl
    settled := rfl
    even := heven
    drawsOn := h.drawsOn.charged hc
    token := fun hp => (hc.tokenRows _).trans (h.token hp)
    charged := h.charge hc }

/-- `Reserve` is refused exactly when it was tried and the token could not pay. -/
theorem reserve [Ratio R] (h : Tracks s₀ w info st m) (env : Setting R) (cached : Option Token)
    (target : Int) :
    let paid := st.session.relayInfo.canPay st.db.store cached (target - m.held)
    Tracks s₀ w info (Billing.reserve env cached target st).2 (m.reserve paid target) ∧
      ((Billing.reserve env cached target st).1 = .ok () ↔
        m.settled = true ∨ m.refunded = true ∨ target ≤ m.held ∨ paid = true) := by
  intro paid
  have heven := h.even.reserve paid target
  simp only [Billing.reserve, session, read_bind, h.settled, h.refunded, h.trusted,
    h.preConsumed, Bool.false_eq_true, false_or]
  unfold Meter.reserve at heven ⊢
  by_cases hidle : m.settled = true ∨ m.refunded = true ∨ target ≤ m.held
  · have hidle' : m.settled = true ∨ m.refunded = true ∨ target ≤ m.held ∨ paid = false := by
      rcases hidle with hi | hi | hi <;> simp [hi]
    rw [if_pos hidle, if_pos hidle']
    refine ⟨h, iff_of_true rfl ?_⟩
    rcases hidle with hi | hi | hi <;> simp [hi]
  rw [if_neg hidle]
  simp only [not_or, Bool.not_eq_true, not_le] at hidle
  obtain ⟨hs, hr, hlt⟩ := hidle
  have hjobs : st.jobs = [] ∧
      Charged w info.tokenId m.debit (info.tokenShare m.debit) s₀ st.db.store := by
    rcases h.charged with hj | ⟨-, hr', -⟩
    · exact hj
    · rw [hr] at hr'
      exact Bool.noConfusion hr'
  obtain ⟨s, hrun, hc, htokens⟩ := reserveFunding_of h.funding h.drawsOn info.tokenId env
    (show 0 ≤ target - m.held by omega)
  rw [if_neg (by omega), bind_of_ok hrun, attempt_bind]
  generalize hst₁ : st.setFunding (.wallet ⟨info.userId, m.held + (target - m.held)⟩)
    { st.db with store := s } = st₁
  have hinfo : st₁.session.relayInfo = st.session.relayInfo := by subst hst₁; rfl
  have hstore : st₁.db.store = s := by subst hst₁; rfl
  have hpaid : st₁.session.relayInfo.canPay st₁.db.store cached (target - m.held) = paid := by
    simp only [paid, RelayInfo.canPay, hinfo, hstore, htokens]
  have htok : st₁.session.relayInfo.isPlayground = false →
      (st₁.db.store.tokens.find? st₁.session.relayInfo.tokenId).isSome = true := by
    rw [hinfo, hstore, hc.tokenRows]
    exact h.sessionToken
  rcases reserveToken_of w htok cached (show 0 < target - m.held by omega) with
    ⟨hpay, s', hrun', hc'⟩ | ⟨hpay, e, hrun'⟩
  · have hp : paid = true := hpaid.symm.trans hpay
    rw [hinfo, hstore, h.same.share, h.same.tokenId] at hc'
    have hboth := hc.trans hc'
    rw [if_neg (by simp only [hs, hr, hp]; simp; omega)] at heven ⊢
    simp only [hrun', hp, or_true, iff_true]
    subst hst₁
    refine ⟨?_, rfl⟩
    exact { h with
      same := { h.same with }
      funding := by
        show Funding.wallet ⟨_, m.held + (target - m.held)⟩ = Funding.wallet ⟨_, target⟩
        rw [add_sub_cancel]
      preConsumed := by
        show st.session.preConsumedQuota + (target - m.held) = target
        rw [h.preConsumed]
        omega
      tokenConsumed := by
        show st.session.tokenConsumed + (target - m.held) = target
        rw [h.tokenConsumed]
        omega
      even := heven
      drawsOn := h.drawsOn.charged hboth
      token := fun hp => (hboth.tokenRows _).trans (h.token hp)
      charged := .inl ⟨hjobs.1, (hjobs.2.trans hboth).of_eq (by rw [add_zero]) (by
        rw [zero_add, info.tokenShare_add])⟩ }
  · have hp : paid = false := hpaid.symm.trans hpay
    rw [if_pos (by simp [hp])]
    have hf₁ : st₁.session.funding = .wallet ⟨info.userId, m.held + (target - m.held)⟩ := by
      subst hst₁; rfl
    obtain ⟨s'', hrun'', hc''⟩ := rollbackFundingReserve_of hf₁
      (show DrawsOn st₁.db.store info.userId w by rw [hstore]; exact h.drawsOn.charged hc)
      info.tokenId env (show 0 ≤ target - m.held by omega)
    rw [hstore] at hc''
    have hboth := hc.trans hc''
    simp only [hrun', bind_of_ok hrun'', fail_apply, hs, hr, hp, false_or, or_false, reduceCtorEq,
      false_iff, not_le]
    subst hst₁
    refine ⟨?_, hlt⟩
    exact { h with
      same := { h.same with }
      funding := by
        show Funding.wallet _ = _
        congr 2
        omega
      drawsOn := h.drawsOn.charged hboth
      token := fun hp => (hboth.tokenRows _).trans (h.token hp)
      charged := .inl ⟨hjobs.1, (hjobs.2.trans hboth).of_eq (by omega) (by omega)⟩ }

end Tracks

/-! ### Opening -/

variable {quota : Int}

/-- **A wallet session opens with its quota taken once.** -/
theorem tracks_open [Ratio R] {env : Setting R} {tokenQuota : Int} {cached : Option Token}
    {info : RelayInfo R} {db db' : CreditDb R} {st : SessionState R} (h0 : 0 ≤ quota)
    (hnew : newBillingSession env tokenQuota cached info quota db = (.ok st, db'))
    (hwallet : st.session.funding.source = .wallet) (htrust : st.session.trusted = false)
    (htoken : info.isPlayground = false → (db.store.tokens.find? info.tokenId).isSome = true) :
    ∃ w, db.store.walletOf info.userId = some w ∧
      Tracks db.store w info st ⟨quota, quota, false, false⟩ := by
  obtain ⟨w, s, userQuota, trusted, held, hheld, hw, hd, hc, rfl⟩ :=
    walletSession_ok h0 hnew hwallet htoken
  obtain rfl : trusted = false := htrust
  obtain rfl : held = quota := hheld
  refine ⟨w, hw, ?_⟩
  exact {
    same := ⟨rfl, rfl, rfl, rfl, rfl⟩
    funding := rfl
    preConsumed := rfl
    tokenConsumed := rfl
    trusted := rfl
    fundingSettled := rfl
    settled := rfl
    refunded := rfl
    even := ⟨h0, fun _ => rfl⟩
    drawsOn := hd.charged hc
    token := fun hp => (hc.tokenRows _).trans (htoken hp)
    charged := .inl ⟨rfl, hc⟩ }

/-! ### Whole runs -/

/-- What the first `Settle` or `Refund` of a sequence of calls was. -/
inductive Outcome where
  | unfinished
  | settled (actual : Int)
  | refunded
deriving DecidableEq

def outcome : List (SessionCall R) → Outcome
  | [] => .unfinished
  | .settle _ actual :: _ => .settled actual
  | .refund :: _ => .refunded
  | _ :: cs => outcome cs

theorem outcome_concat (cs : List (SessionCall R)) (c : SessionCall R) :
    outcome (cs ++ [c]) = if outcome cs = .unfinished then outcome [c] else outcome cs := by
  induction cs with
  | nil => rfl
  | cons d cs ih =>
    cases d with
    | settle => rfl
    | refund => rfl
    | reserve | work | channel => exact ih

/-- The amount asked for once the call has been answered. -/
def SessionCall.raised (c : SessionCall R) (reply : Except BillingError Unit) (amount : Int) :
    Int :=
  match c, reply with
  | .reserve _ _ target, .ok _ => max amount target
  | _, _ => amount

/-- Made in this state, after a refund, the call moves no money. -/
def SessionCall.Harmless (st : SessionState R) : SessionCall R → Prop
  | .reserve _ cached target =>
    st.session.settled = true ∨ st.session.refunded = true ∨
      target ≤ st.session.preConsumedQuota ∨
      st.session.relayInfo.canPay st.db.store cached (target - st.session.preConsumedQuota) = false
  | .settle _ actual => st.session.settled = true ∨ actual = st.session.preConsumedQuota
  | _ => True

def Meter.step (m : Meter) (st : SessionState R) : SessionCall R → Meter
  | .reserve _ cached target =>
    m.reserve (st.session.relayInfo.canPay st.db.store cached (target - m.held)) target
  | .settle _ actual => m.settle actual
  | .refund => m.refund
  | .work => m
  | .channel _ => m

namespace SessionState

/-- What the session has taken from `w` since `s₀`, once the waiting refunds are made. -/
def walletDebit (st : SessionState R) (s₀ : Store) (w : Wallet) : Int :=
  s₀.balance w - st.finish.db.store.balance w

def tokenDebit (st : SessionState R) (s₀ : Store) (tokenId : Int) : Int :=
  s₀.tokenRemain tokenId - st.finish.db.store.tokenRemain tokenId

variable [Ratio R]

/-- The pre-consumed `quota` plus what the calls have reserved. -/
def reserved (st : SessionState R) (quota : Int) (cs : List (SessionCall R)) : Int :=
  (cs.foldl (fun x c => ((c.act x.1).2, c.raised (c.act x.1).1 x.2)) (st, quota)).2

/-- The net debit a session owes after the calls. -/
def due (st : SessionState R) (quota : Int) (cs : List (SessionCall R)) : Int :=
  match outcome cs with
  | .unfinished => st.reserved quota cs
  | .settled actual => actual
  | .refunded => 0

theorem reserved_concat (st : SessionState R) (quota : Int) (cs : List (SessionCall R))
    (c : SessionCall R) : st.reserved quota (cs ++ [c]) =
      c.raised (c.act (st.after cs)).1 (st.reserved quota cs) := by
  have hfst : ∀ (cs : List (SessionCall R)) (st : SessionState R) (n : Int),
      (cs.foldl (fun x c => ((c.act x.1).2, c.raised (c.act x.1).1 x.2)) (st, n)).1 =
        st.after cs := by
    intro cs
    induction cs with
    | nil => intro st n; rfl
    | cons d cs ih => intro st n; exact ih _ _
  simp only [reserved, foldl_append, foldl_cons, foldl_nil, hfst]

end SessionState

/-- What the meter shows after calls with this outcome. -/
def Outcome.Fits (o : Outcome) (reserved : Int) (m : Meter) : Prop :=
  match o with
  | .unfinished => m.settled = false ∧ m.refunded = false ∧ m.held = reserved
  | .settled actual => m.settled = true ∧ m.debit = actual
  | .refunded => m.debit = 0

theorem Outcome.Fits.due [Ratio R] {st : SessionState R} {cs : List (SessionCall R)} {m : Meter}
    (h : (outcome cs).Fits (st.reserved quota cs) m) (he : m.Even) :
    m.debit = st.due quota cs := by
  unfold SessionState.due
  cases ho : outcome cs <;> rw [ho] at h
  · obtain ⟨hs, hr, hheld⟩ := h
    have hd := he.unsettled hs
    rw [hr] at hd
    exact hd.trans hheld
  · exact h.2
  · exact h

namespace Tracks

variable {s₀ : Store} {w : Wallet} {info : RelayInfo R} {st : SessionState R} {m : Meter}

theorem walletDebit (h : Tracks s₀ w info st m) : st.walletDebit s₀ w = m.debit := by
  rw [SessionState.walletDebit, h.finish.wallet, if_pos rfl]
  omega

theorem tokenDebit (h : Tracks s₀ w info st m) :
    st.tokenDebit s₀ info.tokenId = info.tokenShare m.debit := by
  rw [SessionState.tokenDebit, h.finish.token, if_pos rfl]
  omega

/-- **When a call after a refund is harmless.** -/
theorem harmless_iff (h : Tracks s₀ w info st m) (h0 : m.debit = 0) (c : SessionCall R) :
    c.Harmless st ↔ (m.step st c).debit = 0 := by
  cases c with
  | work | channel => exact iff_of_true trivial h0
  | reserve =>
    simp only [SessionCall.Harmless, Meter.step, Meter.reserve, h.settled, h.refunded,
      h.preConsumed]
    split
    · rename_i hidle
      exact iff_of_true hidle h0
    rename_i hidle
    refine iff_of_false hidle ?_
    simp only
    omega
  | settle =>
    simp only [SessionCall.Harmless, Meter.step, Meter.settle, h.settled, h.preConsumed]
    split
    · rename_i hs
      exact iff_of_true (.inl hs) h0
    · rename_i hs
      simp only [hs, Bool.false_eq_true, false_or]
      omega
  | refund =>
    refine iff_of_true trivial ?_
    simp only [Meter.step, Meter.refund]
    split
    · exact h0
    rename_i hidle
    simp only [not_or, Bool.not_eq_true] at hidle
    have hd := h.even.unsettled hidle.1
    simp only [hidle.2.1, Bool.false_eq_true, if_false] at hd
    omega

variable [Ratio R]

/-- **Every call moves the meter.** -/
theorem step (h : Tracks s₀ w info st m) (c : SessionCall R) :
    Tracks s₀ w info (c.act st).2 (m.step st c) := by
  cases c with
  | reserve env cached target => exact (h.reserve env cached target).1
  | settle env actual => exact h.settle env actual
  | refund => exact h.refund
  | work => exact h.work
  | channel channelId => exact h.channel channelId

/-- On an open session, what is held is what was asked for. -/
theorem held_step (h : Tracks s₀ w info st m) (hs : m.settled = false) (hr : m.refunded = false)
    {c : SessionCall R} (hc : outcome [c] = .unfinished) :
    (m.step st c).settled = false ∧ (m.step st c).refunded = false ∧
      (m.step st c).held = c.raised (c.act st).1 m.held := by
  cases c with
  | settle | refund => simp [outcome] at hc
  | work | channel => exact ⟨hs, hr, rfl⟩
  | reserve env cached target =>
    have hreply := (h.reserve env cached target).2
    simp only [Meter.step, Meter.reserve, SessionCall.act, hs, hr, Bool.false_eq_true,
      false_or] at hreply ⊢
    generalize hpay : st.session.relayInfo.canPay st.db.store cached (target - m.held) = paid
      at hreply ⊢
    cases hres : (Billing.reserve env cached target st).1 with
    | ok =>
      rw [hres] at hreply
      have hok := hreply.mp rfl
      by_cases hle : target ≤ m.held
      · simp [hle, hs, hr, SessionCall.raised]
      · have hp : paid = true := by simpa [hle] using hok
        simp [hle, hp, SessionCall.raised]
        omega
    | error =>
      rw [hres] at hreply
      have hno := not_or.mp fun hk => by simpa using hreply.mpr hk
      have hp : paid = false := by simpa using hno.2
      simp [hp, hs, hr, SessionCall.raised]

theorem exists_after (h : Tracks s₀ w info st m) (cs : List (SessionCall R)) :
    ∃ m, Tracks s₀ w info (st.after cs) m := by
  induction cs generalizing st m with
  | nil => exact ⟨m, h⟩
  | cons c cs ih => exact ih (h.step c)

/-- **A run of calls** that are harmless after a refund that came first. -/
theorem after (h : Tracks s₀ w info st ⟨quota, quota, false, false⟩) (cs : List (SessionCall R))
    (hharm : ∀ pre c post, cs = pre ++ c :: post → outcome pre = .refunded →
      c.Harmless (st.after pre)) :
    ∃ m, Tracks s₀ w info (st.after cs) m ∧ (outcome cs).Fits (st.reserved quota cs) m := by
  induction cs using List.reverseRecOn with
  | nil => exact ⟨_, h, rfl, rfl, rfl⟩
  | append_singleton cs c ih =>
    obtain ⟨m, ht, hfits⟩ := ih fun pre d post he => hharm pre d (post ++ [c]) (by simp [he])
    refine ⟨m.step (st.after cs) c, by rw [SessionState.after_concat]; exact ht.step c, ?_⟩
    rw [outcome_concat, SessionState.reserved_concat]
    cases ho : outcome cs with
    | settled =>
      rw [ho] at hfits
      obtain ⟨hs, hd⟩ := hfits
      cases c <;> simp [Outcome.Fits, Meter.step, Meter.reserve, Meter.settle, Meter.refund, hs, hd]
    | refunded =>
      rw [ho] at hfits
      exact (ht.harmless_iff hfits c).mp (hharm cs c [] rfl ho)
    | unfinished =>
      rw [ho] at hfits
      obtain ⟨hs, hr, hheld⟩ := hfits
      have hd : m.debit = m.held := by simpa [hr] using ht.even.unsettled hs
      rw [if_pos rfl, ← hheld]
      cases c with
      | settle =>
        simp only [outcome, Outcome.Fits, Meter.step, Meter.settle, hs, Bool.false_eq_true,
          if_false, true_and]
        omega
      | refund =>
        have hh := ht.even.held
        show m.refund.debit = 0
        unfold Meter.refund
        split
        · rename_i hidle
          have hle : m.held ≤ 0 := by simpa [hs, hr] using hidle
          omega
        · simp only
          omega
      | reserve | work | channel => exact ht.held_step hs hr rfl

end Tracks

/-- **When a billing session moves money once.** A session on a wallet, not trusted, has taken what
is due after every part of a sequence of calls if and only if, after a refund that came first, each
`Settle` is for what was held and each `Reserve` does nothing. -/
theorem session_charges_once [Ratio R] {env : Setting R} {tokenQuota quota : Int}
    {cached : Option Token} {info : RelayInfo R} {db db' : CreditDb R} {st : SessionState R}
    (h0 : 0 ≤ quota)
    (hnew : newBillingSession env tokenQuota cached info quota db = (.ok st, db'))
    (hwallet : st.session.funding.source = .wallet) (htrust : st.session.trusted = false)
    (htoken : info.isPlayground = false → (db.store.tokens.find? info.tokenId).isSome = true) :
    ∃ w, db.store.walletOf info.userId = some w ∧ ∀ cs : List (SessionCall R),
      (∀ pre, pre <+: cs →
        (st.after pre).walletDebit db.store w = st.due quota pre ∧
        (info.isPlayground = false → (st.after pre).tokenDebit db.store info.tokenId =
          (st.after pre).walletDebit db.store w)) ↔
      ∀ pre c post, cs = pre ++ c :: post → outcome pre = .refunded →
        c.Harmless (st.after pre) := by
  obtain ⟨w, hw, h⟩ := tracks_open h0 hnew hwallet htrust htoken
  refine ⟨w, hw, fun cs => ⟨fun hdue pre c post hcs ho => ?_, fun hharm pre hpre => ?_⟩⟩
  · obtain ⟨m, ht⟩ := h.exists_after pre
    have hpre := (hdue pre ⟨c :: post, hcs.symm⟩).1
    have hnext := (hdue (pre ++ [c]) ⟨post, by simp [hcs]⟩).1
    rw [SessionState.after_concat, (ht.step c).walletDebit] at hnext
    rw [ht.walletDebit] at hpre
    simp only [SessionState.due, ho] at hpre
    simp only [SessionState.due, outcome_concat, ho, reduceCtorEq] at hnext
    exact (ht.harmless_iff hpre c).mpr hnext
  obtain ⟨rest, rfl⟩ := hpre
  obtain ⟨m, ht, hfits⟩ := h.after pre
    (fun pre' c post he => hharm pre' c (post ++ rest) (by simp [he]))
  refine ⟨ht.walletDebit.trans (hfits.due ht.even), fun hp => ?_⟩
  rw [ht.tokenDebit, ht.walletDebit, RelayInfo.tokenShare, hp]
  rfl

def walletRequest : Except BillingError (SessionState ℚ) × CreditDb ℚ :=
  newBillingSession requestEnv 500 none (requestInfo 0 0) 100 requestDb

theorem session_charges_once_refund_settle :
    ∃ st db', walletRequest = (.ok st, db') ∧
      (st.after [.refund, .settle requestEnv 100]).walletDebit requestDb.store (.tenant 7) = 0 := by
  have hfacts : walletRequest.1.toOption.map (fun st => (st.session.funding.source,
      st.session.trusted, (st.after [.refund]).session.preConsumedQuota)) =
        some (.wallet, false, 100) := by decide +kernel
  rcases hr : walletRequest with ⟨res, db'⟩
  rw [hr] at hfacts
  cases res with
  | error => simp [Except.toOption] at hfacts
  | ok st =>
    simp only [Except.toOption, Option.map_some, Option.some.injEq, Prod.mk.injEq] at hfacts
    obtain ⟨hsource, htrust, hheld⟩ := hfacts
    obtain ⟨w, hw, hiff⟩ := session_charges_once (by decide) hr hsource htrust fun _ => by decide
    obtain rfl : w = .tenant 7 :=
      Option.some.inj (hw.symm.trans (by decide : _ = some (Wallet.tenant 7)))
    refine ⟨st, db', rfl, ((hiff [.refund, .settle requestEnv 100]).mpr ?_ _ prefix_rfl).1⟩
    intro pre c post hcs ho
    match pre with
    | [] => simp [outcome] at ho
    | [d] =>
      obtain ⟨rfl, rfl, -⟩ := hcs
      exact .inr hheld.symm
    | d :: d' :: pre => simp at hcs

/-- A session of `100`, refunded and then settled for `180`, has taken `80`. -/
theorem refund_then_settle_charges :
    walletRequest.1.toOption.map (fun st => (st.session.funding.source, st.session.trusted)) =
      some (.wallet, false) ∧
    outcome ([.refund, .settle requestEnv 180] : List (SessionCall ℚ)) = .refunded ∧
    walletRequest.1.toOption.map (fun st =>
      ((st.after [.refund, .settle requestEnv 180]).walletDebit requestDb.store (.tenant 7),
        (st.after [.refund, .settle requestEnv 180]).tokenDebit requestDb.store 3)) =
      some (80, 80) := by
  decide +kernel

end UnifyConsole.Billing
