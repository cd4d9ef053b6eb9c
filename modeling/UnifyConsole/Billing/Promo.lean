import UnifyConsole.Billing.Wallet
import UnifyConsole.Credit.Conservation
import Mathlib.Data.List.Induction

/-!
# Sessions paid from promotional credit

Three places hold the amount of a promotional session: the session's
`preConsumedQuota`, the funding source's `preConsumed` and the reservation row.
`Holding` says they agree, together with what the request has moved on the
grant and in the pool since the session was opened.  It holds after every
session that opened with a positive quota and after every successful `Reserve`,
and a successful `Settle` moves all three to the actual amount.

A session opened with nothing has no reservation, and none of its calls makes
one.
-/

namespace UnifyConsole.Billing

open Lib Account Credit
open Table Act

variable {R : Type}

/-! ### What a request has on the ledger -/

section Ledger

variable {db₀ db db' : CreditDb R}

def requestRow (db : CreditDb R) (requestId : String) : Option (CreditPoolReservation R) :=
  db.reservations.rows.find? fun r => decide (r.requestId = requestId)

/-- What the request has taken from its grant. -/
def requestCharge (db : CreditDb R) (requestId : String) : Int :=
  ((requestRow db requestId).map CreditPoolReservation.heldCustomer).getD 0

/-- What the request holds of its pool. -/
def requestDrawn (db : CreditDb R) (requestId : String) : Int :=
  ((requestRow db requestId).map CreditPoolReservation.heldPool).getD 0

/-- The books do not depend on the wallets and tokens. -/
theorem books_withStore (hb : Books db₀ db) (s : Store) : Books db₀ { db with store := s } :=
  ⟨⟨hb.tidy.positive, hb.tidy.unique, hb.tidy.lots⟩, hb.lots, hb.lotPools, hb.allocated, hb.grants,
    hb.grantRows, hb.positive, hb.reserved, hb.pooled⟩

variable {id : Int} {f : CreditPoolReservation R → CreditPoolReservation R}
  {r : CreditPoolReservation R}

theorem rebooked_find (h : Rebooked db₀ db id f db') (hf : db.reservations.find? id = some r) :
    db'.reservations.find? id = some (f r) := by
  obtain ⟨hid, hrow⟩ := h.row
  rw [hrow, find?_update_of hf (by simpa using key_of_find? hf)]

/-- What the reservations come to under a key changes by what changes in the row. -/
theorem rebooked_sum (h : Rebooked db₀ db id f db') (hf : db.reservations.find? id = some r)
    {key value : CreditPoolReservation R → Int} (hkey : key (f r) = key r) (k : Int) :
    db'.reservations.sum (fun r => if key r = k then value r else 0) =
      db.reservations.sum (fun r => if key r = k then value r else 0) +
        if key r = k then value (f r) - value r else 0 := by
  obtain ⟨hid, hrow⟩ := h.row
  rw [hrow, sum_update_one hf (by simpa using key_of_find? hf) (fun x _ hp => by simpa using hp),
    hkey]
  by_cases hk : key r = k <;> simp [hk]

end Ledger

/-! ### Statements that leave the ledger alone -/

/-- Nothing but wallets, tokens and parked settlements changed. -/
structure Aside (st st' : SessionState R) : Prop where
  session : st'.session = st.session
  db : ∃ s, st'.db = { st.db with store := s }

variable {α : Type}

section Aside

variable {st st' st'' : SessionState R}

theorem Aside.refl (st : SessionState R) : Aside st st := ⟨rfl, st.db.store, rfl⟩

theorem Aside.trans (h : Aside st st') (h' : Aside st' st'') : Aside st st'' := by
  obtain ⟨s, hs⟩ := h.db
  obtain ⟨s', hs'⟩ := h'.db
  exact ⟨h'.session.trans h.session, s', by rw [hs', hs]⟩

theorem aside_bind {β : Type} {x : SessionAct R α} {f : α → SessionAct R β}
    (hx : ∀ st, Aside st (x st).2) (hf : ∀ a st, Aside st (f a st).2) (st : SessionState R) :
    Aside st ((x >>= f) st).2 := by
  have h := hx st
  rcases hr : x st with ⟨res, st₁⟩
  rw [hr] at h
  cases res with
  | error =>
    rw [bind_of_error hr]
    exact h
  | ok a =>
    rw [bind_of_ok hr]
    exact h.trans (hf a st₁)

theorem attempt_aside {x : SessionAct R α} (hx : ∀ st, Aside st (x st).2) (st : SessionState R) :
    Aside st ((Act.attempt x : SessionAct R (Except BillingError α)) st).2 :=
  hx st

theorem onStore_aside (x : AccountTx α) (db : CreditDb R) :
    ∃ s, (onStore x db).2 = { db with store := s } := ⟨_, rfl⟩

theorem database_aside {x : Act (CreditDb R) BillingError α}
    (h : ∀ db, ∃ s, (x db).2 = { db with store := s }) (st : SessionState R) :
    Aside st (database x st).2 := ⟨rfl, h st.db⟩

theorem preConsumeTokenQuota_aside (info : RelayInfo R) (cached : Option Token) (quota : Int)
    (db : CreditDb R) :
    ∃ s, (preConsumeTokenQuota info cached quota db).2 = { db with store := s } := by
  unfold preConsumeTokenQuota
  split
  · exact ⟨db.store, rfl⟩
  split
  · exact ⟨db.store, rfl⟩
  obtain ⟨s, hs⟩ := onStore_aside (getTokenByKey cached info.tokenKey) db
  rcases hr : onStore (getTokenByKey cached info.tokenKey) db with ⟨res, db₁⟩
  rw [hr] at hs
  cases res with
  | error =>
    rw [bind_of_error hr]
    exact ⟨s, hs⟩
  | ok =>
    rw [bind_of_ok hr]
    simp only at hs
    split
    · exact ⟨s, hs⟩
    · obtain ⟨s', hs'⟩ := onStore_aside (decreaseTokenQuota info.tokenId quota) db₁
      exact ⟨s', by rw [hs', hs]⟩

theorem reserveToken_aside (cached : Option Token) (delta : Int) :
    ∀ st : SessionState R, Aside st (reserveToken cached delta st).2 := by
  refine aside_bind Aside.refl fun s st => ?_
  split
  · exact Aside.refl st
  · exact database_aside (preConsumeTokenQuota_aside _ _ _) st

theorem parkChargeSettlement_aside (info : RelayInfo R) (walletDelta tokenDelta : Int)
    (st : SessionState R) : Aside st (parkChargeSettlement info walletDelta tokenDelta st).2 := by
  unfold parkChargeSettlement
  split
  · exact Aside.refl st
  · exact ⟨rfl, st.db.store, rfl⟩

theorem parkRefusedTokenSettlement_aside (delta : Int) (e : BillingError) :
    ∀ st : SessionState R, Aside st (parkRefusedTokenSettlement delta e st).2 := by
  refine aside_bind Aside.refl fun s st => ?_
  split
  · exact Aside.refl st
  · exact aside_bind (parkChargeSettlement_aside _ _ _) (fun _ => Aside.refl) st

theorem settleToken_aside (delta : Int) :
    ∀ st : SessionState R, Aside st (settleToken delta st).2 := by
  refine aside_bind Aside.refl fun s st => ?_
  split
  · exact Aside.refl st
  refine aside_bind (attempt_aside (database_aside (onStore_aside _))) (fun res st => ?_) st
  cases res with
  | ok => exact Aside.refl st
  | error e =>
    refine aside_bind (parkRefusedTokenSettlement_aside delta e) (fun b st => ?_) st
    cases b <;> exact Aside.refl st

end Aside

/-! ### Opening -/

variable {cached : Option Token} {st : SessionState R}

/-- Opening a session moves the ledger only through the funding source. -/
theorem preConsumeToken_aside {quota : Int} {st₁ : SessionState R}
    (h : preConsumeToken cached quota st = (.ok (), st₁)) :
    ∃ s n, st₁ = { st.withStore s with session := { st.session with tokenConsumed := n } } := by
  simp only [preConsumeToken, session, read_bind] at h
  split at h
  · obtain ⟨⟨⟩, st', hrun, h⟩ := bind_ok.mp h
    obtain ⟨db', hquota, rfl⟩ := zoom_ok.mp (mapError_ok.mp hrun)
    obtain ⟨s, hs⟩ := preConsumeTokenQuota_aside st.session.relayInfo cached quota st.db
    rw [hquota] at hs
    refine ⟨s, quota, ?_⟩
    rw [← (Prod.mk.inj h).2, show db' = _ from hs]
    rfl
  · exact ⟨st.db.store, st.session.tokenConsumed, (Prod.mk.inj h).2.symm⟩

variable {st' : SessionState R}

theorem onPromo_ok {p : PromoFunding R} {x : PromoFunding.Method R Unit} :
    onPromo p x st = (.ok (), st') ↔ ∃ p' db', x (p, st.db) = (.ok (), (p', db')) ∧
      st' = st.setFunding (.promo p') db' := by
  unfold onPromo
  rw [zoom_ok]
  constructor
  · rintro ⟨⟨p', db'⟩, hx, rfl⟩
    exact ⟨p', db', hx, rfl⟩
  · rintro ⟨p', db', hx, rfl⟩
    exact ⟨(p', db'), hx, rfl⟩

variable {db' : CreditDb R}

theorem onCredit_ok {F : Type} {x : CreditTx R α} {f f' : F} {db : CreditDb R} {a : α} :
    onDb (onCredit x) (f, db) = (.ok a, (f', db')) ↔ x db = .ok (a, db') ∧ f' = f := by
  unfold onDb onCredit
  rw [zoom_ok]
  simp only [mapError_ok, commit_ok, Prod.mk.injEq]
  constructor
  · rintro ⟨s, hx, rfl, rfl⟩
    exact ⟨hx, rfl⟩
  · rintro ⟨hx, rfl⟩
    exact ⟨db', hx, rfl, rfl⟩

variable {target : Int}

section Methods

variable [Ratio R] {p p' : PromoFunding R} {db db' : CreditDb R} {env : Setting R}
  {info : RelayInfo R}

theorem promo_preConsume_ok {amount : Int} (hpos : 0 < amount)
    (h : p.preConsume env info amount (p, db) = (.ok (), (p', db'))) :
    ∃ r, reserveCreditPool (p.request info amount) env.now db = .ok (r, db') ∧
      p' = { p with reservationId := r.id, preConsumed := amount } := by
  rw [PromoFunding.preConsume, if_neg (not_le.mpr hpos)] at h
  obtain ⟨r, ⟨p₁, db₁⟩, hres, hwrite⟩ := bind_ok.mp h
  obtain ⟨hrun, rfl⟩ := onCredit_ok.mp hres
  obtain ⟨rfl, rfl⟩ := Prod.mk.inj (Prod.mk.inj hwrite).2
  exact ⟨r, hrun, rfl⟩

theorem promo_resize_ok (h : p.resize env target (p, db) = (.ok (), (p', db'))) :
    resizePendingCreditPoolReservation p.reservationId target
        (creditPoolCostQuota target p.customerRatio p.costRatio) env.now db = .ok ((), db') ∧
      p' = { p with preConsumed := target } := by
  obtain ⟨⟨⟩, ⟨p₁, db₁⟩, hres, hwrite⟩ := bind_ok.mp h
  obtain ⟨hrun, rfl⟩ := onCredit_ok.mp hres
  obtain ⟨rfl, rfl⟩ := Prod.mk.inj (Prod.mk.inj hwrite).2
  exact ⟨hrun, rfl⟩

theorem promo_settle_ok {delta : Int} (hpos : 0 < p.reservationId)
    (h : p.settle env info delta (p, db) = (.ok (), (p', db'))) :
    settleCreditPoolReservationAtCost p.reservationId info.channelId (p.preConsumed + delta)
        (creditPoolCostQuota (p.preConsumed + delta) p.customerRatio
          (env.channelCostRatio info.channelId)) (env.channelCostRatio info.channelId) env.now db =
      .ok ((), db') := by
  rw [PromoFunding.settle, if_neg (not_le.mpr hpos), write_bind] at h
  obtain ⟨⟨⟩, ⟨p₁, db₁⟩, hres, hwrite⟩ := bind_ok.mp h
  obtain ⟨hrun, rfl⟩ := onCredit_ok.mp hres
  obtain ⟨rfl, rfl⟩ := Prod.mk.inj (Prod.mk.inj hwrite).2
  exact hrun

end Methods

variable {env : Setting R}

/-- **A successful `Reserve`** did nothing, or it moved the funding source and
then the token. -/
theorem reserve_ok [Ratio R] (h : reserve env cached target st = (.ok (), st')) :
    st' = st ∨ ∃ st₁ s, 0 < target - st.session.preConsumedQuota ∧
      reserveFunding env (target - st.session.preConsumedQuota) st = (.ok (), st₁) ∧
      st' = { session := (st₁.session.addReserved (target - st.session.preConsumedQuota)).synced
              db := { st₁.db with store := s }, parked := st'.parked, jobs := st'.jobs } := by
  simp only [reserve, session, read_bind] at h
  split at h
  · exact .inl (Prod.mk.inj h).2.symm
  split at h
  · exact .inl (Prod.mk.inj h).2.symm
  obtain ⟨⟨⟩, st₁, hfund, htok⟩ := bind_ok.mp h
  have haside := reserveToken_aside cached (target - st.session.preConsumedQuota) st₁
  rw [attempt_bind] at htok
  rcases hr : reserveToken cached (target - st.session.preConsumedQuota) st₁ with ⟨res, st₂⟩
  rw [hr] at htok haside
  cases res with
  | error =>
    obtain ⟨_, _, _, hfail⟩ := bind_ok.mp htok
    simp at hfail
  | ok =>
    obtain ⟨hsession, s, hs⟩ := haside
    obtain rfl := (Prod.mk.inj htok).2
    refine .inr ⟨st₁, s, by omega, hfund, ?_⟩
    rw [← hs, ← hsession]

/-! ### Sessions with a reservation -/

/-- Session, funding source and reservation agree, and since `db` the request has moved the
difference. -/
structure Holding (db₀ db : CreditDb R) (info : RelayInfo R) (st : SessionState R)
    (r : CreditPoolReservation R) : Prop where
  funding : ∃ p, st.session.funding = .promo p ∧ p.reservationId = r.id ∧
    p.preConsumed = r.customerQuota ∧ p.customerRatio = info.groupRatio
  held : st.session.preConsumedQuota = r.customerQuota
  mirrored : st.session.relayInfo.creditReservationId = r.id
  fundingSettled : st.session.fundingSettled = false
  settled : st.session.settled = false
  books : Books db₀ st.db
  row : st.db.reservations.find? r.id = some r
  grantId : r.grantId = info.creditGrantId
  poolId : r.poolId = info.creditPoolId
  live : r.status ≠ .refunded
  charged : ∀ g, st.db.charged g = db.charged g +
    if r.grantId = g then r.customerQuota - requestCharge db info.requestId else 0
  drawn : ∀ p, st.db.drawn p = db.drawn p +
    if r.poolId = p then r.poolQuota - requestDrawn db info.requestId else 0

section Holding

variable {db₀ db : CreditDb R} {info : RelayInfo R} {st : SessionState R}
  {r : CreditPoolReservation R}

theorem Holding.positive (h : Holding db₀ db info st r) : 0 < r.id :=
  h.books.positive r (mem_of_find? h.row)

theorem heldCustomer_of_live (h : r.status ≠ .refunded) : r.heldCustomer = r.customerQuota :=
  if_neg h

theorem heldPool_of_live (h : r.status ≠ .refunded) : r.heldPool = r.poolQuota :=
  if_neg h

/-- What a change of the reservation's row leaves. -/
theorem Holding.rebooked {f : CreditPoolReservation R → CreditPoolReservation R}
    (h : Holding db₀ db info st r) (hreb : Rebooked db₀ st.db r.id f db') (hid : (f r).id = r.id)
    (hgrant : (f r).grantId = r.grantId) (hpool : (f r).poolId = r.poolId)
    (hlive : (f r).status ≠ .refunded) :
    db'.reservations.find? (f r).id = some (f r) ∧
      (∀ g, db'.charged g = db.charged g + if (f r).grantId = g
        then (f r).customerQuota - requestCharge db info.requestId else 0) ∧
      ∀ p, db'.drawn p = db.drawn p + if (f r).poolId = p
        then (f r).poolQuota - requestDrawn db info.requestId else 0 := by
  refine ⟨by rw [hid]; exact rebooked_find hreb h.row, fun g => ?_, fun p => ?_⟩
  · rw [CreditDb.charged, rebooked_sum hreb h.row hgrant, ← CreditDb.charged, h.charged, hgrant,
      heldCustomer_of_live hlive, heldCustomer_of_live h.live]
    split <;> omega
  · rw [CreditDb.drawn, rebooked_sum hreb h.row hpool, ← CreditDb.drawn, h.drawn, hpool,
      heldPool_of_live hlive, heldPool_of_live h.live]
    split <;> omega

variable [Ratio R]

/-- **A reservation is opened or found again.** -/
theorem reserve_holding {q : ReserveRequest R} {now : Int} (hb : Books db₀ db)
    (h : reserveCreditPool q now db = .ok (r, db')) :
    Books db₀ db' ∧ db'.reservations.find? r.id = some r ∧ r.grantId = q.grantId ∧
      r.poolId = q.poolId ∧ r.customerQuota = q.customerQuota ∧ r.status ≠ .refunded ∧
      (∀ g, db'.charged g = db.charged g +
        if r.grantId = g then r.customerQuota - requestCharge db q.requestId else 0) ∧
      ∀ p, db'.drawn p = db.drawn p +
        if r.poolId = p then r.poolQuota - requestDrawn db q.requestId else 0 := by
  obtain ⟨hbooks, hcase⟩ := (reserveCreditPool_spec hb).ok h
  refine ⟨hbooks, ?_⟩
  rcases hcase with ⟨rfl, hfind, hlive, hm⟩ | ⟨hnone, tenantId, hr, hins⟩
  · simp only [ReserveRequest.matched, Bool.and_eq_true, decide_eq_true_eq] at hm
    obtain ⟨⟨⟨-, hgrant, hpool, -, hquota, -⟩, -⟩, -⟩ := hm
    have hcharge : requestCharge db' q.requestId = r.customerQuota := by
      rw [requestCharge, requestRow, hfind]
      exact heldCustomer_of_live hlive
    have hdrawn : requestDrawn db' q.requestId = r.poolQuota := by
      rw [requestDrawn, requestRow, hfind]
      exact heldPool_of_live hlive
    refine ⟨find?_eq_some_iff.mpr ⟨List.mem_of_find?_eq_some hfind, rfl⟩, hgrant, hpool,
      hquota, hlive, fun g => ?_, fun p => ?_⟩
    · simp [hcharge]
    · simp [hdrawn]
  have hcharge : requestCharge db q.requestId = 0 := by
    rw [requestCharge, requestRow, hnone]
    rfl
  have hdrawn : requestDrawn db q.requestId = 0 := by
    rw [requestDrawn, requestRow, hnone]
    rfl
  have hlive : r.status ≠ .refunded := by
    rw [hr]
    exact CreditReservationStatus.noConfusion
  refine ⟨find?_insert?_self hins, by rw [hr]; rfl, by rw [hr]; rfl, by rw [hr]; rfl,
    hlive, fun g => ?_, fun p => ?_⟩
  · rw [CreditDb.charged, sum_insert? hins, ← CreditDb.charged,
      heldCustomer_of_live hlive, hcharge, sub_zero]
  · rw [CreditDb.drawn, sum_insert? hins, ← CreditDb.drawn, heldPool_of_live hlive, hdrawn,
      sub_zero]

/-- **A promotional session opened with a quota holds a reservation for it.** -/
theorem holding_open {tokenQuota quota : Int} (hb : Books db₀ db) (hpos : 0 < quota)
    (hpromo : 0 < info.creditPoolId ∧ 0 < info.creditGrantId)
    (hnew : newBillingSession env tokenQuota cached info quota db = (.ok st, db')) :
    ∃ r, Holding db₀ db info st r := by
  rw [newBillingSession, if_pos hpromo] at hnew
  obtain ⟨trusted, st₁, st₂, htrust, htok, hfund, rfl⟩ := openSession_ok hnew
  obtain rfl : trusted = false := by
    rw [htrust, BillingSession.shouldTrust]
    simp [freshSession]
  obtain ⟨s, n, rfl⟩ := preConsumeToken_aside htok
  simp only [fundingPreConsume, session, read_bind, freshSession, Bool.false_eq_true,
    onPromo_ok] at hfund
  obtain ⟨p', db₂, hrun, rfl⟩ := hfund
  obtain ⟨r, hres, rfl⟩ := promo_preConsume_ok hpos hrun
  obtain ⟨hbooks, hrow, hgrant, hpool, hquota, hlive, hcharged, hdrawn⟩ :=
    reserve_holding (books_withStore hb s) hres
  exact ⟨r, ⟨_, rfl, rfl, hquota.symm, rfl⟩, hquota.symm, rfl, rfl, rfl, hbooks, hrow, hgrant,
    hpool, hlive, hcharged, hdrawn⟩

/-- **A successful `Reserve`** moves the reservation with the session. -/
theorem Holding.reserve (h : Holding db₀ db info st r)
    (hok : Billing.reserve env cached target st = (.ok (), st')) :
    ∃ r', Holding db₀ db info st' r' := by
  rcases reserve_ok hok with rfl | ⟨st₁, s, hdelta, hfund, hst⟩
  · exact ⟨r, h⟩
  obtain ⟨p, hp, hpid, hpre, hratio⟩ := h.funding
  have hpos := h.positive
  simp only [reserveFunding, session, read_bind, hp, PromoFunding.reserve] at hfund
  rw [if_neg (by omega), mapError_ok, onPromo_ok] at hfund
  obtain ⟨p', db₁, hrun, rfl⟩ := hfund
  obtain ⟨hres, rfl⟩ := promo_resize_ok hrun
  rw [hpid] at hres
  obtain ⟨res, hfind, hpending, hreb⟩ :=
    (resizePendingCreditPoolReservation_spec h.books).ok hres
  obtain ⟨hrow, hcharged, hdrawn⟩ := h.rebooked hreb rfl rfl rfl h.live
  rw [hst]
  refine ⟨r.resized (p.preConsumed + (target - st.session.preConsumedQuota)) _,
    ⟨_, rfl, hpid, rfl, hratio⟩, ?_, hpid, h.fundingSettled, h.settled,
    books_withStore hreb.books s, hrow, h.grantId, h.poolId, h.live, hcharged, hdrawn⟩
  show st.session.preConsumedQuota + _ = p.preConsumed + _
  rw [h.held, hpre]

end Holding

/-! ### Settling -/

section Settling

variable [Ratio R] {db₀ db : CreditDb R} {info : RelayInfo R} {st st' : SessionState R}
  {r : CreditPoolReservation R} {env : Setting R} {actual : Int}

/-- **A successful `Settle`** settled the funding source; the rest left the ledger alone. -/
theorem settle_ok {p : PromoFunding R} (hp : st.session.funding = .promo p)
    (hs : st.session.settled = false) (hfs : st.session.fundingSettled = false)
    (h : settle env actual st = (.ok (), st')) :
    ∃ st₁, fundingSettle env (actual - st.session.preConsumedQuota) st = (.ok (), st₁) ∧
      st'.session.relayInfo = st₁.session.relayInfo ∧
      ∃ s, st'.db = { st₁.db with store := s } := by
  simp only [settle, session, read_bind, hs, Bool.false_eq_true] at h
  by_cases h0 : actual - st.session.preConsumedQuota = 0
  · rw [if_pos h0] at h
    obtain ⟨⟨⟩, st₁, hfund, hup⟩ := bind_ok.mp h
    obtain rfl := (Prod.mk.inj hup).2
    exact ⟨st₁, by rw [h0]; exact hfund, rfl, st₁.db.store, rfl⟩
  rw [if_neg h0] at h
  obtain ⟨parked, st₁, hfund, hrest⟩ := bind_ok.mp h
  have hsource : (fundingSettle env (actual - st.session.preConsumedQuota) st).2.session.funding.source =
      .promotional := by
    simp only [fundingSettle, session, read_bind, hp]
    rfl
  simp only [settleFunding, session, read_bind, hfs, Bool.false_eq_true, if_false,
    attempt_bind] at hfund
  rcases hr : fundingSettle env (actual - st.session.preConsumedQuota) st with ⟨res, st₂⟩
  rw [hr] at hfund hsource
  cases res with
  | error e =>
    have hpark : parkRefusedWalletSettlement (actual - st.session.preConsumedQuota) e st₂ =
        (.ok false, st₂) := by
      simp only [parkRefusedWalletSettlement, session, read_bind]
      rw [if_pos (.inl (by rw [hsource]; exact BillingSource.noConfusion))]
      rfl
    simp only [bind_of_ok hpark] at hfund
    simp at hfund
  | ok =>
    obtain ⟨hparked, rfl⟩ := Prod.mk.inj hfund
    obtain rfl : parked = false := (Except.ok.inj hparked).symm
    obtain ⟨tokenErr, st₃, htok, hup⟩ := bind_ok.mp hrest
    have haside := settleToken_aside (actual - st.session.preConsumedQuota)
      { st₂ with session := { st₂.session with fundingSettled := true } }
    rw [show settleToken _ _ = _ from htok] at haside
    obtain ⟨hsession, s, hs⟩ := haside
    obtain rfl := (Prod.mk.inj hup).2
    refine ⟨st₂, rfl, ?_, s, hs⟩
    show st₃.session.relayInfo = _
    rw [show st₃.session = _ from hsession]

/-- **Settling a session that holds a reservation** charges the actual amount and its cost. -/
theorem Holding.settle (h : Holding db₀ db info st r)
    (hok : Billing.settle env actual st = (.ok (), st')) :
    let cost := creditPoolCostQuota actual info.groupRatio
      (env.channelCostRatio st.session.relayInfo.channelId)
    requestCharge db info.requestId + (st'.db.charged info.creditGrantId -
        db.charged info.creditGrantId) = actual ∧
      requestDrawn db info.requestId + (st'.db.drawn info.creditPoolId -
        db.drawn info.creditPoolId) = cost ∧
      Books db₀ st'.db ∧
      ∃ r', st'.db.reservations.find? st'.session.relayInfo.creditReservationId = some r' ∧
        r'.status = .settled := by
  obtain ⟨p, hp, hpid, hpre, hratio⟩ := h.funding
  obtain ⟨st₁, hfund, hinfo, s, hs⟩ := settle_ok hp h.settled h.fundingSettled hok
  have hpos := h.positive
  simp only [fundingSettle, session, read_bind, hp, onPromo_ok] at hfund
  obtain ⟨p', db₁, hrun, rfl⟩ := hfund
  have hres := promo_settle_ok (by omega) hrun
  have hactual : p.preConsumed + (actual - st.session.preConsumedQuota) = actual := by
    rw [hpre, h.held]
    omega
  rw [hactual, hpid, hratio] at hres
  have hmirrored : st'.session.relayInfo.creditReservationId = r.id := by
    rw [hinfo]
    exact h.mirrored
  rw [hmirrored, hs]
  obtain ⟨res, hfind, hcase⟩ := (settleCreditPoolReservationAtCost_spec h.books
    (creditPoolCostQuota_nonneg _ _ _)).ok hres
  rcases hcase with ⟨rfl, hsettled, hcustomer, hpool⟩ | ⟨channelId', ratio', hreb⟩
  · obtain rfl : r = res := Option.some.inj (h.row.symm.trans hfind)
    have hc := h.charged info.creditGrantId
    have hd := h.drawn info.creditPoolId
    rw [if_pos h.grantId, hcustomer] at hc
    rw [if_pos h.poolId, hpool] at hd
    refine ⟨?_, ?_, books_withStore h.books s, r, h.row, hsettled⟩
    · show _ + (st.db.charged _ - _) = _
      omega
    · show _ + (st.db.drawn _ - _) = _
      omega
  obtain ⟨hrow, hcharged, hdrawn⟩ :=
    h.rebooked hreb rfl rfl rfl CreditReservationStatus.noConfusion
  have hc := hcharged info.creditGrantId
  have hd := hdrawn info.creditPoolId
  simp only [CreditPoolReservation.settledAt, h.grantId, if_true] at hc
  simp only [CreditPoolReservation.settledAt, h.poolId, if_true] at hd
  refine ⟨?_, ?_, books_withStore hreb.books s, _, hrow, rfl⟩
  · show _ + (db₁.charged _ - _) = _
    omega
  · show _ + (db₁.drawn _ - _) = _
    omega

end Settling

/-! ### Sessions without a reservation -/

/-- The session has no reservation, and the ledger is still `db`. -/
structure Unreserved (db : CreditDb R) (st : SessionState R) : Prop where
  funding : ∃ p, st.session.funding = .promo p ∧ p.reservationId = 0
  mirrored : st.session.relayInfo.creditReservationId = 0
  fundingSettled : st.session.fundingSettled = false
  settled : st.session.settled = false
  db : ∃ s, st.db = { db with store := s }

section Unreserved

variable [Ratio R] {db : CreditDb R} {info : RelayInfo R} {st st' : SessionState R}
  {env : Setting R}

theorem unreserved_open {tokenQuota : Int} (hpromo : 0 < info.creditPoolId ∧ 0 < info.creditGrantId)
    (hnew : newBillingSession env tokenQuota cached info 0 db = (.ok st, db')) :
    Unreserved db st := by
  rw [newBillingSession, if_pos hpromo] at hnew
  obtain ⟨trusted, st₁, st₂, -, htok, hfund, rfl⟩ := openSession_ok hnew
  rw [ite_self] at htok hfund
  obtain ⟨s, n, rfl⟩ := preConsumeToken_aside htok
  simp only [fundingPreConsume, session, read_bind, freshSession, PromoFunding.preConsume, le_refl,
    onPromo_ok] at hfund
  obtain ⟨p', db₂, hrun, rfl⟩ := hfund
  obtain ⟨rfl, rfl⟩ := Prod.mk.inj (Prod.mk.inj hrun).2
  exact ⟨⟨_, rfl, rfl⟩, rfl, rfl, rfl, s, rfl⟩

theorem Unreserved.reserve (h : Unreserved db st)
    (hok : Billing.reserve env cached target st = (.ok (), st')) : Unreserved db st' := by
  rcases reserve_ok hok with rfl | ⟨st₁, s, -, hfund, hst⟩
  · exact h
  obtain ⟨p, hp, hpid⟩ := h.funding
  simp only [reserveFunding, session, read_bind, hp, PromoFunding.reserve, hpid, le_refl, or_true,
    mapError_ok, onPromo_ok] at hfund
  obtain ⟨p', db₁, hrun, rfl⟩ := hfund
  obtain ⟨rfl, rfl⟩ := Prod.mk.inj (Prod.mk.inj hrun).2
  obtain ⟨s₀, hs₀⟩ := h.db
  rw [hst]
  refine ⟨⟨p, rfl, hpid⟩, hpid, h.fundingSettled, h.settled, s, ?_⟩
  simp only [SessionState.setFunding, hs₀]

theorem Unreserved.settle (h : Unreserved db st) {actual : Int}
    (hok : Billing.settle env actual st = (.ok (), st')) :
    st'.session.relayInfo.creditReservationId = 0 ∧ st'.db.reservations = db.reservations := by
  obtain ⟨p, hp, hpid⟩ := h.funding
  obtain ⟨st₁, hfund, hinfo, s, hs⟩ := settle_ok hp h.settled h.fundingSettled hok
  simp only [fundingSettle, session, read_bind, hp, PromoFunding.settle, hpid, le_refl,
    onPromo_ok] at hfund
  obtain ⟨p', db₁, hrun, rfl⟩ := hfund
  obtain ⟨rfl, rfl⟩ := Prod.mk.inj (Prod.mk.inj hrun).2
  obtain ⟨s₀, hs₀⟩ := h.db
  refine ⟨?_, ?_⟩
  · rw [hinfo]
    exact h.mirrored
  · rw [hs]
    show st.db.reservations = _
    rw [hs₀]

end Unreserved

/-! ### Whole requests -/

/-- The calls before a settlement: reservations and changes of channel. -/
def SessionCall.Prepares : SessionCall R → Prop
  | .reserve _ _ _ => True
  | .channel _ => True
  | _ => False

/-- An assertion about a session that successful preparations keep holds after
all of them. -/
theorem prepared_after [Ratio R] {P : SessionState R → Prop}
    (hreserve : ∀ st st' env cached target, P st →
      reserve env cached target st = (.ok (), st') → P st')
    (hchannel : ∀ st channelId, P st → P ((SessionCall.channel channelId).act st).2) (h : P st)
    (cs : List (SessionCall R)) (hcs : ∀ pre c post, cs = pre ++ c :: post →
      c.Prepares ∧ (c.act (st.after pre)).1 = .ok ()) : P (st.after cs) := by
  induction cs using List.reverseRecOn with
  | nil => exact h
  | append_singleton cs c ih =>
    have hP := ih fun pre d post he => hcs pre d (post ++ [c]) (by simp [he])
    obtain ⟨hprep, hok⟩ := hcs cs c [] rfl
    rw [SessionState.after_concat]
    cases c with
    | reserve env cached target => exact hreserve _ _ env cached target hP (Prod.ext hok rfl)
    | channel channelId => exact hchannel _ channelId hP
    | settle | refund | work => exact hprep.elim

/-- **When promotional funding charges what was used.** A session that is opened, prepared and
settled with success has taken the actual amount from the grant and its cost from the pool, if and
only if it was opened with a positive quota. -/
theorem promo_charges_actual [Ratio R] {db₀ db db' : CreditDb R} (hbooks : Books db₀ db)
    {env env' : Setting R} {tokenQuota quota actual : Int} {cached : Option Token}
    {info : RelayInfo R} {st st' : SessionState R} {cs : List (SessionCall R)}
    (hpromo : 0 < info.creditPoolId ∧ 0 < info.creditGrantId) (h0 : 0 ≤ quota)
    (hnew : newBillingSession env tokenQuota cached info quota db = (.ok st, db'))
    (hcs : ∀ pre c post, cs = pre ++ c :: post →
      c.Prepares ∧ (c.act (st.after pre)).1 = .ok ())
    (hsettle : settle env' actual (st.after cs) = (.ok (), st')) :
    (requestCharge db info.requestId +
        (db.grantQuota info.creditGrantId - st'.db.grantQuota info.creditGrantId) = actual ∧
      requestDrawn db info.requestId +
        (db.inventory info.creditPoolId - st'.db.inventory info.creditPoolId) =
          creditPoolCostQuota actual info.groupRatio
            (env'.channelCostRatio (st.after cs).session.relayInfo.channelId) ∧
      ∃ r, st'.db.reservations.find? st'.session.relayInfo.creditReservationId = some r ∧
        r.status = .settled) ↔ 0 < quota := by
  constructor
  · rintro ⟨-, -, r, hfind, -⟩
    by_contra hpos
    obtain rfl : quota = 0 := by omega
    have hun := prepared_after (P := Unreserved db)
      (fun _ _ _ _ _ h hok => h.reserve hok)
      (fun _ _ h => ⟨h.funding, h.mirrored, h.fundingSettled, h.settled, h.db⟩)
      (unreserved_open hpromo hnew) cs hcs
    obtain ⟨hid, hres⟩ := hun.settle hsettle
    rw [hid, hres] at hfind
    have hrid := hbooks.positive r (mem_of_find? hfind)
    rw [key_of_find? hfind] at hrid
    omega
  · intro hpos
    obtain ⟨r, hr⟩ := prepared_after (P := fun st => ∃ r, Holding db₀ db info st r)
      (fun _ _ _ _ _ ⟨_, h⟩ hok => h.reserve hok)
      (fun _ _ ⟨r, h⟩ => ⟨r, { h with mirrored := h.mirrored }⟩)
      (holding_open hbooks hpos hpromo hnew) cs hcs
    obtain ⟨hcharged, hdrawn, hb, hsettled⟩ := hr.settle hsettle
    have hg := hbooks.grants info.creditGrantId
    have hg' := hb.grants info.creditGrantId
    have hp := hbooks.inventory info.creditPoolId
    have hp' := hb.inventory info.creditPoolId
    exact ⟨by omega, by omega, hsettled⟩

/-- The promotional session of `requestInfo` over `requestDb`. -/
def promoRequest (quota : Int) : Except BillingError (SessionState ℚ) × CreditDb ℚ :=
  newBillingSession requestEnv 500 none (requestInfo 9 5) quota requestDb

theorem promo_charges_actual_reserved :
    ∃ st db' st', promoRequest 100 = (.ok st, db') ∧
      settle requestEnv 250 (st.after [.reserve requestEnv none 180, .channel 6]) = (.ok (), st') ∧
      requestDb.grantQuota 5 - st'.db.grantQuota 5 = 250 := by
  have hfacts : (promoRequest 100).1.toOption.map (fun st =>
      ((reserve requestEnv none 180 st).1,
        (settle requestEnv 250 (st.after [.reserve requestEnv none 180, .channel 6])).1)) =
      some (.ok (), .ok ()) := by decide +kernel
  rcases hr : promoRequest 100 with ⟨res, db'⟩
  rw [hr] at hfacts
  cases res with
  | error => simp [Except.toOption] at hfacts
  | ok st =>
    simp only [Except.toOption, Option.map_some, Option.some.injEq, Prod.mk.injEq] at hfacts
    obtain ⟨hreserve, hsettle⟩ := hfacts
    refine ⟨st, db', _, rfl, Prod.ext hsettle rfl, ?_⟩
    have hall := (promo_charges_actual (Books.init rfl rfl : Books requestDb requestDb) (by decide)
      (by decide) hr (fun pre c post hcs => ?_) (Prod.ext hsettle rfl)).mpr (by decide)
    · exact (zero_add _).symm.trans hall.1
    match pre with
    | [] =>
      obtain ⟨rfl, -⟩ := hcs
      exact ⟨trivial, hreserve⟩
    | [d] =>
      obtain ⟨-, rfl, -⟩ := hcs
      exact ⟨trivial, rfl⟩
    | d :: d' :: pre => simp at hcs

/-- A session opened with nothing and settled for `250` charges neither the grant
nor the pool. -/
theorem promo_zero_estimate_is_free :
    (promoRequest 0).1.toOption.map (fun st =>
      let r := settle requestEnv 250 st
      (r.1, requestDb.grantQuota 5 - r.2.db.grantQuota 5,
        requestDb.inventory 9 - r.2.db.inventory 9, r.2.db.reservations.rows.length)) =
      some (.ok (), 0, 0, 0) ∧
    creditPoolCostQuota 250 (requestInfo 9 5).groupRatio (requestEnv.channelCostRatio 4) = 250 := by
  decide +kernel

end UnifyConsole.Billing
