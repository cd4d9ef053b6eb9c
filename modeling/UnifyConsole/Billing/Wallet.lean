import Mathlib
import UnifyConsole.Billing.Session

/-!
# What a session does to a wallet

Each piece of a session's methods, for a session paid from a wallet: it succeeds
(a token that cannot pay apart), and it charges the wallet and the token a known
amount.  `openSession_ok` takes the opening of any session apart.
-/

namespace UnifyConsole.Billing

open Lib Account Credit
open Act

variable {R : Type}

/-! ### The token of a session -/

/-- The token can pay `delta` more, as `PreConsumeTokenQuota` decides it. -/
def RelayInfo.canPay (info : RelayInfo R) (s : Store) (cached : Option Token) (delta : Int) :
    Bool :=
  info.isPlayground ||
    match cached.or (s.tokens.rows.find? fun t => decide (t.key = info.tokenKey)) with
    | none => false
    | some token => info.tokenUnlimited || decide (delta ≤ token.remainQuota)

open RelayInfo

def SessionState.withStore (st : SessionState R) (s : Store) : SessionState R :=
  { st with db := { st.db with store := s } }

def RelayInfo.tokenShare (info : RelayInfo R) (n : Int) : Int := if info.isPlayground then 0 else n

theorem RelayInfo.tokenShare_add (info : RelayInfo R) (n m : Int) :
    info.tokenShare n + info.tokenShare m = info.tokenShare (n + m) := by
  unfold tokenShare
  split <;> simp

theorem RelayInfo.tokenShare_neg (info : RelayInfo R) (n : Int) :
    info.tokenShare (-n) = -info.tokenShare n := by
  unfold tokenShare
  split <;> simp

/-- The parts of a request that billing does not change. -/
structure RelayInfo.Same (info info' : RelayInfo R) : Prop where
  userId : info'.userId = info.userId
  tokenId : info'.tokenId = info.tokenId
  isPlayground : info'.isPlayground = info.isPlayground
  creditPoolId : info'.creditPoolId = info.creditPoolId
  groupRatio : info'.groupRatio = info.groupRatio

variable {info : RelayInfo R}

theorem RelayInfo.Same.share {info' : RelayInfo R} (h : info.Same info') (n : Int) :
    info'.tokenShare n = info.tokenShare n := by
  rw [tokenShare, h.isPlayground, tokenShare]

/-! ### What the statements do -/

variable {db db' : CreditDb R} {cached : Option Token}

section Statements

variable {st : SessionState R} {w : Wallet} {f : WalletFunding}

variable {α : Type} {s : Store} {a : α}

theorem onStore_of {x : AccountTx α} (h : x db.store = .ok (a, s)) :
    onStore x db = (.ok a, { db with store := s }) := by
  unfold onStore
  rw [zoom_of_ok (commit_of_ok h)]

variable {x : Act (CreditDb R) BillingError α}

theorem database_ok (h : x st.db = (.ok a, db)) : database x st = (.ok a, { st with db := db }) :=
  zoom_of_ok h

theorem database_error {e : BillingError} (h : x st.db = (.error e, db)) :
    database x st = (.error e, { st with db := db }) :=
  zoom_of_error h

theorem database_of {x : AccountTx α} (h : x st.db.store = .ok (a, s)) :
    database (onStore x) st = (.ok a, st.withStore s) :=
  database_ok (onStore_of h)

theorem onDb_of {F : Type} (f : F) (h : x db = (.ok a, db')) :
    onDb x (f, db) = (.ok a, (f, db')) :=
  zoom_of_ok (show x (f, db).2 = _ from h)

theorem onWallet_of {x : WalletFunding.Method R Unit} {f' : WalletFunding}
    (h : x (f, st.db) = (.ok (), (f', db))) :
    onWallet f x st = (.ok (), st.setFunding (.wallet f') db) := by
  unfold onWallet zoom
  rw [h]
  rfl

theorem setFunding_self (hf : st.session.funding = .wallet f) (s : Store) :
    st.setFunding (.wallet f) { st.db with store := s } = st.withStore s := by
  rw [← hf]
  rfl

/-- A wallet is settled by a plain charge. -/
theorem fundingSettle_of [Ratio R] (hf : st.session.funding = .wallet f)
    (hd : DrawsOn st.db.store f.userId w) (tok : Int) (env : Setting R) (delta : Int) :
    ∃ s, fundingSettle env delta st = (.ok (), st.withStore s) ∧
      Charged w tok delta 0 st.db.store s := by
  have hrun : ∀ x : AccountTx Unit, ∀ s, x st.db.store = .ok ((), s) →
      onWallet f (onDb (onStore x)) st = (.ok (), st.withStore s) := by
    intro x s hx
    rw [onWallet_of (onDb_of f (onStore_of hx)), setFunding_self hf]
  have hstep : fundingSettle env delta st = onWallet f (f.settle delta) st := by
    simp only [fundingSettle, session, read_bind, hf]
  rw [hstep]
  unfold WalletFunding.settle
  by_cases h0 : delta = 0
  · refine ⟨st.db.store, ?_, (Charged.refl w tok _).of_eq h0.symm rfl⟩
    rw [if_pos h0, onWallet_of (pure_apply ..)]
    exact congrArg _ (setFunding_self hf st.db.store)
  obtain ⟨s, hs, hc⟩ := chargeUserQuota_of hd tok delta
  refine ⟨s, ?_, hc⟩
  rw [if_neg h0, ← hrun _ s hs]
  split <;> rfl

/-- The token bears its share of a settlement. -/
theorem settleToken_of (w : Wallet) (htok : st.session.relayInfo.isPlayground = false →
      (st.db.store.tokens.find? st.session.relayInfo.tokenId).isSome = true) (delta : Int) :
    ∃ s, settleToken delta st = (.ok (.ok ()), st.withStore s) ∧
      Charged w st.session.relayInfo.tokenId 0 (st.session.relayInfo.tokenShare delta)
        st.db.store s := by
  simp only [settleToken, session, read_bind, tokenShare]
  cases hp : st.session.relayInfo.isPlayground with
  | true => exact ⟨st.db.store, rfl, Charged.refl ..⟩
  | false =>
    obtain ⟨s, hs, hc⟩ := chargeTokenQuota_of (htok hp) w delta
    simp only [Bool.false_eq_true, if_false, attempt_bind]
    rw [database_of hs]
    exact ⟨s, rfl, hc⟩

/-- **A settlement** moves the difference between the actual amount and what was
pre-consumed. -/
theorem settle_of [Ratio R] (hf : st.session.funding = .wallet f)
    (hd : DrawsOn st.db.store f.userId w) (htok : st.session.relayInfo.isPlayground = false →
      (st.db.store.tokens.find? st.session.relayInfo.tokenId).isSome = true)
    (hs : st.session.settled = false) (hfs : st.session.fundingSettled = false) (env : Setting R)
    (actual : Int) :
    ∃ s, settle env actual st = (.ok (), { st.withStore s with
        session := { st.session with fundingSettled := true, settled := true } }) ∧
      Charged w st.session.relayInfo.tokenId (actual - st.session.preConsumedQuota)
        (st.session.relayInfo.tokenShare (actual - st.session.preConsumedQuota))
        st.db.store s := by
  generalize hdelta : actual - st.session.preConsumedQuota = delta
  obtain ⟨s, hrun, hc⟩ := fundingSettle_of hf hd st.session.relayInfo.tokenId env delta
  simp only [settle, session, read_bind, hs, Bool.false_eq_true, if_false, hdelta]
  by_cases h0 : delta = 0
  · subst h0
    refine ⟨s, ?_, hc.of_eq rfl (by simp [tokenShare])⟩
    rw [if_pos rfl, bind_of_ok hrun]
    rfl
  have hfund : settleFunding env delta st = (.ok false,
      { st.withStore s with session := { st.session with fundingSettled := true } }) := by
    simp only [settleFunding, session, read_bind, hfs, Bool.false_eq_true, if_false,
      attempt_bind, hrun]
    rfl
  have htok' : ({ st.withStore s with session := { st.session with fundingSettled := true } } :
      SessionState R).session.relayInfo.isPlayground = false → _ :=
    fun hp => (hc.tokenRows _).trans (htok hp)
  obtain ⟨s', hrun', hc'⟩ := settleToken_of w htok' delta
  refine ⟨s', ?_, (hc.trans hc').of_eq (add_zero _) (zero_add _)⟩
  rw [if_neg h0, bind_of_ok hfund]
  simp only [bind_of_ok hrun']
  rfl

theorem getTokenByKey_eq (cached : Option Token) (key : String) (s : Store) :
    getTokenByKey cached key s =
      match cached.or (s.tokens.rows.find? fun t => decide (t.key = key)) with
      | none => .error .recordNotFound
      | some token => .ok (token, s) := by
  cases cached with
  | some => rfl
  | none =>
    simp only [getTokenByKey, Tx.fetch]
    cases s.tokens.rows.find? (fun t => decide (t.key = key)) <;> rfl

theorem getTokenByKey_store {key : String} {s' : Store} {token : Token}
    (h : getTokenByKey cached key s = .ok (token, s')) : s' = s := by
  rw [getTokenByKey_eq] at h
  split at h
  · simp at h
  · exact (Prod.mk.inj (Except.ok.inj h)).2.symm

variable {delta : Int}

/-- **A token that can pay is charged its share**, and one that cannot is left
alone. -/
theorem preConsumeTokenQuota_of (w : Wallet)
    (htok : info.isPlayground = false → (db.store.tokens.find? info.tokenId).isSome = true)
    (cached : Option Token) (h0 : 0 ≤ delta) :
    (info.canPay db.store cached delta = true ∧ ∃ s,
      preConsumeTokenQuota info cached delta db = (.ok (), { db with store := s }) ∧
        Charged w info.tokenId 0 (info.tokenShare delta) db.store s) ∨
    (info.canPay db.store cached delta = false ∧ ∃ e,
      preConsumeTokenQuota info cached delta db = (.error e, db)) := by
  unfold preConsumeTokenQuota canPay tokenShare
  rw [if_neg (by omega)]
  cases hp : info.isPlayground with
  | true => exact .inl ⟨rfl, db.store, rfl, Charged.refl ..⟩
  | false =>
    have hget := getTokenByKey_eq cached info.tokenKey db.store
    simp only [Bool.false_eq_true, if_false]
    cases hf : cached.or (db.store.tokens.rows.find? fun t => decide (t.key = info.tokenKey)) with
    | none =>
      rw [hf] at hget
      refine .inr ⟨rfl, .account .recordNotFound, ?_⟩
      exact bind_of_error (zoom_of_error (commit_of_error hget))
    | some token =>
      rw [hf] at hget
      rw [bind_of_ok (onStore_of hget)]
      by_cases hpay : info.tokenUnlimited = true ∨ delta ≤ token.remainQuota
      · obtain ⟨s, hs, hc⟩ := decreaseTokenQuota_of (htok hp) w h0
        rw [if_neg (by rcases hpay with h | h <;> simp [h])]
        refine .inl ⟨by simpa using hpay, s, onStore_of hs, hc⟩
      · simp only [not_or, Bool.not_eq_true, not_le] at hpay
        rw [if_pos hpay]
        exact .inr ⟨by simp [hpay], _, rfl⟩

theorem reserveToken_of (w : Wallet) (htok : st.session.relayInfo.isPlayground = false →
      (st.db.store.tokens.find? st.session.relayInfo.tokenId).isSome = true) (cached : Option Token)
    (h0 : 0 < delta) :
    (st.session.relayInfo.canPay st.db.store cached delta = true ∧ ∃ s,
      reserveToken cached delta st = (.ok (), st.withStore s) ∧
        Charged w st.session.relayInfo.tokenId 0 (st.session.relayInfo.tokenShare delta)
          st.db.store s) ∨
    (st.session.relayInfo.canPay st.db.store cached delta = false ∧ ∃ e,
      reserveToken cached delta st = (.error e, st)) := by
  simp only [reserveToken, session, read_bind]
  by_cases hp : st.session.relayInfo.isPlayground = true
  · refine .inl ⟨by simp [canPay, hp], st.db.store, ?_, ?_⟩
    · rw [if_pos (.inr hp)]
      rfl
    · exact (Charged.refl ..).of_eq rfl (by simp [tokenShare, hp])
  rw [if_neg (by simp [hp]; omega)]
  rcases preConsumeTokenQuota_of w htok cached (Int.le_of_lt h0) with
    ⟨hc, s, hrun, hch⟩ | ⟨hc, e, hrun⟩
  · exact .inl ⟨hc, s, mapError_of_ok (database_ok hrun), hch⟩
  · exact .inr ⟨hc, _, mapError_of_error (database_error hrun)⟩

theorem reserveFunding_of [Ratio R] (hf : st.session.funding = .wallet f)
    (hd : DrawsOn st.db.store f.userId w) (tok : Int) (env : Setting R) (h0 : 0 ≤ delta) :
    ∃ s, reserveFunding env delta st = (.ok (), st.setFunding
        (.wallet ⟨f.userId, f.consumed + delta⟩) { st.db with store := s }) ∧
      Charged w tok delta 0 st.db.store s ∧ s.tokens = st.db.store.tokens := by
  obtain ⟨s, hs, hc⟩ := decreaseUserQuota_of hd tok h0
  refine ⟨s, ?_, hc⟩
  simp only [reserveFunding, session, read_bind, hf]
  refine onWallet_of ?_
  unfold WalletFunding.reserve
  rw [bind_of_ok (mapError_of_ok (onDb_of f (onStore_of hs)))]
  rfl

theorem rollbackFundingReserve_of [Ratio R] (hf : st.session.funding = .wallet f)
    (hd : DrawsOn st.db.store f.userId w) (tok : Int) (env : Setting R) (h0 : 0 ≤ delta) :
    ∃ s, rollbackFundingReserve env delta st = (.ok (), st.setFunding
        (.wallet ⟨f.userId, f.consumed + -delta⟩) { st.db with store := s }) ∧
      Charged w tok (-delta) 0 st.db.store s := by
  obtain ⟨s, hs, hc⟩ := increaseUserQuota_of hd tok h0
  refine ⟨s, ?_, hc⟩
  simp only [rollbackFundingReserve, session, read_bind, hf]
  refine onWallet_of ?_
  unfold WalletFunding.rollbackReserve
  rw [attempt_bind, onDb_of f (onStore_of hs)]
  rfl

/-- A refund gives the wallet what was consumed and the token its share. -/
theorem refundJob_of (hf : st.session.funding = .wallet f)
    (hd : DrawsOn st.db.store f.userId w) (hpos : 0 < f.consumed) {job : RefundJob}
    (hjob : job = ⟨st.session.relayInfo.tokenId, st.session.relayInfo.isPlayground, f.consumed⟩)
    (htok : st.session.relayInfo.isPlayground = false →
      (st.db.store.tokens.find? st.session.relayInfo.tokenId).isSome = true) :
    ∃ s, job.run st = (.ok (), st.withStore s) ∧
      Charged w st.session.relayInfo.tokenId (-f.consumed)
        (-st.session.relayInfo.tokenShare f.consumed) st.db.store s := by
  subst hjob
  obtain ⟨s, hs, hc⟩ := increaseUserQuota_of hd st.session.relayInfo.tokenId (Int.le_of_lt hpos)
  have hrefund : fundingRefund st = (.ok (), st.withStore s) := by
    simp only [fundingRefund, session, read_bind, hf, WalletFunding.refund]
    rw [if_neg (by omega), onWallet_of (onDb_of f (onStore_of hs)), setFunding_self hf]
  simp only [RefundJob.run, attempt_bind, hrefund]
  cases hp : st.session.relayInfo.isPlayground with
  | true =>
    refine ⟨s, ?_, hc.of_eq rfl (by simp [tokenShare, hp])⟩
    rw [if_neg (by simp)]
    rfl
  | false =>
    have htok' : (s.tokens.find? st.session.relayInfo.tokenId).isSome = true := by
      rw [hc.tokenRows]
      exact htok hp
    obtain ⟨s', hs', hc'⟩ := increaseTokenQuota_of htok' w (Int.le_of_lt hpos)
    refine ⟨s', ?_, (hc.trans hc').of_eq (by simp) (by simp [tokenShare, hp])⟩
    have hrun := database_of (show _ = Except.ok ((), s') from hs' :
      increaseTokenQuota st.session.relayInfo.tokenId f.consumed (st.withStore s).db.store = _)
    rw [if_pos ⟨hpos, rfl⟩, attempt_bind, hrun]
    rfl

end Statements

/-! ### Opening -/

variable {env : Setting R} {tokenQuota quota : Int} {st : SessionState R}

/-- **A session that opens** has taken its quota from the token and then from
the funding source. -/
theorem openSession_ok [Ratio R] {funding : Funding R}
    (h : openSession env tokenQuota cached info funding quota db = (.ok st, db')) :
    ∃ trusted st₁ st₂, trusted = (freshSession info funding).shouldTrust env tokenQuota ∧
      preConsumeToken cached (if trusted then 0 else quota)
        ⟨{ freshSession info funding with trusted := trusted }, db, [], []⟩ = (.ok (), st₁) ∧
      fundingPreConsume env (if trusted then 0 else quota) st₁ = (.ok (), st₂) ∧
      st = { st₂ with
        session := ({ st₂.session with preConsumedQuota := if trusted then 0 else quota } :
          BillingSession R).synced } := by
  unfold openSession at h
  simp only [Prod.mk.injEq] at h
  obtain ⟨h, -⟩ := h
  generalize hr : preConsume env tokenQuota cached quota ⟨freshSession info funding, db, [], []⟩ = r
    at h
  obtain ⟨res, st'⟩ := r
  cases res with
  | error => simp [Except.map] at h
  | ok u =>
    obtain rfl : st' = st := by simpa [Except.map] using h
    simp only [preConsume, session, update, read_bind, write_bind, bind_ok] at hr
    obtain ⟨⟨⟩, st₁, htok, hfund⟩ := hr
    simp only [preConsumeFunding, attempt_bind] at hfund
    rcases hf : fundingPreConsume env (if (freshSession info funding).shouldTrust env tokenQuota
      then 0 else quota) st₁ with ⟨res, st₂⟩
    rw [hf] at hfund
    cases res with
    | error =>
      rcases hb : (rollbackToken : SessionAct R Unit) st₂ with ⟨res, st₃⟩
      cases res with
      | error => simp [bind_of_error hb] at hfund
      | ok => simp [bind_of_ok hb] at hfund
    | ok =>
      exact ⟨_, st₁, st₂, rfl, htok, hf, (Prod.mk.inj hfund).2.symm⟩

theorem billingSource_of_openSession [Ratio R] {funding : Funding R}
    (h : openSession env tokenQuota cached info funding quota db = (.ok st, db')) :
    st.session.relayInfo.billingSource = some st.session.funding.source := by
  obtain ⟨trusted, st₁, st₂, -, -, -, rfl⟩ := openSession_ok h
  rfl

/-- The request of a session names where it is paid from. -/
theorem billingSource_of_new [Ratio R]
    (h : newBillingSession env tokenQuota cached info quota db = (.ok st, db')) :
    st.session.relayInfo.billingSource = some st.session.funding.source := by
  unfold newBillingSession at h
  split at h
  · exact billingSource_of_openSession h
  obtain ⟨userQuota, db₁, -, h⟩ := bind_ok.mp h
  split at h
  · simp at h
  · split at h
    · simp at h
    · exact billingSource_of_openSession h

/-- The token part of opening a session. -/
theorem preConsumeToken_ok {st₁ : SessionState R} (w : Wallet) (h0 : 0 ≤ quota)
    (hzero : st.session.tokenConsumed = 0) (htok : st.session.relayInfo.isPlayground = false →
      (st.db.store.tokens.find? st.session.relayInfo.tokenId).isSome = true)
    (h : preConsumeToken cached quota st = (.ok (), st₁)) :
    ∃ s, st₁ = { st.withStore s with session := { st.session with tokenConsumed := quota } } ∧
      Charged w st.session.relayInfo.tokenId 0 (st.session.relayInfo.tokenShare quota)
        st.db.store s := by
  simp only [preConsumeToken, session, read_bind] at h
  by_cases hpos : 0 < quota
  · rw [if_pos hpos] at h
    rcases preConsumeTokenQuota_of w htok cached h0 with ⟨-, s, hrun, hc⟩ | ⟨-, e, hrun⟩
    · rw [bind_of_ok (mapError_of_ok (database_ok hrun))] at h
      exact ⟨s, (Prod.mk.inj h).2.symm, hc⟩
    · rw [bind_of_error (mapError_of_error (database_error hrun))] at h
      simp at h
  · obtain rfl : quota = 0 := by omega
    refine ⟨st.db.store, ?_, (Charged.refl ..).of_eq rfl (by simp [tokenShare])⟩
    rw [← (Prod.mk.inj h).2, ← hzero]
    rfl

/-- The wallet part of opening a session. -/
theorem fundingPreConsume_ok [Ratio R] {st₁ : SessionState R} {w : Wallet} {userId : Int}
    (hf : st.session.funding = .wallet ⟨userId, 0⟩) (hd : DrawsOn st.db.store userId w) (tok : Int)
    (h0 : 0 ≤ quota) (h : fundingPreConsume env quota st = (.ok (), st₁)) :
    ∃ s, st₁ = st.setFunding (.wallet ⟨userId, quota⟩) { st.db with store := s } ∧
      Charged w tok quota 0 st.db.store s := by
  simp only [fundingPreConsume, session, read_bind, hf, WalletFunding.preConsume] at h
  by_cases hpos : 0 < quota
  · rw [if_neg (by omega)] at h
    simp only [onWallet, zoom_ok, bind_ok, onDb, onStore, commit_ok] at h
    obtain ⟨r, ⟨⟨⟩, r', ⟨db', ⟨s, hs, rfl⟩, rfl⟩, hw⟩, rfl⟩ := h
    obtain rfl := (Prod.mk.inj hw).2
    exact ⟨s, rfl, tryDecreaseUserQuota_charged hd tok hs⟩
  · obtain rfl : quota = 0 := by omega
    rw [if_pos (le_refl _)] at h
    exact ⟨st.db.store, (Prod.mk.inj h).2.symm, Charged.refl ..⟩

/-- **A session that opens on a wallet** has taken its quota, or nothing if it is trusted. -/
theorem walletSession_ok [Ratio R] (h0 : 0 ≤ quota)
    (hnew : newBillingSession env tokenQuota cached info quota db = (.ok st, db'))
    (hwallet : st.session.funding.source = .wallet)
    (htoken : info.isPlayground = false → (db.store.tokens.find? info.tokenId).isSome = true) :
    ∃ w s userQuota trusted held, held = (if trusted then 0 else quota) ∧
      db.store.walletOf info.userId = some w ∧ DrawsOn db.store info.userId w ∧
      Charged w info.tokenId held (info.tokenShare held) db.store s ∧
      st = { session := BillingSession.synced
              { freshSession { info with userQuota := userQuota } (.wallet ⟨info.userId, held⟩) with
                trusted := trusted, preConsumedQuota := held, tokenConsumed := held }
             db := { db with store := s }, parked := [], jobs := [] } := by
  unfold newBillingSession at hnew
  by_cases hpromo : 0 < info.creditPoolId ∧ 0 < info.creditGrantId
  · rw [if_pos hpromo] at hnew
    obtain ⟨trusted, st₁, st₂, -, htok, hfund, rfl⟩ := openSession_ok hnew
    obtain ⟨s, rfl, -⟩ := preConsumeToken_ok (.user 0) (by split <;> omega) rfl htoken htok
    simp only [fundingPreConsume, session, read_bind, freshSession, onPromo, zoom_ok] at hfund
    obtain ⟨r, -, rfl⟩ := hfund
    simp [BillingSession.synced, SessionState.setFunding, Funding.source] at hwallet
  rw [if_neg hpromo] at hnew
  obtain ⟨userQuota, db₁, hget, hnew⟩ := bind_ok.mp hnew
  simp only [mapError_ok, onStore, zoom_ok, commit_ok] at hget
  obtain ⟨s₁, hget, rfl⟩ := hget
  by_cases hpos : userQuota ≤ 0
  · rw [if_pos hpos] at hnew
    simp at hnew
  rw [if_neg hpos] at hnew
  by_cases hlow : userQuota - quota < 0
  · rw [if_pos hlow] at hnew
    simp at hnew
  rw [if_neg hlow] at hnew
  obtain ⟨rfl, w, hw, hd⟩ := getUserQuota_drawsOn hget (not_le.mp hpos)
  obtain ⟨trusted, st₁, st₂, -, htok, hfund, rfl⟩ := openSession_ok hnew
  obtain ⟨s, rfl, hc⟩ := preConsumeToken_ok w (by split <;> omega) rfl htoken htok
  obtain ⟨s', rfl, hc'⟩ := fundingPreConsume_ok (w := w) rfl (hd.charged hc) info.tokenId
    (by split <;> omega) hfund
  exact ⟨w, s', userQuota, trusted, _, rfl, hw, hd,
    (hc.trans hc').of_eq (zero_add _) (add_zero _), rfl⟩

/-! ### A request -/

def requestDb : CreditDb ℚ where
  store :=
    { users := ⟨[⟨1, "ada", "Ada", 1, "acme", 0, 7⟩], by decide⟩
      tenants := ⟨[⟨7, "Acme", "acme", 1, 1, 1000, "acme"⟩], by decide⟩
      tokens := ⟨[⟨3, 1, "k3", 500, 0, false⟩], by decide⟩ }
  lots := ⟨[⟨1, 9, 0, 800, 1, 0, 1⟩], by decide⟩
  grants := ⟨[⟨5, 7, 9, 600, 0, 0, 1⟩], by decide⟩

def requestInfo (creditPoolId creditGrantId : Int) : RelayInfo ℚ where
  requestId := "req"
  userId := 1
  tokenId := 3
  tokenKey := "k3"
  tokenUnlimited := false
  isPlayground := false
  forcePreConsume := false
  userQuota := 0
  channelId := 4
  creditPoolId := creditPoolId
  creditGrantId := creditGrantId
  groupRatio := 1
  finalPreConsumedQuota := 0
  billingSource := none
  creditReservationId := 0

def requestEnv : Setting ℚ := ⟨10, 5000000, fun _ => 1⟩

end UnifyConsole.Billing
