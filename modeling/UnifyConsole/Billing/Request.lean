import UnifyConsole.Billing.Wallet

/-!
# Requests

`service/billing.go` and `PostConsumeQuota` of `service/quota.go`: what the relay
itself calls.  A request for a free model has no billing session, and its
settlement falls back to a plain charge for the difference.

`Holds w held` says of a request that it is paid from the wallet `w` and has so
far taken `held`; settling it then moves the rest (`settleBilling_of`).
-/

namespace UnifyConsole.Billing

open Lib Account Credit
open Act

variable {R : Type}

/-- A request with its `relayInfo.Billing`, if it has one. -/
inductive Request (R : Type) where
  | unbilled (info : RelayInfo R) (db : CreditDb R)
  | billed (st : SessionState R)

namespace Request

def relayInfo : Request R → RelayInfo R
  | .unbilled info _ => info
  | .billed st => st.session.relayInfo

def db : Request R → CreditDb R
  | .unbilled _ db => db
  | .billed st => st.db

def withDb : Request R → CreditDb R → Request R
  | .unbilled info _, db => .unbilled info db
  | .billed st, db => .billed { st with db := db }

def withStore (r : Request R) (s : Store) : Request R := r.withDb { r.db with store := s }

@[simp] theorem relayInfo_withStore (r : Request R) (s : Store) :
    (r.withStore s).relayInfo = r.relayInfo := by
  cases r <;> rfl

@[simp] theorem store_withStore (r : Request R) (s : Store) : (r.withStore s).db.store = s := by
  cases r <;> rfl

@[simp] theorem withStore_withStore (r : Request R) (s s' : Store) :
    (r.withStore s).withStore s' = r.withStore s' := by
  cases r <;> rfl

@[simp] theorem withStore_self (r : Request R) : r.withStore r.db.store = r := by
  cases r <;> rfl

end Request

/-! ### Calls of the relay -/

/-- `PostConsumeQuota` of a request that has no subscription. -/
def postConsumeQuota (info : RelayInfo R) (quota : Int) : Act (CreditDb R) BillingError Unit := do
  onStore (if 0 < quota then decreaseUserQuota info.userId quota
    else increaseUserQuota info.userId (-quota))
  if info.isPlayground then pure ()
  else
    onStore (if 0 < quota then decreaseTokenQuota info.tokenId quota
      else increaseTokenQuota info.tokenId (-quota))

section Priced

variable [Ratio R]

def preConsumeBilling (env : Setting R) (tokenQuota : Int) (cached : Option Token)
    (clamp : Option QuotaClamp) (info : RelayInfo R) (quota : Int) :
    Act (CreditDb R) BillingError (SessionState R) :=
  match clamp with
  | some clamp => Act.fail (.api .modelPriceError 400 (.quotaClamp clamp))
  | none =>
    if quota < 0 then Act.fail (.api .modelPriceError 400 (.negativePreConsume quota))
    else newBillingSession env tokenQuota cached info quota

/-- The relay takes a request on: a free model is not pre-consumed. -/
def beginRelay (freeModel : Bool) (env : Setting R) (tokenQuota : Int) (cached : Option Token)
    (clamp : Option QuotaClamp) (info : RelayInfo R) (quota : Int) :
    Act (CreditDb R) BillingError (Request R) :=
  if freeModel then Act.read fun db => .unbilled info db
  else do
    let st ← preConsumeBilling env tokenQuota cached clamp info quota
    pure (.billed st)

def settleBilling (env : Setting R) (actualQuota : Int) : Act (Request R) BillingError Unit
  | .billed st =>
    let r := settle env actualQuota st
    (r.1, .billed r.2)
  | .unbilled info db =>
    let quotaDelta := actualQuota - info.finalPreConsumedQuota
    if quotaDelta = 0 then (.ok (), .unbilled info db)
    else
      let r := postConsumeQuota info quotaDelta db
      (r.1, .unbilled info r.2)

end Priced

/-! ### A request paid from a wallet -/

theorem postConsumeQuota_of {info : RelayInfo R} {db : CreditDb R} {w : Wallet}
    (hd : DrawsOn db.store info.userId w)
    (htok : info.isPlayground = false → (db.store.tokens.find? info.tokenId).isSome = true)
    (quota : Int) :
    ∃ s, postConsumeQuota info quota db = (.ok (), { db with store := s }) ∧
      Charged w info.tokenId quota (info.tokenShare quota) db.store s := by
  obtain ⟨s, hs, hc⟩ := chargeUserQuota_of hd info.tokenId quota
  unfold postConsumeQuota RelayInfo.tokenShare
  rw [bind_of_ok (onStore_of hs)]
  cases hp : info.isPlayground with
  | true => exact ⟨s, rfl, hc⟩
  | false =>
    obtain ⟨s', hs', hc'⟩ := chargeTokenQuota_of ((hc.tokenRows _).trans (htok hp)) w quota
    have hrun : onStore _ ({ db with store := s } : CreditDb R) = _ := onStore_of hs'
    exact ⟨s', hrun, (hc.trans hc').of_eq (add_zero quota) (zero_add quota)⟩

/-- What a request has taken so far, and that it is not settled. -/
def Request.Open : Request R → Int → Prop
  | .unbilled info _, held => info.finalPreConsumedQuota = held
  | .billed st, held =>
    st.session.funding = .wallet ⟨st.session.relayInfo.userId, held⟩ ∧
      st.session.preConsumedQuota = held ∧ st.session.settled = false ∧
      st.session.fundingSettled = false

structure Request.Holds (r : Request R) (w : Wallet) (held : Int) : Prop where
  isOpen : r.Open held
  drawsOn : DrawsOn r.db.store r.relayInfo.userId w
  token : r.relayInfo.isPlayground = false →
    (r.db.store.tokens.find? r.relayInfo.tokenId).isSome = true

namespace Request.Holds

variable {r : Request R} {w : Wallet} {held : Int}

/-- Charges made beside the session leave it as it is. -/
theorem charged (h : r.Holds w held) {s : Store} {tok n m : Int}
    (hc : Charged w tok n m r.db.store s) : (r.withStore s).Holds w held where
  isOpen := by
    have ho := h.isOpen
    cases r <;> exact ho
  drawsOn := by
    rw [relayInfo_withStore, store_withStore]
    exact h.drawsOn.charged hc
  token := by
    rw [relayInfo_withStore, store_withStore, hc.tokenRows]
    exact h.token

/-- **Settling moves what is missing**, whatever was charged in between. -/
theorem settleBilling_of [Ratio R] (h : r.Holds w held) (env : Setting R) (actual : Int) :
    ∃ r', settleBilling env actual r = (.ok (), r') ∧ r'.relayInfo = r.relayInfo ∧
      Charged w r.relayInfo.tokenId (actual - held) (r.relayInfo.tokenShare (actual - held))
        r.db.store r'.db.store := by
  cases r with
  | billed =>
    obtain ⟨hf, rfl, hs, hfs⟩ := h.isOpen
    obtain ⟨s, hrun, hc⟩ := settle_of hf h.drawsOn h.token hs hfs env actual
    simp only [settleBilling, hrun]
    exact ⟨_, rfl, rfl, hc⟩
  | unbilled info =>
    obtain rfl : info.finalPreConsumedQuota = held := h.isOpen
    simp only [settleBilling]
    by_cases h0 : actual - info.finalPreConsumedQuota = 0
    · refine ⟨_, by rw [if_pos h0], rfl, ?_⟩
      rw [h0]
      exact (Charged.refl ..).of_eq rfl (by simp [RelayInfo.tokenShare])
    obtain ⟨s, hrun, hc⟩ := postConsumeQuota_of h.drawsOn h.token
      (actual - info.finalPreConsumedQuota)
    simp only [relayInfo, Request.db] at hrun
    rw [if_neg h0, hrun]
    exact ⟨_, rfl, rfl, hc⟩

end Request.Holds

/-- **A request that is taken on**, not promotional, has taken some amount from the wallet and holds
it. -/
theorem beginRelay_ok [Ratio R] {freeModel : Bool} {env : Setting R} {tokenQuota quota : Int}
    {cached : Option Token} {clamp : Option QuotaClamp} {info : RelayInfo R} {db db' : CreditDb R}
    {r : Request R} {w : Wallet}
    (hbegin : beginRelay freeModel env tokenQuota cached clamp info quota db = (.ok r, db'))
    (hsource : r.relayInfo.billingSource ≠ some .promotional)
    (hd : DrawsOn db.store info.userId w)
    (htoken : info.isPlayground = false → (db.store.tokens.find? info.tokenId).isSome = true)
    (hfresh : info.finalPreConsumedQuota = 0) :
    ∃ held, r.Holds w held ∧ info.Same r.relayInfo ∧
      Charged w info.tokenId held (info.tokenShare held) db.store r.db.store := by
  cases freeModel with
  | true =>
    obtain rfl : Request.unbilled info db = r := by
      simpa [beginRelay] using congrArg Prod.fst hbegin
    refine ⟨0, ⟨hfresh, hd, htoken⟩, ⟨rfl, rfl, rfl, rfl, rfl⟩, ?_⟩
    exact (Charged.refl ..).of_eq rfl (by simp [RelayInfo.tokenShare])
  | false =>
    simp only [beginRelay, Bool.false_eq_true, if_false, bind_ok] at hbegin
    obtain ⟨st, db₁, hpre, hr⟩ := hbegin
    obtain rfl : Request.billed st = r := by simpa using congrArg Prod.fst hr
    cases clamp with
    | some => simp [preConsumeBilling] at hpre
    | none =>
      simp only [preConsumeBilling] at hpre
      by_cases hneg : quota < 0
      · rw [if_pos hneg] at hpre
        simp at hpre
      rw [if_neg hneg] at hpre
      have hwallet : st.session.funding.source = .wallet := by
        have hs := billingSource_of_new hpre
        cases hf : st.session.funding with
        | wallet => rfl
        | promo =>
          rw [hf] at hs
          exact absurd hs hsource
      obtain ⟨w', s, userQuota, trusted, held, -, hw', hd', hc, rfl⟩ :=
        walletSession_ok (not_lt.mp hneg) hpre hwallet htoken
      obtain rfl : w' = w := Option.some.inj (hw'.symm.trans hd.walletOf)
      refine ⟨held, ⟨⟨rfl, rfl, rfl, rfl⟩, hd.charged hc, ?_⟩, ⟨rfl, rfl, rfl, rfl, rfl⟩, hc⟩
      intro hp
      exact (hc.tokenRows _).trans (htoken hp)

end UnifyConsole.Billing
