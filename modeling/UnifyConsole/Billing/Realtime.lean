import UnifyConsole.Billing.Request
import Mathlib.Algebra.BigOperators.Group.List.Basic
import Mathlib.Algebra.Order.BigOperators.Group.List

/-!
# Realtime sessions

A realtime session is paid in two places.  While it runs, `preConsumeUsage` of
`relay/channel/openai/relay_realtime.go` adds each finished usage to a sum and
has `PreWssConsumeQuota` charge for it at once.  When it is over,
`PostWssConsumeQuota` prices the sum and settles the request's billing session
for that price, against what the session itself had pre-consumed.

`preConsumed` lists the usages that are charged while the session runs.  All of
them are in the sum, and the settlement does not know about the charges, so a
session is charged once exactly when each of them was free
(`realtime_charges_once`).

Two goroutines read the two sides of the connection.  Messages are taken in the
order in which they are handled.
-/

namespace UnifyConsole.Billing

open Lib Account Credit
open Act List

variable {R α : Type}

/-! ### Usage -/

@[ext] structure InputTokenDetails where
  cachedTokens : Int
  textTokens : Int
  audioTokens : Int
deriving DecidableEq

@[ext] structure OutputTokenDetails where
  textTokens : Int
  audioTokens : Int
deriving DecidableEq

/-- The counts of `dto.RealtimeUsage` that a session adds up. -/
@[ext] structure RealtimeUsage where
  totalTokens : Int
  inputTokens : Int
  outputTokens : Int
  inputTokenDetails : InputTokenDetails
  outputTokenDetails : OutputTokenDetails
deriving DecidableEq

namespace RealtimeUsage

instance : Zero RealtimeUsage := ⟨⟨0, 0, 0, ⟨0, 0, 0⟩, ⟨0, 0⟩⟩⟩

instance : Add RealtimeUsage where
  add u v :=
    { totalTokens := u.totalTokens + v.totalTokens
      inputTokens := u.inputTokens + v.inputTokens
      outputTokens := u.outputTokens + v.outputTokens
      inputTokenDetails :=
        { cachedTokens := u.inputTokenDetails.cachedTokens + v.inputTokenDetails.cachedTokens
          textTokens := u.inputTokenDetails.textTokens + v.inputTokenDetails.textTokens
          audioTokens := u.inputTokenDetails.audioTokens + v.inputTokenDetails.audioTokens }
      outputTokenDetails :=
        { textTokens := u.outputTokenDetails.textTokens + v.outputTokenDetails.textTokens
          audioTokens := u.outputTokenDetails.audioTokens + v.outputTokenDetails.audioTokens } }

instance : AddMonoid RealtimeUsage where
  add_assoc u v x := by
    ext <;> exact Int.add_assoc ..
  zero_add u := by
    ext <;> exact Int.zero_add _
  add_zero u := by
    ext <;> exact Int.add_zero _
  nsmul := nsmulRec

def ofInput (textToken audioToken : Int) : RealtimeUsage :=
  ⟨textToken + audioToken, textToken + audioToken, 0, ⟨0, textToken, audioToken⟩, ⟨0, 0⟩⟩

def ofOutput (textToken audioToken : Int) : RealtimeUsage :=
  ⟨textToken + audioToken, 0, textToken + audioToken, ⟨0, 0, 0⟩, ⟨textToken, audioToken⟩⟩

end RealtimeUsage

/-! ### Prices -/

structure TokenDetails where
  textTokens : Int
  audioTokens : Int

/-- `QuotaInfo`, with its prices as decimals. -/
structure QuotaInfo where
  inputDetails : TokenDetails
  outputDetails : TokenDetails
  modelName : String
  usePrice : Bool
  modelPrice : ℚ
  modelRatio : ℚ
  groupRatio : ℚ

/-- `setting/ratio_setting` at one moment. -/
structure RatioSetting (R : Type) where
  quotaPerUnit : R
  getGroupRatio : String → R
  getGroupGroupRatio : String → String → Option R
  getGroupModelDiscount : String → String → Option R
  getModelRatio : String → R
  /-- `CatalogEntryFor(model).ModelRatio()`. -/
  catalogModelRatio : String → Option R
  getCompletionRatio : String → R
  getAudioRatio : String → R
  getAudioCompletionRatio : String → R
  /-- `decimal.NewFromFloat`. -/
  newFromFloat : R → ℚ

namespace QuotaInfo

def ratio (q : QuotaInfo) : ℚ := q.groupRatio * q.modelRatio

def weight (q : QuotaInfo) (s : RatioSetting R) : ℚ :=
  let completionRatio := s.newFromFloat (s.getCompletionRatio q.modelName)
  let audioRatio := s.newFromFloat (s.getAudioRatio q.modelName)
  let audioCompletionRatio := s.newFromFloat (s.getAudioCompletionRatio q.modelName)
  q.inputDetails.textTokens + q.outputDetails.textTokens * completionRatio +
    q.inputDetails.audioTokens * audioRatio +
    q.outputDetails.audioTokens * audioRatio * audioCompletionRatio

end QuotaInfo

def calculateAudioQuota (s : RatioSetting R) (q : QuotaInfo) : Int × Option QuotaClamp :=
  if q.usePrice then
    quotaFromDecimalChecked (q.modelPrice * s.newFromFloat s.quotaPerUnit * q.groupRatio)
  else
    let quota := q.weight s * q.ratio
    quotaFromDecimalChecked (if q.ratio ≠ 0 ∧ quota ≤ 0 then 1 else quota)

theorem calculateAudioQuota_nonneg (s : RatioSetting R) {q : QuotaInfo} (h : q.usePrice = false) :
    0 ≤ (calculateAudioQuota s q).1 := by
  simp only [calculateAudioQuota, h, Bool.false_eq_true, if_false]
  apply quotaFromDecimalChecked_nonneg
  split
  · exact zero_le_one
  rename_i hpos
  by_cases hr : q.ratio = 0
  · rw [hr, mul_zero]
  · simp only [ne_eq, hr, not_false_eq_true, true_and, not_le] at hpos
    exact le_of_lt hpos

/-- **What costs nothing**: anything at ratio zero, or worth more than nothing and less than half a
unit. -/
theorem calculateAudioQuota_eq_zero (s : RatioSetting R) {q : QuotaInfo} (h : q.usePrice = false) :
    (calculateAudioQuota s q).1 = 0 ↔
      q.ratio = 0 ∨ 0 < q.weight s * q.ratio ∧ q.weight s * q.ratio < 1 / 2 := by
  simp only [calculateAudioQuota, h, Bool.false_eq_true, if_false]
  by_cases hr : q.ratio = 0
  · simp only [hr, mul_zero, ne_eq, not_true_eq_false, false_and, if_false, true_or, iff_true]
    exact (quotaFromDecimalChecked_eq_zero (le_refl 0)).mpr (by norm_num)
  simp only [hr, ne_eq, not_false_eq_true, true_and, false_or]
  by_cases hpos : q.weight s * q.ratio ≤ 0
  · rw [if_pos hpos, quotaFromDecimalChecked_eq_zero zero_le_one]
    refine iff_of_false (by norm_num) ?_
    rintro ⟨hlt, -⟩
    exact absurd hlt (not_lt.mpr hpos)
  · rw [if_neg hpos, quotaFromDecimalChecked_eq_zero (le_of_lt (not_le.mp hpos))]
    simp only [not_le.mp hpos, true_and]

/-- `PriceData`, next to the group ratio that the request keeps. -/
structure PriceData (R : Type) where
  usePrice : Bool
  modelPrice : R
  modelRatio : R

structure PriceInfo (R : Type) where
  originModelName : String
  upstreamModelName : String
  userGroup : String
  usingGroup : String
  creditPricingGroup : String
  /-- The group `auto` was resolved to, from the request's context. -/
  autoGroup : Option String
  usePrice : Bool
  priceData : PriceData R
  /-- What `TryTieredSettle` answers; never anything under ratio pricing. -/
  tryTieredSettle : RealtimeUsage → Option Int

namespace PriceInfo

def pricingGroup (p : PriceInfo R) (creditPoolId : Int) : String :=
  if 0 < creditPoolId ∧ p.creditPricingGroup ≠ "" then p.creditPricingGroup else p.usingGroup

/-- The group ratio as `PreWssConsumeQuota` derives it. -/
def actualGroupRatio (p : PriceInfo R) (creditPoolId : Int) (s : RatioSetting R) : R :=
  match s.getGroupModelDiscount p.userGroup p.originModelName with
  | some customerRatio => customerRatio
  | none =>
    match s.getGroupGroupRatio p.userGroup (p.pricingGroup creditPoolId) with
    | some userGroupRatio => userGroupRatio
    | none => s.getGroupRatio (p.autoGroup.getD (p.pricingGroup creditPoolId))

/-- The model ratio as `PreWssConsumeQuota` derives it. -/
def actualModelRatio (p : PriceInfo R) (s : RatioSetting R) : R :=
  match s.getGroupModelDiscount p.userGroup p.originModelName with
  | some _ => (s.catalogModelRatio p.originModelName).getD (s.getModelRatio p.originModelName)
  | none => s.getModelRatio p.originModelName

/-- What `PreWssConsumeQuota` prices. -/
def preQuotaInfo (p : PriceInfo R) (creditPoolId : Int) (s : RatioSetting R)
    (usage : RealtimeUsage) : QuotaInfo where
  inputDetails := ⟨usage.inputTokenDetails.textTokens, usage.inputTokenDetails.audioTokens⟩
  outputDetails := ⟨usage.outputTokenDetails.textTokens, usage.outputTokenDetails.audioTokens⟩
  modelName := p.originModelName
  usePrice := p.usePrice
  modelPrice := 0
  modelRatio := s.newFromFloat (p.actualModelRatio s)
  groupRatio := s.newFromFloat (p.actualGroupRatio creditPoolId s)

/-- What `PostWssConsumeQuota` prices. -/
def postQuotaInfo (p : PriceInfo R) (groupRatio : R) (s : RatioSetting R)
    (usage : RealtimeUsage) : QuotaInfo where
  inputDetails := ⟨usage.inputTokenDetails.textTokens, usage.inputTokenDetails.audioTokens⟩
  outputDetails := ⟨usage.outputTokenDetails.textTokens, usage.outputTokenDetails.audioTokens⟩
  modelName := p.upstreamModelName
  usePrice := p.priceData.usePrice
  modelPrice := s.newFromFloat p.priceData.modelPrice
  modelRatio := s.newFromFloat p.priceData.modelRatio
  groupRatio := s.newFromFloat groupRatio

/-- The quota of a session with this usage in all. -/
def finalQuota (p : PriceInfo R) (groupRatio : R) (s : RatioSetting R) (usage : RealtimeUsage) :
    Int :=
  if usage.totalTokens = 0 then 0
  else (p.tryTieredSettle usage).getD
    (calculateAudioQuota s (p.postQuotaInfo groupRatio s usage)).1

/-- `PreWssConsumeQuota` routes the request to the resolved group. -/
def routed (p : PriceInfo R) : PriceInfo R :=
  { p with usingGroup := p.autoGroup.getD p.usingGroup }

end PriceInfo

/-! ### The session -/

/-- What `PostWssConsumeQuota` hands to `RecordConsumeLog`. -/
structure ConsumeLog where
  userId : Int
  channelId : Int
  promptTokens : Int
  completionTokens : Int
  modelName : String
  quota : Int
  tokenId : Int
  group : String

structure RealtimeState (R : Type) where
  request : Request R
  price : PriceInfo R
  quotaClamp : Option QuotaClamp
  usage : RealtimeUsage
  localUsage : RealtimeUsage
  sumUsage : RealtimeUsage
  logs : List ConsumeLog

abbrev RealtimeAct (R α : Type) := Act (RealtimeState R) BillingError α

/-- The settings and the cached token as a call finds them. -/
structure Moment (R : Type) where
  ratios : RatioSetting R
  cached : Option Token

/-- A message, with what `CountTokenRealtime` makes of it. -/
inductive Message where
  | client (textToken audioToken : Int)
  | responseDone (usage : Option RealtimeUsage) (textToken audioToken : Int)
  /-- `session.updated` and `session.created`. -/
  | session
  | other (textToken audioToken : Int)
deriving DecidableEq

def onRequest (x : Act (Request R) BillingError α) : RealtimeAct R α :=
  Act.zoom RealtimeState.request (fun st r => { st with request := r }) id x

def onRequestDb (x : Act (CreditDb R) BillingError α) : RealtimeAct R α :=
  onRequest (Act.zoom Request.db Request.withDb id x)

def trimPrefix (s start : String) : String :=
  if start.toList.isPrefixOf s.toList then String.ofList (s.toList.drop start.length) else s

def preWssConsumeQuota (m : Moment R) (usage : RealtimeUsage) : RealtimeAct R Unit := do
  let st ← Act.read id
  if st.price.usePrice then pure ()
  else do
    let info := st.request.relayInfo
    let userQuota ← onRequestDb (onStore (getUserQuota info.userId))
    let token ← onRequestDb (onStore (getTokenByKey m.cached (trimPrefix info.tokenKey "sk-")))
    let r := calculateAudioQuota m.ratios (st.price.preQuotaInfo info.creditPoolId m.ratios usage)
    Act.write fun st =>
      { st with price := st.price.routed, quotaClamp := st.quotaClamp.or r.2 }
    if userQuota < r.1 then Act.fail (.userQuotaShort userQuota r.1)
    else if token.unlimitedQuota = false ∧ token.remainQuota < r.1
    then Act.fail (.tokenQuotaNotEnough token.remainQuota r.1)
    else onRequestDb (postConsumeQuota info r.1)

def preConsumeUsage (m : Moment R) (usage : RealtimeUsage) : RealtimeAct R Unit := do
  Act.write (fun st => { st with sumUsage := st.sumUsage + usage })
  preWssConsumeQuota m usage

def receive (m : Moment R) : Message → RealtimeAct R Unit
  | .client textToken audioToken => Act.write fun st =>
      { st with localUsage := st.localUsage + .ofInput textToken audioToken }
  | .responseDone (some realtimeUsage) _ _ => do
    Act.write fun st => { st with usage := st.usage + realtimeUsage }
    let usage ← Act.read RealtimeState.usage
    preConsumeUsage m usage
    Act.write fun st => { st with usage := 0, localUsage := 0 }
  | .responseDone none textToken audioToken => do
    Act.write fun st => { st with localUsage := st.localUsage + .ofInput textToken audioToken }
    let localUsage ← Act.read RealtimeState.localUsage
    preConsumeUsage m localUsage
    Act.write fun st => { st with localUsage := 0 }
  | .session => pure ()
  | .other textToken audioToken => Act.write fun st =>
      { st with localUsage := st.localUsage + .ofOutput textToken audioToken }

/-- The readers stop at the first error. -/
def receiveAll : List (Moment R × Message) → RealtimeAct R Unit
  | [] => pure ()
  | (m, message) :: ms => do
    receive m message
    receiveAll ms

def droppedError : Except BillingError Unit → List BillingError
  | .ok _ => []
  | .error e => [e]

def preConsumeRest (m : Moment R) (rest : RealtimeState R → RealtimeUsage) :
    RealtimeAct R (List BillingError) := do
  let usage ← Act.read rest
  if usage.totalTokens = 0 then pure []
  else do
    let r ← Act.attempt (preConsumeUsage m usage)
    pure (droppedError r)

/-- `OpenaiRealtimeHandler`, answering the errors that it logs or drops. -/
def openaiRealtimeHandler (ms : List (Moment R × Message)) (last : Moment R) :
    RealtimeAct R (List BillingError) := do
  let r ← Act.attempt (receiveAll ms)
  let usageErr ← preConsumeRest last RealtimeState.usage
  let localErr ← preConsumeRest last RealtimeState.localUsage
  pure (droppedError r ++ usageErr ++ localErr)

def customerChargeQuota (info : RelayInfo R) (grossQuota : Int) : Int :=
  if info.billingSource = some .promotional then 0 else grossQuota

def customerGroupForLog (p : PriceInfo R) : String :=
  if p.userGroup = "" then p.usingGroup else p.userGroup

section Priced

variable [Ratio R]

/-- An error of the settlement is only logged. -/
def postWssConsumeQuota (env : Setting R) (m : Moment R) (usage : RealtimeUsage) :
    RealtimeAct R Unit := do
  let st ← Act.read id
  let info := st.request.relayInfo
  let quota := st.price.finalQuota info.groupRatio m.ratios usage
  Act.write fun st => { st with
    quotaClamp := st.quotaClamp.or
      (calculateAudioQuota m.ratios (st.price.postQuotaInfo info.groupRatio m.ratios usage)).2 }
  let _ ← Act.attempt (onRequest (settleBilling env quota))
  Act.write fun st => { st with
    logs := st.logs ++ [
      { userId := info.userId
        channelId := info.channelId
        promptTokens := usage.inputTokens
        completionTokens := usage.outputTokens
        modelName := st.price.upstreamModelName
        quota := customerChargeQuota st.request.relayInfo quota
        tokenId := info.tokenId
        group := customerGroupForLog st.price }] }

/-- `WssHelper` once the connection stands. -/
def wssHelper (env : Setting R) (ms : List (Moment R × Message)) (last : Moment R) :
    RealtimeAct R (List BillingError) := do
  let errors ← openaiRealtimeHandler ms last
  let sumUsage ← Act.read RealtimeState.sumUsage
  postWssConsumeQuota env last sumUsage
  pure errors

end Priced

def RealtimeState.init (r : Request R) (p : PriceInfo R) : RealtimeState R :=
  { request := r, price := p, quotaClamp := none, usage := 0, localUsage := 0, sumUsage := 0
    logs := [] }

/-! ### What is charged while the session runs -/

/-- A call of `PreWssConsumeQuota`. -/
structure PreConsume (R : Type) where
  ratios : RatioSetting R
  quotaInfo : QuotaInfo
  usage : RealtimeUsage

namespace PreConsume

def quota (c : PreConsume R) : Int :=
  if c.quotaInfo.usePrice then 0 else (calculateAudioQuota c.ratios c.quotaInfo).1

/-- Nothing is due: a price per call, ratio zero, or worth less than half a unit (nothing itself
costs `1`). -/
def Free (c : PreConsume R) : Prop :=
  c.quotaInfo.usePrice = true ∨ c.quotaInfo.ratio = 0 ∨
    0 < c.quotaInfo.weight c.ratios * c.quotaInfo.ratio ∧
      c.quotaInfo.weight c.ratios * c.quotaInfo.ratio < 1 / 2

instance (c : PreConsume R) : Decidable c.Free := inferInstanceAs (Decidable (_ ∨ _ ∨ _ ∧ _))

theorem quota_nonneg (c : PreConsume R) : 0 ≤ c.quota := by
  unfold quota
  cases h : c.quotaInfo.usePrice with
  | true => simp
  | false => exact calculateAudioQuota_nonneg c.ratios h

theorem quota_eq_zero (c : PreConsume R) : c.quota = 0 ↔ c.Free := by
  unfold quota Free
  cases h : c.quotaInfo.usePrice with
  | true => simp
  | false => simpa using calculateAudioQuota_eq_zero c.ratios h

def total (cs : List (PreConsume R)) : Int := (cs.map quota).sum

def summed (cs : List (PreConsume R)) : RealtimeUsage := (cs.map usage).sum

theorem total_append (cs ds : List (PreConsume R)) : total (cs ++ ds) = total cs + total ds := by
  simp [total]

theorem summed_append (cs ds : List (PreConsume R)) :
    summed (cs ++ ds) = summed cs + summed ds := by
  simp [summed]

theorem total_eq_zero (cs : List (PreConsume R)) : total cs = 0 ↔ ∀ c ∈ cs, c.Free := by
  induction cs with
  | nil => simp [total]
  | cons c cs ih =>
    have hc := c.quota_nonneg
    have hcs : 0 ≤ total cs := sum_nonneg (by
      simp only [mem_map, forall_exists_index, and_imp]
      rintro _ d - rfl
      exact d.quota_nonneg)
    have hcons : total (c :: cs) = c.quota + total cs := by simp [total]
    rw [forall_mem_cons, ← quota_eq_zero, ← ih, hcons]
    omega

end PreConsume

/-- The request's prices after a call of `PreWssConsumeQuota`. -/
def PriceInfo.afterPreWss (p : PriceInfo R) : PriceInfo R := if p.usePrice then p else p.routed

theorem PriceInfo.finalQuota_afterPreWss (p : PriceInfo R) :
    p.afterPreWss.finalQuota = p.finalQuota := by
  unfold afterPreWss
  split <;> rfl

/-- The calls of a session in which none fails: one for every `response.done`, and one for the
tokens counted after the last. -/
def preConsumed (creditPoolId : Int) (last : Moment R) :
    PriceInfo R → RealtimeUsage → List (Moment R × Message) → List (PreConsume R)
  | p, localUsage, [] =>
    if localUsage.totalTokens = 0 then []
    else [⟨last.ratios, p.preQuotaInfo creditPoolId last.ratios localUsage, localUsage⟩]
  | p, localUsage, (m, message) :: ms =>
    match message with
    | .client textToken audioToken =>
      preConsumed creditPoolId last p (localUsage + .ofInput textToken audioToken) ms
    | .responseDone (some usage) _ _ =>
      ⟨m.ratios, p.preQuotaInfo creditPoolId m.ratios usage, usage⟩ ::
        preConsumed creditPoolId last p.afterPreWss 0 ms
    | .responseDone none textToken audioToken =>
      let usage := localUsage + .ofInput textToken audioToken
      ⟨m.ratios, p.preQuotaInfo creditPoolId m.ratios usage, usage⟩ ::
        preConsumed creditPoolId last p.afterPreWss 0 ms
    | .session => preConsumed creditPoolId last p localUsage ms
    | .other textToken audioToken =>
      preConsumed creditPoolId last p (localUsage + .ofOutput textToken audioToken) ms

/-- The session made the calls `cs` between the two states, and did nothing else
to the request. -/
structure RealtimeState.Consumed (st : RealtimeState R) (w : Wallet)
    (cs : List (PreConsume R)) (st' : RealtimeState R) : Prop where
  request : ∃ s, st'.request = st.request.withStore s ∧
    Charged w st.request.relayInfo.tokenId (PreConsume.total cs)
      (st.request.relayInfo.tokenShare (PreConsume.total cs)) st.request.db.store s
  finalQuota : st'.price.finalQuota = st.price.finalQuota
  sumUsage : st'.sumUsage = st.sumUsage + PreConsume.summed cs
  logs : st'.logs = st.logs

namespace RealtimeState.Consumed

variable {w : Wallet} {held : Int} {st st' st'' : RealtimeState R} {cs ds : List (PreConsume R)}

/-- Nothing but the counters of the session changed. -/
theorem quiet (hr : st'.request = st.request) (hp : st'.price = st.price)
    (hs : st'.sumUsage = st.sumUsage) (hl : st'.logs = st.logs) : Consumed st w [] st' where
  request := ⟨st.request.db.store, by rw [hr, Request.withStore_self],
    (Charged.refl ..).of_eq rfl (by simp [PreConsume.total, RelayInfo.tokenShare])⟩
  finalQuota := by rw [hp]
  sumUsage := by rw [hs]; simp [PreConsume.summed]
  logs := hl

theorem trans (h : Consumed st w cs st') (h' : Consumed st' w ds st'') :
    Consumed st w (cs ++ ds) st'' where
  request := by
    obtain ⟨s, hs, hc⟩ := h.request
    obtain ⟨s', hs', hc'⟩ := h'.request
    rw [hs, Request.relayInfo_withStore, Request.store_withStore] at hc'
    refine ⟨s', by rw [hs', hs, Request.withStore_withStore], (hc.trans hc').of_eq ?_ ?_⟩
    · rw [PreConsume.total_append]
    · rw [PreConsume.total_append, RelayInfo.tokenShare_add]
  finalQuota := h'.finalQuota.trans h.finalQuota
  sumUsage := by rw [h'.sumUsage, h.sumUsage, PreConsume.summed_append, add_assoc]
  logs := h'.logs.trans h.logs

theorem holds (h : Consumed st w cs st') (hh : st.request.Holds w held) :
    st'.request.Holds w held := by
  obtain ⟨s, hs, hc⟩ := h.request
  rw [hs]
  exact hh.charged hc

theorem relayInfo (h : Consumed st w cs st') : st'.request.relayInfo = st.request.relayInfo := by
  obtain ⟨s, hs, -⟩ := h.request
  rw [hs, Request.relayInfo_withStore]

end RealtimeState.Consumed

section Run

variable {w : Wallet} {held : Int} {st st' : RealtimeState R}

theorem onRequestDb_ok {x : AccountTx α} {a : α} (h : onRequestDb (onStore x) st = (.ok a, st')) :
    ∃ s, x st.request.db.store = .ok (a, s) ∧
      st' = { st with request := st.request.withStore s } := by
  simp only [onRequestDb, onRequest, onStore, zoom_ok, commit_ok] at h
  obtain ⟨_, ⟨_, ⟨s, hx, rfl⟩, rfl⟩, rfl⟩ := h
  exact ⟨s, hx, rfl⟩

theorem onRequestDb_of (st : RealtimeState R) {x : Act (CreditDb R) BillingError α} {a : α}
    {s : Store}
    (h : x st.request.db = (.ok a, { st.request.db with store := s })) :
    onRequestDb x st = (.ok a, { st with request := st.request.withStore s }) := by
  unfold onRequestDb onRequest
  rw [zoom_of_ok (zoom_of_ok h)]
  rfl

variable {m : Moment R}

/-- **A successful `PreWssConsumeQuota`** charges the quota of the usage. -/
theorem preWssConsumeQuota_ok (hh : st.request.Holds w held) {usage : RealtimeUsage}
    (h : preWssConsumeQuota m usage st = (.ok (), st')) :
    let q := (⟨m.ratios, st.price.preQuotaInfo st.request.relayInfo.creditPoolId m.ratios usage,
      usage⟩ : PreConsume R).quota
    ∃ s clamp, st' = { st with
        request := st.request.withStore s, price := st.price.afterPreWss, quotaClamp := clamp } ∧
      Charged w st.request.relayInfo.tokenId q (st.request.relayInfo.tokenShare q)
        st.request.db.store s := by
  intro q
  have hq : q = if st.price.usePrice then 0 else (calculateAudioQuota m.ratios
    (st.price.preQuotaInfo st.request.relayInfo.creditPoolId m.ratios usage)).1 := rfl
  simp only [preWssConsumeQuota, read_bind, id_eq] at h
  generalize calculateAudioQuota m.ratios
    (st.price.preQuotaInfo st.request.relayInfo.creditPoolId m.ratios usage) = r at h hq
  unfold PriceInfo.afterPreWss
  by_cases hp : st.price.usePrice = true
  · rw [if_pos hp] at h hq
    refine ⟨st.request.db.store, st.quotaClamp, ?_, (Charged.refl ..).of_eq hq.symm ?_⟩
    · rw [if_pos hp, Request.withStore_self]
      exact (Prod.mk.inj h).2.symm
    · simp [RelayInfo.tokenShare, hq]
  rw [if_neg hp] at h hq
  obtain ⟨userQuota, st₁, hget, h⟩ := bind_ok.mp h
  obtain ⟨s₁, hquota, rfl⟩ := onRequestDb_ok hget
  obtain ⟨rfl, -⟩ := getUserQuota_ok hquota
  obtain ⟨token, st₂, htok, h⟩ := bind_ok.mp h
  obtain ⟨s₂, hkey, rfl⟩ := onRequestDb_ok htok
  obtain rfl := getTokenByKey_store hkey
  simp only [Request.withStore_self] at h
  split at h
  · simp at h
  split at h
  · simp at h
  obtain ⟨s, hrun, hc⟩ := postConsumeQuota_of hh.drawsOn hh.token r.1
  have hcharge := onRequestDb_of { st with
    price := st.price.routed, quotaClamp := st.quotaClamp.or r.2 } hrun
  refine ⟨s, st.quotaClamp.or r.2, ?_, by rw [hq]; exact hc⟩
  rw [if_neg hp]
  exact (Prod.mk.inj (h.symm.trans hcharge)).2

theorem preConsumeUsage_ok (hh : st.request.Holds w held) {usage : RealtimeUsage}
    (h : preConsumeUsage m usage st = (.ok (), st')) :
    st.Consumed w [⟨m.ratios,
      st.price.preQuotaInfo st.request.relayInfo.creditPoolId m.ratios usage, usage⟩] st' ∧
      st'.price = st.price.afterPreWss ∧ st'.usage = st.usage ∧ st'.localUsage = st.localUsage := by
  obtain ⟨s, clamp, rfl, hc⟩ := preWssConsumeQuota_ok (w := w) (by exact hh) h
  refine ⟨⟨⟨s, rfl, hc.of_eq ?_ ?_⟩, st.price.finalQuota_afterPreWss, ?_, rfl⟩, rfl, rfl, rfl⟩
  · simp [PreConsume.total]
  · simp [PreConsume.total]
  · simp [PreConsume.summed]

/-- The calls that are made until the readers stop, and those that are left. -/
theorem receive_ok (hh : st.request.Holds w held) (hu : st.usage = 0) {message : Message}
    (h : receive m message st = (.ok (), st')) (last : Moment R) (ms : List (Moment R × Message)) :
    st'.usage = 0 ∧ ∃ cs, st.Consumed w cs st' ∧
      preConsumed st.request.relayInfo.creditPoolId last st.price st.localUsage
        ((m, message) :: ms) =
        cs ++ preConsumed st.request.relayInfo.creditPoolId last st'.price st'.localUsage ms := by
  cases message with
  | client | session | other =>
    obtain rfl := (Prod.mk.inj h).2
    exact ⟨hu, [], .quiet rfl rfl rfl rfl, rfl⟩
  | responseDone reported =>
    cases reported with
    | some =>
      simp only [receive, write_bind, read_bind, hu, zero_add] at h
      obtain ⟨⟨⟩, st₁, hpre, h⟩ := bind_ok.mp h
      obtain rfl := (Prod.mk.inj h).2
      obtain ⟨hc, hp, -, -⟩ := preConsumeUsage_ok (w := w) (by exact hh) hpre
      refine ⟨rfl, _, ⟨hc.request, hc.finalQuota, hc.sumUsage, hc.logs⟩, ?_⟩
      simp only [preConsumed, hp, cons_append, nil_append]
    | none =>
      simp only [receive, write_bind, read_bind] at h
      obtain ⟨⟨⟩, st₁, hpre, h⟩ := bind_ok.mp h
      obtain rfl := (Prod.mk.inj h).2
      obtain ⟨hc, hp, hus, -⟩ := preConsumeUsage_ok (w := w) (by exact hh) hpre
      refine ⟨hus.trans hu, _, ⟨hc.request, hc.finalQuota, hc.sumUsage, hc.logs⟩, ?_⟩
      simp only [preConsumed, hp, cons_append, nil_append]

variable {ms : List (Moment R × Message)}

theorem receiveAll_ok (hh : st.request.Holds w held) (hu : st.usage = 0)
    (h : receiveAll ms st = (.ok (), st')) (last : Moment R) :
    st'.usage = 0 ∧ ∃ cs, st.Consumed w cs st' ∧
      preConsumed st.request.relayInfo.creditPoolId last st.price st.localUsage ms =
        cs ++ preConsumed st.request.relayInfo.creditPoolId last st'.price st'.localUsage [] := by
  induction ms generalizing st with
  | nil =>
    obtain rfl := (Prod.mk.inj h).2
    exact ⟨hu, [], .quiet rfl rfl rfl rfl, rfl⟩
  | cons x ms ih =>
    obtain ⟨⟨⟩, st₁, hstep, h⟩ := bind_ok.mp h
    obtain ⟨hu₁, cs, hc, hcs⟩ := receive_ok hh hu hstep last ms
    obtain ⟨hu', ds, hd, hds⟩ := ih (hc.holds hh) hu₁ h
    rw [hc.relayInfo] at hds
    refine ⟨hu', cs ++ ds, hc.trans hd, ?_⟩
    rw [hcs, hds, append_assoc]

theorem preConsumeRest_ok {rest : RealtimeState R → RealtimeUsage} {errors : List BillingError}
    (h : preConsumeRest m rest st = (.ok errors, st')) (hnone : errors = []) :
    (rest st).totalTokens = 0 ∧ st' = st ∨
      (rest st).totalTokens ≠ 0 ∧ preConsumeUsage m (rest st) st = (.ok (), st') := by
  simp only [preConsumeRest, read_bind] at h
  split at h
  · rename_i h0
    exact .inl ⟨h0, (Prod.mk.inj h).2.symm⟩
  rename_i h0
  rcases hr : preConsumeUsage m (rest st) st with ⟨res, st₁⟩
  simp only [attempt_bind, hr, pure_apply, Prod.mk.injEq, Except.ok.injEq] at h
  obtain ⟨rfl, rfl⟩ := h
  cases res with
  | ok => exact .inr ⟨h0, rfl⟩
  | error => simp [droppedError] at hnone

/-- **A session in which no call failed** made the calls of `preConsumed`. -/
theorem openaiRealtimeHandler_ok (hh : st.request.Holds w held) (hu : st.usage = 0)
    {last : Moment R} (h : openaiRealtimeHandler ms last st = (.ok [], st')) :
    st.Consumed w
      (preConsumed st.request.relayInfo.creditPoolId last st.price st.localUsage ms) st' := by
  simp only [openaiRealtimeHandler, attempt_bind] at h
  rcases hr : receiveAll ms st with ⟨res, st₁⟩
  rw [hr] at h
  obtain ⟨usageErr, st₂, husage, h⟩ := bind_ok.mp h
  obtain ⟨localErr, st₃, hlocal, h⟩ := bind_ok.mp h
  simp only [pure_apply, Prod.mk.injEq, Except.ok.injEq, append_eq_nil_iff] at h
  obtain ⟨⟨⟨hres, hue⟩, hle⟩, rfl⟩ := h
  cases res with
  | error => simp [droppedError] at hres
  | ok =>
    obtain ⟨hu₁, cs, hc, hcs⟩ := receiveAll_ok hh hu hr last
    rw [hcs]
    rcases preConsumeRest_ok husage hue with ⟨-, rfl⟩ | ⟨hne, -⟩
    · refine hc.trans ?_
      rcases preConsumeRest_ok hlocal hle with ⟨h0, rfl⟩ | ⟨h0, hpre⟩
      · rw [preConsumed, if_pos h0]
        exact .quiet rfl rfl rfl rfl
      · rw [preConsumed, if_neg h0, ← hc.relayInfo]
        exact (preConsumeUsage_ok (hc.holds hh) hpre).1
    · rw [hu₁] at hne
      exact absurd rfl hne

/-- **The settlement** charges what the session does not hold of the sum, and writes one log. -/
theorem postWssConsumeQuota_of [Ratio R] (hh : st.request.Holds w held)
    (hsource : st.request.relayInfo.billingSource ≠ some .promotional) (env : Setting R)
    (m : Moment R) (usage : RealtimeUsage) :
    ∃ st' log, postWssConsumeQuota env m usage st = (.ok (), st') ∧ st'.logs = st.logs ++ [log] ∧
      log.quota = st.price.finalQuota st.request.relayInfo.groupRatio m.ratios usage ∧
      Charged w st.request.relayInfo.tokenId (log.quota - held)
        (st.request.relayInfo.tokenShare (log.quota - held)) st.request.db.store
        st'.request.db.store := by
  generalize hq : st.price.finalQuota st.request.relayInfo.groupRatio m.ratios usage = quota
  obtain ⟨r, hrun, hinfo, hc⟩ := hh.settleBilling_of env quota
  simp only [postWssConsumeQuota, read_bind, id_eq, write_bind, attempt_bind, hq,
    onRequest, zoom, hrun]
  refine ⟨_, _, rfl, rfl, ?_, ?_⟩
  · simp only [customerChargeQuota, hinfo, if_neg hsource]
  · simp only [customerChargeQuota, hinfo, if_neg hsource]
    exact hc

theorem wssHelper_ok [Ratio R] (hh : st.request.Holds w held) (hu : st.usage = 0)
    (hsource : st.request.relayInfo.billingSource ≠ some .promotional) {env : Setting R}
    {last : Moment R} (h : wssHelper env ms last st = (.ok [], st')) :
    let cs := preConsumed st.request.relayInfo.creditPoolId last st.price st.localUsage ms
    ∃ log, st'.logs = st.logs ++ [log] ∧
      log.quota = st.price.finalQuota st.request.relayInfo.groupRatio last.ratios
        (st.sumUsage + PreConsume.summed cs) ∧
      ∃ n, Charged w st.request.relayInfo.tokenId (PreConsume.total cs + (log.quota - held)) n
        st.request.db.store st'.request.db.store := by
  intro cs
  obtain ⟨errors, st₁, hrun, h⟩ := bind_ok.mp h
  simp only [read_bind] at h
  obtain ⟨⟨⟩, st₂, hpost, h⟩ := bind_ok.mp h
  simp only [pure_apply, Prod.mk.injEq, Except.ok.injEq] at h
  obtain ⟨rfl, rfl⟩ := h
  have hc : st.Consumed w cs st₁ := openaiRealtimeHandler_ok hh hu hrun
  obtain ⟨st', log, hrun', hlogs, hquota, hcharge⟩ := postWssConsumeQuota_of (hc.holds hh)
    (by rw [hc.relayInfo]; exact hsource) env last st₁.sumUsage
  obtain rfl : st₂ = st' := (Prod.mk.inj (hpost.symm.trans hrun')).2
  obtain ⟨s, hs, hch⟩ := hc.request
  rw [hc.relayInfo, hs, Request.store_withStore] at hcharge
  refine ⟨log, by rw [hlogs, hc.logs], ?_, _, hch.trans hcharge⟩
  rw [hquota, hc.finalQuota, hc.relayInfo, hc.sumUsage]

end Run

/-- **When a realtime session is charged once.** One log is written, for the summed usage; and that
quota is what has left the wallet if and only if each usage charged while the session ran was free.
-/
theorem realtime_charges_once [Ratio R] {freeModel : Bool} {env env' : Setting R}
    {tokenQuota quota : Int} {cached : Option Token} {clamp : Option QuotaClamp}
    {info : RelayInfo R} {db db' : CreditDb R} {r : Request R} {w : Wallet} {p : PriceInfo R}
    {ms : List (Moment R × Message)} {last : Moment R} {st : RealtimeState R}
    (hbegin : beginRelay freeModel env tokenQuota cached clamp info quota db = (.ok r, db'))
    (hsource : r.relayInfo.billingSource ≠ some .promotional)
    (hd : DrawsOn db.store info.userId w)
    (htoken : info.isPlayground = false → (db.store.tokens.find? info.tokenId).isSome = true)
    (hfresh : info.finalPreConsumedQuota = 0)
    (hrun : wssHelper env' ms last (.init r p) = (.ok [], st)) :
    let cs := preConsumed info.creditPoolId last p 0 ms
    ∃ log, st.logs = [log] ∧
      log.quota = p.finalQuota info.groupRatio last.ratios (PreConsume.summed cs) ∧
      (db.store.balance w - st.request.db.store.balance w = log.quota ↔ ∀ c ∈ cs, c.Free) := by
  obtain ⟨held, hh, hsame, hc⟩ := beginRelay_ok hbegin hsource hd htoken hfresh
  obtain ⟨log, hlogs, hquota, n, hcharge⟩ := wssHelper_ok (w := w) (by exact hh) rfl hsource hrun
  simp only [RealtimeState.init, hsame.creditPoolId, hsame.groupRatio, zero_add] at hquota hcharge
  refine ⟨log, hlogs, hquota, ?_⟩
  have hsum := (hc.trans (hsame.tokenId ▸ hcharge)).wallet w
  rw [if_pos rfl] at hsum
  rw [← PreConsume.total_eq_zero]
  omega

def flatRatios (modelRatio : ℚ) : RatioSetting ℚ where
  quotaPerUnit := 500000
  getGroupRatio _ := 1
  getGroupGroupRatio _ _ := none
  getGroupModelDiscount _ _ := none
  getModelRatio _ := modelRatio
  catalogModelRatio _ := none
  getCompletionRatio _ := 1
  getAudioRatio _ := 1
  getAudioCompletionRatio _ := 1
  newFromFloat := id

def flatPrice (modelRatio : ℚ) : PriceInfo ℚ where
  originModelName := "gpt-realtime"
  upstreamModelName := "gpt-realtime"
  userGroup := "acme"
  usingGroup := "acme"
  creditPricingGroup := ""
  autoGroup := none
  usePrice := false
  priceData := ⟨false, 0, modelRatio⟩
  tryTieredSettle _ := none

def realtimeRequest : Except BillingError (Request ℚ) × CreditDb ℚ :=
  beginRelay false requestEnv 500 none none (requestInfo 0 0) 100 requestDb

/-- Two responses, of `n` tokens each. -/
def realtimeMessages (modelRatio : ℚ) (n : Int) : List (Moment ℚ × Message) :=
  [(⟨flatRatios modelRatio, none⟩, .responseDone (some (.ofInput n 0)) 0 0),
   (⟨flatRatios modelRatio, none⟩, .responseDone (some (.ofInput n 0)) 0 0)]

def realtimeRun (modelRatio : ℚ) (n : Int) (r : Request ℚ) :
    Except BillingError (List BillingError) × RealtimeState ℚ :=
  wssHelper requestEnv (realtimeMessages modelRatio n) ⟨flatRatios modelRatio, none⟩
    (.init r (flatPrice modelRatio))

theorem requestDb_drawsOn : DrawsOn requestDb.store 1 (.tenant 7) :=
  ⟨by decide, ⟨⟨1, 7⟩, by decide, by decide⟩, by decide⟩

/-- Two responses that are worth a quarter each are free, and their sum costs `1`. -/
theorem realtime_charges_once_quarters :
    ∃ r db' st, realtimeRequest = (.ok r, db') ∧ realtimeRun (1 / 4) 1 r = (.ok [], st) ∧
      st.logs.map ConsumeLog.quota = [1] ∧
      requestDb.store.balance (.tenant 7) - st.request.db.store.balance (.tenant 7) = 1 := by
  have hfacts : realtimeRequest.1.toOption.map (fun r => (r.relayInfo.billingSource,
      (realtimeRun (1 / 4) 1 r).1.toOption)) = some (some .wallet, some []) := by decide +kernel
  rcases hr : realtimeRequest with ⟨res, db'⟩
  rw [hr] at hfacts
  cases res with
  | error => simp [Except.toOption] at hfacts
  | ok r =>
    simp only [Except.toOption, Option.map_some, Option.some.injEq, Prod.mk.injEq] at hfacts
    obtain ⟨hsource, hok⟩ := hfacts
    rcases hrun : realtimeRun (1 / 4) 1 r with ⟨res, st⟩
    rw [hrun] at hok
    cases res with
    | error => simp at hok
    | ok errors =>
      obtain rfl : errors = [] := by simpa using hok
      obtain ⟨log, hlogs, hquota, hiff⟩ := realtime_charges_once hr (by rw [hsource]; decide)
        requestDb_drawsOn (fun _ => by decide) rfl hrun
      have hone : log.quota = 1 := hquota.trans (by decide +kernel)
      refine ⟨r, db', st, rfl, hrun, by rw [hlogs, map_singleton, hone], ?_⟩
      rw [← hone]
      exact hiff.mpr (by decide +kernel)

/-- Two responses of `10` tokens at ratio `1`: `40` leaves the wallet, and the log
says `20`. -/
theorem realtime_charges_twice :
    realtimeRequest.1.toOption.map (fun r => ((realtimeRun 1 10 r).1.toOption,
      (realtimeRun 1 10 r).2.logs.map ConsumeLog.quota,
      requestDb.store.balance (.tenant 7) -
        (realtimeRun 1 10 r).2.request.db.store.balance (.tenant 7))) =
      some (some [], [20], 40) := by
  decide +kernel

end UnifyConsole.Billing
