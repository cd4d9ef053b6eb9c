import UnifyConsole.Account.Tenant
import UnifyConsole.Billing.QuotaMath

/-!
# Credit lots

`model/credit_lot.go`: one supplier's tranche of one vendor's credits, routed
through one channel.  A lot carries counters that the traffic moves (what was
drawn, the revenue, the cost), what has been paid of the contributor's share, and
a status.  The share is never stored: it is derived from the counters.

Money is exact here, a rational number of dollars.  Texts are compared as the
source compares them; letters outside ASCII are not folded to lower case.
-/

namespace UnifyConsole.Supply

open Lib Account

/-! ### Texts -/

def textContains (text marker : List Char) : Bool := text.tails.any fun t => marker.isPrefixOf t

def secretMarkers : List String :=
  ["sk-ant-", "sk-proj-", "sk-live-", "sk-or-", "bearer ey", "api_key=", "aiza"]

def textLooksLikeProviderSecret (values : List String) : Bool :=
  values.any fun value => secretMarkers.any fun marker =>
    textContains (value.toList.map lowerRune) marker.toList

/-- `creditLotVendorPattern`: a slug of two to sixty-four characters. -/
def vendorMatches (vendor : String) : Bool :=
  match vendor.toList with
  | [] => false
  | c :: rest =>
    isSlugRune c && decide (1 ≤ rest.length) && decide (rest.length ≤ 63) &&
      rest.all fun c => isSlugRune c || c = '.' || c = '_' || c = '-'

/-! ### Rows -/

/-- The statuses of a lot; `other ""` is the status that is not set. -/
inductive LotStatus where
  | pending
  | verified
  | active
  | suspended
  | exhausted
  | expired
  | rejected
  | other (text : String)
deriving DecidableEq

inductive DealType where
  | purchase
  | revenueShare
  | other (text : String)
deriving DecidableEq

inductive ShareBasis where
  | revenue
  | margin
  | other (text : String)
deriving DecidableEq

inductive LotSource where
  | admin
  | supplier
  | other (text : String)
deriving DecidableEq

structure CreditLot where
  id : Int
  supplierId : Int
  vendor : String
  channelId : Int
  faceValueUSD : ℚ
  acquisitionRate : ℚ
  dealType : DealType
  revenueSharePct : ℚ
  revenueShareBasis : ShareBasis
  shareRevenueUSD : ℚ
  shareCostUSD : ℚ
  paidShareUSD : ℚ
  consumedUSD : ℚ
  unpricedRequests : Int
  lowWaterUSD : ℚ
  lowWaterNotifiedAt : Int
  expiresAt : Int
  status : LotStatus
  source : LotSource
  note : String
  statusReason : String
  attestationVersion : String
  attestedAt : Int
  attestedBy : String
  approvedBy : String
  approvedAt : Int
  verifiedAt : Int
  verificationNote : String
  payoutAccount : String
  retiredAt : Int
deriving DecidableEq

/-- The errors of the credit supply; `lockWait`: the statement has to wait for a row lock. -/
inductive LotError where
  | needsSupplier
  | badVendor
  | negativeChannel
  | noFaceValue
  | badShare
  | badRate
  | badBasis
  | buyOutWithdrawn
  | badDeal
  | badLowWater
  | badExpiry
  | badInitialStatus
  | badSource
  | needsChannel
  | secretInText
  | channelMissing (channelId : Int)
  | channelBound
  | supplierMissing (supplierId : Int)
  | recordNotFound
  | transition (old new : LotStatus)
  | reasonRequired
  | approvalNeedsConfirmation
  | hasExpired
  | onlyContributed
  | noShareToPay
  | shareBelowMinimum
  | shareNeedsWallet
  | shareNeedsReference
  | unknownMethod
  | balanceChanged
  | account (e : AccountError)
  | lockWait
deriving DecidableEq

structure CreditSupplyTerms where
  revenueShareBasis : ShareBasis
  minSharePayoutUSD : ℚ

def CreditSupplyTerms.shareBasis (terms : CreditSupplyTerms) : ShareBasis :=
  if terms.revenueShareBasis = .revenue then .revenue else .margin

namespace CreditLot

/-! ### The share -/

def isRevenueShare (lot : CreditLot) : Bool := decide (lot.dealType = .revenueShare)

/-- Revenue, or revenue net of what was paid up front. -/
def basisUSD (lot : CreditLot) : ℚ :=
  if lot.revenueShareBasis = .revenue then lot.shareRevenueUSD
  else lot.shareRevenueUSD - lot.shareCostUSD

def shareBasisUSD (lot : CreditLot) : ℚ :=
  if lot.isRevenueShare then if lot.basisUSD < 0 then 0 else lot.basisUSD else 0

def earnedShareUSD (lot : CreditLot) : ℚ := lot.shareBasisUSD * lot.revenueSharePct

def creditShareCentThreshold : ℚ := 5 / 1000

def unpaidShareUSD (lot : CreditLot) : ℚ :=
  if lot.earnedShareUSD - lot.paidShareUSD < creditShareCentThreshold then 0
  else lot.earnedShareUSD - lot.paidShareUSD

def remainingUSD (lot : CreditLot) : ℚ :=
  if lot.faceValueUSD - lot.consumedUSD < 0 then 0 else lot.faceValueUSD - lot.consumedUSD

def live (lot : CreditLot) : Bool :=
  decide (lot.status ∈ [LotStatus.pending, .verified, .active, .suspended])

/-- What is owed is nothing, or all that was earned and not paid. -/
theorem unpaidShareUSD_cases (lot : CreditLot) : lot.unpaidShareUSD = 0 ∨
    (0 < lot.unpaidShareUSD ∧ lot.unpaidShareUSD = lot.earnedShareUSD - lot.paidShareUSD) := by
  unfold unpaidShareUSD
  split
  · exact .inl rfl
  rename_i h
  have hpos : (0 : ℚ) < creditShareCentThreshold := by
    rw [creditShareCentThreshold]
    norm_num
  exact .inr ⟨lt_of_lt_of_le hpos (not_lt.mp h), rfl⟩

theorem shareBasisUSD_nonneg (lot : CreditLot) : 0 ≤ lot.shareBasisUSD := by
  unfold shareBasisUSD
  split
  · split
    · exact le_refl _
    · rename_i h
      exact not_lt.mp h
  · exact le_refl _

end CreditLot

/-! ### Validation -/

def firstFailure : List (Bool × LotError) → Option LotError
  | [] => none
  | (failed, e) :: rest => if failed then some e else firstFailure rest

theorem firstFailure_eq_none {checks : List (Bool × LotError)} :
    firstFailure checks = none ↔ ∀ c ∈ checks, c.1 = false := by
  induction checks with
  | nil => simp [firstFailure]
  | cons c checks ih =>
    obtain ⟨failed, e⟩ := c
    cases failed with
    | true => simp [firstFailure]
    | false => simp [firstFailure, ih]

def normaliseCreditLot (terms : CreditSupplyTerms) (lot : CreditLot) : CreditLot :=
  { lot with
    vendor := toLower (trimSpace lot.vendor)
    note := trimSpace lot.note
    dealType := if lot.dealType = .other "" then .revenueShare else lot.dealType
    status := if lot.status = .other "" then .pending else lot.status
    revenueShareBasis :=
      if lot.revenueShareBasis = .other "" then terms.shareBasis else lot.revenueShareBasis
    source := if lot.source = .other "" then .admin else lot.source
    payoutAccount := trimSpace lot.payoutAccount }

/-- The checks of `ValidateCreditLot`, in its order. -/
def creditLotChecks (lot : CreditLot) (now : Int) : List (Bool × LotError) :=
  [ (decide (lot.supplierId ≤ 0), .needsSupplier),
    (!vendorMatches lot.vendor, .badVendor),
    (decide (lot.channelId < 0), .negativeChannel),
    (decide (lot.faceValueUSD ≤ 0), .noFaceValue),
    (lot.isRevenueShare && decide (lot.revenueSharePct ≤ 0 ∨ 1 < lot.revenueSharePct), .badShare),
    (lot.isRevenueShare && decide (lot.acquisitionRate < 0 ∨ 1 < lot.acquisitionRate), .badRate),
    (lot.isRevenueShare &&
      decide (lot.revenueShareBasis ≠ .revenue ∧ lot.revenueShareBasis ≠ .margin), .badBasis),
    (decide (lot.dealType = .purchase), .buyOutWithdrawn),
    (!lot.isRevenueShare, .badDeal),
    (decide (lot.lowWaterUSD < 0 ∨ lot.faceValueUSD < lot.lowWaterUSD), .badLowWater),
    (decide (lot.expiresAt < 0 ∨ (lot.expiresAt ≠ 0 ∧ lot.expiresAt ≤ now)), .badExpiry),
    (decide (lot.status ≠ .pending ∧ lot.status ≠ .active), .badInitialStatus),
    (decide (lot.source ≠ .admin ∧ lot.source ≠ .supplier), .badSource),
    (decide (lot.status = .active ∧ lot.channelId = 0), .needsChannel),
    (textLooksLikeProviderSecret [lot.note, lot.payoutAccount], .secretInText) ]

def validateCreditLot (terms : CreditSupplyTerms) (now : Int) (lot : CreditLot) :
    Except LotError CreditLot :=
  match firstFailure (creditLotChecks (normaliseCreditLot terms lot) now) with
  | some e => .error e
  | none => .ok (normaliseCreditLot terms lot)

/-- What a lot that passed is like. -/
structure CreditLot.Valid (lot : CreditLot) : Prop where
  share : lot.dealType = .revenueShare
  positive : 0 < lot.revenueSharePct
  status : lot.status = .pending ∨ lot.status = .active
  bound : lot.status = .active → lot.channelId ≠ 0

theorem validateCreditLot_ok {terms : CreditSupplyTerms} {now : Int} {lot lot' : CreditLot}
    (h : validateCreditLot terms now lot = .ok lot') :
    lot' = normaliseCreditLot terms lot ∧ lot'.Valid := by
  unfold validateCreditLot at h
  split at h
  · cases h
  rename_i hnone
  cases h
  refine ⟨rfl, ?_⟩
  generalize normaliseCreditLot terms lot = lot' at hnone
  rw [firstFailure_eq_none] at hnone
  simp only [creditLotChecks, List.forall_mem_cons, Bool.and_eq_false_iff,
    decide_eq_false_iff_not, Bool.not_eq_false'] at hnone
  obtain ⟨-, -, -, -, hpct, -, -, -, hdeal, -, -, hstatus, -, hchannel, -⟩ := hnone
  refine ⟨of_decide_eq_true hdeal, ?_, ?_, fun ha h0 => hchannel ⟨ha, h0⟩⟩
  · rcases hpct with h | h
    · rw [hdeal] at h
      cases h
    · by_contra hc
      exact h (.inl (not_lt.mp hc))
  by_cases hp : lot'.status = .pending
  · exact .inl hp
  · refine .inr ?_
    by_contra hc
    exact hstatus ⟨hp, hc⟩

end UnifyConsole.Supply
