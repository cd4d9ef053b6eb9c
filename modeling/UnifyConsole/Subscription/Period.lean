import Mathlib
import UnifyConsole.Subscription.Refund

/-!
# The usage of the current period

What `amount_used` should be: the sum, over the requests pre-consumed since the last
reset and not refunded, of what they pre-consumed and what was settled for them.
Bookings and resets keep the column at that sum.  A delta does if its request counts:
it was pre-consumed in the current period and not refunded, and its amount does not
become negative.  A refund does if its request is of the current period and nothing
was settled for it.  The code does not look: the record names no period, so a refund
or a settlement that comes after a reset is taken from the requests after it.
-/

namespace UnifyConsole.Subscription

open Lib
open Table Pool

variable {gs pre post : List (SubscriptionCall × RefundNote)} {c : SubscriptionCall}
  {g g' : RefundNote} {s s' : SubscriptionDb}

variable {r : String} {record : SubscriptionPreConsumeRecord} {sub row : UserSubscription}

namespace SubscriptionDb

/-- What was settled for a request. -/
def settledFor (s : SubscriptionDb) (requestId : String) : Int :=
  ((s.settled.filter fun x => decide (x.1 = requestId)).map Prod.snd).sum

/-- What a request is worth to the usage of a subscription: nothing unless it was pre-consumed from
it since its last reset and is not refunded. -/
def share (s : SubscriptionDb) (sub : Int) (record : SubscriptionPreConsumeRecord) : Int :=
  if record.userSubscriptionId = sub ∧ (record.requestId, sub) ∈ s.current ∧
      s.reduced record.requestId = 0 then
    record.preConsumed + s.settledFor record.requestId
  else 0

def usage (s : SubscriptionDb) (sub : Int) : Int := s.records.sum (s.share sub)

theorem settledFor_eq_zero (h : ∀ x ∈ s.settled, x.1 ≠ r) : s.settledFor r = 0 := by
  rw [settledFor, List.filter_eq_nil_iff.mpr (fun x hx => by simpa using h x hx)]
  rfl

theorem reduced_eq_zero (h : ∀ x ∈ s.reductions, x.requestId ≠ r) : s.reduced r = 0 :=
  List.countP_eq_zero.mpr fun x hx => by simpa using h x hx

/-- A request that nothing happened to is worth what it was. -/
theorem share_congr {k : Int}
    (hcurrent : (record.requestId, k) ∈ s'.current ↔ (record.requestId, k) ∈ s.current)
    (hreduced : s'.reduced record.requestId = s.reduced record.requestId)
    (hsettled : s'.settledFor record.requestId = s.settledFor record.requestId) :
    s'.share k record = s.share k record := by
  simp only [share, hcurrent, hreduced, hsettled]

theorem mem_saveSub {x : UserSubscription} (hrow : s.subs.find? sub.id = some row)
    (hx : x ∈ (s.saveSub sub).subs.rows) : x = sub ∨ (x ∈ s.subs.rows ∧ x.id ≠ sub.id) := by
  have hf := find?_eq_some_iff.mpr ⟨hx, rfl⟩
  rw [find?_saveSub hrow] at hf
  split at hf
  · exact .inl (Option.some.inj hf).symm
  · rename_i hne
    exact .inr ⟨mem_of_find? hf, hne⟩

end SubscriptionDb

/-- **The invariant**: the column is the usage of the period. -/
structure Ledger (s : SubscriptionDb) : Prop where
  used : ∀ row ∈ s.subs.rows, row.amountUsed = s.usage row.id
  bounded : ∀ row ∈ s.subs.rows, 0 < row.amountTotal → row.amountUsed ≤ row.amountTotal
  nonneg : ∀ sub, ∀ record ∈ s.records.rows, 0 ≤ s.share sub record
  settled : ∀ x ∈ s.settled, (s.records.find? x.1).isSome = true
  current : ∀ x ∈ s.current, ∃ record,
    s.records.find? x.1 = some record ∧ record.userSubscriptionId = x.2

namespace Ledger

theorem usage_nonneg (h : Ledger s) (sub : Int) : 0 ≤ s.usage sub :=
  sum_nonneg (h.nonneg sub)

/-- One row is saved, and the usage of no other subscription has changed. -/
theorem save (h : Ledger s) (sub : UserSubscription) (hrow : s.subs.find? sub.id = some row)
    (hsubs : s'.subs = (s.saveSub sub).subs) (hused : sub.amountUsed = s'.usage sub.id)
    (hothers : ∀ k, k ≠ sub.id → s'.usage k = s.usage k)
    (hbounded : 0 < sub.amountTotal → sub.amountUsed ≤ sub.amountTotal)
    (hnonneg : ∀ k, ∀ record ∈ s'.records.rows, 0 ≤ s'.share k record)
    (hsettled : ∀ x ∈ s'.settled, (s'.records.find? x.1).isSome = true)
    (hcurrent : ∀ x ∈ s'.current, ∃ record,
      s'.records.find? x.1 = some record ∧ record.userSubscriptionId = x.2) : Ledger s' := by
  refine ⟨fun x hx => ?_, fun x hx => ?_, hnonneg, hsettled, hcurrent⟩
  · rw [hsubs] at hx
    rcases SubscriptionDb.mem_saveSub hrow hx with rfl | ⟨hx, hne⟩
    · exact hused
    · rw [hothers x.id hne]
      exact h.used x hx
  · rw [hsubs] at hx
    rcases SubscriptionDb.mem_saveSub hrow hx with rfl | ⟨hx, -⟩
    · exact hbounded
    · exact h.bounded x hx

theorem schedule (h : Ledger s) (hrow : s.subs.find? sub.id = some row)
    (hused : sub.amountUsed = row.amountUsed) (htotal : sub.amountTotal = row.amountTotal) :
    Ledger (s.saveSub sub) := by
  have hmem := mem_of_find? hrow
  have hid : row.id = sub.id := key_of_find? hrow
  refine h.save sub hrow rfl ?_ (fun _ _ => rfl) ?_ h.nonneg h.settled h.current
  · rw [hused, ← hid]
    exact h.used row hmem
  · rw [hused, htotal]
    exact h.bounded row hmem

/-- A new period: the requests of the subscription count no more. -/
theorem share_saveReset (sub : UserSubscription) (k : Int)
    (record : SubscriptionPreConsumeRecord) :
    (s.saveReset sub).share k record = if k = sub.id then 0 else s.share k record := by
  have hmem : (record.requestId, k) ∈ (s.saveReset sub).current ↔
      (record.requestId, k) ∈ s.current ∧ k ≠ sub.id := by
    simp [SubscriptionDb.saveReset]
  have hreduced : (s.saveReset sub).reduced record.requestId = s.reduced record.requestId := rfl
  have hsettled : (s.saveReset sub).settledFor record.requestId =
      s.settledFor record.requestId := rfl
  simp only [SubscriptionDb.share, hmem, hreduced, hsettled]
  by_cases hk : k = sub.id
  · simp [hk]
  · simp [hk]

theorem reset (h : Ledger s) (hrow : s.subs.find? sub.id = some row) (hused : sub.amountUsed = 0) :
    Ledger (s.saveReset sub) := by
  refine h.save sub hrow rfl ?_ (fun k hk => ?_) ?_ (fun k record hrec => ?_) h.settled
    (fun x hx => h.current x (List.mem_of_mem_filter hx))
  · rw [hused]
    refine (sum_eq_zero fun record _ => ?_).symm
    rw [share_saveReset, if_pos rfl]
  · refine sum_congr fun record _ => ?_
    rw [share_saveReset, if_neg hk]
  · omega
  · rw [share_saveReset]
    split
    · exact le_refl 0
    · exact h.nonneg k record hrec

theorem consume (h : Ledger s) {requestId : String} {userId amount : Int}
    {records : Table SubscriptionPreConsumeRecord.requestId} (hrow : s.subs.find? row.id = some row)
    (hpos : 0 < amount) (hroom : 0 < row.amountTotal → row.amountUsed + amount ≤ row.amountTotal)
    (hins : s.records.insert? ⟨requestId, userId, row.id, amount, .consumed⟩ = some records)
    (hreduced : s.reduced requestId = 0) :
    Ledger (SubscriptionDb.saveSub
      { s with records := records, current := (requestId, row.id) :: s.current }
      { row with amountUsed := row.amountUsed + amount }) := by
  set s' := SubscriptionDb.saveSub
    { s with records := records, current := (requestId, row.id) :: s.current }
    { row with amountUsed := row.amountUsed + amount } with hs'
  have hnone : s.records.find? requestId = none := (insert?_eq_some_iff.mp hins).1
  have hnew : s.settledFor requestId = 0 := by
    refine SubscriptionDb.settledFor_eq_zero fun x hx he => ?_
    have := h.settled x hx
    rw [he, hnone] at this
    cases this
  -- the old requests are worth what they were, the new one what it pre-consumed
  have hold : ∀ k, ∀ record ∈ s.records.rows, s'.share k record = s.share k record := by
    intro k record hrec
    refine SubscriptionDb.share_congr ?_ rfl rfl
    have hne : record.requestId ≠ requestId := by
      intro he
      have := find?_eq_some_iff.mpr ⟨hrec, he⟩
      rw [hnone] at this
      cases this
    simp [hs', SubscriptionDb.saveSub, hne]
  have hshare : ∀ k, s'.share k ⟨requestId, userId, row.id, amount, .consumed⟩ =
      if k = row.id then amount else 0 := by
    intro k
    have hred : s'.reduced requestId = 0 := hreduced
    have hset : s'.settledFor requestId = 0 := hnew
    simp only [SubscriptionDb.share, hred, hset]
    by_cases hk : k = row.id
    · simp [hk, hs', SubscriptionDb.saveSub]
    · simp [hk, Ne.symm hk]
  have husage : ∀ k, s'.usage k = s.usage k + if k = row.id then amount else 0 := by
    intro k
    show records.sum (s'.share k) = _
    rw [sum_insert? hins, hshare, sum_congr (hold k)]
    rfl
  refine h.save { row with amountUsed := row.amountUsed + amount } hrow rfl ?_
    (fun k hk => ?_) hroom (fun k record hrec => ?_) (fun x hx => ?_) fun x hx => ?_
  · rw [husage, if_pos rfl, ← h.used row (mem_of_find? hrow)]
  · rw [husage, if_neg hk, add_zero]
  · rcases (mem_insert? hins).mp hrec with hrec | rfl
    · rw [hold k record hrec]
      exact h.nonneg k record hrec
    · rw [hshare]
      split <;> omega
  · exact isSome_find?_insert? hins (h.settled x hx)
  · rcases List.mem_cons.mp hx with rfl | hx
    · exact ⟨_, find?_insert?_self hins, rfl⟩
    · obtain ⟨record, hrec, hsub⟩ := h.current x hx
      exact ⟨record, find?_insert?_of_some hins hrec, hsub⟩

variable {s₁ : SubscriptionDb}

/-- A delta moves the usage when the worth of one request moves by as much. -/
theorem charge (h : Ledger s) {delta : Int}
    (hcharged : Charged record.userSubscriptionId delta row s s₁)
    (hrec : s.records.find? record.requestId = some record) (hsubs : s'.subs = s₁.subs)
    (hrecords : s'.records = s.records) (hcurrent : s'.current = s.current)
    (hsettled : ∀ x ∈ s'.settled, x ∈ s.settled ∨ x.1 = record.requestId)
    (hold : ∀ k x, record.requestId ≠ x.requestId → s'.share k x = s.share k x)
    (hshare : s'.share record.userSubscriptionId record =
      s.share record.userSubscriptionId record + delta)
    (hnonneg : 0 ≤ s.share record.userSubscriptionId record + delta) : Ledger s' := by
  have hid : row.id = record.userSubscriptionId := key_of_find? hcharged.found
  have hzero : ∀ (s : SubscriptionDb) k, k ≠ record.userSubscriptionId → s.share k record = 0 := by
    intro s k hk
    rw [SubscriptionDb.share, if_neg (fun hc => hk hc.1.symm)]
  have hothers : ∀ k, ∀ x ∈ s.records.rows, x ≠ record → s'.share k x = s.share k x :=
    fun k x hx hne => hold k x fun he =>
      hne (s.records.eq_of_key_eq hx (mem_of_find? hrec) he.symm)
  have hpos : ∀ k, ∀ x ∈ s'.records.rows, 0 ≤ s'.share k x := by
    intro k x hx
    rw [hrecords] at hx
    by_cases hxr : x = record
    · by_cases hk : k = record.userSubscriptionId
      · rw [hxr, hk, hshare]
        exact hnonneg
      · rw [hxr, hzero s' k hk]
    · rw [hothers k x hx hxr]
      exact h.nonneg k x hx
  have husage : ∀ k, s'.usage k = s.usage k + (s'.share k record - s.share k record) := by
    intro k
    rw [SubscriptionDb.usage, hrecords]
    exact sum_eq_of_find? hrec (hothers k)
  have hsame : s'.usage row.id = s.usage row.id + delta := by
    rw [husage, hid, hshare]
    omega
  have hmax : max 0 (row.amountUsed + delta) = s'.usage row.id := by
    rw [hsame, h.used row (mem_of_find? hcharged.found)]
    have := sum_nonneg (hpos row.id)
    rw [← SubscriptionDb.usage, hsame] at this
    omega
  have hsaved : s'.subs =
      (s.saveSub { row with amountUsed := max 0 (row.amountUsed + delta) }).subs := by
    rw [hsubs, hcharged.saved]
  refine h.save { row with amountUsed := max 0 (row.amountUsed + delta) }
    (hid ▸ hcharged.found) hsaved hmax (fun k hk => ?_) hcharged.fits hpos (fun x hx => ?_)
    (fun x hx => ?_)
  · have hk' : k ≠ record.userSubscriptionId := hid ▸ hk
    rw [husage, hzero s' k hk', hzero s k hk']
    omega
  · rw [hrecords]
    rcases hsettled x hx with hx | hx
    · exact h.settled x hx
    · rw [hx, hrec]
      rfl
  · rw [hcurrent] at hx
    rw [hrecords]
    exact h.current x hx

/-- The settlement of a request that counts. -/
theorem settle (h : Ledger s) {delta : Int}
    (hcharged : Charged record.userSubscriptionId delta row s s₁)
    (hrec : s.records.find? record.requestId = some record)
    (hcurrent : (record.requestId, record.userSubscriptionId) ∈ s.current)
    (hreduced : s.reduced record.requestId = 0)
    (hpos : 0 ≤ record.preConsumed + s.settledFor record.requestId + delta) :
    Ledger { s₁ with settled := (record.requestId, delta) :: s₁.settled } := by
  obtain rfl := hcharged.saved
  have hworth : s.share record.userSubscriptionId record =
      record.preConsumed + s.settledFor record.requestId := if_pos ⟨rfl, hcurrent, hreduced⟩
  have hsettled : ∀ r, SubscriptionDb.settledFor
      { s with settled := (record.requestId, delta) :: s.settled } r =
      (if record.requestId = r then delta else 0) + s.settledFor r := by
    intro r
    simp only [SubscriptionDb.settledFor]
    by_cases he : record.requestId = r
    · simp [he]
    · simp [he]
  refine h.charge hcharged hrec rfl rfl rfl (fun x hx => ?_)
    (fun k x hne => SubscriptionDb.share_congr .rfl rfl ((hsettled _).trans ?_))
    ((if_pos ⟨rfl, hcurrent, hreduced⟩).trans ?_) (by rw [hworth]; exact hpos)
  · rcases List.mem_cons.mp hx with rfl | hx
    · exact .inr rfl
    · exact .inl hx
  · rw [if_neg hne, zero_add]
  · rw [hworth]
    refine (congrArg _ (hsettled _)).trans ?_
    rw [if_pos rfl]
    omega

/-- The refund of a request that counts and for which nothing was settled. -/
theorem lower (h : Ledger s) {x : Reduction}
    (hcharged : Charged record.userSubscriptionId (-record.preConsumed) row s s₁)
    (hrec : s.records.find? record.requestId = some record) (hx : x.requestId = record.requestId)
    (hcurrent : (record.requestId, record.userSubscriptionId) ∈ s.current)
    (hreduced : s.reduced record.requestId = 0) (hsettled : s.settledFor record.requestId = 0) :
    Ledger { s₁ with reductions := x :: s₁.reductions } := by
  obtain rfl := hcharged.saved
  have hworth : s.share record.userSubscriptionId record = record.preConsumed := by
    rw [SubscriptionDb.share, if_pos ⟨rfl, hcurrent, hreduced⟩, hsettled, add_zero]
  have hreduced' : ∀ r, SubscriptionDb.reduced { s with reductions := x :: s.reductions } r =
      s.reduced r + if record.requestId = r then 1 else 0 := by
    intro r
    simp only [SubscriptionDb.reduced, List.countP_cons, hx, decide_eq_true_eq]
  refine h.charge hcharged hrec rfl rfl rfl (fun y hy => .inl hy)
    (fun k y hne => SubscriptionDb.share_congr .rfl ((hreduced' _).trans ?_) rfl)
    ((if_neg ?_).trans ?_) (by rw [hworth]; omega)
  · rw [if_neg hne, add_zero]
  · rintro ⟨-, -, h0⟩
    have := (hreduced' _).symm.trans h0
    rw [if_pos rfl] at this
    omega
  · rw [hworth]
    omega

/-- The status of a record does not matter. -/
theorem mark (h : Ledger s) (r : String) : Ledger (s.markRefunded r) := by
  have husage : ∀ k, (s.markRefunded r).usage k = s.usage k := by
    intro k
    show (s.markRefunded r).records.sum (s.share k) = _
    simp only [SubscriptionDb.markRefunded]
    rw [sum_update_of_same]
    · rfl
    · exact fun _ => rfl
  refine ⟨fun row hrow => ?_, h.bounded, fun k record hrec => ?_, fun x hx => ?_, fun x hx => ?_⟩
  · rw [husage]
    exact h.used row hrow
  · simp only [SubscriptionDb.markRefunded, update, List.mem_map] at hrec
    obtain ⟨record', hrec', rfl⟩ := hrec
    split
    · exact h.nonneg k record' hrec'
    · exact h.nonneg k record' hrec'
  · simp only [SubscriptionDb.markRefunded]
    rw [isSome_find?_update]
    exact h.settled x hx
  · obtain ⟨record, hrec, hsub⟩ := h.current x hx
    simp only [SubscriptionDb.markRefunded]
    rw [find?_update, hrec, Option.map_some]
    refine ⟨_, rfl, ?_⟩
    split
    · exact hsub
    · exact hsub

end Ledger

/-! ### Runs -/

/-- A settlement is of a request of the current period, not refunded, and leaves no less than
nothing; a refund is of one of the current period without settlements, unless it has nothing to give
back, and does not fail after its inner commit. -/
def SubscriptionCall.Timely (c : SubscriptionCall) (s : SubscriptionDb) : Prop :=
  match c with
  | .settle requestId sub delta _ => delta ≠ 0 → (requestId, sub) ∈ s.current ∧
      s.reduced requestId = 0 ∧ ∀ record ∈ s.records.find? requestId,
        0 ≤ record.preConsumed + s.settledFor requestId + delta
  | .refund requestId _ | .refundRetried requestId _ _ _ => c.lateFault = false ∧
      ∀ record ∈ s.records.find? requestId, record.status = .consumed → 0 < record.preConsumed →
        s.reduced requestId = 0 →
          (requestId, record.userSubscriptionId) ∈ s.current ∧ s.settledFor requestId = 0
  | _ => True

instance (c : SubscriptionCall) (s : SubscriptionDb) : Decidable (c.Timely s) := by
  cases c <;> unfold SubscriptionCall.Timely <;> infer_instance

theorem SubscriptionCall.Timely.lateFault (h : c.Timely s) : c.lateFault = false := by
  cases c with
  | preConsume | settle | resetDue | resetUser | resetPlan => rfl
  | refund => exact h.1
  | refundRetried => exact h.1

theorem SubscriptionCall.Timely.refunds (h : c.Timely s) (hc : c.refunds = some r)
    (hrec : s.records.find? r = some record) (hstatus : record.status = .consumed)
    (hpos : 0 < record.preConsumed) (hreduced : s.reduced r = 0) :
    (r, record.userSubscriptionId) ∈ s.current ∧ s.settledFor r = 0 := by
  cases c with
  | refund | refundRetried =>
    cases hc
    exact h.2 record hrec hstatus hpos hreduced
  | preConsume | settle | resetDue | resetUser | resetPlan => cases hc

namespace Ledger

theorem booking (h : RefundsOnce gs s) (hl : Ledger s) (hb : Booking s s') : Ledger s' := by
  cases hb with
  | schedule hrow hused htotal => exact hl.schedule hrow hused htotal
  | reset hrow hused => exact hl.reset hrow hused
  | consume hrow hpos hroom hins =>
    refine hl.consume hrow hpos hroom hins (SubscriptionDb.reduced_eq_zero fun x hx he => ?_)
    -- a request that is new was not refunded
    obtain ⟨record, hrec, -⟩ := h.shape x hx
    have hnone := (insert?_eq_some_iff.mp hins).1
    rw [he] at hrec
    exact absurd (hrec.symm.trans hnone) (by simp)

theorem books (h : RefundsOnce gs s) (hl : Ledger s) (hb : Books s s') : Ledger s' := by
  have key : RefundsOnce gs s' ∧ Ledger s' := by
    induction hb with
    | refl => exact ⟨h, hl⟩
    | tail _ hb ih => exact ⟨ih.1.of_aside (.of_booking hb), booking ih.1 ih.2 hb⟩
  exact key.2

/-- An open refund that has not lowered the usage has not done so before either. -/
theorem reduced_holding (h : RefundsOnce (pre ++ (c, .holding record) :: post) s) :
    s.reduced record.requestId = 0 := by
  obtain ⟨hrow, hstatus, -⟩ := h.rows (c, .holding record) (by simp) record rfl
  obtain ⟨hpre, hpost⟩ := h.others rfl
  have hnot : s.isRefunded record.requestId = false := by
    rw [SubscriptionDb.isRefunded, hrow, Option.any_some, hstatus]
    rfl
  rw [h.reduced, hnot, lowering_split]
  simp only [RefundNote.lowers, Option.toList_none, List.count_append,
    List.count_eq_zero.mpr (fun hp => hpre (lowering_sublist_held.subset hp)),
      List.count_eq_zero.mpr (fun hp => hpost (lowering_sublist_held.subset hp))]
  rfl

/-- **One statement of one call keeps the column at the usage of the period.** -/
theorem step (h : RefundsOnce (pre ++ (c, g) :: post) s) (hl : Ledger s) (hok : c.Timely s)
    (hm : SubscriptionMove c g s g' s') : Ledger s' := by
  cases hm with
  | refl => exact hl
  | book hb => exact books h hl hb
  | @settle s s₁ requestId sub delta commits row hc h0 hcharged =>
    subst hc
    obtain ⟨hcurrent, hreduced, hpos⟩ := hok h0
    obtain ⟨record, hrec, hsub⟩ := hl.current _ hcurrent
    obtain rfl : record.requestId = requestId := key_of_find? hrec
    obtain rfl : record.userSubscriptionId = sub := hsub
    exact hl.settle hcharged hrec hcurrent hreduced (hpos record hrec)
  | void => exact hl.mark _
  | lock | release => exact ⟨hl.used, hl.bounded, hl.nonneg, hl.settled, hl.current⟩
  | @lower s s₁ record row hc hcharged =>
    obtain ⟨hrow, hstatus, hpos⟩ := h.rows (c, .holding record) (by simp) record rfl
    have hreduced := reduced_holding h
    obtain ⟨hcurrent, hsettled⟩ := hok.refunds hc hrow hstatus hpos hreduced
    exact hl.lower hcharged hrow rfl hcurrent hreduced hsettled
  | @finish s record =>
    have hm := hl.mark record.requestId
    exact ⟨hm.used, hm.bounded, hm.nonneg, hm.settled, hm.current⟩
  | abandon hlate =>
    rw [hok.lateFault] at hlate
    cases hlate

end Ledger

structure SubscriptionDb.Unused (s : SubscriptionDb) : Prop where
  subs : ∀ row ∈ s.subs.rows, row.amountUsed = 0
  records : s.records = .empty
  locked : s.locked = []
  current : s.current = []
  settled : s.settled = []
  reductions : s.reductions = []

theorem SubscriptionDb.Unused.ledger (h : s.Unused) : Ledger s := by
  have hno : ∀ record, record ∉ s.records.rows := by simp [h.records]
  refine ⟨fun row hrow => ?_, fun row hrow ht => ?_, fun _ record hrec => absurd hrec (hno record),
    by simp [h.settled], by simp [h.current]⟩
  · rw [h.subs row hrow, SubscriptionDb.usage, h.records]
    rfl
  · rw [h.subs row hrow]
    omega

theorem SubscriptionDb.Unused.unrefunded (h : s.Unused) : s.Unrefunded :=
  ⟨h.locked, h.reductions, by simp [h.records]⟩

/-- **`amount_used` is the usage of the current period**, within its bounds, in every interleaving
of any calls that are timely. -/
theorem subscription_usage_is_current {cal : Calendar} {s₀ : SubscriptionDb} (h₀ : s₀.Unused)
    {p : Pool SubscriptionCall SubscriptionDb Unit}
    (hr : Pool.ReachIf (SubscriptionCall.prog cal) SubscriptionCall.Timely (Pool.start s₀) p)
    (row : UserSubscription) (hrow : row ∈ p.state.subs.rows) :
    row.amountUsed = p.state.usage row.id ∧ 0 ≤ row.amountUsed ∧
      (0 < row.amountTotal → row.amountUsed ≤ row.amountTotal) := by
  obtain ⟨gs, -, -, h⟩ := reach_annotated (G := SubscriptionMove)
    (J := fun gs s => RefundsOnce gs s ∧ Ledger s)
    (fun c _ _ h => ⟨.idle, (keeps_prog cal c).follows, h.1.call c, h.2⟩)
    (fun _ _ _ _ _ _ _ h hok hm => ⟨h.1.step hok.lateFault hm, h.2.step h.1 hok hm⟩) hr
    ⟨[], .nil, RefundsOnce.of_unrefunded h₀.unrefunded, h₀.ledger⟩
  have hused := h.used row hrow
  have hnonneg := h.usage_nonneg row.id
  exact ⟨hused, by omega, h.bounded row hrow⟩

theorem dailyDb_unused : dailyDb.Unused := ⟨by decide, rfl, rfl, rfl, rfl, rfl⟩

def timelyCalls : List SubscriptionCall :=
  [.preConsume "a" 7 100 10 true, .preConsume "b" 7 50 11 true, .refund "a" none,
    .settle "b" 1 25 true, .preConsume "c" 7 100 90000 true, .preConsume "d" 7 60 90001 true,
    .refund "c" none, .settle "d" 1 (-20) true]

theorem subscription_usage_is_current_two_days :
    let p := play (SubscriptionCall.prog plainCalendar) (subscriptionCalls timelyCalls)
      (start dailyDb)
    ∃ row ∈ p.state.subs.rows, row.lastResetTime = 86400 ∧ row.amountUsed = 40 ∧
      (row.amountUsed = p.state.usage row.id ∧ 0 ≤ row.amountUsed ∧
        (0 < row.amountTotal → row.amountUsed ≤ row.amountTotal)) := by
  intro p
  have hmem : (⟨1, 7, 3, 1000, 40, 0, 1000000, .active, 86400, 172800⟩ : UserSubscription) ∈
      p.state.subs.rows := by decide +kernel
  exact ⟨_, hmem, rfl, rfl, subscription_usage_is_current dailyDb_unused
    (reach_play_of _ _ _ _ (by decide +kernel)) _ hmem⟩

/-- A request of the day before is refunded after the reset: today's usage is gone. -/
theorem refund_after_reset :
    dailyDb.Unused ∧ ∃ p : Pool SubscriptionCall SubscriptionDb Unit,
      Pool.Reach (SubscriptionCall.prog plainCalendar) (Pool.start dailyDb) p ∧
      p.state.subs.rows.map UserSubscription.amountUsed = [0] ∧ p.state.usage 1 = 60 :=
  ⟨dailyDb_unused, play (SubscriptionCall.prog plainCalendar)
      (subscriptionCalls [.preConsume "a" 7 100 10 true, .preConsume "b" 7 60 90000 true,
        .refund "a" none]) (start dailyDb),
    reach_play _ _ _, by decide +kernel⟩

end UnifyConsole.Subscription
