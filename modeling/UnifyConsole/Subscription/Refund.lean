import UnifyConsole.Subscription.Moves

/-!
# A pre-consumption is refunded once

A refund lowers the usage in a transaction that commits before the record is marked.
`RefundsOnce` counts: the reductions made for a request are one if its record is
marked, and one more for an open refund that has lowered the usage.  The lock of the
record lets only one refund of a request be open, so a reduction is never made twice
as long as what follows the inner commit does not fail.  When it fails the mark is
lost and the next attempt lowers the usage again.
-/

namespace UnifyConsole.Subscription

open Lib
open Pool List Option SubscriptionDb

/-! ### Notes -/

namespace RefundNote

def record : RefundNote → Option SubscriptionPreConsumeRecord
  | idle => none
  | holding record => some record
  | lowered record => some record

/-- The request whose usage was lowered and whose record is not marked yet. -/
def lowers : RefundNote → Option String
  | lowered record => some record.requestId
  | _ => none

end RefundNote

variable {gs pre post : List (SubscriptionCall × RefundNote)} {c : SubscriptionCall}
  {g g' : RefundNote} {s s' : SubscriptionDb}

/-- The requests that open refunds hold locked. -/
def held (gs : List (SubscriptionCall × RefundNote)) : List String :=
  gs.flatMap fun g => (g.2.record.map SubscriptionPreConsumeRecord.requestId).toList

/-- The requests whose open refund has lowered the usage. -/
def lowering (gs : List (SubscriptionCall × RefundNote)) : List String :=
  gs.flatMap fun g => g.2.lowers.toList

theorem held_split : held (pre ++ (c, g) :: post) =
    held pre ++ ((g.record.map SubscriptionPreConsumeRecord.requestId).toList ++ held post) := by
  simp only [held, flatMap_append, flatMap_cons]

theorem lowering_split :
    lowering (pre ++ (c, g) :: post) = lowering pre ++ (g.lowers.toList ++ lowering post) := by
  simp only [lowering, flatMap_append, flatMap_cons]

theorem lowering_sublist_held : (lowering gs).Sublist (held gs) := by
  induction gs with
  | nil => exact Sublist.refl _
  | cons g gs ih =>
    simp only [lowering, held, flatMap_cons]
    refine Sublist.append ?_ ih
    cases g.2 with
    | idle | lowered => exact Sublist.refl _
    | holding => exact nil_sublist _

/-! ### Counting -/

namespace SubscriptionDb

def isRefunded (s : SubscriptionDb) (requestId : String) : Bool :=
  (s.records.find? requestId).any
    (fun record => decide (record.status = .refunded) && decide (0 < record.preConsumed))

/-- The reductions that were made for a request. -/
def reduced (s : SubscriptionDb) (requestId : String) : Nat :=
  s.reductions.countP fun x => decide (x.requestId = requestId)

structure Unrefunded (s : SubscriptionDb) : Prop where
  locked : s.locked = []
  reductions : s.reductions = []
  records : ∀ record ∈ s.records.rows, record.status = .consumed

end SubscriptionDb

/-- **The invariant.** -/
structure RefundsOnce (gs : List (SubscriptionCall × RefundNote)) (s : SubscriptionDb) : Prop where
  locks : (held gs).Perm s.locked
  nodup : s.locked.Nodup
  rows : ∀ g ∈ gs, ∀ record, g.2.record = some record →
    s.records.find? record.requestId = some record ∧ record.status = .consumed ∧
      0 < record.preConsumed
  reduced : ∀ r, s.reduced r = (if s.isRefunded r then 1 else 0) + (lowering gs).count r
  shape : ∀ x ∈ s.reductions, ∃ record, s.records.find? x.requestId = some record ∧
    x.subscriptionId = record.userSubscriptionId ∧
    x.after = max 0 (x.before - record.preConsumed)

/-- A statement that no refund takes part in: records may be new. -/
structure Aside (s s' : SubscriptionDb) : Prop where
  locked : s'.locked = s.locked
  reductions : s'.reductions = s.reductions
  records : ∀ r record, s.records.find? r = some record → s'.records.find? r = some record
  fresh : ∀ r record, s.records.find? r = none → s'.records.find? r = some record →
    record.status = .consumed

namespace Aside

theorem of_records (hl : s'.locked = s.locked) (hr : s'.reductions = s.reductions)
    (h : s'.records = s.records) : Aside s s' := by
  refine ⟨hl, hr, fun r record hf => h ▸ hf, fun r record hnone hf => ?_⟩
  rw [h, hnone] at hf
  cases hf

theorem trans {s'' : SubscriptionDb} (h : Aside s s') (h' : Aside s' s'') : Aside s s'' := by
  refine ⟨h'.locked.trans h.locked, h'.reductions.trans h.reductions,
    fun r record hf => h'.records r record (h.records r record hf), fun r record hnone hf => ?_⟩
  cases hf' : s'.records.find? r with
  | none => exact h'.fresh r record hf' hf
  | some record' =>
    rw [h'.records r record' hf'] at hf
    cases hf
    exact h.fresh r record hnone hf'

theorem of_booking (h : Booking s s') : Aside s s' := by
  cases h with
  | schedule | reset => exact of_records rfl rfl rfl
  | @consume row requestId userId amount records hrow hpos hroom hins =>
    refine ⟨rfl, rfl, fun r record hf => Table.find?_insert?_of_some hins hf,
      fun r record hnone hf => ?_⟩
    have hf' : records.find? r = some record := hf
    rw [Table.find?_insert? hins] at hf'
    split at hf'
    · cases hf'
      rfl
    · rw [hnone] at hf'
      cases hf'

theorem of_books (h : Books s s') : Aside s s' := by
  induction h with
  | refl => exact of_records rfl rfl rfl
  | tail _ hb ih => exact ih.trans (of_booking hb)

theorem isRefunded (h : Aside s s') (r : String) : s'.isRefunded r = s.isRefunded r := by
  unfold SubscriptionDb.isRefunded
  cases hf : s.records.find? r with
  | some record => rw [h.records r record hf]
  | none =>
    cases hf' : s'.records.find? r with
    | none => rfl
    | some record =>
      rw [any_some, h.fresh r record hf hf']
      rfl

end Aside

namespace RefundsOnce

theorem of_aside (h : RefundsOnce gs s) (ha : Aside s s') : RefundsOnce gs s' := by
  refine ⟨ha.locked ▸ h.locks, ha.locked ▸ h.nodup, fun g hg record hrec => ?_, fun r => ?_,
    fun x hx => ?_⟩
  · obtain ⟨hrow, hrest⟩ := h.rows g hg record hrec
    exact ⟨ha.records _ _ hrow, hrest⟩
  · rw [ha.isRefunded, SubscriptionDb.reduced, ha.reductions]
    exact h.reduced r
  · rw [ha.reductions] at hx
    obtain ⟨record, hrow, hrest⟩ := h.shape x hx
    exact ⟨record, ha.records _ _ hrow, hrest⟩

theorem call (h : RefundsOnce gs s) (c : SubscriptionCall) : RefundsOnce ((c, .idle) :: gs) s := by
  refine ⟨h.locks, h.nodup, fun g hg record hrec => ?_, h.reduced, h.shape⟩
  rcases mem_cons.mp hg with rfl | hg
  · cases hrec
  · exact h.rows g hg record hrec

variable {record : SubscriptionPreConsumeRecord}

/-- A record that is locked is no other refund's. -/
theorem others (hg : g.record = some record) (h : RefundsOnce (pre ++ (c, g) :: post) s) :
    record.requestId ∉ held pre ∧ record.requestId ∉ held post := by
  have hn := h.locks.nodup_iff.mpr h.nodup
  rw [held_split, hg] at hn
  simp only [map_some, toList_some, singleton_append, nodup_append,
    nodup_cons, mem_cons] at hn
  exact ⟨fun hp => hn.2.2 _ hp _ (.inl rfl) rfl, hn.2.1.1⟩

theorem mem_held {x : SubscriptionCall × RefundNote} (hx : x ∈ gs)
    (hrec : x.2.record = some record) : record.requestId ∈ held gs := by
  refine mem_flatMap.mpr ⟨x, hx, ?_⟩
  rw [hrec]
  simp

/-- The other notes stay good when the record of `g` changes. -/
theorem rows_others (hg : g.record = some record) (h : RefundsOnce (pre ++ (c, g) :: post) s)
    (hsame : ∀ r, r ≠ record.requestId → s'.records.find? r = s.records.find? r)
    (hnew : ∀ record', g'.record = some record' → s'.records.find? record'.requestId =
      some record' ∧ record'.status = .consumed ∧ 0 < record'.preConsumed) :
    ∀ x ∈ pre ++ (c, g') :: post, ∀ record', x.2.record = some record' →
      s'.records.find? record'.requestId = some record' ∧ record'.status = .consumed ∧
        0 < record'.preConsumed := by
  intro x hx record' hrec
  obtain ⟨hpre, hpost⟩ := h.others hg
  have hold : ∀ x, x ∈ pre ++ (c, g) :: post → x.2.record = some record' →
      record'.requestId ≠ record.requestId → s'.records.find? record'.requestId = some record' ∧
        record'.status = .consumed ∧ 0 < record'.preConsumed := by
    intro x hx hrec hne
    rw [hsame _ hne]
    exact h.rows x hx record' hrec
  rcases mem_append.mp hx with hx | hx
  · exact hold x (mem_append_left _ hx) hrec
      (fun he => hpre (he ▸ mem_held hx hrec))
  rcases mem_cons.mp hx with rfl | hx
  · exact hnew record' hrec
  · exact hold x (mem_append_right _ (mem_cons_of_mem _ hx)) hrec
      (fun he => hpost (he ▸ mem_held hx hrec))

/-- The lock of a refund that ends is given back. -/
theorem locks_release (hg : g.record = some record) (h : RefundsOnce (pre ++ (c, g) :: post) s) :
    (held (pre ++ (c, .idle) :: post)).Perm (s.locked.erase record.requestId) := by
  have hl := h.locks
  rw [held_split, hg] at hl
  have hp := (perm_middle.symm.trans hl).erase record.requestId
  rw [erase_cons_head] at hp
  rw [held_split]
  exact hp

theorem isRefunded_markRefunded {r : String} (hrow : s.records.find? r = some record) (k : String) :
    (s.markRefunded r).isRefunded k =
      if k = r then decide (0 < record.preConsumed) else s.isRefunded k := by
  unfold isRefunded
  rw [find?_markRefunded hrow]
  split
  · simp
  · rfl

/-- Marking a record does not change what its reductions are compared with. -/
theorem shape_markRefunded (h : RefundsOnce gs s) {r : String}
    (hrow : s.records.find? r = some record) :
    ∀ x ∈ s.reductions, ∃ record', (s.markRefunded r).records.find? x.requestId = some record' ∧
      x.subscriptionId = record'.userSubscriptionId ∧
      x.after = max 0 (x.before - record'.preConsumed) := by
  intro x hx
  obtain ⟨record', hrow', hsub, hafter⟩ := h.shape x hx
  rw [find?_markRefunded hrow]
  split
  · rename_i he
    rw [he, hrow] at hrow'
    cases hrow'
    exact ⟨_, rfl, hsub, hafter⟩
  · exact ⟨record', hrow', hsub, hafter⟩

theorem void (h : RefundsOnce gs s) (hfree : record.requestId ∉ s.locked)
    (hrow : s.records.find? record.requestId = some record) (hpre : record.preConsumed ≤ 0) :
    RefundsOnce gs (s.markRefunded record.requestId) := by
  refine ⟨h.locks, h.nodup, fun x hx record' hrec => ?_, fun r => ?_, h.shape_markRefunded hrow⟩
  · have hne : record'.requestId ≠ record.requestId :=
      fun he => hfree (he ▸ h.locks.subset (mem_held hx hrec))
    rw [find?_markRefunded hrow, if_neg hne]
    exact h.rows x hx record' hrec
  rw [isRefunded_markRefunded hrow]
  have hr := h.reduced r
  split
  · rename_i he
    rw [isRefunded, he, hrow, any_some] at hr
    show s.reduced r = _
    rw [he]
    simpa [not_lt.mpr hpre] using hr
  · exact hr

/-- **One statement of one call keeps the count**, when nothing fails after an inner
commit. -/
theorem step (h : RefundsOnce (pre ++ (c, g) :: post) s) (hok : c.lateFault = false)
    (hm : SubscriptionMove c g s g' s') : RefundsOnce (pre ++ (c, g') :: post) s' := by
  cases hm with
  | refl => exact h
  | book hb => exact h.of_aside (.of_books hb)
  | settle hc h0 hcharged => exact h.of_aside (.of_records (by rw [hcharged.saved]; rfl)
      (by rw [hcharged.saved]; rfl) (by rw [hcharged.saved]; rfl))
  | void hfree hrow hpre => exact h.void hfree hrow hpre
  | @lock s record hfree hrow hstatus hpre =>
    have hl := h.locks
    rw [held_split] at hl
    refine ⟨?_, nodup_cons.mpr ⟨hfree, h.nodup⟩, forall_mem_replace h.rows (fun _ hx => hx) ?_,
      fun r => ?_, h.shape⟩
    · rw [held_split]
      exact perm_middle.trans (hl.cons record.requestId)
    · intro record' hrec
      cases hrec
      exact ⟨hrow, hstatus, hpre⟩
    · have hr := h.reduced r
      rw [lowering_split] at hr ⊢
      exact hr
  | @release s record =>
    refine ⟨h.locks_release rfl, h.nodup.erase _, ?_, fun r => ?_, h.shape⟩
    · exact h.rows_others rfl (fun _ _ => rfl) nofun
    · have hr := h.reduced r
      rw [lowering_split] at hr ⊢
      exact hr
  | @lower s s' record row hc hcharged =>
    obtain ⟨hrow, hstatus, hpre⟩ := h.rows (c, .holding record) (by simp) record rfl
    have hrecords : s'.records = s.records := by rw [hcharged.saved]; rfl
    have hreductions : s'.reductions = s.reductions := by rw [hcharged.saved]; rfl
    have hlocked : s'.locked = s.locked := by rw [hcharged.saved]; rfl
    refine ⟨?_, ?_, ?_, fun r => ?_, fun x hx => ?_⟩
    · have hl := h.locks
      rw [held_split] at hl ⊢
      rw [hlocked]
      exact hl
    · exact hlocked ▸ h.nodup
    · refine h.rows_others rfl (fun r _ => by rw [hrecords]) fun record' hrec => ?_
      cases hrec
      exact ⟨hrecords ▸ hrow, hstatus, hpre⟩
    · have hr := h.reduced r
      rw [lowering_split] at hr ⊢
      have hmark : isRefunded { s' with reductions :=
          ⟨record.requestId, record.userSubscriptionId, row.amountUsed,
            max 0 (row.amountUsed - record.preConsumed)⟩ :: s'.reductions } r =
          s.isRefunded r := by
        rw [SubscriptionDb.isRefunded, SubscriptionDb.isRefunded, hrecords]
      rw [hmark, SubscriptionDb.reduced, countP_cons, hreductions]
      rw [SubscriptionDb.reduced] at hr
      simp only [RefundNote.lowers, toList_none, toList_some, nil_append,
        singleton_append, count_append, count_cons, decide_eq_true_eq,
        beq_iff_eq] at hr ⊢
      omega
    · rcases mem_cons.mp hx with rfl | hx
      · refine ⟨record, ?_, rfl, rfl⟩
        rw [hrecords, hrow]
      rw [hreductions] at hx
      rw [hrecords]
      exact h.shape x hx
  | @finish s record =>
    obtain ⟨hrow, hstatus, hpre⟩ := h.rows (c, .lowered record) (by simp) record rfl
    have hlocks := h.locks_release rfl
    have hlowered : record.requestId ∉ lowering pre ∧ record.requestId ∉ lowering post :=
      ⟨fun hp => (h.others rfl).1 (lowering_sublist_held.subset hp),
        fun hp => (h.others rfl).2 (lowering_sublist_held.subset hp)⟩
    refine ⟨hlocks, h.nodup.erase _, ?_, fun r => ?_, h.shape_markRefunded hrow⟩
    · refine h.rows_others rfl (fun r hr => ?_) nofun
      show (s.markRefunded record.requestId).records.find? r = _
      rw [find?_markRefunded hrow, if_neg hr]
    have hr := h.reduced r
    have hmark : ((s.markRefunded record.requestId).unlock record.requestId).isRefunded r =
        if r = record.requestId then true else s.isRefunded r := by
      have := isRefunded_markRefunded hrow r
      rwa [decide_eq_true hpre] at this
    show s.reduced r = _
    rw [hr, hmark, lowering_split, lowering_split]
    simp only [RefundNote.lowers, toList_none, toList_some, count_append]
    by_cases he : r = record.requestId
    · have hnot : s.isRefunded record.requestId = false := by
        rw [isRefunded, hrow, any_some, hstatus]
        rfl
      rw [he, hnot, count_eq_zero.mpr hlowered.1, count_eq_zero.mpr hlowered.2]
      simp
    · simp [he, Ne.symm he]
  | abandon hlate =>
    rw [hok] at hlate
    cases hlate

theorem of_unrefunded (h : s.Unrefunded) : RefundsOnce [] s := by
  refine ⟨by rw [h.locked]; exact .refl _, by rw [h.locked]; exact .nil, fun g hg => by simp at hg,
    fun r => ?_, fun x hx => by simp [h.reductions] at hx⟩
  have hmark : s.isRefunded r = false := by
    unfold isRefunded
    cases hf : s.records.find? r with
    | none => rfl
    | some record =>
      rw [any_some, h.records record (Table.mem_of_find? hf)]
      rfl
  rw [SubscriptionDb.reduced, h.reductions, hmark]
  rfl

/-- The count is never more than one. -/
theorem reduced_le_one (h : RefundsOnce gs s) (r : String) : s.reduced r ≤ 1 := by
  have hcount : (lowering gs).count r ≤ 1 :=
    nodup_iff_count_le_one.mp
      (lowering_sublist_held.nodup (h.locks.nodup_iff.mpr h.nodup)) r
  rw [h.reduced r]
  by_cases hmem : r ∈ lowering gs
  · -- the record of an open refund is not marked
    obtain ⟨x, hx, hlowers⟩ := mem_flatMap.mp hmem
    obtain ⟨c, g⟩ := x
    cases g with
    | idle | holding => simp [RefundNote.lowers] at hlowers
    | lowered record =>
      obtain rfl : r = record.requestId := by simpa [RefundNote.lowers] using hlowers
      obtain ⟨hrow, hstatus, -⟩ := h.rows _ hx record rfl
      have hnot : s.isRefunded record.requestId = false := by
        rw [isRefunded, hrow, any_some, hstatus]
        rfl
      rw [hnot]
      simpa using hcount
  · rw [count_eq_zero.mpr hmem]
    split <;> omega

end RefundsOnce

/-- The count in every interleaving of any calls in which nothing fails after an
inner commit. -/
theorem refundsOnce_of_reach {cal : Calendar} {s₀ : SubscriptionDb} (h₀ : s₀.Unrefunded)
    {p : Pool SubscriptionCall SubscriptionDb Unit}
    (hr : Pool.ReachIf (SubscriptionCall.prog cal) (fun c _ => c.lateFault = false)
      (Pool.start s₀) p) : ∃ gs, RefundsOnce gs p.state := by
  obtain ⟨gs, -, h⟩ := reach_annotated (G := SubscriptionMove)
    (fun c _ _ h => ⟨.idle, (keeps_prog cal c).follows, h.call c⟩)
    (fun _ _ _ _ _ _ _ h hok hm => h.step hok hm) hr ⟨[], .nil, RefundsOnce.of_unrefunded h₀⟩
  exact ⟨gs, h⟩

/-- **A pre-consumption is given back once**, by what was pre-consumed, and has been when its record
is marked. -/
theorem subscription_refund_once {cal : Calendar} {s₀ : SubscriptionDb} (h₀ : s₀.Unrefunded)
    {p : Pool SubscriptionCall SubscriptionDb Unit}
    (hr : Pool.ReachIf (SubscriptionCall.prog cal) (fun c _ => c.lateFault = false)
      (Pool.start s₀) p) (requestId : String) :
    p.state.reduced requestId ≤ 1 ∧
    ∀ record, p.state.records.find? requestId = some record →
      (record.status = .refunded → 0 < record.preConsumed → p.state.reduced requestId = 1) ∧
      ∀ x ∈ p.state.reductions, x.requestId = requestId →
        x.subscriptionId = record.userSubscriptionId ∧
        x.after = max 0 (x.before - record.preConsumed) := by
  obtain ⟨gs, h⟩ := refundsOnce_of_reach h₀ hr
  refine ⟨h.reduced_le_one requestId, fun record hrow => ⟨fun hstatus hpre => ?_,
    fun x hx he => ?_⟩⟩
  · have hle := h.reduced_le_one requestId
    have hcount := h.reduced requestId
    have hmark : p.state.isRefunded requestId = true := by
      rw [isRefunded, hrow, any_some, hstatus, decide_eq_true hpre]
      rfl
    rw [hmark, if_pos rfl] at hcount
    omega
  · obtain ⟨record', hrow', hsub, hafter⟩ := h.shape x hx
    rw [he, hrow] at hrow'
    cases hrow'
    exact ⟨hsub, hafter⟩

/-! ### One subscription -/

/-- Days of 86400 seconds and months of thirty, on a clock that shows `reading t` at `t`. -/
def Calendar.ofClock (reading moment : Int → Int) : Calendar where
  midnight t := moment (reading t / 86400 * 86400)
  firstOfMonth t := moment (reading t / 2592000 * 2592000)
  weekday t := (reading t / 86400 + 4) % 7
  addDays t days := moment (reading t + days * 86400)
  addMonths t months := moment (reading t + months * 2592000)
  addYears t years := moment (reading t + years * 31536000)

def plainCalendar : Calendar := .ofClock id id

/-- Login `7` with one subscription of a thousand units a day. -/
def dailyDb : SubscriptionDb where
  subs := ⟨[⟨1, 7, 3, 1000, 0, 0, 1000000, .active, 0, 86400⟩], by decide⟩
  plans := ⟨[⟨3, "daily", 0⟩], by decide⟩
  records := .empty
  locked := []
  current := []
  settled := []
  reductions := []

theorem dailyDb_unrefunded : dailyDb.Unrefunded := ⟨rfl, rfl, nofun⟩

def subscriptionCalls (calls : List SubscriptionCall) : List (Pool.Move SubscriptionCall) :=
  calls.flatMap fun c => .call c :: List.replicate 9 (.run 0)

theorem subscription_refund_once_retried :
    let p := play (SubscriptionCall.prog plainCalendar)
      (subscriptionCalls [.preConsume "a" 7 100 10 true, .preConsume "b" 7 50 11 true,
        .refundRetried "a" (some .commitSub) none none]) (start dailyDb)
    (p.state.subs.rows.map UserSubscription.amountUsed = [50] ∧
      (p.state.records.find? "a").map SubscriptionPreConsumeRecord.status = some .refunded) ∧
    p.state.reduced "a" ≤ 1 ∧
    ∀ record, p.state.records.find? "a" = some record →
      (record.status = .refunded → 0 < record.preConsumed → p.state.reduced "a" = 1) ∧
      ∀ x ∈ p.state.reductions, x.requestId = "a" →
        x.subscriptionId = record.userSubscriptionId ∧
        x.after = max 0 (x.before - record.preConsumed) :=
  ⟨by decide +kernel, subscription_refund_once dailyDb_unrefunded
    (reach_play_of _ _ _ _ (by decide +kernel)) "a"⟩

/-- When the record cannot be saved after the inner commit, the next attempt lowers the usage again.
-/
theorem retry_refunds_twice :
    dailyDb.Unrefunded ∧ ∃ p : Pool SubscriptionCall SubscriptionDb Unit,
      Pool.Reach (SubscriptionCall.prog plainCalendar) (Pool.start dailyDb) p ∧
      p.state.reductions = [⟨"a", 1, 50, 0⟩, ⟨"a", 1, 150, 50⟩] ∧ p.state.reduced "a" = 2 ∧
      p.state.subs.rows.map UserSubscription.amountUsed = [0] :=
  ⟨dailyDb_unrefunded, play (SubscriptionCall.prog plainCalendar)
      (subscriptionCalls [.preConsume "a" 7 100 10 true, .preConsume "b" 7 50 11 true,
        .refundRetried "a" (some .saveRecord) none none]) (start dailyDb),
    reach_play _ _ _, by decide +kernel⟩

end UnifyConsole.Subscription
