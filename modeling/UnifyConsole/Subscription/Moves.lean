import UnifyConsole.Subscription.Quota

/-!
# What the subscription calls do

The transactions of pre-consumptions and resets are sequences of `Booking`s: a first
reset time is set, a usage is reset, a request is booked.  The calls are followed
with a note on what an open refund has done: it holds the lock of its record, and it
has lowered the usage or not yet.  `SubscriptionMove` lists what a statement may do,
and every program keeps to it.
-/

namespace UnifyConsole.Subscription

open Lib
open Prog Table Tx List

/-! ### Bookings -/

variable {sub : UserSubscription} {requestId : String}

namespace SubscriptionDb

variable {s : SubscriptionDb}

theorem find?_saveSub {row : UserSubscription} (h : s.subs.find? sub.id = some row) (k : Int) :
    (s.saveSub sub).subs.find? k = if k = sub.id then some sub else s.subs.find? k := by
  have hid : row.id = sub.id := key_of_find? h
  simp only [saveSub]
  rw [find?_update_at h (decide_eq_true hid) (fun x hx => of_decide_eq_true hx), hid]

theorem find?_markRefunded {record : SubscriptionPreConsumeRecord}
    (h : s.records.find? requestId = some record) (k : String) :
    (s.markRefunded requestId).records.find? k =
      if k = requestId then some { record with status := .refunded } else s.records.find? k := by
  simp only [markRefunded]
  rw [find?_update_at h (decide_eq_true (key_of_find? h))
    (fun x hx => of_decide_eq_true hx)]

end SubscriptionDb

inductive Booking : SubscriptionDb → SubscriptionDb → Prop
  | schedule {s : SubscriptionDb} {row sub : UserSubscription}
      (hrow : s.subs.find? sub.id = some row) (hused : sub.amountUsed = row.amountUsed)
      (htotal : sub.amountTotal = row.amountTotal) : Booking s (s.saveSub sub)
  | reset {s : SubscriptionDb} {row sub : UserSubscription}
      (hrow : s.subs.find? sub.id = some row) (hused : sub.amountUsed = 0)
      (htotal : sub.amountTotal = row.amountTotal) : Booking s (s.saveReset sub)
  | consume {s : SubscriptionDb} {row : UserSubscription} {requestId : String}
      {userId amount : Int} {records : Table SubscriptionPreConsumeRecord.requestId}
      (hrow : s.subs.find? row.id = some row) (hpos : 0 < amount)
      (hroom : 0 < row.amountTotal → row.amountUsed + amount ≤ row.amountTotal)
      (hins : s.records.insert? ⟨requestId, userId, row.id, amount, .consumed⟩ = some records) :
      Booking s (SubscriptionDb.saveSub
        { s with records := records, current := (requestId, row.id) :: s.current }
        { row with amountUsed := row.amountUsed + amount })

/-- What a transaction books. -/
abbrev Books : SubscriptionDb → SubscriptionDb → Prop := Relation.ReflTransGen Booking

variable {cal : Calendar} {s s' : SubscriptionDb}

variable {sub' : UserSubscription} {plan : SubscriptionPlan} {now : Int}

theorem resetOutcome_scheduled (h : resetOutcome cal sub plan now = .scheduled sub') :
    sub'.id = sub.id ∧ sub'.amountUsed = sub.amountUsed ∧ sub'.amountTotal = sub.amountTotal := by
  unfold resetOutcome at h
  dsimp only at h
  generalize (if sub.lastResetTime ≤ 0 then sub.startTime else sub.lastResetTime) = start at h
  repeat' split at h
  all_goals cases h
  exact ⟨rfl, rfl, rfl⟩

theorem resetOutcome_reset (h : resetOutcome cal sub plan now = .reset sub') :
    sub'.id = sub.id ∧ sub'.amountUsed = 0 ∧ sub'.amountTotal = sub.amountTotal := by
  unfold resetOutcome at h
  dsimp only at h
  generalize (if sub.lastResetTime ≤ 0 then sub.startTime else sub.lastResetTime) = start at h
  repeat' split at h
  all_goals cases h
  exact ⟨rfl, rfl, rfl⟩

/-- The row `sub` has become `sub'`, the others are as they were. -/
structure Rewritten (sub sub' : UserSubscription) (s s' : SubscriptionDb) : Prop where
  books : Books s s'
  id : sub'.id = sub.id
  row : s'.subs.find? sub.id = some sub'
  others : ∀ k, k ≠ sub.id → s'.subs.find? k = s.subs.find? k

theorem rewritten_saveSub (hrow : s.subs.find? sub.id = some sub) (hid : sub'.id = sub.id)
    (h : Booking s (s.saveSub sub')) : Rewritten sub sub' s (s.saveSub sub') := by
  have hfind := SubscriptionDb.find?_saveSub (hid ▸ hrow : s.subs.find? sub'.id = some sub)
  rw [hid] at hfind
  refine ⟨.single h, hid, ?_, fun k hk => ?_⟩
  · rw [hfind, if_pos rfl]
  · rw [hfind, if_neg hk]

theorem rewritten_saveReset (hrow : s.subs.find? sub.id = some sub) (hid : sub'.id = sub.id)
    (hused : sub'.amountUsed = 0) (htotal : sub'.amountTotal = sub.amountTotal) :
    Rewritten sub sub' s (s.saveReset sub') := by
  have hrow' : s.subs.find? sub'.id = some sub := hid ▸ hrow
  have hfind := SubscriptionDb.find?_saveSub hrow'
  rw [hid] at hfind
  exact ⟨.single (.reset hrow' hused htotal), hid, (hfind sub.id).trans (if_pos rfl),
    fun k hk => (hfind k).trans (if_neg hk)⟩

theorem rewritten_maybeReset (hrow : s.subs.find? sub.id = some sub)
    (hok : maybeResetUserSubscriptionWithPlanTx cal sub plan now s = .ok (sub', s')) :
    Rewritten sub sub' s s' := by
  unfold maybeResetUserSubscriptionWithPlanTx at hok
  generalize hout : resetOutcome cal sub plan now = out at hok
  cases out with
  | endless => cases fail_ok.mp hok
  | unchanged =>
    obtain ⟨rfl, rfl⟩ := hok
    exact ⟨.refl, rfl, hrow, fun _ _ => rfl⟩
  | scheduled =>
    obtain ⟨_, _, ⟨-, rfl⟩, rfl, rfl⟩ := hok
    obtain ⟨hid, hused, htotal⟩ := resetOutcome_scheduled hout
    exact rewritten_saveSub hrow hid (.schedule (hid ▸ hrow) hused htotal)
  | reset =>
    obtain ⟨_, _, ⟨-, rfl⟩, rfl, rfl⟩ := hok
    obtain ⟨hid, hused, htotal⟩ := resetOutcome_reset hout
    exact rewritten_saveReset hrow hid hused htotal

/-- The rows a transaction has read and not yet written are still there. -/
def Current (subs : List UserSubscription) (s : SubscriptionDb) : Prop :=
  (∀ sub ∈ subs, s.subs.find? sub.id = some sub) ∧ (subs.map UserSubscription.id).Nodup

variable {subs : List UserSubscription}

theorem Current.of_rows (h : subs.Sublist s.subs.rows) : Current subs s :=
  ⟨fun _ hsub => find?_eq_some_iff.mpr ⟨h.subset hsub, rfl⟩,
    (s.subs.nodup).sublist (h.map _)⟩

theorem Current.perm {subs' : List UserSubscription} (h : Current subs s) (hp : subs'.Perm subs) :
    Current subs' s :=
  ⟨fun sub hsub => h.1 sub (hp.subset hsub), (hp.map _).nodup_iff.mpr h.2⟩

theorem Current.tail (h : Current (sub :: subs) s) (hr : Rewritten sub sub' s s') :
    Current subs s' := by
  obtain ⟨hrows, hnodup⟩ := h
  rw [map_cons, nodup_cons] at hnodup
  refine ⟨fun x hx => ?_, hnodup.2⟩
  rw [hr.others x.id (fun he => hnodup.1 (he ▸ mem_map_of_mem hx))]
  exact hrows x (mem_cons_of_mem _ hx)

variable {userId : Int}

theorem books_preConsumeLoop {amount : Int} (hpos : 0 < amount) :
    ∀ {s : SubscriptionDb} {r : SubscriptionPreConsumeResult}, Current subs s →
      preConsumeLoop cal requestId userId amount now subs s = .ok (r, s') → Books s s' := by
  induction subs with
  | nil =>
    intro s r _ hok
    exact absurd hok (by simp [preConsumeLoop, fail])
  | cons candidate subs ih =>
    intro s r hcur hok
    simp only [preConsumeLoop, bind_ok, ensure_ok, fetch_ok] at hok
    obtain ⟨_, _, ⟨-, -, rfl⟩, plan, s, ⟨_, -, rfl, rfl⟩, sub, s₁, hreset, hok⟩ := hok
    have hr := rewritten_maybeReset (hcur.1 candidate mem_cons_self) hreset
    split at hok
    · exact hr.books.trans (ih (hcur.tail hr) hok)
    simp only [bind_ok, writeSome_ok, Option.map_eq_some_iff] at hok
    obtain ⟨_, _, ⟨_, ⟨records, hins, rfl⟩, -, rfl⟩, _, _, ⟨-, rfl⟩, -, rfl⟩ := hok
    refine hr.books.tail (.consume (hr.id ▸ hr.row) hpos (fun ht => ?_) hins)
    omega

theorem books_preConsume {amount : Int} {r : SubscriptionPreConsumeResult}
    (hok : preConsumeUserSubscription cal requestId userId amount now s = .ok (r, s')) :
    Books s s' := by
  simp only [preConsumeUserSubscription, bind_ok, ensure_ok, read_ok,
    Prod.mk.injEq] at hok
  obtain ⟨_, _, ⟨-, -, rfl⟩, _, _, ⟨-, -, rfl⟩, _, _, ⟨hpos, -, rfl⟩, existing, s, ⟨-, rfl⟩, hok⟩ :=
    hok
  cases existing with
  | some =>
    simp only [bind_ok, ensure_ok, fetch_ok] at hok
    obtain ⟨_, _, ⟨-, -, rfl⟩, _, _, ⟨_, -, -, rfl⟩, -, rfl⟩ := hok
    exact .refl
  | none =>
    simp only [bind_ok, ensure_ok] at hok
    obtain ⟨subs, _, ⟨rfl, rfl⟩, _, _, ⟨-, -, rfl⟩, hok⟩ := hok
    refine books_preConsumeLoop hpos ?_ hok
    exact (Current.of_rows filter_sublist).perm (perm_insertionSort _ _)

theorem books_resetOne {subId : Int} {due : Bool}
    (hok : resetOne cal plan subId now s = .ok (due, s')) : Books s s' := by
  simp only [resetOne, bind_ok, read_ok, Prod.mk.injEq] at hok
  obtain ⟨sub, s, ⟨hsub, rfl⟩, hok⟩ := hok
  cases sub with
  | none =>
    rw [pure_ok, Prod.mk.injEq] at hok
    rw [hok.2]
  | some =>
    simp only [bind_ok, pure_ok] at hok
    obtain ⟨sub', _, hreset, -, rfl⟩ := hok
    obtain ⟨hfind, -⟩ := Option.filter_eq_some_iff.mp hsub.symm
    exact (rewritten_maybeReset ((key_of_find? hfind).symm ▸ hfind) hreset).books

variable {advanceResetTime : Bool}

theorem books_resetAll :
    ∀ {s : SubscriptionDb}, Current subs s →
      resetAll cal plan now advanceResetTime subs s = .ok ((), s') → Books s s' := by
  induction subs with
  | nil =>
    intro s _ hok
    rw [resetAll, pure_ok, Prod.mk.injEq] at hok
    rw [hok.2]
  | cons sub subs ih =>
    intro s hcur hok
    simp only [resetAll, resetUserSubscriptionTx, bind_ok, write_ok] at hok
    obtain ⟨_, _, ⟨-, rfl⟩, hok⟩ := hok
    have hrow : ∀ advance, (resetRow cal sub plan now advance).id = sub.id ∧
        (resetRow cal sub plan now advance).amountUsed = 0 ∧
        (resetRow cal sub plan now advance).amountTotal = sub.amountTotal := by
      intro advance
      cases advance with
      | true | false => exact ⟨rfl, rfl, rfl⟩
    obtain ⟨hid, hused, htotal⟩ := hrow advanceResetTime
    have hr := rewritten_saveReset (hcur.1 sub mem_cons_self) hid hused htotal
    exact hr.books.trans (ih (hcur.tail hr) hok)

theorem books_adminResetUser {planId : Int} {r : Int}
    (hok : adminResetUserSubscriptionsByPlan cal userId planId now advanceResetTime s =
      .ok (r, s')) : Books s s' := by
  simp only [adminResetUserSubscriptionsByPlan, bind_ok, ensure_ok, fetch_ok] at hok
  obtain ⟨_, _, ⟨-, -, rfl⟩, plan, _, ⟨_, -, -, rfl⟩, subs, s, ⟨rfl, rfl⟩, _, _, ⟨-, -, rfl⟩, _, _,
    hreset, -, rfl⟩ := hok
  exact books_resetAll (Current.of_rows filter_sublist) hreset

theorem books_adminResetPlan {planId : Int} {r : Int}
    (hok : adminResetPlanSubscriptions cal planId now advanceResetTime s = .ok (r, s')) :
    Books s s' := by
  simp only [adminResetPlanSubscriptions, bind_ok, ensure_ok, fetch_ok] at hok
  obtain ⟨_, _, ⟨-, -, rfl⟩, plan, _, ⟨_, -, -, rfl⟩, subs, s, ⟨rfl, rfl⟩, _, _, hreset, -, rfl⟩ :=
    hok
  exact books_resetAll (Current.of_rows filter_sublist) hreset

/-! ### Deltas -/

/-- A delta that was booked: the usage moves by it, but not below zero. -/
structure Charged (userSubscriptionId delta : Int) (row : UserSubscription) (s s' : SubscriptionDb) :
    Prop where
  found : s.subs.find? userSubscriptionId = some row
  fits : 0 < row.amountTotal → max 0 (row.amountUsed + delta) ≤ row.amountTotal
  saved : s' = s.saveSub { row with amountUsed := max 0 (row.amountUsed + delta) }

theorem postConsume_ok {userSubscriptionId delta : Int} {moved : Option (Int × Int)}
    (hok : postConsumeUserSubscriptionDelta userSubscriptionId delta s = .ok (moved, s')) :
    (delta = 0 ∧ moved = none ∧ s' = s) ∨
    (delta ≠ 0 ∧ ∃ row, moved = some (row.amountUsed, max 0 (row.amountUsed + delta)) ∧
      Charged userSubscriptionId delta row s s') := by
  unfold postConsumeUserSubscriptionDelta at hok
  simp only [bind_ok, ensure_ok] at hok
  obtain ⟨_, s, ⟨-, -, rfl⟩, hok⟩ := hok
  split at hok
  · rename_i h0
    rw [pure_ok, Prod.mk.injEq] at hok
    exact .inl ⟨h0, hok.1, hok.2⟩
  rename_i h0
  simp only [bind_ok, fetch_ok, ensure_ok] at hok
  obtain ⟨row, s, ⟨_, hrow, rfl, rfl⟩, _, _, ⟨hfits, -, rfl⟩, _, _, ⟨-, rfl⟩, rfl, rfl⟩ := hok
  have hmax : (if row.amountUsed + delta < 0 then 0 else row.amountUsed + delta) =
      max 0 (row.amountUsed + delta) := by
    split <;> omega
  rw [hmax] at hfits ⊢
  exact .inr ⟨h0, row, rfl, hrow, fun ht => by omega, rfl⟩

theorem lowerUsage_cases {record : SubscriptionPreConsumeRecord} (hpre : 0 < record.preConsumed)
    (fault : Option RefundFault) (s : SubscriptionDb) :
    (∃ e, lowerUsage record fault s = (.error e, s)) ∨
    ∃ row s', Charged record.userSubscriptionId (-record.preConsumed) row s s' ∧
      lowerUsage record fault s = (.ok (), { s' with
        reductions := ⟨record.requestId, record.userSubscriptionId, row.amountUsed,
          max 0 (row.amountUsed - record.preConsumed)⟩ :: s'.reductions }) := by
  unfold lowerUsage
  split
  · exact .inl ⟨_, rfl⟩
  generalize hr : postConsumeUserSubscriptionDelta record.userSubscriptionId (-record.preConsumed) s
    = r
  match r with
  | .error e => exact .inl ⟨e, rfl⟩
  | .ok (moved, s') =>
    rcases postConsume_ok hr with ⟨h0, -, -⟩ | ⟨-, row, rfl, hcharged⟩
    · omega
    · exact .inr ⟨row, s', hcharged, rfl⟩

/-! ### Open refunds -/

/-- What is known about a call between two of its statements. -/
inductive RefundNote where
  | idle
  | holding (record : SubscriptionPreConsumeRecord)
  | lowered (record : SubscriptionPreConsumeRecord)

def SubscriptionCall.refunds : SubscriptionCall → Option String
  | refund requestId _ => some requestId
  | refundRetried requestId _ _ _ => some requestId
  | _ => none

/-- In some attempt of the call a statement after the inner commit fails. -/
def SubscriptionCall.lateFault : SubscriptionCall → Bool
  | refund _ fault => fault.any RefundFault.isLate
  | refundRetried _ fault₁ fault₂ fault₃ =>
    [fault₁, fault₂, fault₃].any fun fault => fault.any RefundFault.isLate
  | _ => false

/-- **What a statement of a call may do.** -/
inductive SubscriptionMove (c : SubscriptionCall) :
    RefundNote → SubscriptionDb → RefundNote → SubscriptionDb → Prop
  | refl {g : RefundNote} {s : SubscriptionDb} : SubscriptionMove c g s g s
  | book {s s' : SubscriptionDb} (h : Books s s') : SubscriptionMove c .idle s .idle s'
  | settle {s s' : SubscriptionDb} {requestId : String} {userSubscriptionId delta : Int}
      {commits : Bool} {row : UserSubscription}
      (hc : c = .settle requestId userSubscriptionId delta commits) (h0 : delta ≠ 0)
      (h : Charged userSubscriptionId delta row s s') :
      SubscriptionMove c .idle s .idle { s' with settled := (requestId, delta) :: s'.settled }
  | void {s : SubscriptionDb} {record : SubscriptionPreConsumeRecord}
      (hfree : record.requestId ∉ s.locked)
      (hrow : s.records.find? record.requestId = some record) (hpre : record.preConsumed ≤ 0) :
      SubscriptionMove c .idle s .idle (s.markRefunded record.requestId)
  | lock {s : SubscriptionDb} {record : SubscriptionPreConsumeRecord}
      (hfree : record.requestId ∉ s.locked)
      (hrow : s.records.find? record.requestId = some record)
      (hstatus : record.status = .consumed) (hpre : 0 < record.preConsumed) :
      SubscriptionMove c .idle s (.holding record) (s.lock record.requestId)
  | release {s : SubscriptionDb} {record : SubscriptionPreConsumeRecord} :
      SubscriptionMove c (.holding record) s .idle (s.unlock record.requestId)
  | lower {s s' : SubscriptionDb} {record : SubscriptionPreConsumeRecord} {row : UserSubscription}
      (hc : c.refunds = some record.requestId)
      (h : Charged record.userSubscriptionId (-record.preConsumed) row s s') :
      SubscriptionMove c (.holding record) s (.lowered record)
        { s' with reductions := ⟨record.requestId, record.userSubscriptionId, row.amountUsed,
            max 0 (row.amountUsed - record.preConsumed)⟩ :: s'.reductions }
  | finish {s : SubscriptionDb} {record : SubscriptionPreConsumeRecord} :
      SubscriptionMove c (.lowered record) s .idle
        ((s.markRefunded record.requestId).unlock record.requestId)
  | abandon {s : SubscriptionDb} {record : SubscriptionPreConsumeRecord}
      (hlate : c.lateFault = true) :
      SubscriptionMove c (.lowered record) s .idle (s.unlock record.requestId)

/-- A program that keeps to the moves and leaves no refund open. -/
structure Keeps {α : Type} (c : SubscriptionCall) (p : Prog SubscriptionDb α) : Prop where
  follows : Prog.Follows (SubscriptionMove c) (fun g _ => g = .idle) .idle p

section Keeps

variable {α β : Type} {c : SubscriptionCall}

theorem keeps_pure (a : α) : Keeps c (pure a) := ⟨rfl⟩

theorem keeps_bind {p : Prog SubscriptionDb α} {k : α → Prog SubscriptionDb β} (hp : Keeps c p)
    (hk : ∀ a, Keeps c (k a)) : Keeps c (p >>= k) :=
  ⟨follows_bind (hp.follows.mono fun g a hg => by rw [hg]; exact (hk a).follows)⟩

theorem keeps_look (f : SubscriptionDb → α) : Keeps c (Prog.look f) :=
  ⟨follows_look fun _ => ⟨.idle, .refl, rfl⟩⟩

theorem keeps_transact {commits : Bool} {e : SubscriptionError} {x : SubscriptionTx α}
    (h : ∀ s a s', x s = .ok (a, s') → SubscriptionMove c .idle s .idle s') :
    Keeps c (Prog.transact commits e x) := by
  refine ⟨follows_atomic fun s => ?_⟩
  rcases run_cases commits e x s with ⟨a, hx, -⟩ | ⟨hs, -⟩
  · exact ⟨.idle, h s a _ hx, rfl⟩
  · refine ⟨.idle, ?_, rfl⟩
    rw [hs]
    exact .refl

theorem keeps_refund {fault : Option RefundFault} (hc : c.refunds = some requestId)
    (hlate : fault.any RefundFault.isLate = true → c.lateFault = true) :
    Keeps c (refundSubscriptionPreConsume requestId fault) := by
  unfold refundSubscriptionPreConsume
  split
  · exact keeps_pure _
  refine ⟨follows_bind (follows_atomic fun s => ?_)⟩
  unfold lockRecord
  split
  · exact ⟨.idle, .refl, rfl⟩
  split
  · exact ⟨.idle, .refl, rfl⟩
  rename_i hfree
  split
  · exact ⟨.idle, .refl, rfl⟩
  rename_i record hrow
  obtain rfl : record.requestId = requestId := key_of_find? hrow
  split
  · exact ⟨.idle, .refl, rfl⟩
  rename_i hstatus
  split
  · rename_i hpre
    split
    · exact ⟨.idle, .refl, rfl⟩
    · exact ⟨.idle, .void hfree hrow hpre, rfl⟩
  have hconsumed : record.status = .consumed := by
    cases hs : record.status with
    | consumed => rfl
    | refunded => exact absurd hs hstatus
  refine ⟨.holding record, .lock hfree hrow hconsumed (by omega), ?_⟩
  -- the lock is held and the inner transaction is tried
  refine follows_bind (follows_atomic fun s => ?_)
  rcases lowerUsage_cases (by omega : 0 < record.preConsumed) fault s with
    ⟨e, he⟩ | ⟨row, s', hcharged, he⟩
  · rw [he]
    exact ⟨.holding record, .refl, follows_atomic fun s => ⟨.idle, .release, rfl⟩⟩
  rw [he]
  refine ⟨.lowered record, .lower hc hcharged, follows_atomic fun s => ?_⟩
  unfold commitRefund
  split
  · rename_i hf
    exact ⟨.idle, .abandon (hlate hf), rfl⟩
  · exact ⟨.idle, .finish, rfl⟩

theorem keeps_refundAttempts (hc : c.refunds = some requestId) {faults : List (Option RefundFault)}
    :
    ∀ {fault : Option RefundFault},
      (∀ f ∈ fault :: faults, f.any RefundFault.isLate = true → c.lateFault = true) →
      Keeps c (refundAttempts requestId fault faults) := by
  induction faults with
  | nil =>
    intro fault hlate
    exact keeps_refund hc (hlate fault mem_cons_self)
  | cons fault' faults ih =>
    intro fault hlate
    refine keeps_bind (keeps_refund hc (hlate fault mem_cons_self)) fun r => ?_
    cases r with
    | ok => exact keeps_pure _
    | error => exact ih fun f hf => hlate f (mem_cons_of_mem _ hf)

theorem keeps_resetLoop {commits : Int → Bool} :
    ∀ {count : Int}, Keeps c (resetLoop cal now commits subs count) := by
  induction subs with
  | nil => exact keeps_pure _
  | cons sub subs ih =>
    refine keeps_bind (keeps_look _) fun plan => ?_
    cases plan with
    | none => exact ih
    | some =>
      refine keeps_bind (keeps_transact fun s a s' hok => .book (books_resetOne hok))
        (fun r => ?_)
      cases r with
      | error => exact keeps_pure _
      | ok => exact ih

/-- **Every call keeps to the moves.** -/
theorem keeps_prog (cal : Calendar) (c : SubscriptionCall) : Keeps c (c.prog cal) := by
  cases c with
  | preConsume =>
    exact keeps_bind (keeps_transact fun s a s' hok => .book (books_preConsume hok))
      (fun _ => keeps_pure _)
  | settle =>
    refine keeps_bind (keeps_transact fun s a s' hok => ?_) fun _ => keeps_pure _
    simp only [settleRequest, bind_ok, when_ok] at hok
    obtain ⟨moved, s₁, hdelta, hok⟩ := hok
    rcases postConsume_ok hdelta with ⟨-, rfl, rfl⟩ | ⟨h0, row, rfl, hcharged⟩
    · rcases hok with ⟨hsome, -⟩ | ⟨-, -, rfl⟩
      · cases hsome
      · exact .refl
    · rcases hok with ⟨-, -, rfl⟩ | ⟨hnone, -⟩
      · exact .settle rfl h0 hcharged
      · exact absurd rfl hnone
  | refund =>
    exact keeps_bind (keeps_refund rfl fun h => h) fun _ => keeps_pure _
  | refundRetried =>
    refine keeps_bind (keeps_refundAttempts rfl fun f hf hl => ?_) fun _ => keeps_pure _
    exact any_eq_true.mpr ⟨f, hf, hl⟩
  | resetDue =>
    exact keeps_bind (keeps_bind (keeps_look _) fun _ => keeps_resetLoop) fun _ => keeps_pure _
  | resetUser =>
    exact keeps_bind (keeps_transact fun s a s' hok => .book (books_adminResetUser hok))
      (fun _ => keeps_pure _)
  | resetPlan =>
    exact keeps_bind (keeps_transact fun s a s' hok => .book (books_adminResetPlan hok))
      (fun _ => keeps_pure _)

end Keeps

end UnifyConsole.Subscription
