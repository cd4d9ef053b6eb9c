import UnifyConsole.Async.Once
import UnifyConsole.Async.Source
import UnifyConsole.Async.Sweep

/-!
# A failed task gives the money back

One run of `RunTaskPollingOnce` with nothing else running.  What the sources of tasks have left and
what the rows of the tasks say that they have been charged stay in step, and a row that the run has
moved to `FAILURE` has quota `0` (`Books`).  A guarded write and the billing behind it keep this, for
any answers.

The bulk updates do not: they move rows to `FAILURE` and refund nothing.  They hit
the tasks that have no upstream id and the tasks whose channel is gone.
-/

namespace UnifyConsole.Async

open Lib Account Credit
open Prog List Function Table

variable {R : Type}

/-! ### Books -/

/-- The task was submitted and had not failed when the run began. -/
def TaskDb.Live (db₀ : TaskDb R) (i : Int) : Prop :=
  ∀ t ∈ db₀.tasks.rows, t.id = i → t.status ≠ .failure

open TaskDb

/-- What a source has left changes with the quotas of its tasks, and a task that has failed since
has none. -/
structure Books (db₀ s : TaskDb R) : Prop where
  fundable : Fundable db₀ s
  left : ∀ source, s.left source + owed db₀ s source = db₀.left source + owed db₀ db₀ source
  failed : ∀ r ∈ s.tasks.rows, db₀.Live r.id → r.status = .failure → r.quota = 0

section Books

variable {db₀ s s' : TaskDb R} {t t₀ r : Task R}

theorem books_start (h : Fundable db₀ db₀) : Books db₀ db₀ where
  fundable := h
  left _ := rfl
  failed := fun r hr hlive hf => absurd hf (hlive r hr rfl)

theorem quotaOf_of_mem (hr : r ∈ s.tasks.rows) : s.quotaOf r.id = r.quota := by
  rw [quotaOf, find?_eq_some_iff.mpr ⟨hr, rfl⟩]
  rfl

theorem quotaOf_replaced (hrep : Replaced t s s') (id : Int) :
    s'.quotaOf id = if id = t.id then t.quota else s.quotaOf id := by
  split
  · rename_i he
    rw [he, quotaOf_of_mem hrep.mem]
  · rename_i hne
    have hfind : s'.tasks.find? id = s.tasks.find? id := by
      refine Option.ext fun x => ?_
      rw [find?_eq_some_iff, find?_eq_some_iff]
      exact and_congr_left fun hid => hrep.mem_of_ne fun he => hne (hid.symm.trans he)
    rw [quotaOf, hfind, quotaOf]

/-- **Writing a task and billing it**: the source is charged what the row is, and a failure nothing.
-/
theorem Books.replaced (h : Books db₀ s) (ht₀ : t₀ ∈ db₀.tasks.rows) (hu : t₀.unfinished = true)
    (hid : t₀.id = t.id) (hrep : Replaced t s s')
    (hm : Moved db₀ t₀ (t.quota - s.quotaOf t.id) s s') (hnew : 0 ≤ t.quota)
    (hfailed : db₀.Live t.id → t.status = .failure → t.quota = 0) : Books db₀ s' := by
  obtain ⟨hfundable, hleft⟩ := h.fundable.moved ht₀ hu hm (fun id => by
    rw [quotaOf_replaced hrep, hid]
    split
    · rename_i he
      rw [he]
      omega
    · exact (add_zero _).symm) (by rw [hid]; omega)
  refine ⟨hfundable, fun source => (hleft source).trans (h.left source), fun x hx hlive hf => ?_⟩
  rcases (hrep x).mp hx with rfl | ⟨hx', -⟩
  · exact hfailed hlive hf
  · exact h.failed x hx' hlive hf

/-- A bulk update of rows that have nothing to refund. -/
theorem Books.bulk (h : Books db₀ s) {ids : List Int}
    (hids : ∀ r ∈ s.tasks.rows, r.id ∈ ids → r.quota = 0) (failReason : Option String) :
    Books db₀ (s.taskBulkUpdateByID ids failReason) := by
  have hquota : ∀ id, (s.taskBulkUpdateByID ids failReason).quotaOf id = s.quotaOf id := by
    intro id
    have hrow : ((s.taskBulkUpdateByID ids failReason).tasks.find? id).map Task.quota =
        (s.tasks.find? id).map Task.quota :=
      @map_find?_update _ _ _ _ _ _ _ (fun _ => by rfl) _ _ (fun _ => by rfl) id
    rw [quotaOf, hrow, quotaOf]
  have howed : ∀ source, owed db₀ (s.taskBulkUpdateByID ids failReason) source =
      owed db₀ s source := by
    intro source
    unfold owed
    simp only [hquota]
  refine ⟨⟨?_, h.fundable.wallet, ?_, ?_, h.fundable.alone⟩, fun source => ?_,
    fun x hx hlive hf => ?_⟩
  · simp only [hquota]
    exact h.fundable.nonneg
  · simp only [howed]
    exact h.fundable.subscription
  · simp only [hquota]
    exact h.fundable.reservation
  · rw [howed]
    exact h.left source
  · obtain ⟨r, hr, rfl⟩ := mem_taskBulkUpdateByID.mp hx
    by_cases hin : r.id ∈ ids
    · rw [if_pos hin]
      exact hids r hr hin
    · rw [if_neg hin] at hlive hf ⊢
      exact h.failed r hr hlive hf

end Books

/-! ### One task -/

/-- The task has the quota of its row, and is paid as the unfinished task it was read from. -/
structure Synced (db₀ s : TaskDb R) (t : Task R) : Prop where
  row : ∃ r ∈ s.tasks.rows, r.id = t.id ∧ r.quota = t.quota
  origin : ∃ t₀ ∈ db₀.tasks.rows, t₀.unfinished = true ∧ t₀.id = t.id ∧ t.payer = t₀.payer

/-- The books are right, the task is in step with its row, and no other row has changed. -/
structure Handled (db₀ : TaskDb R) (t : Task R) (s : TaskDb R) (t' : Task R) (s' : TaskDb R) :
    Prop where
  books : Books db₀ s'
  id : t'.id = t.id
  synced : Synced db₀ s' t'
  others : ∀ x : Task R, x.id ≠ t.id → (x ∈ s'.tasks.rows ↔ x ∈ s.tasks.rows)

/-- Run alone, the program deals with the task. -/
abbrev Handles (db₀ : TaskDb R) (t : Task R) (p : TaskProg R (Task R)) (s : TaskDb R) : Prop :=
  Handled db₀ t s (p.exec s).1 (p.exec s).2

variable {db₀ s s' : TaskDb R} {t t₀ t' : Task R}

theorem Synced.of_iff (h : Synced db₀ s t)
    (hsame : ∀ x : Task R, x.id = t.id → (x ∈ s'.tasks.rows ↔ x ∈ s.tasks.rows)) :
    Synced db₀ s' t := by
  obtain ⟨r, hr, hid, hq⟩ := h.row
  exact ⟨⟨r, (hsame r hid).mpr hr, hid, hq⟩, h.origin⟩

theorem Synced.bulk (h : Synced db₀ s t) (ids : List Int) (failReason : Option String) :
    Synced db₀ (s.taskBulkUpdateByID ids failReason) t := by
  obtain ⟨r, hr, hid, hq⟩ := h.row
  refine ⟨⟨_, mem_taskBulkUpdateByID.mpr ⟨r, hr, rfl⟩, ?_, ?_⟩, h.origin⟩
  · split <;> exact hid
  · split <;> exact hq

theorem Synced.quota_eq {r : Task R} (h : Synced db₀ s t) (hr : r ∈ s.tasks.rows)
    (hid : r.id = t.id) : r.quota = t.quota := by
  obtain ⟨r', hr', hid', hq⟩ := h.row
  rw [s.tasks.eq_of_key_eq hr hr' (hid.trans hid'.symm), hq]

theorem Synced.quotaOf_eq (h : Synced db₀ s t) : s.quotaOf t.id = t.quota := by
  obtain ⟨r, hr, hid, hq⟩ := h.row
  rw [← hid, quotaOf_of_mem hr, hq]

/-- Another task in memory for the same row. -/
theorem Synced.of_same (h : Synced db₀ s t) (hid : t'.id = t.id) (hquota : t'.quota = t.quota)
    (hpayer : t'.payer = t.payer) : Synced db₀ s t' := by
  obtain ⟨r, hr, hrid, hq⟩ := h.row
  obtain ⟨t₀, ht₀, hu, hid₀, hp⟩ := h.origin
  exact ⟨⟨r, hr, hrid.trans hid.symm, hq.trans hquota.symm⟩,
    ⟨t₀, ht₀, hu, hid₀.trans hid.symm, hpayer.trans hp⟩⟩

/-- The new task has been written over its row, and nothing is billed yet. -/
structure Won (db₀ : TaskDb R) (t t' : Task R) (s s' : TaskDb R) : Prop where
  books : Books db₀ s
  synced : Synced db₀ s t'
  id : t'.id = t.id
  replaced : TaskDb.Replaced t' s s'
  credit : s'.credit = s.credit
  subscriptions : s'.subscriptions = s.subscriptions

/-- The row that was written has the quota of the one it replaces. -/
theorem Won.fundable (h : Won db₀ t t' s s') : Fundable db₀ s' ∧ s'.quotaOf t'.id = t'.quota := by
  obtain ⟨t₀, ht₀, hu, -⟩ := h.synced.origin
  have hquota := h.synced.quotaOf_eq
  refine ⟨(h.books.fundable.moved ht₀ hu (moved_keep h.credit h.subscriptions) (fun id => ?_)
    (by have := h.books.fundable.nonneg t₀ ht₀ hu; omega)).1, ?_⟩
  · rw [quotaOf_replaced h.replaced, ite_self, add_zero]
    split
    · rename_i he
      rw [he, hquota]
    · rfl
  · rw [quotaOf_replaced h.replaced, if_pos rfl]

/-- A task that was written and billed. -/
theorem Won.billed {s'' : TaskDb R} {t'' : Task R} (h : Won db₀ t t' s s') (hid : t''.id = t'.id)
    (hpayer : t''.payer = t'.payer) (hrep : Replaced t'' s' s'')
    (hm : ∀ t₀ ∈ db₀.tasks.rows, t₀.unfinished = true → t₀.id = t'.id → t'.payer = t₀.payer →
      Moved db₀ t₀ (t''.quota - t'.quota) s' s'')
    (hnew : 0 ≤ t''.quota) (hfailed : db₀.Live t''.id → t''.status = .failure → t''.quota = 0) :
    Handled db₀ t s t'' s'' := by
  obtain ⟨t₀, ht₀, hu, hid₀, hp⟩ := h.synced.origin
  have hrep' : Replaced t'' s s'' := h.replaced.trans hrep hid
  have hmoved : Moved db₀ t₀ (t''.quota - s.quotaOf t''.id) s s'' := by
    rw [hid, h.synced.quotaOf_eq]
    have hboth := (moved_keep h.credit h.subscriptions).trans (hm t₀ ht₀ hu hid₀ hp)
    rwa [zero_add] at hboth
  exact ⟨h.books.replaced ht₀ hu (hid₀.trans hid.symm) hrep' hmoved hnew hfailed, hid.trans h.id,
    ⟨⟨t'', hrep'.mem, rfl, rfl⟩, t₀, ht₀, hu, hid₀.trans hid.symm, hpayer.trans hp⟩,
    fun _ hx => hrep'.mem_of_ne (by rw [hid, h.id]; exact hx)⟩

theorem Won.nonneg (h : Won db₀ t t' s s') : 0 ≤ t'.quota := by
  obtain ⟨t₀, ht₀, hu, hid₀, -⟩ := h.synced.origin
  rw [← h.synced.quotaOf_eq, ← hid₀]
  exact h.books.fundable.nonneg t₀ ht₀ hu

/-- A task that was won and needs no billing, or is not billed. -/
theorem Won.write (h : Won db₀ t t' s s')
    (hfailed : db₀.Live t'.id → t'.status = .failure → t'.quota = 0) : Handled db₀ t s t' s' :=
  h.billed rfl rfl (Replaced.of_mem h.replaced.mem rfl)
    (fun t₀ _ _ _ _ => by rw [sub_self]; exact moved_keep rfl rfl) h.nonneg hfailed

theorem exec_taskRatios (env : TaskSetting R) (t : Task R) (s : TaskDb R) : ((taskRatios env t).exec s).2 = s := by
  unfold taskRatios
  split
  · rfl
  unfold currentRatios
  split
  · rfl
  split
  · rw [exec_bind]
    have hgroup : ((taskGroup t).exec s).2 = s := by
      unfold taskGroup
      split <;> rfl
    rw [hgroup]
    split <;> rfl
  · rfl

section Priced

variable [Ratio R] {env : TaskSetting R}

/-- **An adjustment on its own** charges the source what it charges the row; a full refund is taken.
-/
theorem adjustTask_moved (env : TaskSetting R) (h : Fundable db₀ s) (ht₀ : t₀ ∈ db₀.tasks.rows)
    (hu : t₀.unfinished = true) (hpayer : t.payer = t₀.payer) (hquota : t.quota = s.quotaOf t₀.id)
    {a : Adjustment} {quota : Int} (ha : a.delta = quota - t.quota) (hnew : 0 ≤ quota)
    (hne : quota ≠ t.quota) :
    Moved db₀ t₀ (((adjustTask env t a quota).exec s).1.quota - t.quota) s
        ((adjustTask env t a quota).exec s).2 ∧
      (quota = 0 → ((adjustTask env t a quota).exec s).1.quota = 0) := by
  obtain ⟨htaken, hmoved⟩ := h.chargeFunding env a.delta ht₀ hu hpayer hquota
    (by omega) (by omega)
  rw [exec_adjustTask]
  unfold taskAdjustFunding
  cases hc : chargeFunding env t a.delta s with
  | none =>
    refine ⟨?_, fun h0 => ?_⟩
    · show Moved db₀ t₀ (t.quota - t.quota) s _
      rw [sub_self]
      exact moved_keep rfl rfl
    · obtain ⟨s₁, hs₁⟩ := htaken (by omega)
      rw [hc] at hs₁
      cases hs₁
  | some s₁ =>
    refine ⟨?_, fun h0 => h0⟩
    show Moved db₀ t₀ (quota - t.quota) s _
    have hfund : Moved db₀ t₀ a.delta s { s₁ with attempts := s.attempts ++ [⟨t.id, a, true⟩] } := by
      have hkeep : Moved db₀ t₀ 0 s₁ { s₁ with attempts := s.attempts ++ [⟨t.id, a, true⟩] } :=
        moved_keep rfl rfl
      have hboth := (hmoved s₁ hc).trans hkeep
      rwa [add_zero] at hboth
    have htoken := hfund.trans (moved_taskAdjustTokenQuota t a.delta)
    have hwrite : ∀ s₂, Moved db₀ t₀ 0 s₂ (updateQuota { t with quota := quota } s₂) :=
      fun _ => moved_keep rfl rfl
    have hrow := htoken.trans (hwrite _)
    rw [show a.delta + 0 + 0 = quota - t.quota by omega] at hrow
    exact hrow

/-- A task that was won and whose quota is adjusted. -/
theorem Won.adjust (h : Won db₀ t t' s s') {a : Adjustment} {quota : Int}
    (ha : a.delta = quota - t'.quota) (hnew : 0 ≤ quota) (hne : quota ≠ t'.quota)
    (hfailed : t'.status = .failure → quota = 0) :
    Handled db₀ t s ((adjustTask env t' a quota).exec s').1
      ((adjustTask env t' a quota).exec s').2 := by
  obtain ⟨hfundable, hquota⟩ := h.fundable
  obtain ⟨accepted, -, hres, hrep⟩ := adjustTask_alone env a quota h.replaced.mem
  have hmoved : ∀ t₀ ∈ db₀.tasks.rows, t₀.unfinished = true → t₀.id = t'.id →
      t'.payer = t₀.payer → _ := fun t₀ ht₀ hu hid₀ hp =>
    adjustTask_moved env hfundable ht₀ hu hp (by rw [hid₀, hquota]) ha hnew hne
  refine h.billed (by rw [hres]) (by rw [hres]; rfl) hrep
    (fun t₀ ht₀ hu hid₀ hp => (hmoved t₀ ht₀ hu hid₀ hp).1) ?_ ?_
  · rw [hres]
    cases accepted with
    | false => exact h.nonneg
    | true => exact hnew
  · intro _ hf
    obtain ⟨t₀, ht₀, hu, hid₀, hp⟩ := h.synced.origin
    refine (hmoved t₀ ht₀ hu hid₀ hp).2 (hfailed ?_)
    rw [hres] at hf
    exact hf

/-- A task that was won and is refunded. -/
theorem Won.refund (h : Won db₀ t t' s s') :
    Handled db₀ t s ((refundTaskQuota env t').exec s').1 ((refundTaskQuota env t').exec s').2 := by
  unfold refundTaskQuota
  split
  · rename_i h0
    exact h.write fun _ _ => h0
  · rename_i h0
    exact h.adjust (by simp [Adjustment.delta]) (le_refl 0) (Ne.symm h0) fun _ => rfl

/-- A task that has succeeded and is recalculated. -/
theorem Won.recalculate (h : Won db₀ t t' s s') (hstatus : t'.status = .success) {q : Int}
    (hq : 0 < q) (hne : q ≠ t'.quota) :
    Handled db₀ t s ((adjustTask env t' (.recalculate q t'.quota) q).exec s').1
      ((adjustTask env t' (.recalculate q t'.quota) q).exec s').2 :=
  h.adjust rfl hq.le hne fun hf => by simp [hstatus] at hf

/-! ### Suno -/

theorem exec_updateSunoTask (item : SunoDataResponse) (s : TaskDb R) :
    (updateSunoTask env t item).exec s =
      if (updateWithStatus (sunoTask t item) t.status s).1 = true ∧
          sunoIsFailure t item = true ∧ t.status ≠ .failure
      then (refundTaskQuota env (sunoTask t item)).exec
        (updateWithStatus (sunoTask t item) t.status s).2
      else (sunoTask t item, (updateWithStatus (sunoTask t item) t.status s).2) := by
  unfold updateSunoTask
  rw [exec_bind, exec_atomic]
  split <;> rfl

/-- **An item** leaves the books right, whatever it says. -/
theorem updateSunoTask_handled (item : SunoDataResponse) (h : Books db₀ s) (hlive : db₀.Live t.id)
    (hsync : Synced db₀ s t) :
    Handles db₀ t (updateSunoTask env t item) s := by
  rw [Handles, exec_updateSunoTask]
  rcases updateWithStatus_cases (sunoTask t item) t.status s with
    ⟨r, hr, hid, hstatus, hwon, hrep⟩ | ⟨-, heq⟩
  · have hw : Won db₀ t (sunoTask t item) s _ :=
      ⟨h, hsync.of_same rfl rfl rfl, rfl, hrep, rfl, rfl⟩
    split
    · exact hw.refund
    rename_i hno
    refine hw.write fun _ hf => ?_
    -- The task had failed before, so there was nothing left to refund.
    have hfailure : r.status = .failure := by
      by_contra hne
      exact hno ⟨hwon, (sunoIsFailure_iff t item).mpr hf, hstatus ▸ hne⟩
    have hbooks := h.failed r hr (hid ▸ hlive) hfailure
    rw [hsync.quota_eq hr hid] at hbooks
    exact hbooks
  · rw [heq, if_neg (by simp)]
    exact ⟨h, rfl, hsync.of_same rfl rfl rfl, fun _ _ => Iff.rfl⟩

theorem quota_updateSunoTask {item : SunoDataResponse} (h : t.quota = 0) (s : TaskDb R) :
    ((updateSunoTask env t item).exec s).1.quota = 0 := by
  have h0 : (sunoTask t item).quota = 0 := h
  rw [exec_updateSunoTask]
  split
  · unfold refundTaskQuota
    rw [if_pos h0]
    exact h0
  · exact h0

/-! ### Video -/

theorem exec_recalculateTaskQuota (q : Int) (s : TaskDb R) :
    (recalculateTaskQuota env t q).exec s = (t, s) ∨
      (0 < q ∧ q ≠ t.quota) ∧ (recalculateTaskQuota env t q).exec s =
        (adjustTask env t (.recalculate q t.quota) q).exec s := by
  unfold recalculateTaskQuota
  split
  · exact .inl rfl
  · exact .inr ⟨by omega, rfl⟩

/-- Settling a task that has succeeded is at most one recalculation. -/
theorem exec_settleTaskBillingOnComplete (env : TaskSetting R) (t : Task R) (adjusted totalTokens : Int)
    (s : TaskDb R) :
    (settleTaskBillingOnComplete env t adjusted totalTokens).exec s = (t, s) ∨
      ∃ q, (0 < q ∧ q ≠ t.quota) ∧ (settleTaskBillingOnComplete env t adjusted totalTokens).exec s =
        (adjustTask env t (.recalculate q t.quota) q).exec s := by
  unfold settleTaskBillingOnComplete
  dsimp only
  split
  · exact .inl rfl
  split
  · exact (exec_recalculateTaskQuota _ s).imp_right fun h => ⟨_, h⟩
  split
  · exact .inl rfl
  unfold recalculateTaskQuotaByTokens
  split
  · exact .inl rfl
  rw [exec_bind, exec_taskRatios]
  split
  · exact .inl rfl
  · exact (exec_recalculateTaskQuota _ s).imp_right fun h => ⟨_, h⟩

/-- **An answer about a task that was running** leaves the books right. -/
theorem writeVideoTask_handled (hnd : t.status.done = false) (hid' : t'.id = t.id)
    (hterms : t'.terms = t.terms) (h : Books db₀ s) (hsync : Synced db₀ s t)
    (adjusted totalTokens : Int) :
    Handles db₀ t (writeVideoTask env t t' adjusted totalTokens) s := by
  have hsync' : Synced db₀ s t' :=
    hsync.of_same hid' (congrArg TaskTerms.quota hterms) (congrArg TaskTerms.payer hterms)
  have hlost : Handled db₀ t s t' s := ⟨h, hid', hsync', fun _ _ => Iff.rfl⟩
  unfold writeVideoTask
  split
  · rw [Handles, exec_bind, exec_atomic]
    rcases updateWithStatus_cases t' t.status s with ⟨-, -, -, -, hwon, hrep⟩ | ⟨-, heq⟩
    · have hw : Won db₀ t t' s _ := ⟨h, hsync', hid', hrep, rfl, rfl⟩
      rw [if_pos hwon]
      unfold billVideoTask
      split
      · rename_i hs
        rcases exec_settleTaskBillingOnComplete env t' adjusted totalTokens
          (updateWithStatus t' t.status s).2 with he | ⟨q, hq, he⟩
        · rw [he]
          exact hw.write fun _ hf => by simp [hs] at hf
        · rw [he]
          exact hw.recalculate hs hq.1 hq.2
      · exact hw.refund
      · rename_i hs
        exact hw.write fun _ hf => absurd hf hs
    · rw [heq, if_neg (by simp)]
      exact hlost
  rename_i hno
  have hopen : t'.status.done = false := by
    by_contra hd
    rw [Bool.not_eq_false] at hd
    refine hno ⟨hd, fun he => ?_⟩
    rw [he, hd] at hnd
    cases hnd
  simp only [billVideoTask_of_open hopen]
  split
  · rw [Handles, exec_bind, exec_atomic, exec_pure]
    rcases updateWithStatus_cases t' t.status s with ⟨-, -, -, -, -, hrep⟩ | ⟨-, heq⟩
    · refine Won.write ⟨h, hsync', hid', hrep, rfl, rfl⟩ fun _ hf => ?_
      rw [hf] at hopen
      cases hopen
    · rw [heq]
      exact hlost
  · exact hlost

theorem updateVideoTask_handled (hnd : t.status.done = false) (h : Books db₀ s)
    (hsync : Synced db₀ s t) (reply : VideoReply) :
    Handles db₀ t (updateVideoTask env t reply) s := by
  unfold updateVideoTask
  split
  · exact ⟨h, rfl, hsync.of_same rfl rfl rfl, fun _ _ => Iff.rfl⟩
  rename_i result _
  split
  · exact ⟨h, rfl, hsync.of_same rfl rfl rfl, fun _ _ => Iff.rfl⟩
  rename_i t' hv
  obtain ⟨hid, hterms⟩ := videoStatus_same hv
  obtain ⟨hid', hterms'⟩ := videoProgress_same result t'
  exact writeVideoTask_handled hnd (hid'.trans hid) (hterms'.trans hterms) h hsync _ _

/-! ### Sweeps -/

theorem sweepTasks_books (tasks : List (Task R)) (h : Books db₀ s)
    (hn : (tasks.map Task.id).Nodup) (hrows : ∀ t ∈ tasks, t ∈ s.tasks.rows)
    (horigin : ∀ t ∈ tasks, t ∈ db₀.tasks.rows ∧ t.unfinished = true)
    (hlegacy : ∀ t ∈ tasks, t.isLegacy = false) :
    Books db₀ ((sweepTasks env tasks).exec s).2 := by
  induction tasks generalizing s with
  | nil => exact h
  | cons t tasks ih =>
    rw [map_cons, nodup_cons] at hn
    have ht := hrows t mem_cons_self
    have hl := hlegacy t mem_cons_self
    obtain ⟨-, hrep⟩ := updateWithStatus_won (t := timedOut env t) ht rfl
    have hq : (timedOut env t).quota = t.quota := by simp [timedOut, hl]
    obtain ⟨t', hone⟩ : ∃ t', Handled db₀ t s t' ((sweepTask env t).exec s).2 := by
      rw [exec_sweepTask env ht, hl, if_neg (by simp)]
      obtain ⟨ht₀, hu⟩ := horigin t mem_cons_self
      have hsync : Synced db₀ s (timedOut env t) :=
        ⟨⟨t, ht, rfl, hq.symm⟩, t, ht₀, hu, rfl, rfl⟩
      exact ⟨_, Won.refund ⟨h, hsync, rfl, hrep, rfl, rfl⟩⟩
    show Books db₀ ((sweepTask env t >>= fun _ => sweepTasks env tasks).exec s).2
    rw [exec_bind]
    refine ih hone.books hn.2 (fun t' ht' => ?_) (fun t' ht' => horigin t' (mem_cons_of_mem _ ht'))
      fun t' ht' => hlegacy t' (mem_cons_of_mem _ ht')
    refine (hone.others t' fun he => hn.1 ?_).mpr (hrows t' (mem_cons_of_mem _ ht'))
    exact he ▸ mem_map_of_mem ht'

end Priced

/-! ### The tasks of a platform -/

/-- Only rows of these tasks have changed. -/
def Apart (tasks : List (Task R)) (s s' : TaskDb R) : Prop :=
  ∀ x : Task R, x.id ∉ tasks.map Task.id → (x ∈ s'.tasks.rows ↔ x ∈ s.tasks.rows)

variable {tasks : List (Task R)}

theorem Apart.trans {s'' : TaskDb R} (h : Apart tasks s s') (h' : Apart tasks s' s'') :
    Apart tasks s s'' :=
  fun x hx => (h' x hx).trans (h x hx)

theorem Apart.synced (h : Apart tasks s s') {x : Task R} (hx : x.id ∉ tasks.map Task.id)
    (hs : Synced db₀ s x) : Synced db₀ s' x :=
  hs.of_iff fun y hy => h y (hy ▸ hx)

theorem apart_bulk {ids : List Int} (hids : ids ⊆ tasks.map Task.id) (s : TaskDb R)
    (failReason : Option String) : Apart tasks s (s.taskBulkUpdateByID ids failReason) := by
  intro x hx
  rw [mem_taskBulkUpdateByID]
  constructor
  · rintro ⟨r, hr, rfl⟩
    by_cases hin : r.id ∈ ids
    · rw [if_pos hin] at hx
      exact absurd (hids hin) hx
    · rw [if_neg hin]
      exact hr
  · intro hr
    exact ⟨x, hr, by rw [if_neg fun hin => hx (hids hin)]⟩

/-- Run alone, the program leaves this behind and changes only rows of these tasks. -/
def Leaves (tasks : List (Task R)) {α : Type} (Q : α → TaskDb R → Prop) (p : TaskProg R α)
    (s : TaskDb R) : Prop :=
  Q (p.exec s).1 (p.exec s).2 ∧ Apart tasks s (p.exec s).2

section Leaves

variable {α β : Type} {Q : α → TaskDb R → Prop} {Q' : β → TaskDb R → Prop}

theorem leaves_pure {a : α} (h : Q a s) : Leaves tasks Q (pure a) s := ⟨h, fun _ _ => Iff.rfl⟩

theorem leaves_bind {p : TaskProg R α} {f : α → TaskProg R β} (hp : Leaves tasks Q p s)
    (hf : ∀ a s, Q a s → Leaves tasks Q' (f a) s) : Leaves tasks Q' (p >>= f) s := by
  rw [Leaves, exec_bind]
  exact (hf _ _ hp.1).imp_right hp.2.trans

end Leaves

structure Batch (env : TaskSetting R) (db₀ : TaskDb R) (tasks : List (Task R)) : Prop where
  nodup : (tasks.map Task.id).Nodup
  live : ∀ t ∈ tasks, db₀.Live t.id
  opened : ∀ t ∈ tasks, t.status.done = false
  distinct : ∀ t ∈ tasks, ∀ t' ∈ tasks, t.getUpstreamTaskId = t'.getUpstreamTaskId →
    t.getUpstreamTaskId ≠ "" → t = t'
  /-- A task that was paid for has an upstream id and a channel. -/
  backed : ∀ t ∈ tasks, t.quota ≠ 0 →
    t.getUpstreamTaskId ≠ "" ∧ env.cacheGetChannel t.channelId = true

section Loops

variable {env : TaskSetting R} {db₀ s : TaskDb R} {tasks : List (Task R)} {taskM : TaskMap R}

/-- The task in memory under an upstream id is one of these, with a quota only if that had one. -/
def Origin (tasks : List (Task R)) (u : String) (t : Task R) : Prop :=
  ∃ t₀ ∈ tasks, t₀.id = t.id ∧ t₀.getUpstreamTaskId = u ∧ (t₀.quota = 0 → t.quota = 0)

theorem Batch.ne_of_origin (hb : Batch env db₀ tasks) {u u' : String} (h : Origin tasks u t)
    (h' : Origin tasks u' t') (hne : u ≠ u') : t.id ≠ t'.id := by
  obtain ⟨t₀, ht₀, hid, hu, -⟩ := h
  obtain ⟨t₀', ht₀', hid', hu', -⟩ := h'
  intro he
  have heq : t₀ = t₀' :=
    inj_on_of_nodup_map hb.nodup ht₀ ht₀' (hid.trans (he.trans hid'.symm))
  exact hne (hu ▸ hu' ▸ congrArg Task.getUpstreamTaskId heq)

theorem Origin.mem_ids {u : String} (h : Origin tasks u t) : t.id ∈ tasks.map Task.id := by
  obtain ⟨t₀, ht₀, hid, -⟩ := h
  exact hid ▸ mem_map_of_mem ht₀

/-- A channel that is gone has no task that was paid for. -/
theorem Batch.quota_of_failed (hb : Batch env db₀ tasks) {channelId : Int}
    (hgone : env.cacheGetChannel channelId = false)
    (hmem : ∀ u ∈ channelTaskIds tasks channelId, ∀ t, taskM u = some t →
      Synced db₀ s t ∧ Origin tasks u t) :
    (∀ r ∈ s.tasks.rows, r.id ∈ failedIds taskM (channelTaskIds tasks channelId) → r.quota = 0) ∧
      failedIds taskM (channelTaskIds tasks channelId) ⊆ tasks.map Task.id := by
  have hget : ∀ i ∈ failedIds taskM (channelTaskIds tasks channelId),
      ∃ u ∈ channelTaskIds tasks channelId, ∃ t, taskM u = some t ∧ t.id = i := by
    intro i hi
    obtain ⟨u, hu, he⟩ := mem_filterMap.mp hi
    obtain ⟨t, ht, hid⟩ := Option.map_eq_some_iff.mp he
    exact ⟨u, hu, t, ht, hid⟩
  refine ⟨fun r hr hi => ?_, fun i hi => ?_⟩
  · obtain ⟨u, hu, t, ht, hid⟩ := hget r.id hi
    obtain ⟨hsync, t₀, ht₀, -, hup, hzero⟩ := hmem u hu t ht
    obtain ⟨t₁, ht₁, hne, hchannel, hup₁⟩ := mem_channelTaskIds.mp hu
    have heq : t₁ = t₀ := hb.distinct t₁ ht₁ t₀ ht₀ (hup₁.trans hup.symm) hne
    rw [hsync.quota_eq hr hid.symm]
    refine hzero ?_
    by_contra hq
    have hfound := (hb.backed t₀ ht₀ hq).2
    rw [← heq, hchannel, hgone] at hfound
    cases hfound
  · obtain ⟨u, hu, t, ht, rfl⟩ := hget i hi
    exact (hmem u hu t ht).2.mem_ids

/-- The books are right and the in-memory tasks of the platform are in step. -/
structure SunoBooks (db₀ : TaskDb R) (tasks : List (Task R)) (taskM : TaskMap R) (s : TaskDb R) :
    Prop where
  books : Books db₀ s
  memory : ∀ u t, taskM u = some t → Synced db₀ s t ∧ Origin tasks u t

/-- The books are right, and the tasks still to be asked about, each once, are as they were read. -/
structure VideoBooks (db₀ : TaskDb R) (tasks : List (Task R)) (taskIds : List String)
    (taskM : TaskMap R) (s : TaskDb R) : Prop where
  books : Books db₀ s
  nodup : taskIds.Nodup
  memory : ∀ u ∈ taskIds, ∀ t, taskM u = some t →
    Synced db₀ s t ∧ t ∈ tasks ∧ t.getUpstreamTaskId = u

theorem VideoBooks.suffix {taskIds rest : List String}
    (h : VideoBooks db₀ tasks (taskIds ++ rest) taskM s) : VideoBooks db₀ tasks rest taskM s where
  books := h.books
  nodup := (nodup_append.mp h.nodup).2.1
  memory := fun u hu => h.memory u (mem_append_right _ hu)

theorem updateChannels_books {W : Type} (work : Int → List W)
    {I : List W → TaskMap R → TaskDb R → Prop}
    {update : Int → TaskMap R → TaskProg R (TaskMap R)}
    (h : ∀ c rest taskM s, I (work c ++ rest) taskM s →
      Leaves tasks (I rest) (update c taskM) s)
    (hbooks : ∀ taskM s, I [] taskM s → Books db₀ s)
    (channels : List Int) (hi : I (channels.flatMap work) taskM s) :
    Leaves tasks (fun _ => Books db₀) (updateChannels update channels taskM) s := by
  induction channels generalizing taskM s with
  | nil => exact leaves_pure (hbooks taskM s hi)
  | cons c channels ih => exact leaves_bind (h c _ taskM s (by simpa using hi)) fun _ _ => ih

variable [Ratio R]

/-! ### The loops -/

theorem updateSunoItems_books (hb : Batch env db₀ tasks) (items : List SunoDataResponse)
    (h : SunoBooks db₀ tasks taskM s) :
    Leaves tasks (SunoBooks db₀ tasks) (updateSunoItems env items taskM) s := by
  induction items generalizing taskM s with
  | nil => exact leaves_pure h
  | cons item items ih =>
    unfold updateSunoItems
    split
    · exact ih h
    rename_i t ht
    split
    · obtain ⟨hsync, horigin⟩ := h.memory _ t ht
      have hlive : db₀.Live t.id := by
        obtain ⟨t₀, ht₀, hid, -⟩ := horigin
        exact hid ▸ hb.live t₀ ht₀
      have hone : Handles db₀ t (updateSunoTask env t item) s :=
        updateSunoTask_handled item h.books hlive hsync
      refine leaves_bind (Q := fun t' => SunoBooks db₀ tasks (update taskM item.taskId (some t')))
        ⟨⟨hone.books, fun u t' hu => ?_⟩, fun x hx => ?_⟩ fun _ _ => ih
      · by_cases he : u = item.taskId
        · subst he
          rw [update_self] at hu
          obtain rfl := Option.some.inj hu
          obtain ⟨t₀, ht₀, hid, hup, hq⟩ := horigin
          exact ⟨hone.synced, t₀, ht₀, hid.trans hone.id.symm, hup,
            fun h0 => quota_updateSunoTask (hq h0) s⟩
        · rw [update_of_ne he] at hu
          obtain ⟨hsync', horigin'⟩ := h.memory u t' hu
          exact ⟨hsync'.of_iff fun y hy => hone.others y (hy ▸ hb.ne_of_origin horigin' horigin he),
            horigin'⟩
      · exact hone.others x fun hid => hx (hid ▸ horigin.mem_ids)
    · exact ih h

theorem updateSunoTasks_books (hb : Batch env db₀ tasks) (channelId : Int)
    (reply : Option (List SunoDataResponse)) (h : SunoBooks db₀ tasks taskM s) :
    Leaves tasks (SunoBooks db₀ tasks)
      (updateSunoTasks env channelId (channelTaskIds tasks channelId) reply taskM) s := by
  unfold updateSunoTasks
  split
  · exact leaves_pure h
  split
  · split
    · exact updateSunoItems_books hb _ h
    · exact leaves_pure h
  rename_i hgone
  obtain ⟨hzero, hids⟩ := hb.quota_of_failed (by simpa using hgone)
    (fun u _ t ht => h.memory u t ht)
  exact ⟨⟨h.books.bulk hzero _, fun u t ht =>
    ⟨(h.memory u t ht).1.bulk _ _, (h.memory u t ht).2⟩⟩, apart_bulk hids s _⟩

theorem updateVideoSingleTask_books (hb : Batch env db₀ tasks) {taskId : String}
    {taskIds : List String} (h : VideoBooks db₀ tasks (taskId :: taskIds) taskM s)
    (reply : Option VideoReply) :
    Leaves tasks (VideoBooks db₀ tasks taskIds) (updateVideoSingleTask env taskId reply taskM) s := by
  have htail : VideoBooks db₀ tasks taskIds taskM s :=
    VideoBooks.suffix (show VideoBooks db₀ tasks ([taskId] ++ taskIds) taskM s from h)
  unfold updateVideoSingleTask
  split
  · rename_i t reply ht
    obtain ⟨hsync, hmem, hup⟩ := h.memory taskId mem_cons_self t ht
    have hone : Handles db₀ t (updateVideoTask env t reply) s :=
      updateVideoTask_handled (hb.opened t hmem) h.books hsync reply
    refine leaves_bind (Q := fun t' => VideoBooks db₀ tasks taskIds (update taskM taskId (some t')))
      ⟨⟨hone.books, htail.nodup, fun u hu t' ht' => ?_⟩, fun x hx => ?_⟩ fun _ _ => leaves_pure
    · have hne : u ≠ taskId := by
        rintro rfl
        exact (nodup_cons.mp h.nodup).1 hu
      rw [update_of_ne hne] at ht'
      obtain ⟨hsync', hmem', hup'⟩ := htail.memory u hu t' ht'
      refine ⟨hsync'.of_iff fun y hy => hone.others y fun he => hne ?_, hmem', hup'⟩
      rw [← hup', ← hup, inj_on_of_nodup_map hb.nodup hmem' hmem (hy.symm.trans he)]
    · exact hone.others x fun hid => hx (hid ▸ mem_map_of_mem hmem)
  · exact leaves_pure htail

theorem updateVideoList_books (hb : Batch env db₀ tasks) (taskIds rest : List String)
    (replies : List (Option VideoReply)) (h : VideoBooks db₀ tasks (taskIds ++ rest) taskM s) :
    Leaves tasks (VideoBooks db₀ tasks rest) (updateVideoList env taskIds replies taskM) s := by
  induction taskIds generalizing replies taskM s with
  | nil => exact leaves_pure h
  | cons taskId taskIds ih =>
    exact leaves_bind (updateVideoSingleTask_books hb h _) fun _ _ => ih replies.tail

theorem updateVideoTasks_books (hb : Batch env db₀ tasks) (platform : TaskPlatform)
    (channelId : Int) (replies : List (Option VideoReply)) {rest : List String}
    (h : VideoBooks db₀ tasks (channelTaskIds tasks channelId ++ rest) taskM s) :
    Leaves tasks (VideoBooks db₀ tasks rest) (updateVideoTasks env platform channelId
      (channelTaskIds tasks channelId) replies taskM) s := by
  have hs := h.suffix
  unfold updateVideoTasks
  split
  · exact leaves_pure hs
  split
  · split
    · exact updateVideoList_books hb _ _ _ h
    · exact leaves_pure hs
  rename_i hgone
  obtain ⟨hzero, hids⟩ := hb.quota_of_failed (by simpa using hgone) fun u hu t ht => by
    obtain ⟨hsync, hmem, hup⟩ := h.memory u (mem_append_left _ hu) t ht
    exact ⟨hsync, t, hmem, rfl, hup, fun h0 => h0⟩
  exact ⟨⟨h.books.bulk hzero _, hs.nodup, fun u hu t ht =>
    ⟨(hs.memory u hu t ht).1.bulk _ _, (hs.memory u hu t ht).2⟩⟩, apart_bulk hids s _⟩

/-! ### A pass -/

theorem dispatchPlatformUpdate_books (input : PollInput) (platform : TaskPlatform)
    (hb : platform ≠ .midjourney → Batch env db₀ tasks) (h : Books db₀ s)
    (hsync : ∀ t ∈ tasks, Synced db₀ s t) :
    Leaves tasks (fun _ => Books db₀) (dispatchPlatformUpdate env input platform tasks) s := by
  unfold dispatchPlatformUpdate
  split
  · exact leaves_pure h
  · have hb := hb (by simp)
    refine updateChannels_books (fun _ => ([] : List Unit)) (I := fun _ => SunoBooks db₀ tasks)
      (fun c _ _ _ hi => updateSunoTasks_books hb c _ hi) (fun _ _ hi => hi.books) _
      ⟨h, fun u t ht => ?_⟩
    obtain ⟨hmem, hup, -⟩ := mem_of_taskMap ht
    exact ⟨hsync t hmem, t, hmem, rfl, hup, fun h0 => h0⟩
  rename_i name
  have hb := hb (by simp)
  refine updateChannels_books (channelTaskIds tasks) (I := VideoBooks db₀ tasks)
    (fun c _ _ _ hi => updateVideoTasks_books hb (.other name) c _ hi) (fun _ _ hi => hi.books) _
    ⟨h, nodup_channelTaskIds (Nodup.of_map _ hb.nodup) hb.distinct
      (nodup_taskChannels input tasks), fun u _ t ht => ?_⟩
  obtain ⟨hmem, hup, -⟩ := mem_of_taskMap ht
  exact ⟨hsync t hmem, hmem, hup⟩

omit [Ratio R] in
theorem failNullTasks_books (h : Books db₀ s) (hsync : ∀ t ∈ tasks, Synced db₀ s t)
    (hbacked : ∀ t ∈ tasks, t.quota ≠ 0 → t.getUpstreamTaskId ≠ "") :
    Books db₀ ((failNullTasks tasks).exec s).2 ∧ Apart tasks s ((failNullTasks tasks).exec s).2 ∧
      ∀ t, Synced db₀ s t → Synced db₀ ((failNullTasks tasks).exec s).2 t := by
  have hnull : ∀ i ∈ nullTaskIds tasks, ∃ t ∈ tasks, t.id = i ∧ t.getUpstreamTaskId = "" := by
    intro i hi
    obtain ⟨t, ht, hid⟩ := mem_map.mp hi
    obtain ⟨ht, hup⟩ := mem_filter.mp ht
    exact ⟨t, ht, hid, of_decide_eq_true hup⟩
  unfold failNullTasks Prog.when
  split
  · refine ⟨h.bulk (fun r hr hi => ?_) none, apart_bulk (fun i hi => ?_) s none,
      fun t ht => ht.bulk _ none⟩
    · obtain ⟨t, ht, hid, hup⟩ := hnull r.id hi
      rw [(hsync t ht).quota_eq hr hid.symm]
      by_contra hq
      exact hbacked t ht hq hup
    · obtain ⟨t, ht, rfl, -⟩ := hnull i hi
      exact mem_map_of_mem ht
  · exact ⟨h, fun _ _ => Iff.rfl, fun _ ht => ht⟩

/-- Every task that was paid for has an upstream id and, unless it is Midjourney's, a channel. -/
def Backed (env : TaskSetting R) (tasks : List (Task R)) : Prop :=
  ∀ t ∈ tasks, t.quota ≠ 0 → t.getUpstreamTaskId ≠ "" ∧
    (t.platform = .midjourney ∨ env.cacheGetChannel t.channelId = true)

def DistinctIds (tasks : List (Task R)) : Prop :=
  ∀ t ∈ tasks, ∀ t' ∈ tasks, t.platform = t'.platform →
    t.getUpstreamTaskId = t'.getUpstreamTaskId → t.getUpstreamTaskId ≠ "" → t = t'

theorem pollPlatforms_books (input : PollInput) {allTasks : List (Task R)}
    (hnodup : (allTasks.map Task.id).Nodup) (hlive : ∀ t ∈ allTasks, db₀.Live t.id)
    (hopen : ∀ t ∈ allTasks, t.status.done = false) (hbacked : Backed env allTasks)
    (hdistinct : DistinctIds allTasks) (platforms : List TaskPlatform) (hp : platforms.Nodup)
    (h : Books db₀ s)
    (hsync : ∀ t ∈ allTasks, t.platform ∈ platforms → Synced db₀ s t) :
    Books db₀ ((pollPlatforms env input allTasks platforms).exec s).2 := by
  induction platforms generalizing s with
  | nil => exact h
  | cons platform platforms ih =>
    rw [nodup_cons] at hp
    have hmem : ∀ t ∈ platformTasks allTasks platform, t ∈ allTasks ∧ t.platform = platform :=
      fun t ht => ⟨mem_of_mem_filter ht, of_decide_eq_true (mem_filter.mp ht).2⟩
    have hb : platform ≠ .midjourney → Batch env db₀ (platformTasks allTasks platform) := by
      intro hne
      refine ⟨hnodup.sublist (filter_sublist.map _), fun t ht => hlive t (hmem t ht).1,
        fun t ht => hopen t (hmem t ht).1, fun t ht t' ht' => ?_, fun t ht hq => ?_⟩
      · exact hdistinct t (hmem t ht).1 t' (hmem t' ht').1
          ((hmem t ht).2.trans (hmem t' ht').2.symm)
      · obtain ⟨hup, hchannel⟩ := hbacked t (hmem t ht).1 hq
        exact ⟨hup, hchannel.resolve_left fun he => hne ((hmem t ht).2.symm.trans he)⟩
    have hsync₀ : ∀ t ∈ platformTasks allTasks platform, Synced db₀ s t := by
      intro t ht
      obtain ⟨hin, rfl⟩ := hmem t ht
      exact hsync t hin mem_cons_self
    obtain ⟨hbooks₁, hapart₁, hkeep₁⟩ := failNullTasks_books h hsync₀
      fun t ht hq => (hbacked t (hmem t ht).1 hq).1
    obtain ⟨hbooks₂, hapart₂⟩ := dispatchPlatformUpdate_books input platform hb hbooks₁
      fun t ht => hkeep₁ t (hsync₀ t ht)
    have hcons : pollPlatforms env input allTasks (platform :: platforms) =
        failNullTasks (platformTasks allTasks platform) >>= fun _ =>
          dispatchPlatformUpdate env input platform (platformTasks allTasks platform) >>= fun _ =>
            pollPlatforms env input allTasks platforms := rfl
    rw [hcons, exec_bind, exec_bind]
    refine ih hp.2 hbooks₂ fun t ht htp => ?_
    have hout : t.id ∉ (platformTasks allTasks platform).map Task.id := by
      intro hin
      obtain ⟨t', ht', hid⟩ := mem_map.mp hin
      obtain ⟨hin', hplat⟩ := hmem t' ht'
      rw [inj_on_of_nodup_map hnodup hin' ht hid] at hplat
      exact hp.1 (hplat ▸ htp)
    exact (hapart₁.trans hapart₂).synced hout (hsync t ht (mem_cons_of_mem _ htp))

end Loops

/-! ### A run of the poller -/

/-- The tasks a pass asks about: those that its sweep leaves unfinished, up to the limit. -/
def polledTasks (env : TaskSetting R) (db : TaskDb R) : List (Task R) :=
  ((db.tasks.rows.filter fun t =>
    t.unfinished && decide (t.id ∉ (sweptTasks env db).map Task.id)).insertionSort
      TaskDb.idBefore).take env.taskQueryLimit

instance : Std.Total (TaskDb.idBefore (R := R)) := ⟨fun _ _ => Int.le_total _ _⟩

instance : IsTrans (Task R) TaskDb.idBefore := ⟨fun _ _ _ => Int.le_trans⟩

/-- Rows sorted by id do not depend on the order they were stored in. -/
theorem insertionSort_idBefore {l l' : List (Task R)} (hn : (l.map Task.id).Nodup)
    (h : l.Perm l') : l.insertionSort idBefore = l'.insertionSort idBefore := by
  have hperm : (l.insertionSort idBefore).Perm (l'.insertionSort idBefore) :=
    (perm_insertionSort _ l).trans (h.trans (perm_insertionSort _ l').symm)
  refine List.Perm.eq_of_pairwise (fun t t' ht ht' hle hle' => ?_)
    (pairwise_insertionSort _ l) (pairwise_insertionSort _ l') hperm
  rw [mem_insertionSort] at ht ht'
  exact inj_on_of_nodup_map hn ht (h.mem_iff.mpr ht') (Int.le_antisymm hle hle')

section Priced

variable [Ratio R] {env : TaskSetting R} {db : TaskDb R}

theorem getAllUnFinishSyncTasks_sweep :
    ((sweepTimedOutTasks env).exec db).2.getAllUnFinishSyncTasks env.taskQueryLimit =
      polledTasks env db := by
  have hs := sweep_swept env db
  have hids : ∀ (s : TaskDb R) (p : Task R → Bool), ((s.tasks.rows.filter p).map Task.id).Nodup :=
    fun s _ => s.tasks.nodup.sublist (filter_sublist.map Task.id)
  unfold getAllUnFinishSyncTasks polledTasks
  rw [insertionSort_idBefore (hids _ _)]
  refine (perm_ext_iff_of_nodup (Nodup.of_map _ (hids _ _))
    (Nodup.of_map _ (hids _ _))).mpr fun x => ?_
  rw [mem_filter, mem_filter, Bool.and_eq_true, decide_eq_true_eq]
  constructor
  · rintro ⟨hx, hu⟩
    obtain ⟨hout, hrow⟩ := hs.mem_of_unfinished hx hu
    exact ⟨hrow, hu, hout⟩
  · rintro ⟨hrow, hu, hout⟩
    exact ⟨(hs.others x hout).mpr hrow, hu⟩

theorem runTaskPollingOnce_books (input : PollInput) (hfundable : Fundable db db)
    (hlegacy : ∀ t ∈ db.tasks.rows, t.unfinished = true → t.isLegacy = false)
    (hbacked : Backed env (polledTasks env db)) (hdistinct : DistinctIds (polledTasks env db)) :
    Books db ((runTaskPollingOnce env input).exec db).2 := by
  have hs := sweep_swept env db
  have hsweep : Books db ((sweepTimedOutTasks env).exec db).2 := by
    rw [exec_sweepTimedOutTasks]
    refine sweepTasks_books _ (books_start hfundable) (nodup_sweptTasks env db)
      (fun t ht => (mem_of_sweptTasks env ht).1) (fun t ht => mem_of_sweptTasks env ht)
      fun t ht => ?_
    exact hlegacy t (mem_of_sweptTasks env ht).1 (mem_of_sweptTasks env ht).2
  have hread : ∀ t ∈ polledTasks env db,
      t ∈ ((sweepTimedOutTasks env).exec db).2.tasks.rows ∧ t.unfinished = true := by
    intro t ht
    rw [← getAllUnFinishSyncTasks_sweep] at ht
    exact mem_getAllUnFinishSyncTasks ht
  have hlive : ∀ t ∈ polledTasks env db, db.Live t.id := by
    intro t ht t' ht' hid hf
    obtain ⟨hrow, hu⟩ := hread t ht
    have hrow₀ := (hs.mem_of_unfinished hrow hu).2
    rw [db.tasks.eq_of_key_eq ht' hrow₀ hid] at hf
    have hnd := Task.done_of_unfinished hu
    rw [hf] at hnd
    cases hnd
  unfold runTaskPollingOnce
  rw [exec_bind, exec_bind, exec_look, getAllUnFinishSyncTasks_sweep]
  refine pollPlatforms_books input (db.nodup_picked _ _ _) hlive
    (fun t ht => Task.done_of_unfinished (hread t ht).2) hbacked hdistinct _ ?_ hsweep
    fun t ht _ => ⟨⟨t, (hread t ht).1, rfl, rfl⟩, t,
      (hs.mem_of_unfinished (hread t ht).1 (hread t ht).2).2, (hread t ht).2, rfl, rfl⟩
  exact (input.platformOrder_perm _).nodup_iff.mpr (nodup_dedup _)

/-- **A failed task gives the money back**, in every run of the poller whose tasks have an upstream
id and a channel (or nothing to refund), each under an id of its own, and whose sources are as
charged. It is left with quota `0`; every source has got back what the quotas of its tasks went down
by; a reservation holds the quota of its task. -/
theorem failed_task_is_refunded (input : PollInput) (hfundable : Fundable db db)
    (hlegacy : ∀ t ∈ db.tasks.rows, t.unfinished = true → t.isLegacy = false)
    (hbacked : Backed env (polledTasks env db)) (hdistinct : DistinctIds (polledTasks env db)) :
    let db' := ((runTaskPollingOnce env input).exec db).2
    (∀ t ∈ db.tasks.rows, t.status ≠ .failure → ∀ r ∈ db'.tasks.rows, r.id = t.id →
      r.status = .failure → db'.quotaOf t.id = 0) ∧
    (∀ source, db'.left source = db.left source + db.tasks.sum fun t =>
      if t.unfinished = true ∧ db.fundingOf t = some source then t.quota - db'.quotaOf t.id
      else 0) ∧
    (∀ t ∈ db.tasks.rows, t.unfinished = true → ∀ id, t.OnReservation id →
      ∃ res, db'.credit.reservations.find? id = some res ∧
        res.heldCustomer = db'.quotaOf t.id) := by
  intro db'
  have hbooks : Books db db' := runTaskPollingOnce_books input hfundable hlegacy hbacked hdistinct
  refine ⟨fun t ht hstatus r hr hid hf => ?_, fun source => ?_, fun t ht hu id hon => ?_⟩
  · have hlive : db.Live r.id := by
      intro t' ht' hid' hf'
      rw [db.tasks.eq_of_key_eq ht' ht (hid'.trans hid)] at hf'
      exact hstatus hf'
    rw [← hid, quotaOf_of_mem hr]
    exact hbooks.failed r hr hlive hf
  · have hsum : owed db db source = owed db db' source + db.tasks.sum (fun t =>
        if t.unfinished = true ∧ db.fundingOf t = some source then t.quota - db'.quotaOf t.id
        else 0) := by
      unfold owed
      rw [← sum_add]
      refine sum_congr fun t ht => ?_
      rw [quotaOf_of_mem ht]
      split <;> omega
    have hleft := hbooks.left source
    omega
  · obtain ⟨res, hf, -, -, hheld⟩ := hbooks.fundable.reservation t ht hu id hon
    exact ⟨res, hf, hheld⟩

end Priced

def pollInput (items : List SunoDataResponse) : PollInput where
  platformOrder l := l
  platformOrder_perm _ := .refl _
  channelOrder l := l
  channelOrder_perm _ := .refl _
  suno _ := some items
  video _ _ := []

def sunoFailurePass : TaskDb ℚ :=
  ((runTaskPollingOnce (pollSetting [5]) (pollInput [⟨"s", "FAILURE", "", 0, 0, 0, ""⟩])).exec
    (pollDb (runningTask .suno "s"))).2

/-- A running task that is paid from the wallet. -/
theorem fundable_pollDb :
    Fundable (pollDb (runningTask .suno "s")) (pollDb (runningTask .suno "s")) := by
  have hone : ∀ t ∈ (pollDb (runningTask .suno "s")).tasks.rows, t = runningTask .suno "s" :=
    fun t ht => mem_singleton.mp ht
  refine ⟨fun t ht _ => ?_, fun t ht _ _ _ => ?_, fun t ht _ hs => ?_, fun t ht _ id hon => ?_,
    fun t ht t' ht' _ _ _ _ _ => (hone t ht).trans (hone t' ht').symm⟩
  · rw [hone t ht]
    decide
  · rw [hone t ht]
    exact ⟨.tenant 7, by decide, ⟨by decide, ⟨⟨1, 7⟩, by decide, by decide⟩, by decide⟩⟩
  · rw [hone t ht] at hs
    cases hs
  · rw [hone t ht] at hon
    cases hon.2.1

theorem failed_task_is_refunded_suno :
    sunoFailurePass.tasks.rows.map (fun t => (t.id, t.status)) = [(1, .failure)] ∧
      sunoFailurePass.quotaOf 1 = 0 ∧ sunoFailurePass.credit.store.balance (.tenant 7) = 1000 := by
  have hrows : sunoFailurePass.tasks.rows.map (fun t => (t.id, t.status)) = [(1, .failure)] := by
    decide +kernel
  have hpolled : ∀ t ∈ polledTasks (pollSetting [5]) (pollDb (runningTask .suno "s")),
      t = runningTask .suno "s" := by
    intro t ht
    have hrow := mem_of_mem_filter ((mem_insertionSort _).mp (mem_of_mem_take ht))
    exact mem_singleton.mp hrow
  obtain ⟨hfailed, hleft, -⟩ := @failed_task_is_refunded _ _ (pollSetting [5]) _
    (pollInput [⟨"s", "FAILURE", "", 0, 0, 0, ""⟩]) fundable_pollDb
    (fun t ht _ => by rw [mem_singleton.mp ht]; decide)
    (fun t ht _ => by rw [hpolled t ht]; exact ⟨by decide, .inr (by decide)⟩)
    (fun t ht t' ht' _ _ _ => by rw [hpolled t ht, hpolled t' ht'])
  obtain ⟨r, hr, hpair⟩ := mem_map.mp (hrows ▸ mem_singleton_self (1, TaskStatus.failure))
  have hzero : sunoFailurePass.quotaOf 1 = 0 :=
    hfailed (runningTask .suno "s") (mem_singleton_self _) (by decide) r hr
      (Prod.mk.inj hpair).1 (Prod.mk.inj hpair).2
  refine ⟨hrows, hzero, (hleft (.wallet (.tenant 7))).trans ?_⟩
  show (900 : Int) + (100 - sunoFailurePass.quotaOf 1 + 0) = 1000
  rw [hzero]
  rfl

/-- A task whose channel is gone is failed and keeps its charge. -/
theorem channel_gone_keeps_charge :
    let db' := ((runTaskPollingOnce (pollSetting []) (pollInput [])).exec
      (pollDb (runningTask .suno "s"))).2
    db'.tasks.rows.map (fun t => (t.status, t.quota)) = [(.failure, 100)] ∧
      db'.credit.store.balance (.tenant 7) = 900 ∧
      (pollDb (runningTask .suno "s")).credit.store.balance (.tenant 7) = 900 := by
  decide +kernel

/-- So is one that has no upstream id. -/
example :
    ((runTaskPollingOnce (pollSetting [5]) (pollInput [])).exec
        (pollDb (runningTask .suno ""))).2.tasks.rows.map (fun t => (t.status, t.quota)) =
        [(.failure, 100)] := by
  decide +kernel

/-- A subscription over its limit refuses the refund. -/
example :
    let paid : Task ℚ := { runningTask .suno "s" with
      privateData := { (runningTask .suno "s").privateData with
        billingSource := some .subscription, subscriptionId := 3 } }
    let db : TaskDb ℚ := { pollDb paid with subscriptions := ⟨[⟨3, 500, 700⟩], by decide⟩ }
    let db' := ((runTaskPollingOnce (pollSetting [5])
      (pollInput [⟨"s", "FAILURE", "", 0, 0, 0, ""⟩])).exec db).2
    db'.tasks.rows.map (fun t => (t.status, t.quota)) = [(.failure, 100)] ∧
      db'.subscriptions.rows = [⟨3, 500, 700⟩] := by
  decide +kernel

end UnifyConsole.Async
