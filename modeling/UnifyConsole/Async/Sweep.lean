import UnifyConsole.Async.Polling

/-!
# A sweep on its own

`sweepTimedOutTasks` with nothing else running.  Each task it picks still has the
row it was read from, so every guarded write goes through: a sweep ends what it
picks (`Swept`) and touches nothing else.  It picks at most a hundred tasks, the
oldest first, so one sweep need not end every task that has timed out, but enough
of them do (`sweeps_end`).
-/

namespace UnifyConsole.Async

open Lib Credit
open Prog List TaskDb

variable {R : Type}

/-! ### What a sweep picks -/

variable {db : TaskDb R} {t : Task R}

section Picked

variable (env : TaskSetting R)

def sweptTasks (db : TaskDb R) : List (Task R) :=
  if env.taskTimeoutMinutes ≤ 0 then []
  else db.getTimedOutUnfinishedTasks (env.now - env.taskTimeoutMinutes * 60) 100

theorem mem_of_sweptTasks (h : t ∈ sweptTasks env db) :
    t ∈ db.tasks.rows ∧ t.unfinished = true := by
  unfold sweptTasks at h
  split at h
  · cases h
  · exact mem_getTimedOutUnfinishedTasks h

theorem nodup_sweptTasks (db : TaskDb R) : ((sweptTasks env db).map Task.id).Nodup := by
  unfold sweptTasks
  split
  · exact nodup_nil
  · exact db.nodup_picked _ _ _

def overdue (db : TaskDb R) : List (Task R) :=
  db.tasks.rows.filter fun t =>
    t.unfinished && decide (t.submitTime < env.now - env.taskTimeoutMinutes * 60)

theorem mem_overdue : t ∈ overdue env db ↔ t ∈ db.tasks.rows ∧
    t.unfinished = true ∧ t.submitTime < env.now - env.taskTimeoutMinutes * 60 := by
  simp [overdue]

end Picked

/-- The rows with these ids have failed, and no other row has changed. -/
structure Swept (ids : List Int) (db db' : TaskDb R) : Prop where
  others : ∀ x : Task R, x.id ∉ ids → (x ∈ db'.tasks.rows ↔ x ∈ db.tasks.rows)
  ended : ∀ x ∈ db'.tasks.rows, x.id ∈ ids → x.status = .failure

theorem Swept.mem_of_unfinished {ids : List Int} {db' : TaskDb R} (h : Swept ids db db')
    {x : Task R} (hx : x ∈ db'.tasks.rows) (hu : x.unfinished = true) :
    x.id ∉ ids ∧ x ∈ db.tasks.rows := by
  have hid : x.id ∉ ids := by
    intro hid
    have hf := h.ended x hx hid
    simp [Task.unfinished, hf, TaskStatus.done] at hu
  exact ⟨hid, (h.others x hid).mp hx⟩

/-! ### One task -/

section Priced

variable [Ratio R] (env : TaskSetting R) {t : Task R} {db : TaskDb R}

theorem exec_sweepTask (ht : t ∈ db.tasks.rows) :
    ((sweepTask env t).exec db).2 =
      if t.isLegacy then (updateWithStatus (timedOut env t) t.status db).2
      else ((refundTaskQuota env (timedOut env t)).exec
        (updateWithStatus (timedOut env t) t.status db).2).2 := by
  have hwon := (updateWithStatus_won (t := timedOut env t) ht rfl).1
  unfold sweepTask
  rw [exec_bind, exec_atomic]
  cases hl : t.isLegacy with
  | true =>
    rw [if_neg (by simp)]
    rfl
  | false =>
    rw [if_pos ⟨hwon, rfl⟩, exec_bind]
    rfl

/-- A sweep of a task that is refunded: the refund is tried unless there is
nothing to refund. -/
theorem sweepTask_refunds (ht : t ∈ db.tasks.rows) (hl : t.isLegacy = false) :
    ∃ accepted : Bool,
      ((sweepTask env t).exec db).2.attempts = db.attempts ++
        (if t.quota = 0 then [] else [⟨t.id, .refund t.quota, accepted⟩]) ∧
      Replaced { timedOut env t with quota := if accepted then 0 else t.quota } db
        ((sweepTask env t).exec db).2 := by
  obtain ⟨-, hrep⟩ := updateWithStatus_won (t := timedOut env t) ht rfl
  have hq : (timedOut env t).quota = t.quota := by simp [timedOut, hl]
  obtain ⟨hrep', accepted, hattempts, hres⟩ := refundTaskQuota_alone env hrep.mem
  rw [exec_sweepTask env ht, hl, if_neg (by simp)]
  refine ⟨accepted, ?_, ?_⟩
  · rw [hattempts, hq]
    rfl
  · rw [hres, hq] at hrep'
    exact hrep.trans hrep' rfl

theorem sweepTask_ends (ht : t ∈ db.tasks.rows) :
    ∃ quota, Replaced { timedOut env t with quota := quota } db
      ((sweepTask env t).exec db).2 := by
  cases hl : t.isLegacy with
  | true =>
    rw [exec_sweepTask env ht, hl, if_pos rfl]
    exact ⟨(timedOut env t).quota,
      (updateWithStatus_won (t := timedOut env t) ht rfl).2⟩
  | false =>
    obtain ⟨accepted, -, hrep⟩ := sweepTask_refunds env ht hl
    exact ⟨_, hrep⟩

end Priced

/-! ### All tasks that are picked -/

section Priced

variable [Ratio R] (env : TaskSetting R)

theorem sweepTasks_swept (tasks : List (Task R)) (db : TaskDb R) (hn : (tasks.map Task.id).Nodup)
    (hrows : ∀ t ∈ tasks, t ∈ db.tasks.rows) :
    Swept (tasks.map Task.id) db ((sweepTasks env tasks).exec db).2 := by
  induction tasks generalizing db with
  | nil => exact ⟨fun _ _ => Iff.rfl, fun x _ hx => by simp at hx⟩
  | cons t tasks ih =>
    rw [map_cons, nodup_cons] at hn
    obtain ⟨quota, hrep⟩ := sweepTask_ends env (hrows t mem_cons_self)
    have hne : ∀ t' ∈ tasks, t'.id ≠ t.id := by
      intro t' ht' he
      exact hn.1 (he ▸ mem_map_of_mem ht')
    have hs := ih ((sweepTask env t).exec db).2 hn.2 fun t' ht' =>
      (hrep.mem_of_ne (hne t' ht')).mpr (hrows t' (mem_cons_of_mem _ ht'))
    show Swept _ db ((sweepTask env t >>= fun _ => sweepTasks env tasks).exec db).2
    rw [exec_bind]
    refine ⟨fun x hx => ?_, fun x hx hid => ?_⟩
    · rw [map_cons, mem_cons, not_or] at hx
      rw [hs.others x hx.2, hrep.mem_of_ne hx.1]
    by_cases hin : x.id ∈ tasks.map Task.id
    · exact hs.ended x hx hin
    have hxt : x.id = t.id := by
      rw [map_cons, mem_cons] at hid
      exact hid.resolve_right hin
    rw [hrep.eq_of_id ((hs.others x hin).mp hx) hxt]
    rfl

theorem exec_sweepTimedOutTasks (db : TaskDb R) :
    (sweepTimedOutTasks env).exec db = (sweepTasks env (sweptTasks env db)).exec db := by
  unfold sweepTimedOutTasks sweptTasks
  split
  · rfl
  · rw [exec_bind]
    rfl

/-- **A sweep on its own** ends the tasks that it picks and changes no other row. -/
theorem sweep_swept (db : TaskDb R) :
    Swept ((sweptTasks env db).map Task.id) db ((sweepTimedOutTasks env).exec db).2 := by
  rw [exec_sweepTimedOutTasks]
  exact sweepTasks_swept env _ db (nodup_sweptTasks env db)
    (fun t ht => (mem_of_sweptTasks env ht).1)

/-! ### Sweep after sweep -/

/-- A sweep that has something to do leaves less to do. -/
theorem overdue_sweep_lt (htime : 0 < env.taskTimeoutMinutes) (hne : overdue env db ≠ []) :
    (overdue env ((sweepTimedOutTasks env).exec db).2).length < (overdue env db).length := by
  have hs := sweep_swept env db
  have hpick : ∃ t, t ∈ sweptTasks env db ∧ t ∈ overdue env db := by
    have hsort : (overdue env db).insertionSort submittedBefore ≠ [] := by
      intro h
      rw [← length_eq_zero_iff, length_insertionSort, length_eq_zero_iff] at h
      exact hne h
    obtain ⟨t, l, hl⟩ := exists_cons_of_ne_nil hsort
    have ht : t ∈ overdue env db := by
      rw [← mem_insertionSort submittedBefore, hl]
      exact mem_cons_self
    refine ⟨t, ?_, ht⟩
    rw [sweptTasks, if_neg (by omega)]
    show t ∈ ((overdue env db).insertionSort submittedBefore).take 100
    rw [hl]
    exact mem_cons_self
  obtain ⟨t, hswept, hover⟩ := hpick
  have hgone : t ∉ overdue env ((sweepTimedOutTasks env).exec db).2 := by
    intro h
    obtain ⟨hrow, hu, -⟩ := (mem_overdue env).mp h
    exact (hs.mem_of_unfinished hrow hu).1 (mem_map_of_mem hswept)
  have hsub : t :: overdue env ((sweepTimedOutTasks env).exec db).2 ⊆ overdue env db := by
    intro x hx
    rcases mem_cons.mp hx with rfl | hx
    · exact hover
    · obtain ⟨hrow, hu, hlt⟩ := (mem_overdue env).mp hx
      exact (mem_overdue env).mpr ⟨(hs.mem_of_unfinished hrow hu).2, hu, hlt⟩
  have hnodup : (overdue env ((sweepTimedOutTasks env).exec db).2).Nodup :=
    (Nodup.of_map Task.id (Table.nodup _)).filter _
  have hle := (subperm_of_subset (nodup_cons.mpr ⟨hgone, hnodup⟩) hsub).length_le
  rw [length_cons] at hle
  omega

/-- The row of `t` has not changed, or the task has ended. -/
def KeptOrEnded (t : Task R) (db : TaskDb R) : Prop :=
  ∀ r ∈ db.tasks.rows, r.id = t.id → r = t ∨ r.status.done = true

theorem KeptOrEnded.sweep (h : KeptOrEnded t db) :
    KeptOrEnded t ((sweepTimedOutTasks env).exec db).2 := by
  have hs := sweep_swept env db
  intro r hr hid
  by_cases hin : r.id ∈ (sweptTasks env db).map Task.id
  · rw [hs.ended r hr hin]
    exact .inr rfl
  · exact h r ((hs.others r hin).mp hr) hid

/-- **Enough sweeps end every task that has timed out** and that the query finds. -/
theorem sweeps_end (htime : 0 < env.taskTimeoutMinutes) (hu : t.unfinished = true)
    (hover : t.submitTime < env.now - env.taskTimeoutMinutes * 60) (ht : KeptOrEnded t db) :
    ∃ n, ∀ r ∈ (Pool.execs TaskCall.prog (List.replicate n (.sweep env)) db).tasks.rows,
      r.id = t.id → r.status.done = true := by
  induction hk : (overdue env db).length using Nat.strong_induction_on generalizing db with
  | _ k ih =>
    by_cases hne : overdue env db = []
    · refine ⟨0, fun r hr hid => ?_⟩
      rcases ht r hr hid with rfl | hdone
      · have hmem : r ∈ overdue env db := (mem_overdue env).mpr ⟨hr, hu, hover⟩
        rw [hne] at hmem
        cases hmem
      · exact hdone
    · have hlt := overdue_sweep_lt env htime hne
      obtain ⟨n, hn⟩ := ih _ (hk ▸ hlt) (ht.sweep env) rfl
      exact ⟨n + 1, hn⟩

end Priced

end UnifyConsole.Async
