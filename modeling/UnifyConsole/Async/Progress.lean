import UnifyConsole.Async.Sweep

/-!
# Progress

Both queries for unfinished tasks ask for a status that is not final and for a
progress that is not `100%`.  A row whose status is not final and whose progress
is `100%` is found by neither: no pass will ask about it and no sweep will end it.

Two kinds of upstream answers make such a row.  A video answer may report a task
that is still running with progress `100%`, and the progress it reports is stored
as it is.  A Suno answer may mention a task again after an item that ended it, and
a status that is not final is then stored next to the progress of the end.  In
every interleaving of calls that get no such answers, every unfinished row is
found by both queries, and sweeps end it.
-/

namespace UnifyConsole.Async

open Lib Credit
open Prog Pool List Option Function

variable {R : Type}

/-! ### Rows that the queries find -/

/-- The queries find the task unless it has ended. -/
def Task.Pollable (t : Task R) : Prop := t.status.done = false → t.progress ≠ "100%"

variable {t : Task R}

theorem Task.Pollable.of_done (h : t.status.done = true) : t.Pollable := by
  intro hnd
  rw [h] at hnd
  cases hnd

theorem Task.Pollable.of_unfinished (h : t.unfinished = true) : t.Pollable := by
  intro _
  rw [unfinished, Bool.and_eq_true, decide_eq_true_eq] at h
  exact h.1

theorem Task.Pollable.unfinished (h : t.Pollable) (hnd : t.status.done = false) :
    t.unfinished = true := by
  simp [Task.unfinished, h hnd, hnd]

namespace TaskDb

variable {db db' : TaskDb R} {t : Task R}

def Pollable (db : TaskDb R) : Prop := ∀ t ∈ db.tasks.rows, t.Pollable

/-- A step after which the queries find what they should if they did before. -/
def KeepsPollable (db db' : TaskDb R) : Prop := db.Pollable → db'.Pollable

theorem KeepsPollable.of_tasks (h : db'.tasks = db.tasks) : KeepsPollable db db' := by
  intro hdb x hx
  rw [h] at hx
  exact hdb x hx

theorem keepsPollable_updateWithStatus (fromStatus : TaskStatus) (ht : t.Pollable) :
    KeepsPollable db (updateWithStatus t fromStatus db).2 := by
  intro hdb x hx
  rcases updateWithStatus_cases t fromStatus db with ⟨-, -, -, -, -, hrep⟩ | ⟨-, heq⟩
  · rcases (hrep x).mp hx with rfl | ⟨hx', -⟩
    · exact ht
    · exact hdb x hx'
  · rw [heq] at hx
    exact hdb x hx

theorem keepsPollable_updateQuota : KeepsPollable db (updateQuota t db) := by
  intro hdb x hx
  obtain ⟨r, hr, rfl⟩ := mem_updateQuota.mp hx
  split
  · exact hdb r hr
  · exact hdb r hr

theorem keepsPollable_taskBulkUpdateByID {ids : List Int} {failReason : Option String} :
    KeepsPollable db (taskBulkUpdateByID ids failReason db) := by
  intro hdb x hx
  obtain ⟨r, hr, rfl⟩ := mem_taskBulkUpdateByID.mp hx
  split
  · exact Task.Pollable.of_done rfl
  · exact hdb r hr

/-- Both queries find an unfinished row, if they may return enough rows. -/
theorem Pollable.selected (h : db.Pollable) (ht : t ∈ db.tasks.rows) (hnd : t.status.done = false) :
    t ∈ db.getAllUnFinishSyncTasks db.tasks.rows.length ∧
      ∀ cutoff, t.submitTime < cutoff →
        t ∈ db.getTimedOutUnfinishedTasks cutoff db.tasks.rows.length := by
  have hu := (h t ht).unfinished hnd
  refine ⟨?_, fun cutoff hlt => ?_⟩
  · rw [getAllUnFinishSyncTasks, take_of_length_le]
    · rw [mem_insertionSort, mem_filter]
      exact ⟨ht, hu⟩
    · rw [length_insertionSort]
      exact length_filter_le _ _
  rw [getTimedOutUnfinishedTasks, take_of_length_le]
  · rw [mem_insertionSort, mem_filter]
    exact ⟨ht, by simp [hu, hlt]⟩
  · rw [length_insertionSort]
    exact length_filter_le _ _

end TaskDb

open TaskDb (KeepsPollable)

/-! ### Answers -/

def SunoDataResponse.ends (item : SunoDataResponse) : Bool := item.outcome.any TaskStatus.done

def SunoDataResponse.reopens (item : SunoDataResponse) : Bool :=
  item.outcome.any fun s => !s.done

/-- No item takes a task back that an earlier one has ended. -/
def NeverReopened (items : List SunoDataResponse) : Prop :=
  items.Pairwise fun i j => i.taskId = j.taskId → i.ends = true → j.reopens = false

instance (items : List SunoDataResponse) : Decidable (NeverReopened items) :=
  inferInstanceAs (Decidable (List.Pairwise _ _))

/-- The answer does not report a task that is still running as complete. -/
def VideoReply.Honest (reply : VideoReply) : Prop :=
  TaskStatus.ofString reply.result.status ∈ [.submitted, .queued, .inProgress] →
    reply.result.progress ≠ "100%"

instance (reply : VideoReply) : Decidable reply.Honest := inferInstanceAs (Decidable (_ → _))

/-- The answers that a call gets leave no unfinished task with progress `100%`. -/
def TaskCall.Honest : TaskCall R → Prop
  | .sweep _ => True
  | .failNull _ _ => True
  | .suno _ _ reply => NeverReopened (reply.getD [])
  | .video _ _ _ replies => ∀ reply, some reply ∈ replies → reply.Honest
  | .pass _ input => (∀ channels, channels.Nodup → NeverReopened (input.sunoItems channels)) ∧
      ∀ platform c reply, some reply ∈ input.video platform c → reply.Honest

/-! ### In-memory tasks -/

variable {taskM : TaskMap R} {item : SunoDataResponse}

section Memory

variable {t : Task R}

/-- The in-memory tasks are fit to be written, and no item to come takes one back
that has ended. -/
structure Calm (items : List SunoDataResponse) (taskM : TaskMap R) : Prop where
  never : NeverReopened items
  pollable : ∀ u t, taskM u = some t → t.Pollable
  ended : ∀ u t, taskM u = some t → t.status.done = true →
    ∀ j ∈ items, j.taskId = u → j.reopens = false

variable {items : List SunoDataResponse}

theorem Calm.suffix {rest : List SunoDataResponse} (h : Calm (items ++ rest) taskM) :
    Calm rest taskM where
  never := (pairwise_append.mp h.never).2.1
  pollable := h.pollable
  ended := fun u t hu hd j hj => h.ended u t hu hd j (mem_append_right _ hj)

theorem pollable_sunoTask (ht : t.Pollable) (h : t.status.done = true → item.reopens = false) :
    (sunoTask t item).Pollable := by
  intro hnd
  rw [progress_sunoTask hnd]
  refine ht ?_
  by_contra hdone
  rw [Bool.not_eq_false] at hdone
  have hre := h hdone
  rw [status_sunoTask] at hnd
  cases ho : item.outcome with
  | none =>
    rw [ho, getD_none, hdone] at hnd
    cases hnd
  | some =>
    rw [ho, getD_some] at hnd
    simp [SunoDataResponse.reopens, ho, hnd] at hre

theorem done_of_sunoTask (h : (sunoTask t item).status.done = true) :
    t.status.done = true ∨ item.ends = true := by
  rw [status_sunoTask] at h
  cases ho : item.outcome with
  | none =>
    rw [ho, getD_none] at h
    exact .inl h
  | some =>
    rw [ho, getD_some] at h
    exact .inr (by simp [SunoDataResponse.ends, ho, h])

/-- An item that is handled leaves the in-memory tasks fit for the others. -/
theorem Calm.handled (h : Calm (item :: items) taskM) (ht : taskM item.taskId = some t)
    (quota : Int) :
    Calm items (Function.update taskM item.taskId
      (some { sunoTask t item with quota := quota })) where
  never := (pairwise_cons.mp h.never).2
  pollable := by
    intro u t' hu
    by_cases he : u = item.taskId
    · subst he
      rw [update_self] at hu
      obtain rfl := some.inj hu
      exact pollable_sunoTask (h.pollable _ t ht)
        (fun hd => h.ended _ t ht hd item mem_cons_self rfl)
    · rw [update_of_ne he] at hu
      exact h.pollable u t' hu
  ended := by
    intro u t' hu hd j hj hju
    by_cases he : u = item.taskId
    · subst he
      rw [update_self] at hu
      obtain rfl := some.inj hu
      rcases done_of_sunoTask hd with hdone | hends
      · exact h.ended _ t ht hdone j (mem_cons_of_mem _ hj) hju
      · exact (pairwise_cons.mp h.never).1 j hj hju.symm hends
    · rw [update_of_ne he] at hu
      exact h.ended u t' hu hd j (mem_cons_of_mem _ hj) hju

theorem calm_taskMap {tasks : List (Task R)} (hitems : NeverReopened items)
    (htasks : ∀ t ∈ tasks, t.unfinished = true) :
    Calm items (taskMap tasks) where
  never := hitems
  pollable := fun _ t hu => Task.Pollable.of_unfinished (htasks t (mem_of_taskMap hu).1)
  ended := by
    intro u t hu hd
    rw [Task.done_of_unfinished (htasks t (mem_of_taskMap hu).1)] at hd
    cases hd

/-- What is written for a running task has the progress of its status or of the answer. -/
theorem pollable_videoProgress {reply : VideoReply} {result : TaskInfo} {env : TaskSetting R}
    {now : Int} {t' : Task R}
    (hreply : reply.Honest) (hresult : reply.taskResult = some result)
    (hv : videoStatus env now t result = some t') : (videoProgress result t').Pollable := by
  have hhonest : TaskStatus.ofString result.status ∈ [.submitted, .queued, .inProgress] →
      result.progress ≠ "100%" := by
    unfold VideoReply.taskResult at hresult
    split at hresult
    · split at hresult
      · obtain rfl := some.inj hresult
        exact hreply
      · obtain rfl := some.inj hresult
        simp [failTaskInfo]
      split at hresult
      · cases hresult
      · obtain rfl := some.inj hresult
        simp [failTaskInfo]
    · obtain rfl := some.inj hresult
      exact hreply
  have hprogress : t'.status.done = false →
      TaskStatus.ofString result.status ∈ [.submitted, .queued, .inProgress] ∧
        t'.progress ≠ "100%" := by
    intro hnd
    unfold videoStatus at hv
    split at hv
    · rename_i hs
      obtain rfl := some.inj hv
      exact ⟨by simp [hs], show "10%" ≠ "100%" by decide⟩
    · rename_i hs
      obtain rfl := some.inj hv
      exact ⟨by simp [hs], show "20%" ≠ "100%" by decide⟩
    · rename_i hs
      obtain rfl := some.inj hv
      exact ⟨by simp [hs], show "30%" ≠ "100%" by decide⟩
    · obtain rfl := some.inj hv
      cases hnd
    · obtain rfl := some.inj hv
      cases hnd
    · cases hv
    · cases hv
  unfold videoProgress
  split
  · exact fun hnd => (hprogress hnd).2
  · exact fun hnd => hhonest (hprogress hnd).1

end Memory

section Priced

variable [Ratio R] {env : TaskSetting R} {t : Task R}

/-! ### Billing and sweeping -/

theorem adjustTask_keepsPollable (a : Adjustment) (quota : Int) :
    Yields KeepsPollable (fun t' => ∃ q, t' = { t with quota := q })
      (adjustTask env t a quota) := by
  refine yields_bind (Q := fun _ => True) (yields_atomic fun s => ?_) ?_
  · exact ⟨KeepsPollable.of_tasks (taskAdjustFunding_spec env t a s).1, trivial⟩
  intro accepted _
  split
  · refine yields_bind (Q := fun _ => True) (yields_atomic fun s => ?_) fun _ _ => ?_
    · exact ⟨KeepsPollable.of_tasks (tasks_taskAdjustTokenQuota t _ s), trivial⟩
    · refine yields_bind (Q := fun _ => True) (yields_atomic fun s => ?_) fun _ _ => ?_
      · exact ⟨TaskDb.keepsPollable_updateQuota, trivial⟩
      · exact yields_pure ⟨quota, rfl⟩
  · exact yields_pure ⟨t.quota, rfl⟩

theorem refundTaskQuota_keepsPollable :
    Yields KeepsPollable (fun t' => ∃ q, t' = { t with quota := q })
      (refundTaskQuota env t) :=
  refundTaskQuota_follows (fun _ => ⟨t.quota, rfl⟩) fun _ => adjustTask_keepsPollable _ _

theorem billVideoTask_keepsPollable (adjusted totalTokens : Int) :
    Yields KeepsPollable (fun _ => True) (billVideoTask env t adjusted totalTokens) :=
  billVideoTask_follows (fun _ h => h) trivial
    (fun _ _ => (adjustTask_keepsPollable _ _).mono fun _ _ _ => trivial)
    (fun _ _ _ => (adjustTask_keepsPollable _ _).mono fun _ _ _ => trivial) _ _

theorem sweepTimedOutTasks_keepsPollable :
    Within KeepsPollable (sweepTimedOutTasks env) := by
  have htask : ∀ t : Task R, Within KeepsPollable (sweepTask env t) := by
    intro t
    refine within_bind (within_atomic fun s => ?_) fun won => ?_
    · exact TaskDb.keepsPollable_updateWithStatus _ (Task.Pollable.of_done rfl)
    split
    · exact within_bind (refundTaskQuota_keepsPollable.mono fun _ _ _ => trivial)
        fun _ => within_pure _
    · exact within_pure _
  have htasks : ∀ tasks : List (Task R), Within KeepsPollable (sweepTasks env tasks) := by
    intro tasks
    induction tasks with
    | nil => exact within_pure _
    | cons t tasks ih => exact within_bind (htask t) fun _ => ih
  unfold sweepTimedOutTasks
  split
  · exact within_pure _
  · exact within_bind (within_look (fun _ h => h) _) htasks

/-! ### Suno -/

theorem updateSunoTask_keepsPollable (ht : (sunoTask t item).Pollable) :
    Yields KeepsPollable (fun t' => ∃ q, t' = { sunoTask t item with quota := q })
      (updateSunoTask env t item) := by
  refine yields_bind (Q := fun _ => True) (yields_atomic fun s => ?_) fun won _ => ?_
  · exact ⟨TaskDb.keepsPollable_updateWithStatus _ ht, trivial⟩
  · split
    · exact refundTaskQuota_keepsPollable
    · exact yields_pure ⟨(sunoTask t item).quota, rfl⟩

/-! ### Video -/

theorem writeVideoTask_keepsPollable {before : Task R} (ht : t.Pollable)
    (adjusted totalTokens : Int) :
    Yields KeepsPollable (fun _ => True)
      (writeVideoTask env before t adjusted totalTokens) := by
  have hwrite : Yields KeepsPollable (fun _ => True)
      (atomic (TaskDb.updateWithStatus t before.status)) :=
    yields_atomic fun _ => ⟨TaskDb.keepsPollable_updateWithStatus _ ht, trivial⟩
  unfold writeVideoTask
  split
  · refine yields_bind hwrite fun won _ => ?_
    split
    · exact billVideoTask_keepsPollable _ _
    · exact yields_pure trivial
  · split
    · exact yields_bind hwrite fun _ _ => billVideoTask_keepsPollable _ _
    · exact billVideoTask_keepsPollable _ _

theorem updateVideoTask_keepsPollable {reply : VideoReply} (h : reply.Honest) :
    Yields KeepsPollable (fun _ => True) (updateVideoTask env t reply) := by
  unfold updateVideoTask
  split
  · exact yields_pure trivial
  rename_i result hresult
  split
  · exact yields_pure trivial
  · rename_i t' hv
    exact writeVideoTask_keepsPollable (pollable_videoProgress h hresult hv) _ _

/-! ### Calls -/

def pollableLogic : PollLogic R where
  Does := Prog.Yields KeepsPollable
  Fit _ := True
  Read tasks := ∀ t ∈ tasks, t.unfinished = true
  Suno := Calm
  Video _ _ := True
  Items := NeverReopened
  Reply := VideoReply.Honest
  pure := yields_pure
  bind := yields_bind
  look h := yields_atomic fun s => ⟨fun hs => hs, h s trivial⟩
  bulk _ _ := yields_atomic fun _ => ⟨TaskDb.keepsPollable_taskBulkUpdateByID, trivial⟩
  sweep _ := sweepTimedOutTasks_keepsPollable
  read _ _ _ ht := (TaskDb.mem_getAllUnFinishSyncTasks ht).2
  platform h _ t ht := h t (mem_of_mem_filter ht)
  suno_start h hitems := calm_taskMap hitems h
  suno_skip h := Calm.suffix (show Calm ([_] ++ _) _ from h)
  suno_task h ht := by
    have hcalm := h.handled ht
    refine (updateSunoTask_keepsPollable ?_).mono ?_
    · exact (hcalm _).pollable _ _ (update_self ..)
    · rintro _ _ ⟨q, rfl⟩
      exact hcalm q
  video_start _ _ _ := trivial
  video_skip _ := trivial
  video_task _ _ h := updateVideoTask_keepsPollable h

/-- **Every step of a call** with honest answers keeps the queries complete. -/
theorem TaskCall.keepsPollable {c : TaskCall R} (h : c.Honest) :
    Within KeepsPollable c.prog := pollableLogic.prog (by cases c <;> exact h)

theorem pollable_of_reach {db : TaskDb R} (hdb : db.Pollable)
    {p : Pool (TaskCall R) (TaskDb R) Unit}
    (hrun : ReachIf TaskCall.prog (fun c _ => c.Honest) (Pool.start db) p) :
    p.state.Pollable := by
  have hprog : ∀ c : TaskCall R,
      c.prog.Within (fun s s' => c.Honest → KeepsPollable s s') := by
    intro c
    by_cases hc : c.Honest
    · exact (TaskCall.keepsPollable hc).mono fun _ _ hs _ => hs
    · exact follows_of_forall (fun _ _ hc' => absurd hc' hc) (fun _ => trivial) _
  exact reach_invariant hprog hrun hdb

/-- **No unfinished task is lost to the poller**, in any interleaving of calls whose answers are
honest: both queries find it, and once it is overdue sweeps end it. -/
theorem unfinished_task_is_polled {db : TaskDb R} (hdb : db.Pollable)
    {p : Pool (TaskCall R) (TaskDb R) Unit}
    (hrun : ReachIf TaskCall.prog (fun c _ => c.Honest) (Pool.start db) p) :
    ∀ t ∈ p.state.tasks.rows, t.status.done = false →
      t.progress ≠ "100%" ∧
      t ∈ p.state.getAllUnFinishSyncTasks p.state.tasks.rows.length ∧
      (∀ cutoff, t.submitTime < cutoff →
        t ∈ p.state.getTimedOutUnfinishedTasks cutoff p.state.tasks.rows.length) ∧
      ∀ env : TaskSetting R, 0 < env.taskTimeoutMinutes →
        t.submitTime < env.now - env.taskTimeoutMinutes * 60 →
        ∃ n, ∀ r ∈ (execs TaskCall.prog (List.replicate n (.sweep env)) p.state).tasks.rows,
          r.id = t.id → r.status.done = true := by
  have hp := pollable_of_reach hdb hrun
  intro t ht hnd
  obtain ⟨hall, htimed⟩ := hp.selected ht hnd
  refine ⟨hp t ht hnd, hall, htimed, fun env htime hover => ?_⟩
  refine sweeps_end env htime ((hp t ht).unfinished hnd) hover ?_
  exact fun r hr hid => .inl (p.state.tasks.eq_of_key_eq hr ht hid)

end Priced

def videoProgressCall (progress : String) : TaskCall ℚ :=
  .video (pollSetting [5]) "video" 5
    [some ⟨1800010000, ⟨"IN_PROGRESS", "", "", progress, 0⟩, "answer", none, 0⟩]

theorem pollDb_pollable : (pollDb (runningTask (.other "video") "v")).Pollable := by
  intro t ht
  obtain rfl := mem_singleton.mp ht
  exact fun _ => by decide

theorem unfinished_task_is_polled_half :
    ∃ p, ReachIf TaskCall.prog (fun c _ => c.Honest)
        (Pool.start (pollDb (runningTask (.other "video") "v"))) p ∧
      p.state.tasks.rows.map (fun t => (t.status, t.progress)) = [(.inProgress, "50%")] ∧
      ∀ t ∈ p.state.tasks.rows, t.status.done = false →
        t ∈ p.state.getAllUnFinishSyncTasks p.state.tasks.rows.length := by
  have hok : ∀ _ : TaskDb ℚ, (videoProgressCall "50%").Honest := by
    intro _ reply hr
    obtain rfl := some.inj (mem_singleton.mp hr)
    exact fun _ => by decide
  have hrun : ReachIf TaskCall.prog (fun c _ => c.Honest) (start _) _ :=
    reach_exec TaskCall.prog hok (pollDb (runningTask (.other "video") "v")) []
  exact ⟨_, hrun, by decide +kernel,
    fun t ht hnd => (unfinished_task_is_polled pollDb_pollable hrun t ht hnd).2.1⟩

/-- A running task that is reported with progress `100%` is lost to both queries. -/
theorem running_task_lost_at_full_progress :
    (pollDb (runningTask (.other "video") "v")).Pollable ∧
    ∃ p, Pool.Reach TaskCall.prog (Pool.start (pollDb (runningTask (.other "video") "v"))) p ∧
      p.state.tasks.rows.map (fun t => (t.status, t.progress)) = [(.inProgress, "100%")] ∧
      (p.state.getAllUnFinishSyncTasks 1000).length = 0 ∧
      (p.state.getTimedOutUnfinishedTasks 1900000000 1000).length = 0 := by
  have hrun : Reach TaskCall.prog (start _) _ :=
    reach_exec TaskCall.prog (c := videoProgressCall "100%") (fun _ => trivial)
      (pollDb (runningTask (.other "video") "v")) []
  exact ⟨pollDb_pollable, _, hrun, by decide +kernel, by decide +kernel, by decide +kernel⟩

end UnifyConsole.Async
