import UnifyConsole.Async.Polling
import UnifyConsole.Async.Source

/-!
# Who ends a task, and what that allows

Every call is described by the same few moves.  A guarded write may take a task
from a status that is not final to one that is; whoever makes that write has won
the task and may adjust its funding once, for the quota the task was submitted
with.  Everything else leaves open tasks as they were, or ends them without an
adjustment, and leaves every wallet as it was.

A call carries a `Note` of where it stands: it has won a task, it has adjusted
its funding, or neither.  What the moves rely on is that the tasks a call has read
still have the terms of their submission and that no two of them are one task in
memory.  A call that reads rows of which this is not true is adrift, and about
such a call nothing is said.
-/

namespace UnifyConsole.Async

open Lib Account Credit
open Prog List Option Function

variable {R : Type}

/-! ### Moves -/

inductive Note where
  | idle
  | won (id : Int)
  | billed (id : Int)
  | adrift
deriving DecidableEq

/-- Two open tasks of one video platform never have the same upstream id. -/
def TaskDb.Distinct (db : TaskDb R) : Prop :=
  ∀ t ∈ db.tasks.rows, ∀ t' ∈ db.tasks.rows, t.status.done = false → t'.status.done = false →
    ∀ name, t.platform = .other name → t'.platform = .other name →
      t.getUpstreamTaskId = t'.getUpstreamTaskId → t.getUpstreamTaskId ≠ "" → t = t'

open TaskDb

section Moves

variable (terms₀ : Int → TaskTerms)

/-- A task that has not ended has the terms of its submission. -/
def Task.Priced (t : Task R) : Prop := t.status.done = false → t.terms = terms₀ t.id

def TaskDb.Steady (db : TaskDb R) : Prop :=
  (∀ t ∈ db.tasks.rows, t.Priced terms₀) ∧ db.Distinct

def TaskDb.Open (i : Int) (db : TaskDb R) : Prop :=
  ∃ r ∈ db.tasks.rows, r.id = i ∧ r.status.done = false

/-- No task is reopened, and an open one keeps its terms or gets those of its
submission. -/
def KeepsOpen (db db' : TaskDb R) : Prop :=
  ∀ r' ∈ db'.tasks.rows, ∃ r ∈ db.tasks.rows, r.id = r'.id ∧
    (r.status.done = true → r'.status.done = true) ∧
    (r'.status.done = false → r'.terms = r.terms ∨ r'.terms = terms₀ r'.id)

/-- The adjustment is for the quota that the task was submitted with. -/
def Adjustment.Fair (i : Int) : Adjustment → Prop
  | .refund quota => quota = (terms₀ i).quota
  | .recalculate actualQuota preConsumedQuota =>
    0 < actualQuota ∧ preConsumedQuota = (terms₀ i).quota

/-- No adjustment is recorded and no wallet changes. -/
structure Unpaid (s s' : TaskDb R) : Prop where
  attempts : s'.attempts = s.attempts
  wallets : Shifted (fun _ => 0) s.credit.store s'.credit.store

/-- An adjustment for `t` is recorded, and its wallet is charged if it was taken. -/
structure Paid (t : Task R) (a : Adjustment) (accepted : Bool) (s s' : TaskDb R) : Prop where
  attempts : s'.attempts = s.attempts ++ [⟨t.id, a, accepted⟩]
  wallets : Shifted
    (fun w => if accepted = true ∧ s.fundingOf t = some (.wallet w) then -a.delta else 0)
    s.credit.store s'.credit.store

inductive TaskMove : Note → TaskDb R → Note → TaskDb R → Prop
  | adrift {s s' : TaskDb R} : TaskMove .adrift s .adrift s'
  | stray {g : Note} {s : TaskDb R} (h : ¬ s.Steady terms₀) : TaskMove g s .adrift s
  | quiet {g : Note} {s s' : TaskDb R} (htasks : s'.tasks = s.tasks) (hunpaid : Unpaid s s') :
      TaskMove g s g s'
  | write {g : Note} {s s' : TaskDb R} (h : KeepsOpen terms₀ s s') (hunpaid : Unpaid s s') :
      TaskMove g s .idle s'
  | win {g : Note} {s s' : TaskDb R} {i : Int} (h : KeepsOpen terms₀ s s') (hopen : s.Open i)
      (hended : ¬ s'.Open i) (hunpaid : Unpaid s s') : TaskMove g s (.won i) s'
  | pay {s s' : TaskDb R} {t : Task R} {a : Adjustment} {accepted : Bool}
      (hfair : a.Fair terms₀ t.id) (hpayer : t.payer = (terms₀ t.id).payer)
      (htasks : s'.tasks = s.tasks) (hpaid : Paid t a accepted s s') :
      TaskMove (.won t.id) s (if accepted then .billed t.id else .idle) s'
  | setQuota {s s' : TaskDb R} {i : Int}
      (h : ∀ r' ∈ s'.tasks.rows, ∃ r ∈ s.tasks.rows, r.id = r'.id ∧ r'.status = r.status ∧
        (r'.id ≠ i → r' = r))
      (hunpaid : Unpaid s s') : TaskMove (.billed i) s .idle s'

/-- The program makes only these moves and returns what `Q` allows, unless it has gone adrift. -/
def Allowed {α : Type} (Q : α → Prop) (p : TaskProg R α) : Prop :=
  ∀ g, Prog.Follows (TaskMove terms₀) (fun g' a => g' = .adrift ∨ Q a) g p

end Moves

theorem unpaid_of_tasks {s s' : TaskDb R} (hattempts : s'.attempts = s.attempts)
    (hcredit : s'.credit = s.credit) : Unpaid s s' :=
  ⟨hattempts, hcredit ▸ .refl _⟩

/-! ### Composing -/

section Rules

variable {terms₀ : Int → TaskTerms} {α β : Type} {Q : α → Prop} {Q' : β → Prop}

theorem follows_adrift (p : TaskProg R α) :
    Prog.Follows (TaskMove terms₀) (fun g' a => g' = .adrift ∨ Q a) .adrift p := by
  refine follows_of_forall ?_ ?_ p
  · exact fun _ _ => .adrift
  · exact fun _ => .inl rfl

theorem allowed_pure {a : α} (h : Q a) : Allowed terms₀ Q (pure a : TaskProg R α) :=
  fun _ => .inr h

theorem allowed_bind {p : TaskProg R α} {f : α → TaskProg R β} (hp : Allowed terms₀ Q p)
    (hf : ∀ a, Q a → Allowed terms₀ Q' (f a)) : Allowed terms₀ Q' (p >>= f) := by
  intro g
  refine follows_bind ((hp g).mono ?_)
  rintro g' a (rfl | ha)
  · exact follows_adrift _
  · exact hf a ha g'

theorem Allowed.mono {p : TaskProg R α} {Q₁ : α → Prop} (h : Allowed terms₀ Q p)
    (hQ : ∀ a, Q a → Q₁ a) : Allowed terms₀ Q₁ p :=
  fun g => (h g).mono fun _ a => Or.imp_right (hQ a)

/-- What is read is used only if the rows were fit to be read. -/
theorem allowed_look {f : TaskDb R → α} (h : ∀ s, s.Steady terms₀ → Q (f s)) :
    Allowed terms₀ Q (Prog.look f) := by
  intro g
  refine follows_look fun s => ?_
  by_cases hs : s.Steady terms₀
  · exact ⟨g, .quiet rfl (unpaid_of_tasks rfl rfl), .inr (h s hs)⟩
  · exact ⟨.adrift, .stray hs, .inl rfl⟩

theorem keepsOpen_of_replaced {t : Task R} {db db' : TaskDb R} (h : Replaced t db db')
    {r : Task R} (hr : r ∈ db.tasks.rows) (hid : r.id = t.id)
    (hdone : r.status.done = true → t.status.done = true) (ht : t.Priced terms₀) :
    KeepsOpen terms₀ db db' := by
  intro r' hr'
  rcases (h r').mp hr' with rfl | ⟨hr'', -⟩
  · exact ⟨r, hr, hid, hdone, fun hnd => .inr (ht hnd)⟩
  · exact ⟨r', hr'', rfl, fun hd => hd, fun _ => .inl rfl⟩

theorem keepsOpen_taskBulkUpdateByID (db : TaskDb R) (ids : List Int)
    (failReason : Option String) : KeepsOpen terms₀ db (db.taskBulkUpdateByID ids failReason) := by
  intro r' hr'
  obtain ⟨r, hr, rfl⟩ := mem_taskBulkUpdateByID.mp hr'
  by_cases hin : r.id ∈ ids
  · rw [if_pos hin]
    exact ⟨r, hr, rfl, fun _ => rfl, nofun⟩
  · rw [if_neg hin]
    exact ⟨r, hr, rfl, fun hd => hd, fun _ => .inl rfl⟩

theorem allowed_bulk (ids : List Int) (failReason : Option String) :
    Allowed (R := R) terms₀ (fun _ => True)
      (Prog.atomic fun db => ((), db.taskBulkUpdateByID ids failReason)) :=
  fun _ s => ⟨.idle, .write (keepsOpen_taskBulkUpdateByID s ids failReason)
    (unpaid_of_tasks rfl rfl), .inr trivial⟩

/-- **A guarded write** keeps ended tasks ended; one that ends an open task wins it. -/
theorem updateWithStatus_follows {t : Task R} {fromStatus : TaskStatus} {fin : Note → Bool → Prop}
    {g : Note} (hkeep : fromStatus.done = true → t.status.done = true) (ht : t.Priced terms₀)
    (hlost : fin g false)
    (hwon : fin (if fromStatus.done = false ∧ t.status.done = true then .won t.id else .idle)
      true) :
    Prog.Follows (TaskMove terms₀) fin g (Prog.atomic (updateWithStatus t fromStatus)) := by
  refine follows_atomic fun s => ?_
  rcases updateWithStatus_cases t fromStatus s with
    ⟨r, hr, hid, hs, hw, hrep⟩ | ⟨-, heq⟩
  · rw [hw]
    refine ⟨_, ?_, hwon⟩
    have hkeeps : KeepsOpen terms₀ s (updateWithStatus t fromStatus s).2 :=
      keepsOpen_of_replaced hrep hr hid (fun hd => hkeep (hs ▸ hd)) ht
    split
    · rename_i h
      refine .win hkeeps ⟨r, hr, hid, hs ▸ h.1⟩ ?_ (unpaid_of_tasks rfl rfl)
      rintro ⟨r', hr', hid', hnd⟩
      rw [hrep.eq_of_id hr' hid', h.2] at hnd
      cases hnd
    · exact .write hkeeps (unpaid_of_tasks rfl rfl)
  · rw [heq]
    exact ⟨g, .quiet rfl (unpaid_of_tasks rfl rfl), hlost⟩

end Rules

/-! ### Items that leave ended tasks alone -/

/-- After an item that ends a task, no item calls for another status. -/
def Final (items : List SunoDataResponse) : Prop :=
  items.Pairwise fun i j => i.taskId = j.taskId → i.outcome.any TaskStatus.done = true →
    j.outcome = none ∨ j.outcome = i.outcome

instance (items : List SunoDataResponse) : Decidable (Final items) :=
  inferInstanceAs (Decidable (List.Pairwise _ _))

/-- No item to come calls for another status of an in-memory task that has ended. -/
structure SunoReady (terms₀ : Int → TaskTerms) (items : List SunoDataResponse) (taskM : TaskMap R) :
    Prop where
  final : Final items
  priced : ∀ u t, taskM u = some t → t.Priced terms₀
  ended : ∀ u t, taskM u = some t → t.status.done = true →
    ∀ j ∈ items, j.taskId = u → j.outcome = none ∨ j.outcome = some t.status

namespace SunoReady

variable {terms₀ : Int → TaskTerms} {t : Task R} {item : SunoDataResponse}
  {items rest : List SunoDataResponse} {taskM : TaskMap R}

theorem suffix (h : SunoReady terms₀ (items ++ rest) taskM) : SunoReady terms₀ rest taskM where
  final := (pairwise_append.mp h.final).2.1
  priced := h.priced
  ended := fun u t hu hd j hj => h.ended u t hu hd j (mem_append_right _ hj)

/-- The item leaves a task that has ended as it is. -/
theorem status_eq (h : SunoReady terms₀ (item :: items) taskM) (ht : taskM item.taskId = some t)
    (hd : t.status.done = true) : (sunoTask t item).status = t.status := by
  rw [status_sunoTask]
  rcases h.ended _ t ht hd item mem_cons_self rfl with ho | ho
  · rw [ho, getD_none]
  · rw [ho, getD_some]

theorem handled (h : SunoReady terms₀ (item :: items) taskM) (ht : taskM item.taskId = some t)
    {t' : Task R} (hs : t'.status = (sunoTask t item).status) (hp : t'.Priced terms₀) :
    SunoReady terms₀ items (Function.update taskM item.taskId (some t')) where
  final := (pairwise_cons.mp h.final).2
  priced := by
    intro u t'' hu
    by_cases he : u = item.taskId
    · subst he
      rw [update_self] at hu
      obtain rfl := some.inj hu
      exact hp
    · rw [update_of_ne he] at hu
      exact h.priced u t'' hu
  ended := by
    intro u t'' hu hd j hj hju
    by_cases he : u = item.taskId
    · subst he
      rw [update_self] at hu
      obtain rfl := some.inj hu
      by_cases hdone : t.status.done = true
      · rw [hs, h.status_eq ht hdone]
        exact h.ended _ t ht hdone j (mem_cons_of_mem _ hj) hju
      have hout : item.outcome = some t'.status := by
        rw [hs, status_sunoTask] at hd ⊢
        cases ho : item.outcome with
        | none =>
          rw [ho, getD_none] at hd
          exact absurd hd hdone
        | some => rfl
      have hends : item.outcome.any TaskStatus.done = true := by
        rw [hout, any_some]
        exact hd
      rw [← hout]
      exact (pairwise_cons.mp h.final).1 j hj hju.symm hends
    · rw [update_of_ne he] at hu
      exact h.ended u t'' hu hd j (mem_cons_of_mem _ hj) hju

end SunoReady

/-- The in-memory tasks still to be asked about, each once, are as they were read. -/
structure VideoReady (terms₀ : Int → TaskTerms) (taskIds : List String) (taskM : TaskMap R) : Prop where
  nodup : taskIds.Nodup
  opened : ∀ u ∈ taskIds, ∀ t, taskM u = some t → t.status.done = false ∧ t.Priced terms₀

variable {taskIds : List String} {taskM : TaskMap R}

theorem VideoReady.suffix {terms₀ : Int → TaskTerms} {rest : List String}
    (h : VideoReady terms₀ (taskIds ++ rest) taskM) : VideoReady terms₀ rest taskM where
  nodup := (nodup_append.mp h.nodup).2.1
  opened := fun u hu => h.opened u (mem_append_right _ hu)

theorem VideoReady.handled {terms₀ : Int → TaskTerms} {taskId : String}
    (h : VideoReady terms₀ (taskId :: taskIds) taskM) (t : Task R) :
    VideoReady terms₀ taskIds (Function.update taskM taskId (some t)) where
  nodup := (nodup_cons.mp h.nodup).2
  opened := by
    intro u hu
    have hne : u ≠ taskId := fun he => (nodup_cons.mp h.nodup).1 (he ▸ hu)
    rw [update_of_ne hne]
    exact h.opened u (mem_cons_of_mem _ hu)

/-! ### Tasks that have been read -/

/-- Tasks as a query for unfinished tasks returns them from rows that are fit to be
read. -/
structure Readable (terms₀ : Int → TaskTerms) (tasks : List (Task R)) : Prop where
  nodup : tasks.Nodup
  opened : ∀ t ∈ tasks, t.status.done = false
  priced : ∀ t ∈ tasks, t.Priced terms₀
  distinct : ∀ t ∈ tasks, ∀ t' ∈ tasks, ∀ name, t.platform = .other name →
    t'.platform = .other name → t.getUpstreamTaskId = t'.getUpstreamTaskId →
    t.getUpstreamTaskId ≠ "" → t = t'

section Read

variable {terms₀ : Int → TaskTerms} {tasks : List (Task R)}

theorem readable_getAllUnFinishSyncTasks {db : TaskDb R} (h : db.Steady terms₀) (limit : Nat) :
    Readable terms₀ (db.getAllUnFinishSyncTasks limit) where
  nodup := Nodup.of_map Task.id (db.nodup_picked _ _ _)
  opened := fun _ ht => Task.done_of_unfinished (mem_getAllUnFinishSyncTasks ht).2
  priced := fun t ht => h.1 t (mem_getAllUnFinishSyncTasks ht).1
  distinct := by
    intro t ht t' ht'
    obtain ⟨hrow, hu⟩ := mem_getAllUnFinishSyncTasks ht
    obtain ⟨hrow', hu'⟩ := mem_getAllUnFinishSyncTasks ht'
    exact h.2 t hrow t' hrow' (Task.done_of_unfinished hu) (Task.done_of_unfinished hu')

theorem Readable.platform (h : Readable terms₀ tasks) (platform : TaskPlatform) :
    Readable terms₀ (platformTasks tasks platform) where
  nodup := h.nodup.filter _
  opened := fun t ht => h.opened t (mem_of_mem_filter ht)
  priced := fun t ht => h.priced t (mem_of_mem_filter ht)
  distinct := fun t ht t' ht' =>
    h.distinct t (mem_of_mem_filter ht) t' (mem_of_mem_filter ht')

theorem Readable.sunoReady (h : Readable terms₀ tasks) {items : List SunoDataResponse}
    (hitems : Final items) : SunoReady terms₀ items (taskMap tasks) where
  final := hitems
  priced := fun _ t hu => h.priced t (mem_of_taskMap hu).1
  ended := by
    intro u t hu hd
    rw [h.opened t (mem_of_taskMap hu).1] at hd
    cases hd

/-- A video platform asks about every in-memory task at most once. -/
theorem Readable.videoReady {name : String} (h : Readable terms₀ tasks)
    (hplatform : ∀ t ∈ tasks, t.platform = .other name) {channels : List Int}
    (hn : channels.Nodup) :
    VideoReady terms₀ (channels.flatMap (channelTaskIds tasks)) (taskMap tasks) where
  nodup := nodup_channelTaskIds h.nodup (fun t ht t' ht' =>
    h.distinct t ht t' ht' name (hplatform t ht) (hplatform t' ht')) hn
  opened := fun _ _ t hu =>
    ⟨h.opened t (mem_of_taskMap hu).1, h.priced t (mem_of_taskMap hu).1⟩

end Read

/-- No answer that the call gets calls for another status of a task that it has
ended. -/
def TaskCall.Final : TaskCall R → Prop
  | .suno _ _ reply => Async.Final (reply.getD [])
  | .pass _ input => ∀ channels, channels.Nodup → Async.Final (input.sunoItems channels)
  | _ => True

/-! ### Billing -/

section Priced

variable [Ratio R] {terms₀ : Int → TaskTerms} {env : TaskSetting R} {t : Task R}

theorem paid_taskAdjustFunding (env : TaskSetting R) (t : Task R) (a : Adjustment) (s : TaskDb R) :
    Paid t a (taskAdjustFunding env t a s).1 s (taskAdjustFunding env t a s).2 := by
  refine ⟨(taskAdjustFunding_spec env t a s).2, ?_⟩
  unfold taskAdjustFunding
  cases hc : chargeFunding env t a.delta s with
  | none => exact (Shifted.refl _).of_eq fun w => by simp
  | some s' => exact (chargeFunding_shifted hc).of_eq fun w => by simp

/-- Whoever has won a task may adjust its funding. -/
theorem adjustTask_follows {a : Adjustment} {fin : Note → Task R → Prop} (quota : Int)
    (hfair : a.Fair terms₀ t.id) (hpayer : t.payer = (terms₀ t.id).payer)
    (hfin : ∀ q, fin .idle { t with quota := q }) :
    Prog.Follows (TaskMove terms₀) fin (.won t.id) (adjustTask env t a quota) := by
  refine follows_bind (follows_atomic fun s => ?_)
  have htasks := (taskAdjustFunding_spec env t a s).1
  refine ⟨_, .pay hfair hpayer htasks (paid_taskAdjustFunding env t a s), ?_⟩
  cases (taskAdjustFunding env t a s).1 with
  | false => exact hfin t.quota
  | true =>
    refine follows_bind (follows_atomic fun s => ⟨.billed t.id, ?_, ?_⟩)
    · exact .quiet (tasks_taskAdjustTokenQuota t _ s)
        ⟨attempts_taskAdjustTokenQuota t _ s, shifted_taskAdjustTokenQuota t _ s⟩
    refine follows_bind (follows_atomic fun s => ⟨.idle, ?_, hfin quota⟩)
    refine .setQuota (fun r' hr' => ?_) (unpaid_of_tasks rfl rfl)
    obtain ⟨r, hr, rfl⟩ := mem_updateQuota.mp hr'
    by_cases he : r.id = t.id
    · simp only [he, if_true]
      exact ⟨r, hr, he, rfl, fun hne => absurd rfl hne⟩
    · simp only [he, if_false]
      exact ⟨r, hr, rfl, rfl, fun _ => rfl⟩

theorem refundTaskQuota_won {fin : Note → Task R → Prop} (ht : t.terms = terms₀ t.id)
    (hidle : ∀ q, fin .idle { t with quota := q }) (hwon : fin (.won t.id) t) :
    Prog.Follows (TaskMove terms₀) fin (.won t.id) (refundTaskQuota env t) :=
  refundTaskQuota_follows (fun _ => hwon) fun _ =>
    adjustTask_follows 0 (congrArg TaskTerms.quota ht) (congrArg TaskTerms.payer ht) hidle

/-! ### Sweeps -/

theorem sweepTask_allowed (hnd : t.status.done = false) (ht : t.Priced terms₀) :
    Allowed terms₀ (fun _ => True) (sweepTask env t) := by
  intro g
  refine follows_bind (updateWithStatus_follows (fun hd => ?_) (fun hd => ?_) ?_ ?_)
  · rw [hnd] at hd
    cases hd
  · cases hd
  · rw [if_neg (by simp)]
    exact .inr trivial
  rw [if_pos ⟨hnd, rfl⟩]
  split
  · rename_i hl
    have hterms : (timedOut env t).terms = terms₀ (timedOut env t).id := by
      simp only [timedOut, hl.2, Bool.false_eq_true]
      exact ht hnd
    exact follows_bind (refundTaskQuota_won hterms (fun _ => .inr trivial) (.inr trivial))
  · exact .inr trivial

theorem sweepTasks_allowed (tasks : List (Task R))
    (h : ∀ t ∈ tasks, t.status.done = false ∧ t.Priced terms₀) :
    Allowed terms₀ (fun _ => True) (sweepTasks env tasks) := by
  induction tasks with
  | nil => exact allowed_pure trivial
  | cons t tasks ih =>
    obtain ⟨hnd, ht⟩ := h t mem_cons_self
    exact allowed_bind (sweepTask_allowed hnd ht)
      fun _ _ => ih fun t' ht' => h t' (mem_cons_of_mem _ ht')

theorem sweepTimedOutTasks_allowed :
    Allowed terms₀ (fun _ => True) (sweepTimedOutTasks env) := by
  unfold sweepTimedOutTasks
  split
  · exact allowed_pure trivial
  refine allowed_bind (allowed_look fun s hs => ?_) sweepTasks_allowed
  intro t ht
  obtain ⟨hrow, hu⟩ := mem_getTimedOutUnfinishedTasks ht
  exact ⟨Task.done_of_unfinished hu, hs.1 t hrow⟩

/-! ### Suno -/

theorem updateSunoTask_allowed {item : SunoDataResponse} (ht : t.Priced terms₀)
    (hended : t.status.done = true → (sunoTask t item).status = t.status) :
    Allowed terms₀ (fun t' => t'.status = (sunoTask t item).status ∧ t'.Priced terms₀)
      (updateSunoTask env t item) := by
  have hkeep : t.status.done = true → (sunoTask t item).status.done = true := by
    intro hd
    rw [hended hd]
    exact hd
  have hpriced : (sunoTask t item).Priced terms₀ := by
    intro hnd
    refine ht ?_
    by_contra hd
    rw [Bool.not_eq_false] at hd
    rw [hkeep hd] at hnd
    cases hnd
  intro g
  refine follows_bind (updateWithStatus_follows hkeep hpriced ?_ ?_)
  · rw [if_neg (by simp)]
    exact .inr ⟨rfl, hpriced⟩
  by_cases hwin : t.status.done = false ∧ (sunoTask t item).status.done = true
  · rw [if_pos hwin]
    split
    · refine refundTaskQuota_won (show t.terms = _ from ht hwin.1)
        (fun q => .inr ⟨rfl, fun hnd => ?_⟩)
        (.inr ⟨rfl, hpriced⟩)
      rw [hwin.2] at hnd
      cases hnd
    · exact .inr ⟨rfl, hpriced⟩
  rw [if_neg hwin, if_neg]
  · exact .inr ⟨rfl, hpriced⟩
  -- A failure of a task that was open is a win, and an ended task keeps its status.
  rintro ⟨-, hf, hne⟩
  have hfail := (sunoIsFailure_iff t item).mp hf
  by_cases hd : t.status.done = true
  · exact hne ((hended hd).symm.trans hfail)
  · refine hwin ⟨by simpa using hd, ?_⟩
    rw [hfail]
    rfl

/-! ### Video -/

theorem writeVideoTask_allowed {before : Task R} (hnd : before.status.done = false)
    (ht : t.terms = terms₀ t.id) (adjusted totalTokens : Int) :
    Allowed terms₀ (fun _ => True) (writeVideoTask env before t adjusted totalTokens) := by
  have hq : t.quota = (terms₀ t.id).quota := congrArg TaskTerms.quota ht
  have hpayer : t.payer = (terms₀ t.id).payer := congrArg TaskTerms.payer ht
  have hkeep : before.status.done = true → t.status.done = true := by
    intro hd
    rw [hnd] at hd
    cases hd
  unfold writeVideoTask
  split
  · rename_i h
    intro g
    refine follows_bind (updateWithStatus_follows hkeep (fun _ => ht) (.inr trivial) ?_)
    rw [if_pos ⟨hnd, h.1⟩]
    exact billVideoTask_follows (fun _ => .quiet rfl (unpaid_of_tasks rfl rfl)) (.inr trivial)
      (fun _ _ => adjustTask_follows 0 hq hpayer fun _ => .inr trivial)
      (fun _ q hpos => adjustTask_follows q ⟨hpos, hq⟩ hpayer fun _ => .inr trivial) _ _
  rename_i h
  -- A task that was open has not ended, so there is nothing to bill.
  have hopen : t.status.done = false := by
    by_contra hd
    rw [Bool.not_eq_false] at hd
    refine h ⟨hd, fun he => ?_⟩
    rw [he, hd] at hnd
    cases hnd
  simp only [billVideoTask_of_open hopen]
  split
  · intro g
    exact follows_bind (updateWithStatus_follows hkeep (fun _ => ht) (.inr trivial)
      (.inr trivial))
  · exact allowed_pure trivial

theorem updateVideoTask_allowed (hnd : t.status.done = false) (ht : t.Priced terms₀)
    (reply : VideoReply) : Allowed terms₀ (fun _ => True) (updateVideoTask env t reply) := by
  unfold updateVideoTask
  split
  · exact allowed_pure trivial
  rename_i result _
  split
  · exact allowed_pure trivial
  rename_i t' hv
  obtain ⟨hid, hterms⟩ := videoStatus_same hv
  obtain ⟨hid', hterms'⟩ := videoProgress_same result t'
  refine writeVideoTask_allowed hnd ?_ _ _
  rw [hid', hterms', hid, hterms]
  exact ht hnd

/-! ### Calls -/

def moveLogic (terms₀ : Int → TaskTerms) : PollLogic R where
  Does := Allowed terms₀
  Fit := TaskDb.Steady terms₀
  Read := Readable terms₀
  Suno := SunoReady terms₀
  Video := VideoReady terms₀
  Items := Final
  Reply _ := True
  pure := allowed_pure
  bind := allowed_bind
  look := allowed_look
  bulk := allowed_bulk
  sweep _ := sweepTimedOutTasks_allowed
  read := readable_getAllUnFinishSyncTasks
  platform := Readable.platform
  suno_start h hitems := h.sunoReady hitems
  suno_skip h := SunoReady.suffix (show SunoReady _ ([_] ++ _) _ from h)
  suno_task h ht := by
    refine (updateSunoTask_allowed (h.priced _ _ ht) (h.status_eq ht)).mono ?_
    rintro t' ⟨hs, hp⟩
    exact h.handled ht hs hp
  video_start h hplatform hn := h.videoReady hplatform hn
  video_skip h := VideoReady.suffix (show VideoReady _ ([_] ++ _) _ from h)
  video_task h ht _ := by
    obtain ⟨hnd, hp⟩ := h.opened _ mem_cons_self _ ht
    exact (updateVideoTask_allowed hnd hp _).mono fun t' _ => h.handled t'

/-- **Every call makes only these moves.** -/
theorem TaskCall.allowed {c : TaskCall R} (h : c.Final) :
    Allowed terms₀ (fun _ => True) c.prog := by
  refine (moveLogic (R := R) terms₀).prog ?_
  cases c with
  | suno => exact h
  | pass => exact ⟨h, fun _ _ _ _ => trivial⟩
  | video => exact fun _ _ => trivial
  | sweep _ | failNull _ _ => trivial

end Priced

end UnifyConsole.Async
