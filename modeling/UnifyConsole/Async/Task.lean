import UnifyConsole.Billing.Funding
import Mathlib.Data.List.Sort

/-!
# Task rows

`model/task.go`: an asynchronous task is one row, and everything that works on it
first reads rows and later writes one back.  `updateWithStatus` writes a whole
row, guarded by the status it was read with; `updateQuota` writes one column by
primary key; `taskBulkUpdateByID` writes some columns of many rows with no guard.

A status is a string that an upstream can choose, so besides the known ones it
may be anything.
-/

namespace UnifyConsole.Async

open Lib Credit
open Billing (BillingSource)
open Table List

variable {R : Type}

/-! ### Statuses -/

inductive TaskStatus where
  | notStart
  | submitted
  | queued
  | inProgress
  | failure
  | success
  | other (name : String)
deriving DecidableEq

/-- `model.TaskStatus(name)`. -/
def TaskStatus.ofString (name : String) : TaskStatus :=
  if name = "NOT_START" then .notStart
  else if name = "SUBMITTED" then .submitted
  else if name = "QUEUED" then .queued
  else if name = "IN_PROGRESS" then .inProgress
  else if name = "FAILURE" then .failure
  else if name = "SUCCESS" then .success
  else .other name

/-- `SUCCESS` or `FAILURE`. -/
def TaskStatus.done (s : TaskStatus) : Bool := decide (s = .success ∨ s = .failure)

inductive TaskPlatform where
  | suno
  | midjourney
  | other (name : String)
deriving DecidableEq

/-! ### Rows -/

structure TaskBillingContext (R : Type) where
  priceUnit : String
  groupRatio : R
  modelRatio : R
  otherRatios : List (String × R)
  originModelName : String
  perCallBilling : Bool

structure TaskPrivateData (R : Type) where
  upstreamTaskId : String
  resultUrl : String
  billingSource : Option BillingSource
  subscriptionId : Int
  creditReservationId : Int
  tokenId : Int
  billingContext : Option (TaskBillingContext R)

structure Task (R : Type) where
  id : Int
  taskId : String
  platform : TaskPlatform
  userId : Int
  group : String
  channelId : Int
  quota : Int
  status : TaskStatus
  failReason : String
  submitTime : Int
  startTime : Int
  finishTime : Int
  progress : String
  /-- `Properties.OriginModelName`. -/
  originModelName : String
  privateData : TaskPrivateData R
  data : String

def taskRefundLegacyCutoff : Int := 1771718400

namespace Task

def getUpstreamTaskId (t : Task R) : String :=
  if t.privateData.upstreamTaskId ≠ "" then t.privateData.upstreamTaskId else t.taskId

def isLegacy (t : Task R) : Bool :=
  decide (0 < t.submitTime ∧ t.submitTime < taskRefundLegacyCutoff)

def unfinished (t : Task R) : Bool := decide (t.progress ≠ "100%") && !t.status.done

theorem done_of_unfinished {t : Task R} (h : t.unfinished = true) : t.status.done = false := by
  rw [unfinished, Bool.and_eq_true, Bool.not_eq_true'] at h
  exact h.2

end Task

/-- What a row says its task is paid from. -/
structure Payer where
  userId : Int
  billingSource : Option BillingSource
  subscriptionId : Int
  creditReservationId : Int

def Task.payer (t : Task R) : Payer where
  userId := t.userId
  billingSource := t.privateData.billingSource
  subscriptionId := t.privateData.subscriptionId
  creditReservationId := t.privateData.creditReservationId

/-- What a task is known by upstream, and what it was charged to whom. -/
structure TaskTerms where
  platform : TaskPlatform
  upstreamTaskId : String
  quota : Int
  payer : Payer

def Task.terms (t : Task R) : TaskTerms := ⟨t.platform, t.getUpstreamTaskId, t.quota, t.payer⟩

structure TaskSnapshot where
  status : TaskStatus
  progress : String
  startTime : Int
  finishTime : Int
  failReason : String
  resultUrl : String
  data : String
deriving DecidableEq

def Task.snapshot (t : Task R) : TaskSnapshot where
  status := t.status
  progress := t.progress
  startTime := t.startTime
  finishTime := t.finishTime
  failReason := t.failReason
  resultUrl := t.privateData.resultUrl
  data := t.data

/-! ### The database -/

structure UserSubscription where
  id : Int
  amountTotal : Int
  amountUsed : Int
deriving DecidableEq

/-- Why the funding of a task is adjusted. -/
inductive Adjustment where
  | refund (quota : Int)
  | recalculate (actualQuota preConsumedQuota : Int)
deriving DecidableEq

def Adjustment.delta : Adjustment → Int
  | .refund quota => -quota
  | .recalculate actualQuota preConsumedQuota => actualQuota - preConsumedQuota

structure Attempt where
  taskId : Int
  adjustment : Adjustment
  accepted : Bool

/-- The task rows, what tasks are paid from, and the adjustments that were tried. -/
structure TaskDb (R : Type) where
  tasks : Table (Task.id (R := R))
  credit : CreditDb R
  subscriptions : Table UserSubscription.id
  attempts : List Attempt

namespace TaskDb

/-- The order `ORDER BY submit_time` puts rows in. -/
def submittedBefore (t t' : Task R) : Prop := t.submitTime ≤ t'.submitTime

instance : DecidableRel (submittedBefore (R := R)) := fun _ _ => inferInstanceAs (Decidable (_ ≤ _))

/-- The order `ORDER BY id` puts rows in. -/
def idBefore (t t' : Task R) : Prop := t.id ≤ t'.id

instance : DecidableRel (idBefore (R := R)) := fun _ _ => inferInstanceAs (Decidable (_ ≤ _))

def getTimedOutUnfinishedTasks (db : TaskDb R) (cutoff : Int) (limit : Nat) : List (Task R) :=
  ((db.tasks.rows.filter fun t => t.unfinished && decide (t.submitTime < cutoff)).insertionSort
    submittedBefore).take limit

def getAllUnFinishSyncTasks (db : TaskDb R) (limit : Nat) : List (Task R) :=
  ((db.tasks.rows.filter Task.unfinished).insertionSort idBefore).take limit

/-- Whether the row was written. -/
def updateWithStatus (t : Task R) (fromStatus : TaskStatus) (db : TaskDb R) : Bool × TaskDb R :=
  let p := fun (r : Task R) => decide (r.id = t.id) && decide (r.status = fromStatus)
  (decide (0 < db.tasks.matched p),
    { db with tasks := db.tasks.update p (fun r => { t with id := r.id }) (fun _ => rfl) })

def updateQuota (t : Task R) (db : TaskDb R) : TaskDb R :=
  { db with
    tasks := db.tasks.update (fun r => decide (r.id = t.id)) (fun r => { r with quota := t.quota })
      (fun _ => rfl) }

/-- `TaskBulkUpdateByID` with status `FAILURE`, progress `100%` and, if given, a fail reason. -/
def taskBulkUpdateByID (ids : List Int) (failReason : Option String) (db : TaskDb R) : TaskDb R :=
  { db with
    tasks := db.tasks.update (fun r => decide (r.id ∈ ids))
      (fun r => { r with
        status := .failure, progress := "100%", failReason := failReason.getD r.failReason })
      (fun _ => rfl) }

end TaskDb

/-! ### What the statements do -/

namespace TaskDb

variable {db : TaskDb R} {t x : Task R}

theorem mem_getTimedOutUnfinishedTasks {cutoff : Int} {limit : Nat}
    (h : t ∈ db.getTimedOutUnfinishedTasks cutoff limit) :
    t ∈ db.tasks.rows ∧ t.unfinished = true := by
  have hm := mem_of_mem_take h
  rw [mem_insertionSort, mem_filter, Bool.and_eq_true] at hm
  exact ⟨hm.1, hm.2.1⟩

theorem mem_getAllUnFinishSyncTasks {limit : Nat} (h : t ∈ db.getAllUnFinishSyncTasks limit) :
    t ∈ db.tasks.rows ∧ t.unfinished = true := by
  have hm := mem_of_mem_take h
  rw [mem_insertionSort, mem_filter] at hm
  exact hm

/-- What a query picks has every id once. -/
theorem nodup_picked (db : TaskDb R) (p : Task R → Bool) (r : Task R → Task R → Prop)
    [DecidableRel r] (limit : Nat) :
    ((((db.tasks.rows.filter p).insertionSort r).take limit).map Task.id).Nodup := by
  have hf : ((db.tasks.rows.filter p).map Task.id).Nodup :=
    db.tasks.nodup.sublist ((filter_sublist).map Task.id)
  have hs : (((db.tasks.rows.filter p).insertionSort r).map Task.id).Nodup :=
    (((perm_insertionSort r _).map Task.id).nodup_iff).mpr hf
  exact hs.sublist ((take_sublist limit _).map Task.id)

/-- The row with the id of `t` is `t` now, and no other row has changed. -/
def Replaced (t : Task R) (db db' : TaskDb R) : Prop :=
  ∀ x, x ∈ db'.tasks.rows ↔ x = t ∨ x ∈ db.tasks.rows ∧ x.id ≠ t.id

variable {db' : TaskDb R}

theorem Replaced.of_mem (ht : t ∈ db.tasks.rows) (h : db'.tasks = db.tasks) :
    Replaced t db db' := by
  intro y
  rw [h]
  constructor
  · intro hy
    by_cases he : y.id = t.id
    · exact .inl (db.tasks.eq_of_key_eq hy ht he)
    · exact .inr ⟨hy, he⟩
  · rintro (rfl | ⟨hy, -⟩)
    · exact ht
    · exact hy

theorem Replaced.mem (h : Replaced t db db') : t ∈ db'.tasks.rows :=
  (h t).mpr (.inl rfl)

theorem Replaced.eq_of_id (h : Replaced t db db') (hx : x ∈ db'.tasks.rows) (hid : x.id = t.id) :
    x = t := by
  rcases (h x).mp hx with rfl | ⟨-, hne⟩
  · rfl
  · exact absurd hid hne

theorem Replaced.mem_of_ne (h : Replaced t db db') (hne : x.id ≠ t.id) :
    x ∈ db'.tasks.rows ↔ x ∈ db.tasks.rows := by
  rw [h x]
  constructor
  · rintro (rfl | ⟨hx, -⟩)
    · exact absurd rfl hne
    · exact hx
  · exact fun hx => .inr ⟨hx, hne⟩

theorem Replaced.trans {t' : Task R} {db'' : TaskDb R} (h : Replaced t db db')
    (h' : Replaced t' db' db'') (hid : t'.id = t.id) : Replaced t' db db'' := by
  intro y
  rw [h' y]
  by_cases he : y.id = t.id
  · simp [hid, he]
  · rw [h.mem_of_ne he]

/-- **A guarded write** replaces the row with the task's id and the expected status, or does
nothing. -/
theorem updateWithStatus_cases (t : Task R) (fromStatus : TaskStatus) (db : TaskDb R) :
    (∃ r ∈ db.tasks.rows, r.id = t.id ∧ r.status = fromStatus ∧
      (updateWithStatus t fromStatus db).1 = true ∧
      Replaced t db (updateWithStatus t fromStatus db).2) ∨
    ((∀ r ∈ db.tasks.rows, r.id = t.id → r.status ≠ fromStatus) ∧
      updateWithStatus t fromStatus db = (false, db)) := by
  have hself : (∀ r ∈ db.tasks.rows, r.id = t.id → r.status ≠ fromStatus) →
      updateWithStatus t fromStatus db = (false, db) := by
    intro hno
    have hp : ∀ r ∈ db.tasks.rows,
        (decide (r.id = t.id) && decide (r.status = fromStatus)) = false := by
      intro r hr
      by_cases he : r.id = t.id
      · simp [hno r hr he]
      · simp [he]
    simp only [updateWithStatus, Table.matched_eq_zero_iff.mpr hp, update_eq_self hp]
    rfl
  by_cases hex : ∃ r ∈ db.tasks.rows, r.id = t.id ∧ r.status = fromStatus
  · obtain ⟨r, hr, hid, hs⟩ := hex
    refine .inl ⟨r, hr, hid, hs, ?_, fun x => ?_⟩
    · have hf : db.tasks.find? t.id = some r := Table.find?_eq_some_iff.mpr ⟨hr, hid⟩
      simp [updateWithStatus, matched_key, hf, hs]
    rw [updateWithStatus, mem_update]
    constructor
    · rintro ⟨y, hy, rfl⟩
      by_cases he : y.id = t.id
      · obtain rfl : y = r := db.tasks.eq_of_key_eq hy hr (he.trans hid.symm)
        simp [he, hs]
      · simp [he, hy]
    · rintro (rfl | ⟨hx, hne⟩)
      · exact ⟨r, hr, by simp [hid, hs]⟩
      · exact ⟨x, hx, by simp [hne]⟩
  · have hno : ∀ r ∈ db.tasks.rows, r.id = t.id → r.status ≠ fromStatus :=
      fun r hr hid hs => hex ⟨r, hr, hid, hs⟩
    exact .inr ⟨hno, hself hno⟩

/-- The task's row as it was read, written back, goes through. -/
theorem updateWithStatus_won {r : Task R} (hr : r ∈ db.tasks.rows) (hid : r.id = t.id) :
    (updateWithStatus t r.status db).1 = true ∧
      Replaced t db (updateWithStatus t r.status db).2 := by
  rcases updateWithStatus_cases t r.status db with ⟨-, -, -, -, hwon, hrep⟩ | ⟨hno, -⟩
  · exact ⟨hwon, hrep⟩
  · exact absurd rfl (hno r hr hid)

theorem mem_updateQuota :
    x ∈ (updateQuota t db).tasks.rows ↔
      ∃ r ∈ db.tasks.rows, x = if r.id = t.id then { r with quota := t.quota } else r := by
  rw [updateQuota, mem_update]
  simp only [decide_eq_true_eq]

theorem updateQuota_replaced {r : Task R} (hr : r ∈ db.tasks.rows) (hid : r.id = t.id) :
    Replaced { r with quota := t.quota } db (updateQuota t db) := by
  intro y
  rw [mem_updateQuota]
  constructor
  · rintro ⟨r', hr', rfl⟩
    by_cases he : r'.id = t.id
    · obtain rfl : r' = r := db.tasks.eq_of_key_eq hr' hr (he.trans hid.symm)
      simp [he]
    · rw [if_neg he]
      exact .inr ⟨hr', fun h => he (h.trans hid)⟩
  · rintro (rfl | ⟨hy, hne⟩)
    · exact ⟨r, hr, by rw [if_pos hid]⟩
    · exact ⟨y, hy, by rw [if_neg (fun h => hne (h.trans hid.symm))]⟩

theorem mem_taskBulkUpdateByID {ids : List Int} {failReason : Option String} :
    x ∈ (taskBulkUpdateByID ids failReason db).tasks.rows ↔
      ∃ r ∈ db.tasks.rows, x = if r.id ∈ ids then { r with
        status := .failure, progress := "100%", failReason := failReason.getD r.failReason }
        else r := by
  rw [taskBulkUpdateByID, mem_update]
  simp only [decide_eq_true_eq]

end TaskDb

end UnifyConsole.Async
