import UnifyConsole.Async.Task
import UnifyConsole.Lib.Prog

/-!
# The billing of tasks

`service/task_billing.go`: a task was paid when it was submitted, and `quota` is
what it was paid.  When it fails, the quota goes back to where it came from; when
it succeeds, it may be recalculated.  Either way the funding source is adjusted
first, then the token, and then the new quota is written to the row.

Every database call is one step.  The in-memory task is handed on as a value.
-/

namespace UnifyConsole.Async

open Lib Account Credit
open Prog TaskDb

variable {R : Type}

abbrev TaskProg (R α : Type) := Prog (TaskDb R) α

/-- The settings, the clock and the channels as a pass finds them. -/
structure TaskSetting (R : Type) where
  now : Int
  taskTimeoutMinutes : Int
  taskQueryLimit : Nat
  serverAddress : String
  /-- Whether `CacheGetChannel` finds a channel. -/
  cacheGetChannel : Int → Bool
  /-- Whether `GetTaskAdaptorFunc` finds an adaptor. -/
  getTaskAdaptor : TaskPlatform → Bool
  getModelRatio : String → Option R
  getGroupRatio : String → R
  getGroupGroupRatio : String → String → Option R
  isPositive : R → Bool
  otherRatioMultiplier : List (String × R) → R
  /-- `QuotaFromFloat` of tokens times model ratio times group ratio times the
  other ratios. -/
  quotaOfTokens : Int → R → R → R → Int

/-! ### Funding -/

def taskIsSubscription (t : Task R) : Bool :=
  decide (t.privateData.billingSource = some .subscription ∧ 0 < t.privateData.subscriptionId)

def taskIsPromotional (t : Task R) : Bool :=
  decide (t.privateData.billingSource = some .promotional ∧ 0 < t.privateData.creditReservationId)

/-- Usage is not driven below zero; `none` stands for an error. -/
def postConsumeUserSubscriptionDelta (subs : Table UserSubscription.id) (id delta : Int) :
    Option (Table UserSubscription.id) :=
  if id ≤ 0 then none
  else if delta = 0 then some subs
  else
    match subs.find? id with
    | none => none
    | some sub =>
      let newUsed := max (sub.amountUsed + delta) 0
      if 0 < sub.amountTotal ∧ sub.amountTotal < newUsed then none
      else some (subs.update (fun s => decide (s.id = id)) (fun s => { s with amountUsed := newUsed })
        (fun _ => rfl))

def taskAdjustTokenQuota (t : Task R) (delta : Int) (db : TaskDb R) : TaskDb R :=
  let tokenId := t.privateData.tokenId
  if tokenId ≤ 0 ∨ delta = 0 then db
  else
    match db.credit.store.tokens.find? tokenId with
    | none => db
    | some token =>
      if token.key = "" then db
      else
        match (if 0 < delta then decreaseTokenQuota tokenId delta
          else increaseTokenQuota tokenId (-delta)) db.credit.store with
        | .ok (_, s) => { db with credit := { db.credit with store := s } }
        | .error _ => db

section Priced

variable [Ratio R]

/-- The funding source after a charge of `delta`, if it takes it. -/
def chargeFunding (env : TaskSetting R) (t : Task R) (delta : Int) (db : TaskDb R) :
    Option (TaskDb R) :=
  if taskIsSubscription t then
    (postConsumeUserSubscriptionDelta db.subscriptions t.privateData.subscriptionId delta).map
      (fun subs => { db with subscriptions := subs })
  else if taskIsPromotional t then
    match (if delta < 0 ∧ -delta = t.quota
      then refundCreditPoolReservation t.privateData.creditReservationId
      else adjustSettledCreditPoolReservation t.privateData.creditReservationId delta env.now)
        db.credit with
    | .ok (_, credit) => some { db with credit := credit }
    | .error _ => none
  else
    match (if 0 < delta then decreaseUserQuota t.userId delta
      else increaseUserQuota t.userId (-delta)) db.credit.store with
    | .ok (_, s) => some { db with credit := { db.credit with store := s } }
    | .error _ => none

def taskAdjustFunding (env : TaskSetting R) (t : Task R) (a : Adjustment) (db : TaskDb R) :
    Bool × TaskDb R :=
  match chargeFunding env t a.delta db with
  | some db' => (true, { db' with attempts := db.attempts ++ [⟨t.id, a, true⟩] })
  | none => (false, { db with attempts := db.attempts ++ [⟨t.id, a, false⟩] })

/-! ### Refunding and recalculating -/

/-- Adjust the funding source and, if it takes that, the token and the row. -/
def adjustTask (env : TaskSetting R) (t : Task R) (a : Adjustment) (quota : Int) :
    TaskProg R (Task R) := do
  let accepted ← Prog.atomic (taskAdjustFunding env t a)
  if accepted then do
    Prog.atomic (fun db => ((), taskAdjustTokenQuota t a.delta db))
    Prog.atomic (fun db => ((), TaskDb.updateQuota { t with quota := quota } db))
    pure { t with quota := quota }
  else pure t

def refundTaskQuota (env : TaskSetting R) (t : Task R) : TaskProg R (Task R) :=
  if t.quota = 0 then pure t else adjustTask env t (.refund t.quota) 0

def recalculateTaskQuota (env : TaskSetting R) (t : Task R) (actualQuota : Int) :
    TaskProg R (Task R) :=
  if actualQuota ≤ 0 ∨ actualQuota - t.quota = 0 then pure t
  else adjustTask env t (.recalculate actualQuota t.quota) actualQuota

/-! ### Recalculating by tokens -/

def taskModelName (t : Task R) : String :=
  match t.privateData.billingContext with
  | some bc => if bc.originModelName ≠ "" then bc.originModelName else t.originModelName
  | none => t.originModelName

/-- The model and group ratio of the price snapshot, if it has both. -/
def snapshotRatios (env : TaskSetting R) (t : Task R) : Option (R × R) :=
  match t.privateData.billingContext with
  | some bc =>
    if env.isPositive bc.modelRatio && env.isPositive bc.groupRatio
    then some (bc.modelRatio, bc.groupRatio) else none
  | none => none

def taskGroup (t : Task R) : TaskProg R String :=
  if t.group ≠ "" then pure t.group
  else Prog.look fun db =>
    ((db.credit.store.users.find? t.userId).map fun u => u.group).getD ""

def currentRatios (env : TaskSetting R) (t : Task R) : TaskProg R (Option (R × R)) :=
  match env.getModelRatio (taskModelName t) with
  | none => pure none
  | some modelRatio =>
    if env.isPositive modelRatio then do
      let group ← taskGroup t
      if group = "" then pure none
      else pure (some (modelRatio,
        (env.getGroupGroupRatio group group).getD (env.getGroupRatio group)))
    else pure none

def taskRatios (env : TaskSetting R) (t : Task R) : TaskProg R (Option (R × R)) :=
  match snapshotRatios env t with
  | some ratios => pure (some ratios)
  | none => currentRatios env t

def recalculateTaskQuotaByTokens (env : TaskSetting R) (t : Task R) (totalTokens : Int) :
    TaskProg R (Task R) :=
  if totalTokens ≤ 0 then pure t
  else do
    match ← taskRatios env t with
    | none => pure t
    | some (modelRatio, groupRatio) =>
      let otherMultiplier := env.otherRatioMultiplier
        ((t.privateData.billingContext.map TaskBillingContext.otherRatios).getD [])
      recalculateTaskQuota env t
        (env.quotaOfTokens totalTokens modelRatio groupRatio otherMultiplier)

end Priced

/-! ### What the steps do to the rows and to the history -/

section Steps

variable {db db' : TaskDb R} {t : Task R}

theorem taskAdjustTokenQuota_eq (t : Task R) (delta : Int) (db : TaskDb R) :
    ∃ credit, taskAdjustTokenQuota t delta db = { db with credit := credit } := by
  unfold taskAdjustTokenQuota
  dsimp only
  split
  · exact ⟨db.credit, rfl⟩
  split
  · exact ⟨db.credit, rfl⟩
  split
  · exact ⟨db.credit, rfl⟩
  · split
    · exact ⟨_, rfl⟩
    · exact ⟨db.credit, rfl⟩

@[simp] theorem tasks_taskAdjustTokenQuota (t : Task R) (delta : Int) (db : TaskDb R) :
    (taskAdjustTokenQuota t delta db).tasks = db.tasks := by
  obtain ⟨credit, h⟩ := taskAdjustTokenQuota_eq t delta db
  rw [h]

@[simp] theorem attempts_taskAdjustTokenQuota (t : Task R) (delta : Int) (db : TaskDb R) :
    (taskAdjustTokenQuota t delta db).attempts = db.attempts := by
  obtain ⟨credit, h⟩ := taskAdjustTokenQuota_eq t delta db
  rw [h]

variable [Ratio R]

theorem tasks_chargeFunding {env : TaskSetting R} {delta : Int}
    (h : chargeFunding env t delta db = some db') : db'.tasks = db.tasks := by
  unfold chargeFunding at h
  split at h
  · obtain ⟨subs, -, rfl⟩ := Option.map_eq_some_iff.mp h
    rfl
  split at h
  · split at h
    · rw [← Option.some.inj h]
    · cases h
  · split at h
    · rw [← Option.some.inj h]
    · cases h

/-- An adjustment is recorded with its outcome, and no row changes. -/
theorem taskAdjustFunding_spec (env : TaskSetting R) (t : Task R) (a : Adjustment)
    (db : TaskDb R) :
    (taskAdjustFunding env t a db).2.tasks = db.tasks ∧
      (taskAdjustFunding env t a db).2.attempts =
        db.attempts ++ [⟨t.id, a, (taskAdjustFunding env t a db).1⟩] := by
  unfold taskAdjustFunding
  cases hc : chargeFunding env t a.delta db with
  | none => exact ⟨rfl, rfl⟩
  | some db' =>
    have htasks : db'.tasks = db.tasks := tasks_chargeFunding hc
    exact ⟨htasks, rfl⟩

theorem exec_adjustTask (env : TaskSetting R) (t : Task R) (a : Adjustment) (quota : Int)
    (db : TaskDb R) :
    (adjustTask env t a quota).exec db =
      if (taskAdjustFunding env t a db).1 then
        ({ t with quota := quota }, updateQuota { t with quota := quota }
          (taskAdjustTokenQuota t a.delta (taskAdjustFunding env t a db).2))
      else (t, (taskAdjustFunding env t a db).2) := by
  unfold adjustTask
  rw [exec_bind, exec_atomic]
  split <;> rfl

/-- **An adjustment on its own** is recorded, and changes the quota if it was taken. -/
theorem adjustTask_alone (env : TaskSetting R) (a : Adjustment) (quota : Int)
    (ht : t ∈ db.tasks.rows) :
    ∃ accepted : Bool,
      ((adjustTask env t a quota).exec db).2.attempts = db.attempts ++ [⟨t.id, a, accepted⟩] ∧
      ((adjustTask env t a quota).exec db).1 =
        { t with quota := if accepted then quota else t.quota } ∧
      Replaced ((adjustTask env t a quota).exec db).1 db
        ((adjustTask env t a quota).exec db).2 := by
  obtain ⟨htasks, hattempts⟩ := taskAdjustFunding_spec env t a db
  rw [exec_adjustTask]
  split
  · rename_i hacc
    rw [hacc] at hattempts
    refine ⟨true, ?_, rfl, ?_⟩
    · simpa [updateQuota] using hattempts
    have hmem : t ∈ (taskAdjustTokenQuota t a.delta
        (taskAdjustFunding env t a db).2).tasks.rows := by
      rw [tasks_taskAdjustTokenQuota, htasks]
      exact ht
    have hrep := updateQuota_replaced (t := { t with quota := quota }) hmem rfl
    exact (Replaced.of_mem ht (by simpa using htasks)).trans hrep rfl
  · rename_i hacc
    rw [Bool.not_eq_true] at hacc
    rw [hacc] at hattempts
    exact ⟨false, hattempts, rfl, Replaced.of_mem ht htasks⟩

/-- A refund on its own: nothing is tried when there is nothing to refund. -/
theorem refundTaskQuota_alone (env : TaskSetting R) (ht : t ∈ db.tasks.rows) :
    Replaced ((refundTaskQuota env t).exec db).1 db ((refundTaskQuota env t).exec db).2 ∧
      ∃ accepted : Bool,
        ((refundTaskQuota env t).exec db).2.attempts = db.attempts ++
          (if t.quota = 0 then [] else [⟨t.id, .refund t.quota, accepted⟩]) ∧
        ((refundTaskQuota env t).exec db).1 =
          { t with quota := if accepted then 0 else t.quota } := by
  unfold refundTaskQuota
  by_cases h0 : t.quota = 0
  · rw [if_pos h0]
    refine ⟨Replaced.of_mem ht rfl, false, by simp [h0], by simp⟩
  · rw [if_neg h0]
    obtain ⟨accepted, hattempts, hres, hrep⟩ := adjustTask_alone env (.refund t.quota) 0 ht
    exact ⟨hrep, accepted, by rw [hattempts, if_neg h0], hres⟩

end Steps

/-! ### What a recalculation can be -/

section Shape

variable {γ : Type} {G : γ → TaskDb R → γ → TaskDb R → Prop} {fin : γ → Task R → Prop}
  {env : TaskSetting R} {t : Task R} {g : γ}

theorem taskRatios_follows (hread : ∀ s, G g s g s) :
    Follows G (fun g' _ => g' = g) g (taskRatios env t) := by
  unfold taskRatios
  split
  · rfl
  unfold currentRatios
  split
  · rfl
  split
  · refine follows_bind ?_
    unfold taskGroup
    split
    · show Follows G _ g (if _ then _ else _)
      split <;> rfl
    · refine follows_look fun s => ⟨g, hread s, ?_⟩
      split <;> rfl
  · rfl

variable [Ratio R]

theorem refundTaskQuota_follows (hpure : t.quota = 0 → fin g t)
    (hadj : t.quota ≠ 0 → Follows G fin g (adjustTask env t (.refund t.quota) 0)) :
    Follows G fin g (refundTaskQuota env t) := by
  unfold refundTaskQuota
  split
  · rename_i h0
    exact hpure h0
  · rename_i h0
    exact hadj h0

theorem recalculateTaskQuota_follows (hpure : fin g t)
    (hadj : ∀ q, 0 < q → Follows G fin g (adjustTask env t (.recalculate q t.quota) q))
    (q : Int) : Follows G fin g (recalculateTaskQuota env t q) := by
  unfold recalculateTaskQuota
  split
  · exact hpure
  · rename_i hq
    exact hadj q (by omega)

theorem recalculateTaskQuotaByTokens_follows (hread : ∀ s, G g s g s) (hpure : fin g t)
    (hadj : ∀ q, 0 < q → Follows G fin g (adjustTask env t (.recalculate q t.quota) q))
    (totalTokens : Int) :
    Follows G fin g (recalculateTaskQuotaByTokens env t totalTokens) := by
  unfold recalculateTaskQuotaByTokens
  split
  · exact hpure
  refine follows_bind ((taskRatios_follows hread).mono ?_)
  rintro g' ratios rfl
  cases ratios with
  | none => exact hpure
  | some => exact recalculateTaskQuota_follows hpure hadj _

end Shape

end UnifyConsole.Async
