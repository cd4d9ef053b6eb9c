import Mathlib
import UnifyConsole.Async.Billing

/-!
# Polling

`service/task_polling.go`.  A pass first fails the tasks that have timed out.
Then it reads the unfinished tasks, sorts them by platform and channel, asks each
channel's upstream about its tasks and writes what it hears.  The tasks of a
platform are kept in one map under their upstream ids for the length of the pass,
so an id that comes up twice is the same in-memory task twice.

Upstream answers are inputs.  The order in which a pass takes its platforms and
channels is an input too (the source ranges over maps, and starts a goroutine for
each video channel); a pass takes them one after the other.

`TaskCall` is everything that works on the rows.  `suno` and `video` are the
pollers of one channel, which run concurrently, and `pass` is a whole pass.
-/

namespace UnifyConsole.Async

open Lib Credit List

variable {R : Type}

/-! ### In-memory tasks -/

abbrev TaskMap (R : Type) := String → Option (Task R)

/-- The last task with an upstream id is the one that is kept. -/
def taskMap (tasks : List (Task R)) : TaskMap R := fun upstreamId =>
  if upstreamId = "" then none
  else tasks.reverse.find? fun t => decide (t.getUpstreamTaskId = upstreamId)

def nullTaskIds (tasks : List (Task R)) : List Int :=
  (tasks.filter fun t => decide (t.getUpstreamTaskId = "")).map Task.id

/-- `taskChannelM[channelId]`. -/
def channelTaskIds (tasks : List (Task R)) (channelId : Int) : List String :=
  (tasks.filter fun t =>
    decide (t.getUpstreamTaskId ≠ "") && decide (t.channelId = channelId)).map
    Task.getUpstreamTaskId

/-- The keys of `taskChannelM`. -/
def taskChannels (tasks : List (Task R)) : List Int :=
  ((tasks.filter fun t => decide (t.getUpstreamTaskId ≠ "")).map Task.channelId).dedup

def platformTasks (tasks : List (Task R)) (platform : TaskPlatform) : List (Task R) :=
  tasks.filter fun t => decide (t.platform = platform)

def failedIds (taskM : TaskMap R) (taskIds : List String) : List Int :=
  taskIds.filterMap fun upstreamId => (taskM upstreamId).map Task.id

section Priced

variable [Ratio R]

/-! ### Timeouts -/

def timeoutReason (env : TaskSetting R) : String :=
  "任务超时（" ++ toString env.taskTimeoutMinutes ++ "分钟）"

def legacyReason : String := "任务超时（旧系统遗留任务，不进行退款，请联系管理员）"

def timedOut (env : TaskSetting R) (t : Task R) : Task R :=
  { t with
    status := .failure
    progress := "100%"
    finishTime := env.now
    failReason := if t.isLegacy then legacyReason else timeoutReason env
    quota := if t.isLegacy then 0 else t.quota }

def sweepTask (env : TaskSetting R) (t : Task R) : TaskProg R Unit := do
  let won ← Prog.atomic (TaskDb.updateWithStatus (timedOut env t) t.status)
  if won = true ∧ t.isLegacy = false then do
    let _ ← refundTaskQuota env (timedOut env t)
    pure ()
  else pure ()

def sweepTasks (env : TaskSetting R) : List (Task R) → TaskProg R Unit
  | [] => pure ()
  | t :: tasks => do
    sweepTask env t
    sweepTasks env tasks

def sweepTimedOutTasks (env : TaskSetting R) : TaskProg R Unit :=
  if env.taskTimeoutMinutes ≤ 0 then pure ()
  else do
    let tasks ← Prog.look (fun db =>
      db.getTimedOutUnfinishedTasks (env.now - env.taskTimeoutMinutes * 60) 100)
    sweepTasks env tasks

/-! ### Suno -/

structure SunoDataResponse where
  taskId : String
  status : String
  failReason : String
  submitTime : Int
  startTime : Int
  finishTime : Int
  data : String

def taskNeedsUpdate (t : Task R) (item : SunoDataResponse) : Bool :=
  decide (t.submitTime ≠ item.submitTime) || decide (t.startTime ≠ item.startTime) ||
    decide (t.finishTime ≠ item.finishTime) ||
    decide (t.status ≠ TaskStatus.ofString item.status) ||
    decide (t.failReason ≠ item.failReason) || (t.status.done && decide (t.progress ≠ "100%")) ||
    !t.data.toList.isPerm item.data.toList

def sunoStatus (t : Task R) (item : SunoDataResponse) : TaskStatus :=
  if item.status ≠ "" then TaskStatus.ofString item.status else t.status

def sunoIsFailure (t : Task R) (item : SunoDataResponse) : Bool :=
  decide (item.failReason ≠ "" ∨ sunoStatus t item = .failure)

def sunoTask (t : Task R) (item : SunoDataResponse) : Task R :=
  { t with
    status := if sunoIsFailure t item then .failure else sunoStatus t item
    failReason := if item.failReason ≠ "" then item.failReason else t.failReason
    submitTime := if item.submitTime ≠ 0 then item.submitTime else t.submitTime
    startTime := if item.startTime ≠ 0 then item.startTime else t.startTime
    finishTime := if item.finishTime ≠ 0 then item.finishTime else t.finishTime
    progress := if sunoIsFailure t item = true ∨ item.status = "SUCCESS" then "100%" else t.progress
    data := item.data }

def updateSunoTask (env : TaskSetting R) (t : Task R) (item : SunoDataResponse) :
    TaskProg R (Task R) := do
  let won ← Prog.atomic (TaskDb.updateWithStatus (sunoTask t item) t.status)
  if won = true ∧ sunoIsFailure t item = true ∧ t.status ≠ .failure
  then refundTaskQuota env (sunoTask t item)
  else pure (sunoTask t item)

def updateSunoItems (env : TaskSetting R) :
    List SunoDataResponse → TaskMap R → TaskProg R (TaskMap R)
  | [], taskM => pure taskM
  | item :: items, taskM =>
    match taskM item.taskId with
    | none => updateSunoItems env items taskM
    | some t =>
      if taskNeedsUpdate t item then do
        let t' ← updateSunoTask env t item
        updateSunoItems env items (Function.update taskM item.taskId (some t'))
      else updateSunoItems env items taskM

/-- `reply` is `none` when there is no answer, or one that cannot be read or
reports an error. -/
def updateSunoTasks (env : TaskSetting R) (channelId : Int) (taskIds : List String)
    (reply : Option (List SunoDataResponse)) (taskM : TaskMap R) : TaskProg R (TaskMap R) :=
  if taskIds = [] then pure taskM
  else if env.cacheGetChannel channelId then
    if env.getTaskAdaptor .suno then updateSunoItems env (reply.getD []) taskM else pure taskM
  else do
    Prog.atomic (fun db => ((), db.taskBulkUpdateByID (failedIds taskM taskIds)
      (some ("获取渠道信息失败，请联系管理员，渠道ID：" ++ toString channelId))))
    pure taskM

/-! ### Video -/

structure TaskInfo where
  status : String
  reason : String
  url : String
  progress : String
  totalTokens : Int

def failTaskInfo (reason : String) : TaskInfo := ⟨"FAILURE", reason, "", "", 0⟩

structure VideoReply where
  now : Int
  result : TaskInfo
  /-- The response body, redacted. -/
  data : String
  /-- The body read as an error: `none` when it is none at all, and otherwise the
  code of an OpenAI error, if it has that form. -/
  errorResult : Option (Option String)
  /-- What `AdjustBillingOnComplete` makes of it. -/
  adjusted : Int

/-- The result that is acted on; `none` leaves the task for the next pass. -/
def VideoReply.taskResult (reply : VideoReply) : Option TaskInfo :=
  if reply.result.status = "" then
    match reply.errorResult with
    | none => some reply.result
    | some none => some (failTaskInfo "upstream returned unrecognized message")
    | some (some code) =>
      if code = "429" then none else some (failTaskInfo "upstream returned error")
  else some reply.result

def buildProxyUrl (env : TaskSetting R) (taskId : String) : String :=
  env.serverAddress ++ "/v1/videos/" ++ taskId ++ "/content"

def resultUrl (env : TaskSetting R) (t : Task R) (url : String) : String :=
  if url = "" ∨ "data:".toList.isPrefixOf url.toList then buildProxyUrl env t.taskId else url

/-- The task with the status of the result; `none` for a status that is not
known. -/
def videoStatus (env : TaskSetting R) (now : Int) (t : Task R) (result : TaskInfo) :
    Option (Task R) :=
  match TaskStatus.ofString result.status with
  | .submitted => some { t with status := .submitted, progress := "10%" }
  | .queued => some { t with status := .queued, progress := "20%" }
  | .inProgress => some { t with
      status := .inProgress, progress := "30%"
      startTime := if t.startTime = 0 then now else t.startTime }
  | .success => some { t with
      status := .success, progress := "100%"
      finishTime := if t.finishTime = 0 then now else t.finishTime
      privateData := { t.privateData with resultUrl := resultUrl env t result.url } }
  | .failure => some { t with
      status := .failure, progress := "100%", failReason := result.reason
      finishTime := if t.finishTime = 0 then now else t.finishTime }
  | .notStart => none
  | .other _ => none

/-- The upstream's progress replaces that of the status, except for a failure. -/
def videoProgress (result : TaskInfo) (t : Task R) : Task R :=
  if t.status = .failure ∨ result.progress = "" then t else { t with progress := result.progress }

def settleTaskBillingOnComplete (env : TaskSetting R) (t : Task R) (adjusted totalTokens : Int) :
    TaskProg R (Task R) :=
  let perCall := (t.privateData.billingContext.map TaskBillingContext.perCallBilling).getD false
  let priceUnit := (t.privateData.billingContext.map TaskBillingContext.priceUnit).getD ""
  if perCall = true ∧ priceUnit ≠ "second" then pure t
  else if 0 < adjusted then recalculateTaskQuota env t adjusted
  else if perCall then pure t
  else recalculateTaskQuotaByTokens env t totalTokens

/-- The billing at the end of `updateVideoSingleTask`. -/
def billVideoTask (env : TaskSetting R) (t : Task R) (adjusted totalTokens : Int) :
    TaskProg R (Task R) :=
  match t.status with
  | .success => settleTaskBillingOnComplete env t adjusted totalTokens
  | .failure => refundTaskQuota env t
  | _ => pure t

/-- Write the task and bill it, unless a change to a final status did not go through. -/
def writeVideoTask (env : TaskSetting R) (before t : Task R) (adjusted totalTokens : Int) :
    TaskProg R (Task R) :=
  if t.status.done = true ∧ before.status ≠ t.status then do
    let won ← Prog.atomic (TaskDb.updateWithStatus t before.status)
    if won then billVideoTask env t adjusted totalTokens else pure t
  else if before.snapshot ≠ t.snapshot then do
    let _ ← Prog.atomic (TaskDb.updateWithStatus t before.status)
    billVideoTask env t adjusted totalTokens
  else billVideoTask env t adjusted totalTokens

/-- A result whose status is not known still changes the in-memory task. -/
def updateVideoTask (env : TaskSetting R) (t : Task R) (reply : VideoReply) :
    TaskProg R (Task R) :=
  match reply.taskResult with
  | none => pure { t with data := reply.data }
  | some result =>
    match videoStatus env reply.now { t with data := reply.data } result with
    | none => pure { t with data := reply.data, status := TaskStatus.ofString result.status }
    | some t' => writeVideoTask env t (videoProgress result t') reply.adjusted result.totalTokens

/-- `reply` is `none` when there is no answer or one that cannot be parsed. -/
def updateVideoSingleTask (env : TaskSetting R) (taskId : String) (reply : Option VideoReply)
    (taskM : TaskMap R) : TaskProg R (TaskMap R) :=
  match taskM taskId, reply with
  | some t, some reply => do
    let t' ← updateVideoTask env t reply
    pure (Function.update taskM taskId (some t'))
  | _, _ => pure taskM

/-- The answers come in the order of the ids; where they run out there is none. -/
def updateVideoList (env : TaskSetting R) :
    List String → List (Option VideoReply) → TaskMap R → TaskProg R (TaskMap R)
  | [], _, taskM => pure taskM
  | taskId :: taskIds, replies, taskM => do
    let taskM ← updateVideoSingleTask env taskId (replies.headD none) taskM
    updateVideoList env taskIds replies.tail taskM

def updateVideoTasks (env : TaskSetting R) (platform : TaskPlatform) (channelId : Int)
    (taskIds : List String) (replies : List (Option VideoReply)) (taskM : TaskMap R) :
    TaskProg R (TaskMap R) :=
  if taskIds = [] then pure taskM
  else if env.cacheGetChannel channelId then
    if env.getTaskAdaptor platform then updateVideoList env taskIds replies taskM else pure taskM
  else do
    Prog.atomic (fun db => ((), db.taskBulkUpdateByID (failedIds taskM taskIds)
      (some ("Failed to get channel info, channel ID: " ++ toString channelId))))
    pure taskM

/-! ### A pass -/

/-- What a pass hears, and the order in which it asks. -/
structure PollInput where
  platformOrder : List TaskPlatform → List TaskPlatform
  platformOrder_perm : ∀ l, (platformOrder l).Perm l
  channelOrder : List Int → List Int
  channelOrder_perm : ∀ l, (channelOrder l).Perm l
  suno : Int → Option (List SunoDataResponse)
  video : TaskPlatform → Int → List (Option VideoReply)

def PollInput.sunoItems (input : PollInput) (channels : List Int) : List SunoDataResponse :=
  channels.flatMap fun c => (input.suno c).getD []

def updateChannels (update : Int → TaskMap R → TaskProg R (TaskMap R)) :
    List Int → TaskMap R → TaskProg R Unit
  | [], _ => pure ()
  | channelId :: channels, taskM => do
    let taskM ← update channelId taskM
    updateChannels update channels taskM

def dispatchPlatformUpdate (env : TaskSetting R) (input : PollInput) (platform : TaskPlatform)
    (tasks : List (Task R)) : TaskProg R Unit :=
  let channels := input.channelOrder (taskChannels tasks)
  match platform with
  | .midjourney => pure ()
  | .suno => updateChannels (fun c => updateSunoTasks env c (channelTaskIds tasks c) (input.suno c))
      channels (taskMap tasks)
  | .other name => updateChannels
      (fun c => updateVideoTasks env (.other name) c (channelTaskIds tasks c)
        (input.video (.other name) c)) channels (taskMap tasks)

def failNullTasks (tasks : List (Task R)) : TaskProg R Unit :=
  Prog.when (nullTaskIds tasks ≠ [])
    (Prog.atomic fun db => ((), db.taskBulkUpdateByID (nullTaskIds tasks) none))

def pollPlatforms (env : TaskSetting R) (input : PollInput) (allTasks : List (Task R)) :
    List TaskPlatform → TaskProg R Unit
  | [] => pure ()
  | platform :: platforms => do
    failNullTasks (platformTasks allTasks platform)
    dispatchPlatformUpdate env input platform (platformTasks allTasks platform)
    pollPlatforms env input allTasks platforms

def runTaskPollingOnce (env : TaskSetting R) (input : PollInput) : TaskProg R Unit := do
  sweepTimedOutTasks env
  let allTasks ← Prog.look (fun db => db.getAllUnFinishSyncTasks env.taskQueryLimit)
  pollPlatforms env input allTasks (input.platformOrder (allTasks.map Task.platform).dedup)

/-! ### Everything that works on the rows -/

inductive TaskCall (R : Type) where
  | sweep (env : TaskSetting R)
  | failNull (env : TaskSetting R) (platform : TaskPlatform)
  | suno (env : TaskSetting R) (channelId : Int) (reply : Option (List SunoDataResponse))
  | video (env : TaskSetting R) (name : String) (channelId : Int)
      (replies : List (Option VideoReply))
  | pass (env : TaskSetting R) (input : PollInput)

def unfinishedTasks (env : TaskSetting R) (platform : TaskPlatform) : TaskProg R (List (Task R)) :=
  Prog.look fun db => platformTasks (db.getAllUnFinishSyncTasks env.taskQueryLimit) platform

def TaskCall.prog : TaskCall R → TaskProg R Unit
  | .sweep env => sweepTimedOutTasks env
  | .failNull env platform => do
    let tasks ← unfinishedTasks env platform
    failNullTasks tasks
  | .suno env channelId reply => do
    let tasks ← unfinishedTasks env .suno
    let _ ← updateSunoTasks env channelId (channelTaskIds tasks channelId) reply (taskMap tasks)
    pure ()
  | .video env name channelId replies => do
    let tasks ← unfinishedTasks env (.other name)
    let _ ← updateVideoTasks env (.other name) channelId (channelTaskIds tasks channelId) replies
      (taskMap tasks)
    pure ()
  | .pass env input => runTaskPollingOnce env input

end Priced

/-! ### The in-memory tasks of a platform -/

variable {tasks : List (Task R)} {t : Task R}

theorem mem_of_taskMap {upstreamId : String} (h : taskMap tasks upstreamId = some t) :
    t ∈ tasks ∧ t.getUpstreamTaskId = upstreamId ∧ upstreamId ≠ "" := by
  unfold taskMap at h
  split at h
  · cases h
  rename_i hne
  have hid : decide (t.getUpstreamTaskId = upstreamId) = true :=
    find?_some (p := fun (x : Task R) => decide (x.getUpstreamTaskId = upstreamId)) h
  exact ⟨mem_reverse.mp (mem_of_find?_eq_some h), of_decide_eq_true hid, hne⟩

theorem mem_channelTaskIds {channelId : Int} {u : String} :
    u ∈ channelTaskIds tasks channelId ↔
      ∃ t ∈ tasks, t.getUpstreamTaskId ≠ "" ∧ t.channelId = channelId ∧
        t.getUpstreamTaskId = u := by
  simp only [channelTaskIds, mem_map, mem_filter, Bool.and_eq_true, decide_eq_true_eq,
    and_assoc]

/-- Where no two tasks share an upstream id, every id is asked about once. -/
theorem nodup_channelTaskIds (htasks : tasks.Nodup)
    (h : ∀ t ∈ tasks, ∀ t' ∈ tasks, t.getUpstreamTaskId = t'.getUpstreamTaskId →
      t.getUpstreamTaskId ≠ "" → t = t') {channels : List Int} (hn : channels.Nodup) :
    (channels.flatMap (channelTaskIds tasks)).Nodup := by
  refine nodup_flatMap.mpr ⟨fun c _ => ?_, hn.imp fun hne => ?_⟩
  · refine Nodup.map_on (fun t ht t' ht' he => ?_) (htasks.filter _)
    obtain ⟨ht, hb⟩ := mem_filter.mp ht
    rw [Bool.and_eq_true, decide_eq_true_eq] at hb
    exact h t ht t' (mem_of_mem_filter ht') he hb.1
  intro u hu hu'
  obtain ⟨t, ht, hne', rfl, rfl⟩ := mem_channelTaskIds.mp hu
  obtain ⟨t', ht', -, rfl, he⟩ := mem_channelTaskIds.mp hu'
  exact hne (congrArg Task.channelId (h t ht t' ht' he.symm hne'))

theorem nodup_taskChannels (input : PollInput) (tasks : List (Task R)) :
    (input.channelOrder (taskChannels tasks)).Nodup :=
  (input.channelOrder_perm _).nodup_iff.mpr (nodup_dedup _)

/-! ### What an item makes of a task -/

def SunoDataResponse.outcome (item : SunoDataResponse) : Option TaskStatus :=
  if item.failReason ≠ "" then some .failure
  else if item.status ≠ "" then some (TaskStatus.ofString item.status)
  else none

theorem sunoIsFailure_iff (t : Task R) (item : SunoDataResponse) :
    sunoIsFailure t item = true ↔ (sunoTask t item).status = .failure := by
  by_cases h : sunoIsFailure t item = true
  · simp [sunoTask, h]
  have hs : sunoStatus t item ≠ .failure := by
    intro hs
    exact h (by simp [sunoIsFailure, hs])
  simp [sunoTask, hs]

theorem status_sunoTask (t : Task R) (item : SunoDataResponse) :
    (sunoTask t item).status = item.outcome.getD t.status := by
  by_cases hr : item.failReason = ""
  · have hf : sunoIsFailure t item = decide (sunoStatus t item = .failure) := by
      simp [sunoIsFailure, hr]
    have hs : (sunoTask t item).status = sunoStatus t item := by
      by_cases h : sunoStatus t item = .failure
      · simp [sunoTask, hf, h]
      · simp [sunoTask, hf, h]
    rw [hs]
    by_cases he : item.status = ""
    · simp [sunoStatus, SunoDataResponse.outcome, hr, he]
    · simp [sunoStatus, SunoDataResponse.outcome, hr, he]
  · simp [sunoTask, sunoIsFailure, SunoDataResponse.outcome, hr]

/-- An item that leaves a task unfinished leaves its progress. -/
theorem progress_sunoTask {item : SunoDataResponse} (h : (sunoTask t item).status.done = false) :
    (sunoTask t item).progress = t.progress := by
  have hf : sunoIsFailure t item = false := by
    by_contra hf
    rw [(sunoIsFailure_iff t item).mp (by simpa using hf)] at h
    cases h
  have hs : item.status ≠ "SUCCESS" := by
    intro hs
    have hst : (sunoTask t item).status = .success := by
      simp [sunoTask, hf, sunoStatus, hs, TaskStatus.ofString]
    rw [hst] at h
    cases h
  simp [sunoTask, hf, hs]

/-! ### What an answer makes of a task -/

theorem videoStatus_same {env : TaskSetting R} {now : Int} {t' : Task R} {result : TaskInfo}
    (h : videoStatus env now t result = some t') : t'.id = t.id ∧ t'.terms = t.terms := by
  unfold videoStatus at h
  split at h <;> cases h <;> exact ⟨rfl, rfl⟩

theorem videoProgress_same (result : TaskInfo) (t : Task R) :
    (videoProgress result t).id = t.id ∧ (videoProgress result t).terms = t.terms := by
  unfold videoProgress
  split <;> exact ⟨rfl, rfl⟩

/-! ### The loops in any logic -/

/-- A logic of programs on the rows: `Does Q p` says that `p` keeps to the rules and returns what
`Q` allows. -/
structure PollLogic (R : Type) [Ratio R] where
  Does : {α : Type} → (α → Prop) → TaskProg R α → Prop
  /-- The rows are fit to be read, the tasks are as they were read. -/
  Fit : TaskDb R → Prop
  Read : List (Task R) → Prop
  /-- The in-memory tasks are fit for the items, or the ids, that are to come. -/
  Suno : List SunoDataResponse → TaskMap R → Prop
  Video : List String → TaskMap R → Prop
  Items : List SunoDataResponse → Prop
  Reply : VideoReply → Prop
  pure {α : Type} {Q : α → Prop} {a : α} (h : Q a) : Does Q (pure a)
  bind {α β : Type} {Q : α → Prop} {Q' : β → Prop} {p : TaskProg R α} {f : α → TaskProg R β}
    (hp : Does Q p) (hf : ∀ a, Q a → Does Q' (f a)) : Does Q' (p >>= f)
  look {α : Type} {Q : α → Prop} {f : TaskDb R → α} (h : ∀ s, Fit s → Q (f s)) :
    Does Q (Prog.look f)
  bulk (ids : List Int) (failReason : Option String) :
    Does (fun _ => True) (Prog.atomic fun db => ((), db.taskBulkUpdateByID ids failReason))
  sweep (env : TaskSetting R) : Does (fun _ => True) (sweepTimedOutTasks env)
  read {db : TaskDb R} (h : Fit db) (limit : Nat) : Read (db.getAllUnFinishSyncTasks limit)
  platform {tasks : List (Task R)} (h : Read tasks) (platform : TaskPlatform) :
    Read (platformTasks tasks platform)
  suno_start {tasks : List (Task R)} {items : List SunoDataResponse} (h : Read tasks)
    (hitems : Items items) : Suno items (taskMap tasks)
  suno_skip {item : SunoDataResponse} {items : List SunoDataResponse} {taskM : TaskMap R}
    (h : Suno (item :: items) taskM) : Suno items taskM
  suno_task {env : TaskSetting R} {item : SunoDataResponse} {items : List SunoDataResponse}
    {taskM : TaskMap R} {t : Task R} (h : Suno (item :: items) taskM)
    (ht : taskM item.taskId = some t) :
    Does (fun t' => Suno items (Function.update taskM item.taskId (some t')))
      (updateSunoTask env t item)
  video_start {tasks : List (Task R)} {name : String} {channels : List Int} (h : Read tasks)
    (hplatform : ∀ t ∈ tasks, t.platform = .other name) (hn : channels.Nodup) :
    Video (channels.flatMap (channelTaskIds tasks)) (taskMap tasks)
  video_skip {taskId : String} {taskIds : List String} {taskM : TaskMap R}
    (h : Video (taskId :: taskIds) taskM) : Video taskIds taskM
  video_task {env : TaskSetting R} {taskId : String} {taskIds : List String} {taskM : TaskMap R}
    {t : Task R} {reply : VideoReply} (h : Video (taskId :: taskIds) taskM)
    (ht : taskM taskId = some t) (hreply : Reply reply) :
    Does (fun t' => Video taskIds (Function.update taskM taskId (some t')))
      (updateVideoTask env t reply)

def TaskCall.Hears (Items : List SunoDataResponse → Prop) (Reply : VideoReply → Prop) :
    TaskCall R → Prop
  | .suno _ _ reply => Items (reply.getD [])
  | .video _ _ _ replies => ∀ reply, some reply ∈ replies → Reply reply
  | .pass _ input => (∀ channels, channels.Nodup → Items (input.sunoItems channels)) ∧
      ∀ platform c reply, some reply ∈ input.video platform c → Reply reply
  | _ => True

namespace PollLogic

variable [Ratio R] (d : PollLogic R) {env : TaskSetting R} {taskM : TaskMap R}

theorem suno_suffix {rest : List SunoDataResponse} (items : List SunoDataResponse)
    (h : d.Suno (items ++ rest) taskM) : d.Suno rest taskM := by
  induction items with
  | nil => exact h
  | cons item items ih => exact ih (d.suno_skip h)

theorem updateSunoItems {rest : List SunoDataResponse} (items : List SunoDataResponse)
    (h : d.Suno (items ++ rest) taskM) :
    d.Does (d.Suno rest) (updateSunoItems env items taskM) := by
  induction items generalizing taskM with
  | nil => exact d.pure h
  | cons item items ih =>
    unfold Async.updateSunoItems
    split
    · exact ih (d.suno_skip h)
    rename_i t ht
    split
    · exact d.bind (d.suno_task h ht) fun _ => ih
    · exact ih (d.suno_skip h)

theorem updateSunoTasks {rest : List SunoDataResponse} (channelId : Int) (taskIds : List String)
    (reply : Option (List SunoDataResponse)) (h : d.Suno (reply.getD [] ++ rest) taskM) :
    d.Does (d.Suno rest) (updateSunoTasks env channelId taskIds reply taskM) := by
  have hsame := d.suno_suffix _ h
  unfold Async.updateSunoTasks
  split
  · exact d.pure hsame
  split
  · split
    · exact d.updateSunoItems _ h
    · exact d.pure hsame
  · exact d.bind (d.bulk _ _) fun _ _ => d.pure hsame

theorem video_suffix {rest : List String} (taskIds : List String)
    (h : d.Video (taskIds ++ rest) taskM) : d.Video rest taskM := by
  induction taskIds with
  | nil => exact h
  | cons taskId taskIds ih => exact ih (d.video_skip h)

theorem updateVideoList {rest : List String} {replies : List (Option VideoReply)}
    (hreplies : ∀ reply, some reply ∈ replies → d.Reply reply) (taskIds : List String)
    (h : d.Video (taskIds ++ rest) taskM) :
    d.Does (d.Video rest) (updateVideoList env taskIds replies taskM) := by
  induction taskIds generalizing replies taskM with
  | nil => exact d.pure h
  | cons taskId taskIds ih =>
    refine d.bind (Q := d.Video (taskIds ++ rest)) ?_
      fun _ => ih fun reply hr => hreplies reply (mem_of_mem_tail hr)
    unfold updateVideoSingleTask
    split
    · rename_i t reply ht hr
      refine d.bind (d.video_task h ht (hreplies reply ?_)) fun _ => d.pure
      cases replies with
      | nil => cases hr
      | cons =>
        rw [headD_cons] at hr
        rw [hr]
        exact mem_cons_self
    · exact d.pure (d.video_skip h)

theorem updateVideoTasks {rest taskIds : List String} {replies : List (Option VideoReply)}
    (platform : TaskPlatform) (channelId : Int)
    (hreplies : ∀ reply, some reply ∈ replies → d.Reply reply)
    (h : d.Video (taskIds ++ rest) taskM) :
    d.Does (d.Video rest) (updateVideoTasks env platform channelId taskIds replies taskM) := by
  have hsame := d.video_suffix _ h
  unfold Async.updateVideoTasks
  split
  · exact d.pure hsame
  split
  · split
    · exact d.updateVideoList hreplies _ h
    · exact d.pure hsame
  · exact d.bind (d.bulk _ _) fun _ _ => d.pure hsame

/-- An invariant of memory and work left that each channel keeps, all of them keep. -/
theorem updateChannels {W : Type} {work : Int → List W} {I : List W → TaskMap R → Prop}
    {update : Int → TaskMap R → TaskProg R (TaskMap R)}
    (h : ∀ c rest taskM, I (work c ++ rest) taskM → d.Does (I rest) (update c taskM))
    (channels : List Int) (hi : I (channels.flatMap work) taskM) :
    d.Does (fun _ => True) (updateChannels update channels taskM) := by
  induction channels generalizing taskM with
  | nil => exact d.pure trivial
  | cons c channels ih => exact d.bind (h c _ taskM (by simpa using hi)) fun _ => ih

theorem failNullTasks (tasks : List (Task R)) : d.Does (fun _ => True) (failNullTasks tasks) := by
  unfold Async.failNullTasks Prog.when
  split
  · exact d.bulk _ _
  · exact d.pure trivial

theorem dispatchPlatformUpdate {input : PollInput}
    (h : (TaskCall.pass env input).Hears d.Items d.Reply) (platform : TaskPlatform)
    {tasks : List (Task R)} (htasks : d.Read tasks)
    (hplatform : ∀ t ∈ tasks, t.platform = platform) :
    d.Does (fun _ => True) (dispatchPlatformUpdate env input platform tasks) := by
  have hn := nodup_taskChannels input tasks
  unfold Async.dispatchPlatformUpdate
  split
  · exact d.pure trivial
  · exact d.updateChannels (fun c _ _ => d.updateSunoTasks c _ (input.suno c)) _
      (d.suno_start htasks (h.1 _ hn))
  · rename_i name
    exact d.updateChannels (fun c _ _ => d.updateVideoTasks (.other name) c (h.2 (.other name) c)) _
      (d.video_start htasks hplatform hn)

omit [Ratio R] in
theorem platform_eq {tasks : List (Task R)} {platform : TaskPlatform} :
    ∀ t ∈ platformTasks tasks platform, t.platform = platform :=
  fun _ ht => of_decide_eq_true (mem_filter.mp ht).2

theorem pollPlatforms {input : PollInput} (h : (TaskCall.pass env input).Hears d.Items d.Reply)
    {allTasks : List (Task R)} (htasks : d.Read allTasks) (platforms : List TaskPlatform) :
    d.Does (fun _ => True) (pollPlatforms env input allTasks platforms) := by
  induction platforms with
  | nil => exact d.pure trivial
  | cons platform platforms ih =>
    refine d.bind (d.failNullTasks _) fun _ _ => ?_
    exact d.bind (d.dispatchPlatformUpdate h _ (d.platform htasks platform) platform_eq)
      fun _ _ => ih

theorem unfinishedTasks (platform : TaskPlatform) :
    d.Does (fun tasks => d.Read tasks ∧ ∀ t ∈ tasks, t.platform = platform)
      (unfinishedTasks env platform) :=
  d.look fun _ hs => ⟨d.platform (d.read hs _) platform, platform_eq⟩

/-- **Every call keeps to the rules**, if its answers are such as the logic needs. -/
theorem prog {c : TaskCall R} (h : c.Hears d.Items d.Reply) : d.Does (fun _ => True) c.prog := by
  cases c with
  | sweep env => exact d.sweep env
  | failNull env platform =>
    exact d.bind (d.unfinishedTasks platform) fun tasks _ => d.failNullTasks tasks
  | suno env channelId reply =>
    refine d.bind (d.unfinishedTasks .suno) fun tasks htasks => ?_
    have hstart : d.Suno (reply.getD [] ++ []) (taskMap tasks) := by
      rw [append_nil]
      exact d.suno_start htasks.1 h
    exact d.bind (d.updateSunoTasks channelId _ reply hstart) fun _ _ => d.pure trivial
  | video env name channelId =>
    refine d.bind (d.unfinishedTasks (.other name)) fun tasks htasks => ?_
    have hstart := d.video_start htasks.1 htasks.2 (nodup_singleton channelId)
    rw [flatMap_cons] at hstart
    exact d.bind (d.updateVideoTasks (.other name) channelId h hstart) fun _ _ => d.pure trivial
  | pass env =>
    refine d.bind (d.sweep env) fun _ _ => ?_
    exact d.bind (d.look fun _ hs => d.read hs _) fun _ htasks => d.pollPlatforms h htasks _

end PollLogic

/-! ### What billing a video task can be -/

section Shape

variable [Ratio R]

variable {γ : Type} {G : γ → TaskDb R → γ → TaskDb R → Prop} {fin : γ → Task R → Prop}
  {env : TaskSetting R} {t : Task R} {g : γ}

theorem settleTaskBillingOnComplete_follows (hread : ∀ s, G g s g s) (hpure : fin g t)
    (hadj : ∀ q, 0 < q → Prog.Follows G fin g (adjustTask env t (.recalculate q t.quota) q))
    (adjusted totalTokens : Int) :
    Prog.Follows G fin g (settleTaskBillingOnComplete env t adjusted totalTokens) := by
  unfold settleTaskBillingOnComplete
  dsimp only
  split
  · exact hpure
  split
  · exact recalculateTaskQuota_follows hpure hadj _
  · split
    · exact hpure
    · exact recalculateTaskQuotaByTokens_follows hread hpure hadj _

theorem billVideoTask_of_open (h : t.status.done = false) (adjusted totalTokens : Int) :
    billVideoTask env t adjusted totalTokens = pure t := by
  unfold billVideoTask
  split
  · rename_i hs
    rw [hs] at h
    cases h
  · rename_i hs
    rw [hs] at h
    cases h
  · rfl

/-- **Billing a task** does nothing or is one adjustment. -/
theorem billVideoTask_follows (hread : ∀ s, G g s g s) (hpure : fin g t)
    (hrefund : t.status = .failure → t.quota ≠ 0 →
      Prog.Follows G fin g (adjustTask env t (.refund t.quota) 0))
    (hrecalculate : t.status = .success → ∀ q, 0 < q →
      Prog.Follows G fin g (adjustTask env t (.recalculate q t.quota) q))
    (adjusted totalTokens : Int) :
    Prog.Follows G fin g (billVideoTask env t adjusted totalTokens) := by
  unfold billVideoTask
  split
  · rename_i hs
    exact settleTaskBillingOnComplete_follows hread hpure (hrecalculate hs) _ _
  · rename_i hs
    exact refundTaskQuota_follows (fun _ => hpure) (hrefund hs)
  · exact hpure

end Shape

/-! ### A small database -/

/-- Only these channels exist, and tasks time out after an hour. -/
def pollSetting (channels : List Int) : TaskSetting ℚ where
  now := 1800010000
  taskTimeoutMinutes := 60
  taskQueryLimit := 1000
  serverAddress := "http://localhost:3000"
  cacheGetChannel c := decide (c ∈ channels)
  getTaskAdaptor _ := true
  getModelRatio _ := none
  getGroupRatio _ := 1
  getGroupGroupRatio _ _ := none
  isPositive r := decide (0 < r)
  otherRatioMultiplier _ := 1
  quotaOfTokens _ _ _ _ := 0

def runningTask (platform : TaskPlatform) (upstreamId : String) : Task ℚ where
  id := 1
  taskId := upstreamId
  platform := platform
  userId := 1
  group := "zeta"
  channelId := 5
  quota := 100
  status := .inProgress
  failReason := ""
  submitTime := 1800009000
  startTime := 0
  finishTime := 0
  progress := "30%"
  originModelName := "model"
  privateData := ⟨"", "", none, 0, 0, 0, none⟩
  data := ""

def pollDb (t : Task ℚ) : TaskDb ℚ where
  tasks := ⟨[t], List.nodup_singleton _⟩
  credit :=
    { store :=
        { users := ⟨[⟨1, "bob", "Bob", 1, "zeta", 0, 7⟩], by decide⟩
          tenants := ⟨[⟨7, "zeta", "zeta", 1, 1, 900, "zeta"⟩], by decide⟩
          customerWallets := ⟨[⟨"zeta", 7⟩], by decide⟩ } }
  subscriptions := .empty
  attempts := []

end UnifyConsole.Async
