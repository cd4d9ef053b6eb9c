import UnifyConsole.Account.Tenant
import UnifyConsole.Lib.Prog

/-!
# Subscription quota

The part of `model/subscription.go` that moves `amount_used`: the pre-consumption of
a request, the deltas of its settlement, the refund of a pre-consumption and the
resets of a quota period, with `refundWithRetry` of `service/funding_source.go`.

A pre-consumption, a delta and a reset are one transaction each.  A refund is two:
the outer one holds the lock of the record and the inner one, on a connection of its
own, lowers the usage and commits first.  What fails inside an attempt is said by a
`RefundFault`.

The state also keeps three records that the code does not have, for what its
properties speak of: which requests were pre-consumed since the last reset of their
subscription, the deltas settled for each request, and the reductions that refunds
have made.
-/

namespace UnifyConsole.Subscription

open Lib
open Account (trimSpace)

/-! ### Rows -/

inductive SubscriptionStatus where
  | active
  | expired
  | cancelled
deriving DecidableEq

/-- The columns of `user_subscriptions` that quota reads. -/
structure UserSubscription where
  id : Int
  userId : Int
  planId : Int
  amountTotal : Int
  amountUsed : Int
  startTime : Int
  endTime : Int
  status : SubscriptionStatus
  lastResetTime : Int
  nextResetTime : Int
deriving DecidableEq

/-- The columns of `subscription_plans` that resets read. -/
structure SubscriptionPlan where
  id : Int
  quotaResetPeriod : String
  quotaResetCustomSeconds : Int

inductive RecordStatus where
  | consumed
  | refunded
deriving DecidableEq

structure SubscriptionPreConsumeRecord where
  requestId : String
  userId : Int
  userSubscriptionId : Int
  preConsumed : Int
  status : RecordStatus
deriving DecidableEq

/-- A reduction made by a refund: `amount_used` of the subscription before and
after. -/
structure Reduction where
  requestId : String
  subscriptionId : Int
  before : Int
  after : Int
deriving DecidableEq

structure SubscriptionDb where
  subs : Table UserSubscription.id
  plans : Table SubscriptionPlan.id
  records : Table SubscriptionPreConsumeRecord.requestId
  /-- The rows of `records` that open refunds hold locked. -/
  locked : List String
  /-- Requests pre-consumed since the last reset, with their subscription. -/
  current : List (String × Int)
  /-- The deltas settled for each request. -/
  settled : List (String × Int)
  reductions : List Reduction

inductive SubscriptionError where
  | invalidUserId
  | requestIdEmpty
  | amountNotPositive
  | alreadyRefunded
  | recordNotFound
  | noActiveSubscription
  | invalidPlanId
  | duplicateKey
  | quotaInsufficient (need : Int)
  | invalidSubscriptionId
  | usedExceedsTotal (used total : Int)
  | noSubscriptionOfPlan
  | lockWait
  | endless
  | database
deriving DecidableEq

abbrev SubscriptionTx := Tx SubscriptionDb SubscriptionError

/-! ### When a quota is reset -/

inductive ResetPeriod where
  | never
  | daily
  | weekly
  | monthly
  | custom
deriving DecidableEq

def normalizeResetPeriod (period : String) : ResetPeriod :=
  match trimSpace period with
  | "daily" => .daily
  | "weekly" => .weekly
  | "monthly" => .monthly
  | "custom" => .custom
  | _ => .never

/-- The calendar of the server; where midnight is skipped, `time.Date` gives another moment. -/
structure Calendar where
  /-- `time.Date` of the day of a moment, at `00:00`. -/
  midnight : Int → Int
  /-- `time.Date` of the first of the month of a moment, at `00:00`. -/
  firstOfMonth : Int → Int
  /-- `Weekday`, Sunday being `0`. -/
  weekday : Int → Int
  /-- `AddDate(0, 0, days)`. -/
  addDays : Int → Int → Int
  /-- `AddDate(0, months, 0)`. -/
  addMonths : Int → Int → Int
  /-- `AddDate(years, 0, 0)`. -/
  addYears : Int → Int → Int

namespace Calendar

variable (cal : Calendar) (base : Int)

def nextDay : Int := cal.addDays (cal.midnight base) 1

def nextMonday : Int :=
  let weekday := if cal.weekday base = 0 then 7 else cal.weekday base
  cal.addDays (cal.midnight base) (8 - weekday)

def nextMonth : Int := cal.addMonths (cal.firstOfMonth base) 1

end Calendar

/-- `time.Duration(seconds) * time.Second` in whole seconds: an `int64` of nanoseconds that wraps.
-/
def durationSeconds (seconds : Int) : Int := (seconds * 1000000000).bmod (2 ^ 64) / 1000000000

def calcNextResetTime (cal : Calendar) (base : Int) (plan : SubscriptionPlan) (endUnix : Int) :
    Int :=
  let bounded (next : Int) : Int := if 0 < endUnix ∧ endUnix < next then 0 else next
  match normalizeResetPeriod plan.quotaResetPeriod with
  | .never => 0
  | .daily => bounded (cal.nextDay base)
  | .weekly => bounded (cal.nextMonday base)
  | .monthly => bounded (cal.nextMonth base)
  | .custom =>
    if plan.quotaResetCustomSeconds ≤ 0 then 0
    else bounded (base + durationSeconds plan.quotaResetCustomSeconds)

/-- The loop over the periods that have passed: the base it ends with. -/
def passedPeriods (next : Int → Int) (now : Int) : Nat → Int → Option Int
  | 0, _ => none
  | fuel + 1, base =>
    if 0 < next base ∧ next base ≤ now then passedPeriods next now fuel (next base) else some base

/-- What `maybeResetUserSubscriptionWithPlanTx` saves; the loop does not end if the periods have no
length. -/
inductive ResetOutcome where
  | endless
  | unchanged
  | scheduled (sub : UserSubscription)
  | reset (sub : UserSubscription)
deriving DecidableEq

def resetOutcome (cal : Calendar) (sub : UserSubscription) (plan : SubscriptionPlan) (now : Int) :
    ResetOutcome :=
  if 0 < sub.nextResetTime ∧ now < sub.nextResetTime then .unchanged
  else if normalizeResetPeriod plan.quotaResetPeriod = .never then .unchanged
  else
    let next := fun base => calcNextResetTime cal base plan sub.endTime
    let start := if sub.lastResetTime ≤ 0 then sub.startTime else sub.lastResetTime
    if 0 < next start ∧ next start ≤ now then
      -- a period of at least a second, forwards or, when it has wrapped around, backwards
      match passedPeriods next now ((now - start).toNat + start.toNat + 1) start with
      | none => .endless
      | some base =>
        .reset { sub with amountUsed := 0, lastResetTime := base, nextResetTime := next base }
    else if sub.nextResetTime = 0 ∧ 0 < next start then
      .scheduled { sub with nextResetTime := next start, lastResetTime := start }
    else .unchanged

/-! ### Statements -/

namespace SubscriptionDb

variable (s : SubscriptionDb)

/-- `tx.Save(sub)`. -/
def saveSub (sub : UserSubscription) : SubscriptionDb :=
  { s with
    subs := s.subs.update (fun r => decide (r.id = sub.id)) (fun r => { sub with id := r.id })
      (fun _ => rfl) }

/-- A row is saved with its usage reset: a new period begins. -/
def saveReset (sub : UserSubscription) : SubscriptionDb :=
  { s.saveSub sub with current := s.current.filter (fun p => decide (p.2 ≠ sub.id)) }

/-- `UPDATE … SET status = 'refunded'`. -/
def markRefunded (requestId : String) : SubscriptionDb :=
  { s with
    records := s.records.update (fun r => decide (r.requestId = requestId))
      (fun r => { r with status := .refunded }) (fun _ => rfl) }

def lock (requestId : String) : SubscriptionDb := { s with locked := requestId :: s.locked }

def unlock (requestId : String) : SubscriptionDb := { s with locked := s.locked.erase requestId }

end SubscriptionDb

def maybeResetUserSubscriptionWithPlanTx (cal : Calendar) (sub : UserSubscription)
    (plan : SubscriptionPlan) (now : Int) : SubscriptionTx UserSubscription :=
  match resetOutcome cal sub plan now with
  -- a call that never returns never commits
  | .endless => Tx.fail .endless
  | .unchanged => pure sub
  | .scheduled sub => do
    Tx.write (fun s => s.saveSub sub)
    pure sub
  | .reset sub => do
    Tx.write (fun s => s.saveReset sub)
    pure sub

/-- The row that `resetUserSubscriptionTx` saves. -/
def resetRow (cal : Calendar) (sub : UserSubscription) (plan : SubscriptionPlan) (now : Int)
    (advanceResetTime : Bool) : UserSubscription :=
  let next := calcNextResetTime cal now plan sub.endTime
  if advanceResetTime then
    { sub with
      amountUsed := 0, nextResetTime := next, lastResetTime := if 0 < next then now else 0 }
  else { sub with amountUsed := 0 }

def resetUserSubscriptionTx (cal : Calendar) (sub : UserSubscription) (plan : SubscriptionPlan)
    (now : Int) (advanceResetTime : Bool) : SubscriptionTx Unit :=
  Tx.write fun s => s.saveReset (resetRow cal sub plan now advanceResetTime)

/-! ### Pre-consumption -/

/-- The subscriptions a request may draw on, the first to end first. -/
def SubscriptionDb.candidates (s : SubscriptionDb) (userId now : Int) : List UserSubscription :=
  (s.subs.rows.filter fun sub => decide (sub.userId = userId) &&
    decide (sub.status = .active) && decide (now < sub.endTime)).insertionSort
    (fun a b => a.endTime < b.endTime ∨ (a.endTime = b.endTime ∧ a.id ≤ b.id))

structure SubscriptionPreConsumeResult where
  userSubscriptionId : Int
  preConsumed : Int
  amountTotal : Int
  amountUsedBefore : Int
  amountUsedAfter : Int

/-- The loop over the candidates; the reset of one that is passed over stays. -/
def preConsumeLoop (cal : Calendar) (requestId : String) (userId amount now : Int) :
    List UserSubscription → SubscriptionTx SubscriptionPreConsumeResult
  | [] => Tx.fail (.quotaInsufficient amount)
  | candidate :: candidates => do
    Tx.ensure (0 < candidate.planId) .invalidPlanId
    let plan ← Tx.fetch (fun s => s.plans.find? candidate.planId) .recordNotFound
    let sub ← maybeResetUserSubscriptionWithPlanTx cal candidate plan now
    if 0 < sub.amountTotal ∧ sub.amountTotal - sub.amountUsed < amount then
      preConsumeLoop cal requestId userId amount now candidates
    else do
      Tx.writeSome (fun s => (s.records.insert? ⟨requestId, userId, sub.id, amount, .consumed⟩).map
        (fun t => { s with records := t, current := (requestId, sub.id) :: s.current }))
        .duplicateKey
      Tx.write (fun s => s.saveSub { sub with amountUsed := sub.amountUsed + amount })
      pure ⟨sub.id, amount, sub.amountTotal, sub.amountUsed, sub.amountUsed + amount⟩

def preConsumeUserSubscription (cal : Calendar) (requestId : String) (userId amount now : Int) :
    SubscriptionTx SubscriptionPreConsumeResult := do
  Tx.ensure (0 < userId) .invalidUserId
  Tx.ensure (trimSpace requestId ≠ "") .requestIdEmpty
  Tx.ensure (0 < amount) .amountNotPositive
  let existing ← Tx.read fun s => s.records.find? requestId
  match existing with
  | some record => do
    Tx.ensure (record.status ≠ .refunded) .alreadyRefunded
    let sub ← Tx.fetch (fun s => s.subs.find? record.userSubscriptionId) .recordNotFound
    pure ⟨sub.id, record.preConsumed, sub.amountTotal, sub.amountUsed, sub.amountUsed⟩
  | none => do
    let subs ← Tx.read (fun s => s.candidates userId now)
    Tx.ensure (subs ≠ []) .noActiveSubscription
    preConsumeLoop cal requestId userId amount now subs

/-! ### Deltas -/

/-- `PostConsumeUserSubscriptionDelta`: what it did to `amount_used`, if anything. -/
def postConsumeUserSubscriptionDelta (userSubscriptionId delta : Int) :
    SubscriptionTx (Option (Int × Int)) := do
  Tx.ensure (0 < userSubscriptionId) .invalidSubscriptionId
  if delta = 0 then pure none
  else do
    let sub ← Tx.fetch (fun s => s.subs.find? userSubscriptionId) .recordNotFound
    let newUsed := if sub.amountUsed + delta < 0 then 0 else sub.amountUsed + delta
    Tx.ensure (¬ (0 < sub.amountTotal ∧ sub.amountTotal < newUsed))
      (.usedExceedsTotal newUsed sub.amountTotal)
    Tx.write (fun s => s.saveSub { sub with amountUsed := newUsed })
    pure (some (sub.amountUsed, newUsed))

def settleRequest (requestId : String) (userSubscriptionId delta : Int) : SubscriptionTx Unit := do
  let moved ← postConsumeUserSubscriptionDelta userSubscriptionId delta
  Tx.when (moved.isSome = true)
    (Tx.write fun s => { s with settled := (requestId, delta) :: s.settled })

/-! ### Refunds -/

/-- Where a refund attempt fails: at the first `SELECT`, in the inner transaction, or after it. -/
inductive RefundFault where
  | lockRecord
  | lockSub
  | saveSub
  | commitSub
  | saveRecord
  | commitRecord
deriving DecidableEq

/-- The fault comes when the inner transaction has committed. -/
def RefundFault.isLate : RefundFault → Bool
  | .saveRecord => true
  | .commitRecord => true
  | _ => false

/-- What the first statements of the outer transaction lead to. -/
inductive RefundStart where
  | failed (e : SubscriptionError)
  | done
  | give (record : SubscriptionPreConsumeRecord)

/-- `SELECT … FOR UPDATE` of the record.  A record without a pre-consumed amount is
marked at once. -/
def lockRecord (requestId : String) (fault : Option RefundFault) (s : SubscriptionDb) :
    RefundStart × SubscriptionDb :=
  if fault = some .lockRecord then (.failed .database, s)
  else if requestId ∈ s.locked then (.failed .lockWait, s)
  else
    match s.records.find? requestId with
    | none => (.failed .recordNotFound, s)
    | some record =>
      if record.status = .refunded then (.done, s)
      else if record.preConsumed ≤ 0 then
        if fault.any RefundFault.isLate then (.failed .database, s)
        else (.done, s.markRefunded requestId)
      else (.give record, s.lock requestId)

/-- The inner transaction, on a connection of its own. -/
def lowerUsage (record : SubscriptionPreConsumeRecord) (fault : Option RefundFault)
    (s : SubscriptionDb) : Except SubscriptionError Unit × SubscriptionDb :=
  if fault = some .lockSub ∨ fault = some .saveSub ∨ fault = some .commitSub then
    (.error .database, s)
  else
    match postConsumeUserSubscriptionDelta record.userSubscriptionId (-record.preConsumed) s with
    | .error e => (.error e, s)
    | .ok (none, s') => (.ok (), s')
    | .ok (some (before, after), s') =>
      (.ok (), { s' with
        reductions := ⟨record.requestId, record.userSubscriptionId, before, after⟩ ::
          s'.reductions })

def rollbackRefund (record : SubscriptionPreConsumeRecord) (e : SubscriptionError)
    (s : SubscriptionDb) : Except SubscriptionError Unit × SubscriptionDb :=
  (.error e, s.unlock record.requestId)

def commitRefund (record : SubscriptionPreConsumeRecord) (fault : Option RefundFault)
    (s : SubscriptionDb) : Except SubscriptionError Unit × SubscriptionDb :=
  if fault.any RefundFault.isLate then rollbackRefund record .database s
  else (.ok (), (s.markRefunded record.requestId).unlock record.requestId)

def refundSubscriptionPreConsume (requestId : String) (fault : Option RefundFault) :
    Prog SubscriptionDb (Except SubscriptionError Unit) :=
  if trimSpace requestId = "" then pure (.error .requestIdEmpty)
  else do
    let start ← Prog.atomic (lockRecord requestId fault)
    match start with
    | .failed e => pure (.error e)
    | .done => pure (.ok ())
    | .give record => do
      let lowered ← Prog.atomic (lowerUsage record fault)
      match lowered with
      | .error e => Prog.atomic (rollbackRefund record e)
      | .ok _ => Prog.atomic (commitRefund record fault)

def refundAttempts (requestId : String) (fault : Option RefundFault) :
    List (Option RefundFault) → Prog SubscriptionDb (Except SubscriptionError Unit)
  | [] => refundSubscriptionPreConsume requestId fault
  | fault' :: faults => do
    let r ← refundSubscriptionPreConsume requestId fault
    match r with
    | .ok _ => pure (.ok ())
    | .error _ => refundAttempts requestId fault' faults

/-- `refundWithRetry`, with what fails in each of its three attempts. -/
def refundWithRetry (requestId : String) (fault₁ fault₂ fault₃ : Option RefundFault) :
    Prog SubscriptionDb (Except SubscriptionError Unit) :=
  refundAttempts requestId fault₁ [fault₂, fault₃]

/-! ### Resets -/

/-- The transaction of `ResetDueSubscriptions` for one subscription: whether it was
still due. -/
def resetOne (cal : Calendar) (plan : SubscriptionPlan) (subId now : Int) :
    SubscriptionTx Bool := do
  let sub ← Tx.read fun s => (s.subs.find? subId).filter
    (fun sub => decide (0 < sub.nextResetTime ∧ sub.nextResetTime ≤ now))
  match sub with
  | none => pure false
  | some sub => do
    let _ ← maybeResetUserSubscriptionWithPlanTx cal sub plan now
    pure true

def resetLoop (cal : Calendar) (now : Int) (commits : Int → Bool) :
    List UserSubscription → Int → Prog SubscriptionDb (Int × Option SubscriptionError)
  | [], count => pure (count, none)
  | sub :: subs, count => do
    let plan ← Prog.look fun s => s.plans.find? sub.planId
    match plan with
    | none => resetLoop cal now commits subs count
    | some plan => do
      let r ← Prog.transact (commits sub.id) .database (resetOne cal plan sub.id now)
      match r with
      | .error e => pure (count, some e)
      | .ok due => resetLoop cal now commits subs (if due then count + 1 else count)

def resetDueSubscriptions (cal : Calendar) (now limit : Int) (commits : Int → Bool) :
    Prog SubscriptionDb (Int × Option SubscriptionError) := do
  let subs ← Prog.look (fun s => ((s.subs.rows.filter fun sub =>
    decide (0 < sub.nextResetTime) && decide (sub.nextResetTime ≤ now) &&
      decide (sub.status = .active)).insertionSort
      (fun a b => a.nextResetTime ≤ b.nextResetTime)).take
    (if limit ≤ 0 then 200 else limit).toNat)
  resetLoop cal now commits subs 0

def SubscriptionDb.ofPlan (s : SubscriptionDb) (userId : Option Int) (planId now : Int) :
    List UserSubscription :=
  s.subs.rows.filter fun sub => userId.all (fun id => decide (sub.userId = id)) &&
    decide (sub.planId = planId) && decide (sub.status = .active) && decide (now < sub.endTime)

-- each row is saved on its own, so the order of the query does not matter
def resetAll (cal : Calendar) (plan : SubscriptionPlan) (now : Int) (advanceResetTime : Bool) :
    List UserSubscription → SubscriptionTx Unit
  | [] => pure ()
  | sub :: subs => do
    resetUserSubscriptionTx cal sub plan now advanceResetTime
    resetAll cal plan now advanceResetTime subs

def adminResetUserSubscriptionsByPlan (cal : Calendar) (userId planId now : Int)
    (advanceResetTime : Bool) : SubscriptionTx Int := do
  Tx.ensure (0 < userId ∧ 0 < planId) .invalidUserId
  let plan ← Tx.fetch (fun s => s.plans.find? planId) .recordNotFound
  let subs ← Tx.read (fun s => s.ofPlan (some userId) plan.id now)
  Tx.ensure (subs ≠ []) .noSubscriptionOfPlan
  resetAll cal plan now advanceResetTime subs
  pure subs.length

def adminResetPlanSubscriptions (cal : Calendar) (planId now : Int) (advanceResetTime : Bool) :
    SubscriptionTx Int := do
  Tx.ensure (0 < planId) .invalidPlanId
  let plan ← Tx.fetch (fun s => s.plans.find? planId) .recordNotFound
  let subs ← Tx.read (fun s => s.ofPlan none plan.id now)
  resetAll cal plan now advanceResetTime subs
  pure subs.length

/-! ### Calls -/

inductive SubscriptionCall where
  | preConsume (requestId : String) (userId amount now : Int) (commits : Bool)
  | settle (requestId : String) (userSubscriptionId delta : Int) (commits : Bool)
  | refund (requestId : String) (fault : Option RefundFault)
  | refundRetried (requestId : String) (fault₁ fault₂ fault₃ : Option RefundFault)
  | resetDue (now limit : Int) (commits : Int → Bool)
  | resetUser (userId planId now : Int) (advanceResetTime commits : Bool)
  | resetPlan (planId now : Int) (advanceResetTime commits : Bool)

def SubscriptionCall.prog (cal : Calendar) : SubscriptionCall → Prog SubscriptionDb Unit
  | preConsume requestId userId amount now commits => do
    let _ ← Prog.transact commits .database
      (preConsumeUserSubscription cal requestId userId amount now)
    pure ()
  | settle requestId userSubscriptionId delta commits => do
    let _ ← Prog.transact commits .database (settleRequest requestId userSubscriptionId delta)
    pure ()
  | refund requestId fault => do
    let _ ← refundSubscriptionPreConsume requestId fault
    pure ()
  | refundRetried requestId fault₁ fault₂ fault₃ => do
    let _ ← refundWithRetry requestId fault₁ fault₂ fault₃
    pure ()
  | resetDue now limit commits => do
    let _ ← resetDueSubscriptions cal now limit commits
    pure ()
  | resetUser userId planId now advanceResetTime commits => do
    let _ ← Prog.transact commits .database
      (adminResetUserSubscriptionsByPlan cal userId planId now advanceResetTime)
    pure ()
  | resetPlan planId now advanceResetTime commits => do
    let _ ← Prog.transact commits .database
      (adminResetPlanSubscriptions cal planId now advanceResetTime)
    pure ()

end UnifyConsole.Subscription
