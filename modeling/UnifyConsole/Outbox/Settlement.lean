import UnifyConsole.Account.Quota
import UnifyConsole.Lib.Rely
import Mathlib.Logic.Function.Basic

/-!
# The settlement outbox

`model/settlement_outbox.go`: a charge or a log row that the database refused
after the response was served is parked, in a Redis list or in the memory of the
process, and replayed until the database takes it.  The replay of a charge
inserts a `settlement_ledgers` row in the transaction that moves the quota, so
that a charge that was replayed and not dequeued finds its key the next time.

Every database transaction, every Redis command and every section under the
mutex is one step of a program.  What the outside world answers is an input of
the call: `Fault` says how the database treats a transaction, `Push` what becomes
of a Redis push, and the drain is told for every item whether its dequeue goes
through.  A crash is a call of its own.  A restarted process is a new one, and
the steps that a crashed process had not made yet are not taken away from it,
which only adds runs.

The list of parked items and the reason beside each entry of a dead list are what
the process log says; no function reads them.
-/

namespace UnifyConsole.Outbox

open Lib Account

/-! ### Errors -/

/-- The errors a driver reports, as far as they are told apart. -/
inductive DriverError where
  | pgError (code : String)
  | pgConnectError
  | mysqlError (number : Int)
  | badConn
  | connRefused
  | netOp (op : String)
  | other
deriving DecidableEq

inductive ReplayError where
  | driver (e : DriverError)
  | account (e : AccountError)
  | settlementAlreadyApplied
deriving DecidableEq

/-- `IsConnectionClassError`: the database refused or never received the
statement. -/
def isConnectionClassError : ReplayError → Bool
  | .driver (.pgError code) =>
    code == "53300" || code == "57P03" || code == "08001" || code == "08004"
  | .driver .pgConnectError => true
  | .driver (.mysqlError number) => number == 1040 || number == 1203
  | .driver .badConn => true
  | .driver .connRefused => true
  | .driver (.netOp op) => op == "dial"
  | _ => false

/-! ### Rows -/

structure Log where
  requestId : String
  type : Int
  userId : Int
  createdAt : Int
  quota : Int
  tenantId : Int
deriving DecidableEq

structure SettlementLedger where
  key : String
  userId : Int
  walletDelta : Int
  tokenId : Int
  tokenDelta : Int
  enqueuedAt : Int
  appliedAt : Int

/-- `PendingSettlement`: one parked write, a charge or a log row. -/
structure PendingSettlement where
  key : String
  requestId : String
  userId : Int
  walletDelta : Int
  tokenId : Int
  tokenDelta : Int
  log : Option Log
  resolveTenant : Bool
  enqueuedAt : Int
  cause : String
deriving DecidableEq

def PendingSettlement.isCharge (item : PendingSettlement) : Bool :=
  item.walletDelta != 0 || item.tokenDelta != 0

/-- An element of a Redis list: the JSON of an item, or a text that is none. -/
inductive Raw where
  | item (item : PendingSettlement)
  | unreadable (text : String)
deriving DecidableEq

/-- A pointer of the memory list, with what it points to. -/
structure Entry where
  address : Nat
  item : PendingSettlement
deriving DecidableEq

inductive Reason where
  | unreadable
  | gaveUp (e : ReplayError)
deriving DecidableEq

structure Dead where
  raw : Raw
  reason : Reason

/-- `settlementOutbox`, the variables of one process. -/
structure Process where
  alive : Bool
  draining : Bool
  allocated : Nat
  memory : List Entry
  dead : List Dead
  attempts : String → Nat

def Process.started : Process := ⟨true, false, 0, [], [], fun _ => 0⟩

structure OutboxDb where
  store : Store
  ledger : Table SettlementLedger.key
  logs : List Log
  redis : List Raw
  redisDead : List Dead
  process : Nat → Process
  parked : List PendingSettlement

def OutboxDb.setProcess (s : OutboxDb) (pid : Nat) (f : Process → Process) : OutboxDb :=
  { s with process := Function.update s.process pid (f (s.process pid)) }

def settlementOutboxMemoryLimit : Nat := 50000

def settlementOutboxMaxAttempts : Nat := 20

def settlementOutboxBatch : Nat := 200

/-! ### Parking -/

/-- What becomes of a Redis push: done and answered, not done, or done with the
answer lost. -/
inductive Push where
  | accepted
  | failed
  | lost
deriving DecidableEq

def rPush (push : Push) (raw : Raw) (s : OutboxDb) : Bool × OutboxDb :=
  match push with
  | .accepted => (true, { s with redis := s.redis ++ [raw] })
  | .failed => (false, s)
  | .lost => (false, { s with redis := s.redis ++ [raw] })

def Process.hold (item : PendingSettlement) (p : Process) : Process :=
  if settlementOutboxMemoryLimit ≤ p.memory.length then p
  else { p with memory := p.memory ++ [⟨p.allocated, item⟩], allocated := p.allocated + 1 }

/-- `parkSettlement`; `push` is `none` when Redis is off. -/
def parkSettlement (pid : Nat) (push : Option Push) (item : PendingSettlement) :
    Prog OutboxDb Unit := do
  Prog.atomic fun s => ((), { s with parked := s.parked ++ [item] })
  let pushed ← (match push with
    | some push => Prog.atomic (rPush push (.item item))
    | none => pure false)
  if pushed then pure ()
  else Prog.atomic fun s => ((), s.setProcess pid (Process.hold item))

/-! ### Replaying one item -/

/-- How the database treats a transaction: it runs it or not, or it runs it and the answer is lost.
-/
inductive Fault where
  | none
  | refused (e : DriverError)
  | lost (e : DriverError)
deriving DecidableEq

def Fault.run {α : Type} (fault : Fault) (x : Tx OutboxDb ReplayError α) (s : OutboxDb) :
    Except ReplayError α × OutboxDb :=
  match fault with
  | .none => Tx.run true (.driver .other) x s
  | .refused e => (.error (.driver e), s)
  | .lost e => (.error (.driver e), (Tx.run true (.driver .other) x s).2)

/-- What the outside world answers during one replay. -/
structure ReplayEnv where
  now : Int
  charge : Fault
  resolve : Option DriverError
  count : Option DriverError
  create : Fault
  newRequestId : String

def ledgerRow (item : PendingSettlement) (now : Int) : SettlementLedger :=
  ⟨item.key, item.userId, item.walletDelta, item.tokenId, item.tokenDelta, item.enqueuedAt, now⟩

/-- The transaction of `applyPendingCharge`. -/
def chargeTx (item : PendingSettlement) (now : Int) : Tx OutboxDb ReplayError Unit := do
  Tx.writeSome (fun s => (s.ledger.insert? (ledgerRow item now)).map
    (fun ledger => { s with ledger := ledger })) .settlementAlreadyApplied
  Tx.when (item.walletDelta ≠ 0) (do
    let _ ← Tx.zoom OutboxDb.store (fun s store => { s with store := store }) .account
      (adjustBillingQuotaWithTx item.userId (-item.walletDelta))
    pure ())
  Tx.when (item.tokenDelta ≠ 0 ∧ 0 < item.tokenId)
    (Tx.write fun s =>
      { s with store := s.store.decreaseTokenQuota item.tokenId item.tokenDelta })

def ignoreAlreadyApplied : Except ReplayError Unit → Except ReplayError Unit
  | .error .settlementAlreadyApplied => .ok ()
  | r => r

def applyPendingCharge (env : ReplayEnv) (item : PendingSettlement) :
    Prog OutboxDb (Except ReplayError Unit) := do
  let r ← Prog.atomic (env.charge.run (chargeTx item env.now))
  pure (ignoreAlreadyApplied r)

/-- The tenant that `applyPendingLog` stamps. -/
def resolveLogTenant (env : ReplayEnv) (item : PendingSettlement) (log : Log) (s : OutboxDb) :
    Except ReplayError Log :=
  if item.resolveTenant then
    match env.resolve with
    | some e => .error (.driver e)
    | none =>
      match resolveBillingEntity log.userId s.store with
      | .ok (entity, _) => .ok { log with tenantId := entity.tenantId }
      | .error .recordNotFound => .ok { log with tenantId := 0 }
      | .error e => .error (.account e)
  else .ok log

def Log.sameCharge (log log' : Log) : Bool :=
  decide (log.requestId = log'.requestId) && decide (log.type = log'.type) &&
    decide (log.userId = log'.userId) && decide (log.createdAt = log'.createdAt) &&
    decide (log.quota = log'.quota)

/-- `createLog`: a row without a request id is given one. -/
def createLog (newRequestId : String) (log : Log) : Tx OutboxDb ReplayError Unit :=
  Tx.write fun s =>
    { s with logs := s.logs ++
        [if log.requestId = "" then { log with requestId := newRequestId } else log] }

def applyPendingLog (env : ReplayEnv) (item : PendingSettlement) (log : Log) :
    Prog OutboxDb (Except ReplayError Unit) := do
  let r ← Prog.look (resolveLogTenant env item log)
  match r with
  | .error e => pure (.error e)
  | .ok log => do
    let existing ← Prog.look fun s => s.logs.any log.sameCharge
    match env.count with
    | some e => pure (.error (.driver e))
    | none =>
      if existing then pure (.ok ())
      else Prog.atomic (env.create.run (createLog env.newRequestId log))

/-- `applyPendingSettlement`: the charge, then the log row. -/
def applyPendingSettlement (env : ReplayEnv) (item : PendingSettlement) :
    Prog OutboxDb (Except ReplayError Unit) := do
  let r ← (if item.isCharge then applyPendingCharge env item else pure (.ok ()))
  match r with
  | .error e => pure (.error e)
  | .ok _ =>
    match item.log with
    | some log => applyPendingLog env item log
    | none => pure (.ok ())

/-! ### Draining -/

/-- `attempts[key]++` -/
def Process.countFailure (key : String) (p : Process) : Process :=
  { p with attempts := Function.update p.attempts key (p.attempts key + 1) }

/-- `delete(attempts, key)` -/
def Process.forget (key : String) (p : Process) : Process :=
  { p with attempts := Function.update p.attempts key 0 }

/-- `recordReplayFailure`: whether the item should be set aside. -/
def recordReplayFailure (pid : Nat) (item : PendingSettlement) (e : ReplayError) :
    Prog OutboxDb Bool :=
  if isConnectionClassError e then pure false
  else Prog.atomic fun s =>
    (decide (settlementOutboxMaxAttempts ≤ (s.process pid).attempts item.key + 1),
      s.setProcess pid (Process.countFailure item.key))

def forgetAttempts (pid : Nat) (key : String) : Prog OutboxDb Unit :=
  Prog.atomic fun s => ((), s.setProcess pid (Process.forget key))

structure DrainEnv where
  redisEnabled : Bool
  isMasterNode : Bool
  memory : Nat → ReplayEnv
  readable : Bool
  redis : Nat → ReplayEnv
  dequeues : Nat → Bool

/-- `dead = append(dead, item)` -/
def Process.bury (item : PendingSettlement) (e : ReplayError) (p : Process) : Process :=
  { p with dead := p.dead ++ [⟨.item item, .gaveUp e⟩] }

/-- The loop of `drainMemoryOutbox`: what is done with, and how many were applied. -/
def replayMemory (pid : Nat) (env : DrainEnv) :
    List Entry → Nat → List Entry → Nat → Prog OutboxDb (List Entry × Nat)
  | [], _, done, applied => pure (done, applied)
  | entry :: batch, k, done, applied => do
    let r ← applyPendingSettlement (env.memory k) entry.item
    match r with
    | .ok _ => do
      forgetAttempts pid entry.item.key
      replayMemory pid env batch (k + 1) (entry :: done) (applied + 1)
    | .error e => do
      let setAside ← recordReplayFailure pid entry.item e
      if setAside then do
        Prog.atomic (fun s => ((), s.setProcess pid (Process.bury entry.item e)))
        replayMemory pid env batch (k + 1) (entry :: done) applied
      else replayMemory pid env batch (k + 1) done applied

def Process.compact (done : List Entry) (p : Process) : Process :=
  { p with memory := p.memory.filter (fun entry => !done.contains entry) }

def drainMemoryOutbox (pid : Nat) (env : DrainEnv) : Prog OutboxDb (Nat × Nat) := do
  let batch ← Prog.look fun s => (s.process pid).memory
  if batch = [] then pure (0, 0)
  else do
    let (done, applied) ← replayMemory pid env batch 0 [] 0
    let remaining ← Prog.atomic (fun s =>
      (((s.process pid).compact done).memory.length, s.setProcess pid (Process.compact done)))
    pure (applied, remaining)

/-- `RPush` on the dead list. -/
def bury (raw : Raw) (reason : Reason) : Prog OutboxDb Unit :=
  Prog.atomic fun s => ((), { s with redisDead := s.redisDead ++ [⟨raw, reason⟩] })

/-- `LRem` of the first occurrence, when it goes through. -/
def lRem (goes : Bool) (raw : Raw) : Prog OutboxDb Unit :=
  Prog.atomic fun s => ((), if goes then { s with redis := s.redis.erase raw } else s)

/-- The loop of `drainRedisOutbox`: how many were applied. -/
def replayRedis (pid : Nat) (env : DrainEnv) : List Raw → Nat → Nat → Prog OutboxDb Nat
  | [], _, applied => pure applied
  | .unreadable text :: raws, k, applied => do
    bury (.unreadable text) .unreadable
    lRem (env.dequeues k) (.unreadable text)
    replayRedis pid env raws (k + 1) applied
  | .item item :: raws, k, applied => do
    let r ← applyPendingSettlement (env.redis k) item
    match r with
    | .ok _ => do
      forgetAttempts pid item.key
      lRem (env.dequeues k) (.item item)
      replayRedis pid env raws (k + 1) (applied + 1)
    | .error e => do
      let setAside ← recordReplayFailure pid item e
      if setAside then do
        bury (.item item) (.gaveUp e)
        lRem (env.dequeues k) (.item item)
        replayRedis pid env raws (k + 1) applied
      else replayRedis pid env raws (k + 1) applied

def drainRedisOutbox (pid : Nat) (env : DrainEnv) : Prog OutboxDb (Nat × Nat) :=
  if env.readable then do
    let raws ← Prog.look fun s => s.redis.take settlementOutboxBatch
    let applied ← replayRedis pid env raws 0 0
    let remaining ← Prog.look (fun s => s.redis.length)
    pure (applied, remaining)
  else pure (0, 0)

def Process.setDraining (draining : Bool) (p : Process) : Process :=
  { p with draining := draining }

def lockDrain (pid : Nat) (s : OutboxDb) : Bool × OutboxDb :=
  if (s.process pid).draining then (false, s)
  else (true, s.setProcess pid (Process.setDraining true))

/-- `DrainSettlementOutbox`.  A drain that has to wait for the mutex is one that
is made later. -/
def drainSettlementOutbox (pid : Nat) (env : DrainEnv) : Prog OutboxDb (Nat × Nat) := do
  let locked ← Prog.atomic (lockDrain pid)
  if locked then do
    let m ← drainMemoryOutbox pid env
    let r ← (if env.redisEnabled && env.isMasterNode then drainRedisOutbox pid env
      else pure (0, 0))
    Prog.atomic (fun s => ((), s.setProcess pid (Process.setDraining false)))
    pure (m.1 + r.1, m.2 + r.2)
  else pure (0, 0)

/-! ### Calls -/

inductive OutboxCall where
  | park (pid : Nat) (push : Option Push) (item : PendingSettlement)
  | drain (pid : Nat) (env : DrainEnv)
  | crash (pid : Nat)

def Process.crash (p : Process) : Process :=
  { p with alive := false, memory := [], dead := [], attempts := fun _ => 0 }

def OutboxCall.prog : OutboxCall → Prog OutboxDb Unit
  | .park pid push item => parkSettlement pid push item
  | .drain pid env => do
    let _ ← drainSettlementOutbox pid env
    pure ()
  | .crash pid => Prog.atomic fun s => ((), s.setProcess pid Process.crash)

end UnifyConsole.Outbox
