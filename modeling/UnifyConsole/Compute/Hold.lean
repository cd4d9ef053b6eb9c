import UnifyConsole.Account.Store
import UnifyConsole.Lib.Prog

/-!
# Compute holds

`model/compute_hold.go`: a hold is a wallet pre-consume that outlives one
request.  Creating and extending a hold take quota from the login's wallet,
settling records how much of it is spent, and closing it (a final settlement, a
release or an expiry) gives the rest back.

Each function of the file is a `Prog`: its reads outside a transaction are one
step each, a `DB.Transaction` is one step whose body is a `Tx`, and the token
adjustment that follows a commit is made of its own two statements.  The
argument `commits` says which of a call's transactions the database accepts.
-/

namespace UnifyConsole.Compute

open Lib Account

/-! ### Rows -/

inductive ComputeHoldStatus where
  | active
  | settled
  | released
  | expired
deriving DecidableEq

/-- `MaxComputeQuota`: the largest 32-bit integer. -/
def maxComputeQuota : Int := 2147483647

structure ComputeHold where
  holdId : String
  userId : Int
  tenantId : Int
  tokenId : Int
  jobId : String
  sku : String
  quota : Int
  /-- The amount the creating request asked for; `quota` grows with extends. -/
  requestedQuota : Int
  settledQuota : Int
  releasedQuota : Int
  status : ComputeHoldStatus
  expiresAt : Int
  createdAt : Int
  updatedAt : Int
deriving DecidableEq

def ComputeHold.remaining (h : ComputeHold) : Int := h.quota - h.settledQuota

structure ComputeSettlement where
  eventId : String
  holdId : String
  cumulativeQuota : Int
  quotaDelta : Int
  gpuSeconds : Int
  final : Bool
  createdAt : Int

structure ComputeExtension where
  extendId : String
  holdId : String
  additionalQuota : Int
  quotaAfter : Int
  remainQuota : Int
  createdAt : Int

structure HoldDb where
  store : Store
  holds : Table ComputeHold.holdId := .empty
  settlements : Table ComputeSettlement.eventId := .empty
  extensions : Table ComputeExtension.extendId := .empty

inductive ComputeError where
  | holdNotFound
  | holdExpired
  | holdClosed
  | holdExceeded
  | holdConflict
  | eventConflict
  | settlementRegressed
  | tokenQuotaShort
  | quotaOutOfRange
  | holdLapsed
  | settlementDuplicated
  | idempotencyConflict
  | extensionDuplicated
  | createNeedsToken
  | extendNeedsToken
  | changedConcurrently
  | account (e : AccountError)
deriving DecidableEq

/-- The texts of the errors.  The three conflicts are different values with one
text. -/
def ComputeError.text : ComputeError → String
  | .holdNotFound => "hold_not_found"
  | .holdExpired => "hold_expired"
  | .holdClosed => "hold_closed"
  | .holdExceeded => "hold_exceeded"
  | .holdConflict => "idempotency_conflict"
  | .eventConflict => "idempotency_conflict"
  | .settlementRegressed => "cumulative quota below what is already settled"
  | .tokenQuotaShort => "token_quota_insufficient"
  | .quotaOutOfRange => "quota_out_of_range"
  | .holdLapsed => "hold lapsed"
  | .settlementDuplicated => "settlement duplicated"
  | .idempotencyConflict => "idempotency_conflict"
  | .extensionDuplicated => "extension duplicated"
  | .createNeedsToken => "compute hold needs the validated token it draws on"
  | .extendNeedsToken => "compute extend needs the validated token it draws on"
  | .changedConcurrently => "compute hold changed concurrently"
  | .account .insufficientBillingQuota => "billing quota is insufficient"
  | .account .invalidUserId => "invalid user id"
  | .account .recordNotFound => "record not found"
  | .account _ => "database error"

abbrev ComputeTx := Tx HoldDb ComputeError
abbrev ComputeProg := Prog HoldDb

def account {α : Type} (x : AccountTx α) : ComputeTx α :=
  Tx.zoom HoldDb.store (fun db s => { db with store := s }) ComputeError.account x

/-- One `DB.Transaction`. -/
def transaction {α : Type} (commits : Bool) (x : ComputeTx α) :
    ComputeProg (Except ComputeError α) :=
  Prog.transact commits (.account .database) x

/-! ### Reading and guarding a hold -/

def lockComputeHold (holdId : String) : ComputeTx ComputeHold :=
  Tx.fetch (fun db => db.holds.find? holdId) .holdNotFound

def getComputeHold (holdId : String) : ComputeProg (Option ComputeHold) :=
  Prog.look fun db => db.holds.find? holdId

def activeComputeHold (hold : ComputeHold) (now : Int) : ComputeTx Unit :=
  match hold.status with
  | .expired => Tx.fail .holdExpired
  | .active => Tx.ensure (now < hold.expiresAt) .holdLapsed
  | _ => Tx.fail .holdClosed

structure HoldUpdates where
  quota : Option Int := none
  settledQuota : Option Int := none
  releasedQuota : Option Int := none
  status : Option ComputeHoldStatus := none
  updatedAt : Int

def HoldUpdates.apply (u : HoldUpdates) (h : ComputeHold) : ComputeHold :=
  { h with
    quota := u.quota.getD h.quota
    settledQuota := u.settledQuota.getD h.settledQuota
    releasedQuota := u.releasedQuota.getD h.releasedQuota
    status := u.status.getD h.status
    updatedAt := u.updatedAt }

theorem HoldUpdates.holdId_apply (u : HoldUpdates) (h : ComputeHold) :
    (u.apply h).holdId = h.holdId := rfl

/-- The guard of `casComputeHold`: nobody moved the row since it was read. -/
def unmoved (hold row : ComputeHold) : Bool :=
  decide (row.holdId = hold.holdId) &&
    (decide (row.status = hold.status) && decide (row.quota = hold.quota) &&
      decide (row.settledQuota = hold.settledQuota))

def casComputeHold (hold : ComputeHold) (updates : HoldUpdates) : ComputeTx Unit :=
  Tx.writeSome (fun db =>
    if db.holds.matched (unmoved hold) = 1
    then some { db with holds := db.holds.update (unmoved hold) updates.apply updates.holdId_apply }
    else none) .changedConcurrently

def adjustComputeTokenQuota (tokenId delta : Int) : ComputeProg Unit :=
  if tokenId ≤ 0 ∨ delta = 0 then pure ()
  else do
    match ← Prog.look (fun db : HoldDb => db.store.tokens.find? tokenId) with
    | none => pure ()
    | some token =>
      Prog.atomic fun db =>
        ((), { db with
          store := if 0 < delta then db.store.increaseTokenQuota token.id delta
            else db.store.decreaseTokenQuota token.id (-delta) })

/-- An unspent remainder goes back to the wallet the login has now. -/
def creditBack (userId remainder : Int) : ComputeTx Unit :=
  Tx.when (0 < remainder) (do
    let _ ← account (adjustBillingQuotaWithTx userId remainder)
    pure ())

/-! ### Creating -/

/-- The transaction of `CreateComputeHold`. -/
def createTx (hold : ComputeHold) : ComputeTx ComputeHold := do
  let resolved ← account (resolveBillingEntity hold.userId)
  let hold := { hold with tenantId := resolved.tenantId }
  Tx.writeSome (fun db => (db.holds.insert? hold).map fun t => { db with holds := t })
    (.account .duplicateKey)
  let _ ← account (tryDecreaseUserQuotaWithTx hold.userId hold.quota)
  pure hold

def replayComputeHold (existing requested : ComputeHold) :
    Except ComputeError (ComputeHold × Bool) :=
  if existing.userId ≠ requested.userId ∨ existing.tokenId ≠ requested.tokenId ∨
      existing.jobId ≠ requested.jobId ∨ existing.sku ≠ requested.sku ∨
      existing.requestedQuota ≠ requested.quota ∨ existing.expiresAt ≠ requested.expiresAt
  then .error .holdConflict
  else .ok (existing, true)

/-- The row `CreateComputeHold` stores for a request. -/
def freshHold (hold : ComputeHold) (now : Int) : ComputeHold :=
  { hold with
    status := .active
    requestedQuota := hold.quota
    settledQuota := 0
    releasedQuota := 0
    createdAt := now
    updatedAt := now }

def createComputeHold (hold : ComputeHold) (token : Option Token) (now : Int)
    (commits : Nat → Bool) : ComputeProg (Except ComputeError (ComputeHold × Bool)) :=
  if hold.quota ≤ 0 ∨ maxComputeQuota < hold.quota then pure (.error .quotaOutOfRange)
  else do
    match ← getComputeHold hold.holdId with
    | some existing => pure (replayComputeHold existing hold)
    | none =>
      match token with
      | none => pure (.error .createNeedsToken)
      | some token =>
        if token.id ≠ hold.tokenId ∨ token.userId ≠ hold.userId then
          pure (.error .createNeedsToken)
        else if token.unlimitedQuota = false ∧ token.remainQuota < hold.quota then
          pure (.error .tokenQuotaShort)
        else do
          match ← transaction (commits 0) (createTx (freshHold hold now)) with
          | .ok stored =>
            adjustComputeTokenQuota hold.tokenId (-hold.quota)
            pure (.ok (stored, false))
          | .error (.account .duplicateKey) =>
            match ← getComputeHold hold.holdId with
            | some existing => pure (replayComputeHold existing hold)
            | none => pure (.error (.account .duplicateKey))
          | .error e => pure (.error e)

/-! ### Expiring -/

def expireTx (holdId : String) (now : Int) : ComputeTx (Option ComputeHold) := do
  let hold ← lockComputeHold holdId
  if hold.status ≠ .active ∨ now < hold.expiresAt then pure none
  else do
    let remainder := hold.remaining
    casComputeHold hold
      { status := some .expired, releasedQuota := some remainder, updatedAt := now }
    creditBack hold.userId remainder
    pure (some { hold with releasedQuota := remainder })

def expireComputeHold (holdId : String) (now : Int) (commits : Bool) :
    ComputeProg (Except ComputeError Bool) := do
  match ← transaction commits (expireTx holdId now) with
  | .error e => pure (.error e)
  | .ok none => pure (.ok false)
  | .ok (some expired) =>
    Prog.when (0 < expired.releasedQuota)
      (adjustComputeTokenQuota expired.tokenId expired.releasedQuota)
    pure (.ok true)

/-- `expireLapsedComputeHold` always answers with an error. -/
def expireLapsedComputeHold (holdId : String) (now : Int) (commits : Bool) :
    ComputeProg ComputeError := do
  match ← expireComputeHold holdId now commits with
  | .error e => pure e
  | .ok _ => pure .holdExpired

/-- The holds `SweepExpiredComputeHolds` selects.  A negative limit is no
limit. -/
def lapsedHolds (db : HoldDb) (now limit : Int) : List String :=
  let rows := (db.holds.rows.filter
    (fun h => decide (h.status = .active) && decide (h.expiresAt ≤ now))).insertionSort
    (fun a b => a.expiresAt ≤ b.expiresAt)
  (if limit < 0 then rows else rows.take limit.toNat).map ComputeHold.holdId

def sweepLoop (now : Int) (commits : Nat → Bool) : List String → Nat → ComputeProg Nat
  | [], _ => pure 0
  | holdId :: rest, i => do
    let done ← expireComputeHold holdId now (commits i)
    let closed ← sweepLoop now commits rest (i + 1)
    match done with
    | .ok true => pure (closed + 1)
    | _ => pure closed

def sweepExpiredComputeHolds (now limit : Int) (commits : Nat → Bool) : ComputeProg Nat := do
  let holdIds ← Prog.look (fun db => lapsedHolds db now limit)
  sweepLoop now commits holdIds 0

/-! ### Settling -/

structure ComputeSettleResult where
  hold : ComputeHold
  delta : Int
  releasedQuota : Int
  replayed : Bool

/-- The row `SettleComputeHold` stores for an event on a hold. -/
def settlementRow (holdId : String) (event : ComputeSettlement) (delta : Int) (final : Bool)
    (now : Int) : ComputeSettlement :=
  { event with
    holdId := holdId
    quotaDelta := delta
    final := final
    createdAt := now }

def settleUpdates (hold : ComputeHold) (event : ComputeSettlement) (final : Bool) (now : Int) :
    HoldUpdates :=
  if final then
    { settledQuota := some event.cumulativeQuota, status := some .settled,
      releasedQuota := some (hold.quota - event.cumulativeQuota), updatedAt := now }
  else { settledQuota := some event.cumulativeQuota, updatedAt := now }

/-- The transaction of `SettleComputeHold`. -/
def settleTx (holdId : String) (event : ComputeSettlement) (final : Bool) (now : Int) :
    ComputeTx ComputeSettleResult := do
  let hold ← lockComputeHold holdId
  activeComputeHold hold now
  Tx.ensure (event.cumulativeQuota ≤ hold.quota) .holdExceeded
  Tx.ensure (hold.settledQuota ≤ event.cumulativeQuota) .settlementRegressed
  let delta := event.cumulativeQuota - hold.settledQuota
  let released := if final then hold.quota - event.cumulativeQuota else 0
  let updates := settleUpdates hold event final now
  casComputeHold hold updates
  Tx.writeSome (fun db =>
    (db.settlements.insert? (settlementRow holdId event delta final now)).map
      (fun t => { db with settlements := t })) .settlementDuplicated
  creditBack hold.userId released
  pure { hold := updates.apply hold, delta := delta, releasedQuota := released, replayed := false }

/-- `replayComputeSettlement`: `none` for an event it has not seen. -/
def replayComputeSettlement (holdId : String) (event : ComputeSettlement) (final : Bool) :
    ComputeProg (Option (Except ComputeError ComputeSettleResult)) := do
  match ← Prog.look (fun db : HoldDb => db.settlements.find? event.eventId) with
  | none => pure none
  | some seen =>
    if seen.holdId ≠ holdId ∨ seen.cumulativeQuota ≠ event.cumulativeQuota ∨
        seen.gpuSeconds ≠ event.gpuSeconds ∨ seen.final ≠ final
    then pure (some (.error .eventConflict))
    else do
      match ← getComputeHold holdId with
      | none => pure (some (.error .holdNotFound))
      | some hold =>
        pure (some (.ok { hold := hold, delta := 0, releasedQuota := 0, replayed := true }))

/-- `SettleComputeHold`.  The answer `.ok none` is the source's `(nil, nil)`. -/
def settleComputeHold (holdId : String) (event : ComputeSettlement) (final : Bool) (now : Int)
    (commits : Nat → Bool) : ComputeProg (Except ComputeError (Option ComputeSettleResult)) :=
  if event.cumulativeQuota < 0 ∨ maxComputeQuota < event.cumulativeQuota ∨ event.gpuSeconds < 0
  then pure (.error .quotaOutOfRange)
  else do
    match ← replayComputeSettlement holdId event final with
    | some answer => pure (answer.map some)
    | none =>
      match ← transaction (commits 0) (settleTx holdId event final now) with
      | .ok result =>
        Prog.when (0 < result.releasedQuota)
          (adjustComputeTokenQuota result.hold.tokenId result.releasedQuota)
        pure (.ok (some result))
      | .error .holdLapsed =>
        let e ← expireLapsedComputeHold holdId now (commits 1)
        pure (.error e)
      | .error .settlementDuplicated =>
        match ← replayComputeSettlement holdId event final with
        | some answer => pure (answer.map some)
        | none => pure (.ok none)
      | .error e => pure (.error e)

/-! ### Extending -/

/-- `replayComputeExtension`: `none` for an extend id it has not seen. -/
def replayComputeExtension (holdId extendId : String) (additional : Int) :
    ComputeProg (Option (Except ComputeError ComputeExtension)) := do
  match ← Prog.look (fun db : HoldDb => db.extensions.find? extendId) with
  | none => pure none
  | some extension =>
    if extension.holdId ≠ holdId ∨ extension.additionalQuota ≠ additional
    then pure (some (.error .idempotencyConflict))
    else pure (some (.ok extension))

/-- The transaction of `ExtendComputeHold`. -/
def extendTx (holdId extendId : String) (additional : Int) (token : Token) (now : Int) :
    ComputeTx ComputeExtension := do
  let hold ← lockComputeHold holdId
  activeComputeHold hold now
  Tx.ensure (hold.tokenId = token.id) .holdConflict
  Tx.ensure (hold.quota + additional ≤ maxComputeQuota) .quotaOutOfRange
  casComputeHold hold { quota := some (hold.quota + additional), updatedAt := now }
  let entity ← account (tryDecreaseUserQuotaWithTx hold.userId additional)
  let remain ← account (getBillingQuotaFromDB entity)
  let extension : ComputeExtension :=
    { extendId := extendId, holdId := holdId, additionalQuota := additional,
      quotaAfter := hold.quota + additional, remainQuota := remain, createdAt := now }
  Tx.writeSome (fun db => (db.extensions.insert? extension).map fun t => { db with extensions := t })
    .extensionDuplicated
  pure extension

/-- `ExtendComputeHold`, with the flag that says the answer is a replay. -/
def extendComputeHold (holdId extendId : String) (additional : Int) (token : Option Token)
    (now : Int) (commits : Nat → Bool) :
    ComputeProg (Except ComputeError (Option ComputeExtension × Bool)) :=
  if additional ≤ 0 ∨ maxComputeQuota < additional then pure (.error .quotaOutOfRange)
  else do
    match ← replayComputeExtension holdId extendId additional with
    | some (.ok seen) => pure (.ok (some seen, true))
    | some (.error e) => pure (.error e)
    | none =>
      match token with
      | none => pure (.error .extendNeedsToken)
      | some token =>
        if token.unlimitedQuota = false ∧ token.remainQuota < additional then
          pure (.error .tokenQuotaShort)
        else do
          match ← transaction (commits 0) (extendTx holdId extendId additional token now) with
          | .ok extension =>
            adjustComputeTokenQuota token.id (-additional)
            pure (.ok (some extension, false))
          | .error .holdLapsed =>
            let e ← expireLapsedComputeHold holdId now (commits 1)
            pure (.error e)
          | .error .extensionDuplicated =>
            match ← replayComputeExtension holdId extendId additional with
            | some (.ok seen) => pure (.ok (some seen, true))
            | some (.error e) => pure (.error e)
            | none => pure (.ok (none, false))
          | .error e => pure (.error e)

/-! ### Releasing -/

def releaseTx (holdId : String) (now : Int) : ComputeTx (ComputeHold × Bool) := do
  let hold ← lockComputeHold holdId
  if hold.status = .released ∨ hold.status = .settled then pure (hold, false)
  else do
    activeComputeHold hold now
    let remainder := hold.remaining
    let updates : HoldUpdates :=
      { status := some .released, releasedQuota := some remainder, updatedAt := now }
    casComputeHold hold updates
    creditBack hold.userId remainder
    pure (updates.apply hold, decide (0 < remainder))

def releaseComputeHold (holdId : String) (now : Int) (commits : Nat → Bool) :
    ComputeProg (Except ComputeError ComputeHold) := do
  match ← transaction (commits 0) (releaseTx holdId now) with
  | .ok (released, moved) =>
    Prog.when (moved = true) (adjustComputeTokenQuota released.tokenId released.releasedQuota)
    pure (.ok released)
  | .error .holdLapsed =>
    let e ← expireLapsedComputeHold holdId now (commits 1)
    pure (.error e)
  | .error e => pure (.error e)

/-! ### The calls -/

inductive HoldCall where
  | create (hold : ComputeHold) (token : Option Token) (now : Int) (commits : Nat → Bool)
  | settle (holdId : String) (event : ComputeSettlement) (final : Bool) (now : Int)
      (commits : Nat → Bool)
  | extend (holdId extendId : String) (additional : Int) (token : Option Token) (now : Int)
      (commits : Nat → Bool)
  | release (holdId : String) (now : Int) (commits : Nat → Bool)
  | expire (holdId : String) (now : Int) (commits : Bool)
  | sweep (now limit : Int) (commits : Nat → Bool)

inductive HoldReply where
  | created (r : Except ComputeError (ComputeHold × Bool))
  | settled (r : Except ComputeError (Option ComputeSettleResult))
  | extended (r : Except ComputeError (Option ComputeExtension × Bool))
  | released (r : Except ComputeError ComputeHold)
  | expired (r : Except ComputeError Bool)
  | swept (closed : Nat)

def HoldCall.prog : HoldCall → ComputeProg HoldReply
  | .create hold token now commits => .created <$> createComputeHold hold token now commits
  | .settle holdId event final now commits =>
    .settled <$> settleComputeHold holdId event final now commits
  | .extend holdId extendId additional token now commits =>
    .extended <$> extendComputeHold holdId extendId additional token now commits
  | .release holdId now commits => .released <$> releaseComputeHold holdId now commits
  | .expire holdId now commits => .expired <$> expireComputeHold holdId now commits
  | .sweep now limit commits => .swept <$> sweepExpiredComputeHolds now limit commits

end UnifyConsole.Compute
