import Mathlib
import UnifyConsole.Lib.Rely

/-!
# Login sessions and their cached snapshot

One row of `user_sessions` and the Redis hash that caches it.  Every SQL statement or
transaction, every run of the Lua script of `writeUserSessionCache` and every look at the clock is
one step of a program, so a reader may be held up for any time between its read of the row and its
write of the cache.

The row is revoked by `revokeUserSession`, `revokeUserSessionByRefreshHash` and
`revokeUserSessions`, and by `rotateUserSessionRefresh` when a replaced token is presented too
late; all of them put a deny entry into the cache before they touch the row and again after it.
An active entry lives until the deadline that its writer took before it read the row.

The clock counts milliseconds.  `time.Now().Unix()` is its quotient by 1000.  `history` is what the
statements about whole runs speak of: no program reads it.
-/

namespace UnifyConsole.Auth

open Lib

/-! ### Rows and cache entries -/

inductive SessionStatus
  | active
  | revoking
  | revoked
  deriving DecidableEq

inductive SessionError
  | invalid
  | inactive
  | refreshInvalid
  | refreshRace
  | refreshReuse
  /-- `errUserSessionCacheObservationStale` -/
  | observationStale
  /-- The key is missing or its entry is of another schema. -/
  | cacheMiss
  /-- `gorm.ErrRecordNotFound` -/
  | notFound
  deriving DecidableEq

/-- The fields of `userSessionCacheEntry` that are read back. -/
structure Snapshot where
  userId : ℤ
  version : ℤ
  userAuthVersion : ℤ
  status : SessionStatus
  expiresAt : ℤ
  revokedAt : ℤ

/-- A row of `user_sessions`. -/
structure UserSession (H : Type) where
  userId : ℤ
  version : ℤ
  userAuthVersion : ℤ
  status : SessionStatus
  refreshHash : H
  previousRefreshHash : Option H
  previousValidUntil : ℤ
  expiresAt : ℤ
  revokedAt : ℤ
  deriving DecidableEq

variable {H : Type}

def UserSession.cacheEntry (session : UserSession H) : Snapshot where
  userId := session.userId
  version := session.version
  userAuthVersion := session.userAuthVersion
  status := session.status
  expiresAt := session.expiresAt
  revokedAt := session.revokedAt

structure CacheEntry where
  snapshot : Snapshot
  expireAt : ℤ

structure UserBase where
  enabled : Bool
  authVersion : ℤ

/-- What a run has done; `after`: a revocation had returned when the call began. -/
inductive SessionEvent (H : Type)
  | revocationReturned
  | accepted (after : Bool)
  | rotated (after : Bool) (presented : H) (now : ℤ)
  /-- The row was revoked by a call that presented this token. -/
  | revoked (presented : Option H)
  /-- `RevokeUserSession` revoked a row whose version had moved since it was read. -/
  | versionMoved
  /-- A token that had been replaced earlier than the last one was presented. -/
  | forgotten (presented : H)
  deriving DecidableEq

/-- The clock, the row, the cached hash and the user.  `revokedTime` is when the row was
revoked. -/
structure SessionState (H : Type) where
  clock : ℤ
  row : UserSession H
  cache : Option CacheEntry
  userCache : UserBase
  user : UserBase
  revokedTime : Option ℤ
  history : List (SessionEvent H)

namespace SessionState

def liveCache (s : SessionState H) : Option CacheEntry :=
  s.cache.filter fun entry => decide (s.clock ≤ entry.expireAt)

/-- A revocation of the session has returned with success. -/
def Returned (s : SessionState H) : Prop := SessionEvent.revocationReturned ∈ s.history

instance [DecidableEq H] (s : SessionState H) : Decidable s.Returned :=
  inferInstanceAs (Decidable (_ ∈ _))

def created (time : ℤ) (row : UserSession H) (user : UserBase) : SessionState H where
  clock := time
  row := row
  cache := none
  userCache := user
  user := user
  revokedTime := none
  history := []

def note (event : SessionEvent H) (s : SessionState H) : SessionState H :=
  { s with history := event :: s.history }

/-- `UPDATE ... SET status = revoked, revoked_at = now`. -/
def revokeRow (now : ℤ) (presented : Option H) (s : SessionState H) : SessionState H :=
  { s with
    row := { s.row with status := .revoked, revokedAt := now }
    revokedTime := some s.clock
    history := .revoked presented :: s.history }

end SessionState

open SessionState

/-! ### The cache -/

def clock : Prog (SessionState H) ℤ := Prog.look fun s => s.clock

/-- `time.Now().Unix()` -/
def unixNow : Prog (SessionState H) ℤ := Prog.look fun s => s.clock / 1000

/-- `PEXPIREAT` and `PEXPIRE`. -/
inductive Expiration
  | at (time : ℤ)
  | after (ttl : ℤ)

/-- The hash after `HSET` and its expiration; a key that is given a time in the past is gone. -/
def placed (entry : Snapshot) (now : ℤ) : Expiration → Option CacheEntry
  | .at time => if time ≤ now then none else some ⟨entry, time⟩
  | .after ttl => if ttl ≤ 0 then none else some ⟨entry, now + ttl⟩

/-- The Lua script: deny entries and higher versions are not replaced. -/
def script (entry : Snapshot) (expiration : Expiration) (s : SessionState H) :
    Bool × SessionState H :=
  match s.liveCache with
  | none => (true, { s with cache := placed entry s.clock expiration })
  | some current =>
    if entry.status = .active ∧ current.snapshot.status ≠ .active then (false, s)
    else if entry.version < current.snapshot.version then (false, s)
    else (true, { s with cache := placed entry s.clock expiration })

def userSessionCacheDeadline (cacheTTL : ℕ) : Prog (SessionState H) ℤ :=
  Prog.look fun s => s.clock + cacheTTL * 1000

/-- The branch of `writeUserSessionCache` for an active entry. -/
def writeActiveEntry (entry : Snapshot) (deadline : ℤ) :
    Prog (SessionState H) (Except SessionError Unit) := do
  let now ← clock
  if deadline - now ≤ 0 then pure (.error .observationStale)
  else if entry.expiresAt * 1000 - now ≤ 0 then pure (.error .inactive)
  else if min deadline (entry.expiresAt * 1000) - now < 1 then pure (.error .observationStale)
  else
    let written ← Prog.atomic (script entry (.at (min deadline (entry.expiresAt * 1000))))
    if written = false then pure (.error .inactive)
    else
      let completedAt ← clock
      if deadline ≤ completedAt then pure (.error .observationStale)
      else if entry.expiresAt * 1000 ≤ completedAt then pure (.error .inactive)
      else pure (.ok ())

def denyTTL (cacheTTL : ℕ) (entry : Snapshot) (now : ℤ) : ℤ :=
  let ttl := min (entry.expiresAt * 1000 - now) (cacheTTL * 1000)
  if ttl ≤ 0 then 1000 else ttl

/-- The branch of `writeUserSessionCache` for a deny entry. -/
def writeDenyEntry (cacheTTL : ℕ) (entry : Snapshot) :
    Prog (SessionState H) (Except SessionError Unit) := do
  let now ← clock
  let written ← Prog.atomic (script entry (.after (denyTTL cacheTTL entry now)))
  pure (if written then .ok () else .error .inactive)

/-- `writeUserSessionCache`; `none` is the zero deadline. -/
def writeUserSessionCache (cacheTTL : ℕ) (entry : Snapshot) (cacheDeadline : Option ℤ) :
    Prog (SessionState H) (Except SessionError Unit) :=
  if entry.status = .active then
    match cacheDeadline with
    | none => pure (.error .invalid)
    | some deadline => writeActiveEntry entry deadline
  else writeDenyEntry cacheTTL entry

def writeUserSessionDenyFence (cacheTTL : ℕ) (session : UserSession H) (status : SessionStatus)
    (now : ℤ) : Prog (SessionState H) (Except SessionError Unit) :=
  writeUserSessionCache cacheTTL { session.cacheEntry with status := status, revokedAt := now } none

def getUserSessionCache : Prog (SessionState H) (Except SessionError Snapshot) := do
  match ← Prog.look liveCache with
  | none => pure (.error .cacheMiss)
  | some cached =>
    let entry := cached.snapshot
    if entry.userId ≤ 0 ∨ entry.version ≤ 0 ∨ entry.userAuthVersion ≤ 0 then
      pure (.error .cacheMiss)
    else
      let now ← unixNow
      if entry.status ≠ .active ∨ entry.revokedAt ≠ 0 ∨ entry.expiresAt ≤ now then
        pure (.error .inactive)
      else pure (.ok entry)

def UserSession.Usable (session : UserSession H) (now : ℤ) : Prop :=
  session.status = .active ∧ session.revokedAt = 0 ∧ now < session.expiresAt

instance (session : UserSession H) (now : ℤ) : Decidable (session.Usable now) :=
  inferInstanceAs (Decidable (_ ∧ _ ∧ _))

def confirmUserSessionActiveSnapshot (session : UserSession H) :
    Prog (SessionState H) (Except SessionError Unit) :=
  if session.userId ≤ 0 ∨ session.version ≤ 0 ∨ session.userAuthVersion ≤ 0 then
    pure (.error .invalid)
  else do
    let now ← unixNow
    let found ← Prog.look (fun s : SessionState H => decide (s.row.userId = session.userId ∧
      s.row.Usable now ∧ s.row.version = session.version ∧
      s.row.userAuthVersion = session.userAuthVersion))
    pure (if found then .ok () else .error .inactive)

/-- The end of a call that wrote an active entry: one that came too late looks at the row again. -/
def publishActive (cacheTTL : ℕ) (session : UserSession H) (deadline : ℤ) :
    Prog (SessionState H) (Except SessionError Unit) := do
  match ← writeUserSessionCache cacheTTL session.cacheEntry (some deadline) with
  | .error .observationStale => confirmUserSessionActiveSnapshot session
  | .error .inactive => pure (.error .inactive)
  | _ => pure (.ok ())

def getUserSessionCached (cacheTTL : ℕ) : Prog (SessionState H) (Except SessionError Snapshot) := do
  match ← getUserSessionCache with
  | .ok entry => pure (.ok entry)
  | .error .inactive => pure (.error .inactive)
  | .error _ =>
    let cacheDeadline ← userSessionCacheDeadline cacheTTL
    let session ← Prog.look fun s => s.row
    let now ← unixNow
    if session.Usable now then
      let published ← publishActive cacheTTL session cacheDeadline
      pure (published.map fun _ => session.cacheEntry)
    else
      let _ ← writeUserSessionCache cacheTTL { session.cacheEntry with status := .revoked } none
      pure (.error .inactive)

/-! ### Revocation -/

/-- `RevokeUserSession`; the tombstone is of the row as read before the transaction. -/
def revokeUserSession (cacheTTL : ℕ) (userId : ℤ) (presented : Option H) :
    Prog (SessionState H) (Except SessionError Bool) :=
  if userId ≤ 0 then pure (.error .invalid)
  else do
    let now ← unixNow
    let candidate ← Prog.look fun s => s.row
    if candidate.userId ≠ userId ∨ ¬ candidate.Usable now then pure (.ok false)
    else
      match ← writeUserSessionDenyFence cacheTTL candidate .revoking now with
      | .error e => pure (.error e)
      | .ok () =>
        let revoked ← Prog.atomic fun s =>
          if s.row.userId = userId ∧ s.row.Usable now then
            (true, if s.row.version = candidate.version then s.revokeRow now presented
              else (s.revokeRow now presented).note .versionMoved)
          else (false, s)
        if revoked then
          let _ ← writeUserSessionDenyFence cacheTTL candidate .revoked now
          pure (.ok true)
        else pure (.ok false)

/-- `RevokeUserSessionByRefreshHash`: the row is locked from the read to the update. -/
def revokeUserSessionByRefreshHash [DecidableEq H] (cacheTTL : ℕ) (presentedHash : H) :
    Prog (SessionState H) (Except SessionError Bool) := do
  let now ← unixNow
  let session ← Prog.look fun s => s.row
  let validCurrent := session.refreshHash = presentedHash
  let validPrevious := now ≤ session.previousValidUntil ∧
    session.previousRefreshHash = some presentedHash
  if ¬ session.Usable now ∨ (¬ validCurrent ∧ ¬ validPrevious) then pure (.ok false)
  else
    match ← writeUserSessionDenyFence cacheTTL session .revoking now with
    | .error e => pure (.error e)
    | .ok () =>
      let revoked ← Prog.atomic fun s =>
        if s.row = session then (true, s.revokeRow now (some presentedHash)) else (false, s)
      if revoked then
        let _ ← writeUserSessionDenyFence cacheTTL session .revoked now
        pure (.ok true)
      else pure (.ok false)

/-- The rounds of `revokeUserSessions` for this session; `picked`: it is among the candidates of a
round. A call that runs out of rounds has not returned. -/
def revokeRounds (cacheTTL : ℕ) (userId now : ℤ) (excluded : Bool) :
    List Bool → Bool → Prog (SessionState H) (Except SessionError Bool)
  | [], revokedHere => do
    let session ← Prog.look fun s => s.row
    if session.userId = userId ∧ session.status = .active ∧ now < session.expiresAt ∧
        excluded = false then pure (.ok false)
    else pure (.ok revokedHere)
  | picked :: rounds, revokedHere => do
    let session ← Prog.look fun s => s.row
    if picked = true ∧ session.userId = userId ∧ session.status = .active ∧
        now < session.expiresAt ∧ excluded = false then
      match ← writeUserSessionDenyFence cacheTTL session .revoking now with
      | .error e => pure (.error e)
      | .ok () =>
        let revoked ← Prog.atomic fun s =>
          if s.row.status = .active then (some s.row, s.revokeRow now none) else (none, s)
        match revoked with
        | some row =>
          let _ ← writeUserSessionDenyFence cacheTTL row .revoked now
          revokeRounds cacheTTL userId now excluded rounds true
        | none => revokeRounds cacheTTL userId now excluded rounds revokedHere
    else revokeRounds cacheTTL userId now excluded rounds revokedHere

/-- `RevokeOtherUserSessions` and `RevokeAllUserSessions`. -/
def revokeUserSessions (cacheTTL : ℕ) (userId : ℤ) (excluded : Bool) (rounds : List Bool) :
    Prog (SessionState H) (Except SessionError Bool) :=
  if userId ≤ 0 then pure (.error .invalid)
  else do
    let now ← unixNow
    revokeRounds cacheTTL userId now excluded rounds false

/-! ### Rotation and the session version -/

def UserSession.rotate (session : UserSession H) (nextHash : H) (now grace : ℤ) : UserSession H :=
  { session with
    previousRefreshHash := some session.refreshHash
    previousValidUntil := now + grace
    refreshHash := nextHash }

/-- The three attempts of `RotateUserSessionRefresh`; `late`: the token was rotated out and its
grace period over at `now`. -/
def rotateAttempts [DecidableEq H] (cacheTTL : ℕ) (after late : Bool) (userId : ℤ)
    (presentedHash nextHash : H) (now grace : ℤ) :
    ℕ → Prog (SessionState H) (Except (SessionError × Option (UserSession H)) (UserSession H))
  | 0 => pure (.error (.refreshInvalid, none))
  | attempts + 1 => do
    let cacheDeadline ← userSessionCacheDeadline cacheTTL
    let session ← Prog.atomic fun s => (s.row,
      if late = true ∧ s.row.Usable now ∧ s.row.previousRefreshHash ≠ some presentedHash then
        s.note (.forgotten presentedHash)
      else s)
    if session.userId ≠ userId then pure (.error (.notFound, none))
    else if ¬ session.Usable now then pure (.error (.inactive, none))
    else if session.refreshHash = presentedHash then
      let swapped ← Prog.atomic fun s =>
        if s.row.userId = userId ∧ s.row.Usable now ∧ s.row.refreshHash = presentedHash then
          (true, { s with
            row := { s.row with
              previousRefreshHash := some session.refreshHash
              previousValidUntil := now + grace
              refreshHash := nextHash }
            history := .rotated after presentedHash now :: s.history })
        else (false, s)
      if swapped = false then
        rotateAttempts cacheTTL after late userId presentedHash nextHash now grace attempts
      else
        match ← publishActive cacheTTL (session.rotate nextHash now grace) cacheDeadline with
        | .error e => pure (.error (e, none))
        | .ok () => pure (.ok (session.rotate nextHash now grace))
    else if session.previousRefreshHash ≠ some presentedHash then
      pure (.error (.refreshInvalid, none))
    else if now ≤ session.previousValidUntil then pure (.error (.refreshRace, some session))
    else
      match ← writeUserSessionDenyFence cacheTTL session .revoking now with
      | .error e => pure (.error (e, none))
      | .ok () =>
        let revoked ← Prog.atomic fun s =>
          if s.row.userId = userId ∧ s.row.Usable now then
            (true, s.revokeRow now (some presentedHash))
          else (false, s)
        if revoked then
          let _ ← writeUserSessionDenyFence cacheTTL session .revoked now
          pure (.error (.refreshReuse, none))
        else pure (.error (.inactive, none))

/-- The time of a rotation; the source takes its own if it is given none. -/
def rotationTime (now : ℤ) : Prog (SessionState H) ℤ := if now ≤ 0 then unixNow else pure now

/-- `RotateUserSessionRefresh`; the grace period is in seconds. -/
def rotateUserSessionRefresh [DecidableEq H] (cacheTTL : ℕ) (after late : Bool) (userId : ℤ)
    (presentedHash nextHash : H) (now grace : ℤ) :
    Prog (SessionState H) (Except (SessionError × Option (UserSession H)) (UserSession H)) :=
  if userId ≤ 0 ∨ presentedHash = nextHash then pure (.error (.invalid, none))
  else do
    let now ← rotationTime now
    if grace < 0 then pure (.error (.invalid, none))
    else rotateAttempts cacheTTL after late userId presentedHash nextHash now grace 3

def advanceUserSessionAuthVersion (cacheTTL : ℕ) (userId expectedSessionVersion
    expectedUserAuthVersion nextUserAuthVersion : ℤ) :
    Prog (SessionState H) (Except SessionError (UserSession H)) :=
  if userId ≤ 0 ∨ expectedSessionVersion ≤ 0 ∨ expectedUserAuthVersion ≤ 0 ∨
      nextUserAuthVersion ≤ expectedUserAuthVersion then pure (.error .invalid)
  else do
    let cacheDeadline ← userSessionCacheDeadline cacheTTL
    let now ← unixNow
    let advanced ← Prog.atomic fun s =>
      if s.row.userId = userId ∧ s.row.status = .active ∧ now < s.row.expiresAt ∧
          s.row.version = expectedSessionVersion ∧
          s.row.userAuthVersion = expectedUserAuthVersion then
        let session := { s.row with
          version := s.row.version + 1, userAuthVersion := nextUserAuthVersion }
        (some session, { s with row := session })
      else (none, s)
    match advanced with
    | none => pure (.error .inactive)
    | some session =>
      match ← publishActive cacheTTL session cacheDeadline with
      | .error e => pure (.error e)
      | .ok () => pure (.ok session)

/-! ### Checks of a login -/

structure AuthIdentity where
  userId : ℤ
  userAuthVersion : ℤ
  sessionVersion : ℤ

def validateLoginSession (cacheTTL : ℕ) (identity : AuthIdentity) :
    Prog (SessionState H) (Except SessionError Snapshot) := do
  match ← getUserSessionCached cacheTTL with
  | .error e => pure (.error e)
  | .ok session =>
    let now ← unixNow
    if session.userId ≠ identity.userId ∨ session.status ≠ .active ∨ session.revokedAt ≠ 0 ∨
        session.expiresAt ≤ now ∨ session.version ≠ identity.sessionVersion ∨
        session.userAuthVersion ≠ identity.userAuthVersion then pure (.error .inactive)
    else
      let user ← Prog.look fun s => s.userCache
      if user.enabled = false ∨ user.authVersion ≠ identity.userAuthVersion then
        pure (.error .inactive)
      else pure (.ok session)

end UnifyConsole.Auth
