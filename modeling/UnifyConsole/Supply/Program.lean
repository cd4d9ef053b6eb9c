import UnifyConsole.Supply.Lot
import UnifyConsole.Account.Quota
import UnifyConsole.Lib.Prog

/-!
# The writers of a credit lot

`model/credit_lot.go`, `model/credit_supply_consume.go` and
`model/credit_share_payout.go`, one step for each SQL statement.

A row lock is an entry of `locked`.  `SELECT … FOR UPDATE` takes it, an `UPDATE`
inside a transaction takes it, and it is given back with the commit or the
rollback.  What a transaction writes is seen by nobody before its commit, and
what it holds is written by nobody else, so its writes are made in the step of
the commit.  A statement that meets the lock of another transaction has to wait;
here it answers `lockWait` and does nothing, and a statement that waited is one
that is made when the lock is free.

`draws`, `verifications` and `edits` are read by no function.  The first two say
what was booked on a lot and when, and `edits` what the edits under way have read.
-/

namespace UnifyConsole.Supply

open Lib Account
open Tx

/-! ### Tables -/

inductive LotEventType where
  | created
  | edited
  | transition
  | verified
  | sharePaid
  | retired
deriving DecidableEq

structure CreditLotEvent where
  lotId : Int
  actor : String
  eventType : LotEventType
  fromStatus : LotStatus
  toStatus : LotStatus

structure CreditLotUsage where
  lotId : Int
  day : String
  requests : Int
  faceUSD : ℚ
  revenueUSD : ℚ

/-- The unique index of `credit_lot_usages`. -/
def CreditLotUsage.key (u : CreditLotUsage) : Int × String := (u.lotId, u.day)

inductive PayoutMethod where
  | platformCredit
  | external
  | other (text : String)
deriving DecidableEq

structure CreditSharePayout where
  supplierId : Int
  lotId : Int
  batch : String
  amountUSD : ℚ
  earnedToDateUSD : ℚ
  revenueToDateUSD : ℚ
  sharePct : ℚ
  method : PayoutMethod
  reference : String
  actor : String

structure CreditSupplier where
  id : Int
  userId : Int

structure Draw where
  lotId : Int
  day : String
  faceUSD : ℚ
  revenueUSD : ℚ
deriving DecidableEq

structure Verification where
  lotId : Int
  costUSD : ℚ

structure LotDb where
  lots : Table CreditLot.id
  events : List CreditLotEvent
  usages : Table CreditLotUsage.key
  payouts : List CreditSharePayout
  suppliers : Table CreditSupplier.id
  channels : List Int
  store : Store
  locked : List Int
  lockedSuppliers : List Int
  draws : List Draw
  verifications : List Verification
  edits : List CreditLot

/-! ### Statements -/

/-- `Save`: the whole row. -/
def putLot (lots : Table CreditLot.id) (lot : CreditLot) : Table CreditLot.id :=
  lots.update (fun row => decide (row.id = lot.id)) (fun row => { lot with id := row.id })
    (fun _ => rfl)

def ensureChannelFree (channelId exceptLotId : Int) (s : LotDb) : Except LotError Unit :=
  if channelId = 0 then .ok ()
  else if channelId ∉ s.channels then .error (.channelMissing channelId)
  else if s.lots.rows.any (fun lot => decide (lot.channelId = channelId) &&
      decide (lot.id ≠ exceptLotId) && lot.live) then .error .channelBound
  else .ok ()

/-- `SELECT … FOR UPDATE` of one lot. -/
def lockLot (id : Int) (s : LotDb) : Except LotError CreditLot × LotDb :=
  if id ∈ s.locked then (.error .lockWait, s)
  else
    match s.lots.find? id with
    | none => (.error .recordNotFound, s)
    | some lot => (.ok lot, { s with locked := id :: s.locked })

/-- The rows whose locks a transaction gives back. -/
def LotDb.unlock (s : LotDb) (ids : List Int) : LotDb :=
  { s with locked := s.locked.filter (fun id => !ids.contains id) }

/-- `ROLLBACK` of a transaction that holds one lot. -/
def rollbackLot {α : Type} (id : Int) (e : LotError) : Prog LotDb (Except LotError α) :=
  Prog.atomic fun s => (.error e, s.unlock [id])

def commitLot (lot : CreditLot) (event : CreditLotEvent) (s : LotDb) : LotDb :=
  { s.unlock [lot.id] with lots := putLot s.lots lot, events := s.events ++ [event] }

/-! ### Creating and editing -/

/-- `CreateCreditLot`, with the row it makes. -/
def createdLot (now : Int) (actor : String) (id : Int) (lot : CreditLot) : CreditLot :=
  { lot with
    id := id
    attestationVersion := if lot.attestedAt = 0 then "2026-09-credit-supply-v1"
      else lot.attestationVersion
    attestedAt := if lot.attestedAt = 0 then now else lot.attestedAt
    attestedBy := if lot.attestedAt = 0 then actor else lot.attestedBy
    approvedBy := if lot.status = .active then actor else lot.approvedBy
    approvedAt := if lot.status = .active then now else lot.approvedAt }

def insertLot (now : Int) (actor : String) (lot : CreditLot) (s : LotDb) :
    Except LotError Unit × LotDb :=
  match s.lots.insert? (createdLot now actor s.lots.nextId lot) with
  | some lots =>
    (.ok (), { s with
      lots := lots
      events := s.events ++ [⟨s.lots.nextId, actor, .created, .other "", lot.status⟩] })
  | none => (.error .recordNotFound, s)

def createCreditLot (terms : CreditSupplyTerms) (now : Int) (lot : CreditLot) (actor : String) :
    Prog LotDb (Except LotError Unit) :=
  match validateCreditLot terms now lot with
  | .error e => pure (.error e)
  | .ok lot => do
    let supplier ← Prog.look fun s => s.suppliers.find? lot.supplierId
    match supplier with
    | none => pure (.error (.supplierMissing lot.supplierId))
    | some _ => do
      let free ← Prog.look (ensureChannelFree lot.channelId 0)
      match free with
      | .error e => pure (.error e)
      | .ok _ => Prog.atomic (insertLot now actor lot)

/-- The commercial fields of the patch over the row that was read. -/
def editedLot (existing patch : CreditLot) : CreditLot :=
  { existing with
    vendor := patch.vendor
    channelId := patch.channelId
    faceValueUSD := patch.faceValueUSD
    acquisitionRate := patch.acquisitionRate
    lowWaterUSD := patch.lowWaterUSD
    expiresAt := patch.expiresAt
    note := patch.note }

/-- The candidate of `UpdateCreditLot`: validated as if pending; a top-up re-arms the low-water
alert. -/
def editCandidate (terms : CreditSupplyTerms) (now : Int) (existing patch : CreditLot) :
    Except LotError CreditLot :=
  let candidate := editedLot existing patch
  match validateCreditLot terms now { candidate with status := .pending } with
  | .error e => .error e
  | .ok shape =>
    .ok { candidate with
      vendor := shape.vendor
      note := shape.note
      lowWaterNotifiedAt :=
        if existing.faceValueUSD < candidate.faceValueUSD ∧
          candidate.lowWaterUSD < candidate.remainingUSD then 0
        else candidate.lowWaterNotifiedAt }

theorem editCandidate_keeps {terms : CreditSupplyTerms} {now : Int} {old new patch : CreditLot}
    (h : editCandidate terms now old patch = .ok new) :
    ∃ shape : CreditLot, new = { editedLot old patch with
      vendor := shape.vendor, note := shape.note
      lowWaterNotifiedAt := new.lowWaterNotifiedAt } := by
  unfold editCandidate at h
  dsimp only at h
  split at h
  · cases h
  · cases h
    exact ⟨_, rfl⟩

/-- `tx.First(&existing)`: no lock is taken. -/
def readForEdit (id : Int) (s : LotDb) : Option CreditLot × LotDb :=
  match s.lots.find? id with
  | none => (none, s)
  | some existing => (some existing, { s with edits := existing :: s.edits })

def endEdit {α : Type} (existing : CreditLot) (e : LotError) : Prog LotDb (Except LotError α) :=
  Prog.atomic fun s => (.error e, { s with edits := s.edits.erase existing })

def lockForSave (existing : CreditLot) (s : LotDb) : Bool × LotDb :=
  if existing.id ∈ s.locked then (false, { s with edits := s.edits.erase existing })
  else (true, { s with
    edits := s.edits.erase existing
    locked := existing.id :: s.locked })

def updateCreditLot (terms : CreditSupplyTerms) (now id : Int) (patch : CreditLot)
    (actor : String) : Prog LotDb (Except LotError Unit) := do
  let read ← Prog.atomic (readForEdit id)
  match read with
  | none => pure (.error .recordNotFound)
  | some existing =>
    match editCandidate terms now existing patch with
    | .error e => endEdit existing e
    | .ok candidate => do
      let free ← (if candidate.live = true ∧ candidate.channelId ≠ existing.channelId then
        Prog.look (ensureChannelFree candidate.channelId id) else pure (.ok ()))
      match free with
      | .error e => endEdit existing e
      | .ok _ =>
        if candidate.status = .active ∧ candidate.channelId = 0 then endEdit existing .needsChannel
        else do
          let saved ← Prog.atomic (lockForSave existing)
          if saved then
            Prog.atomic fun s => (.ok (), commitLot candidate
              ⟨id, actor, .edited, existing.status, existing.status⟩ s)
          else pure (.error .lockWait)

/-! ### Transitions -/

structure CreditLotTransition where
  newStatus : LotStatus
  actor : String
  reason : String
  transferRightsConfirmed : Bool

/-- The switch of `TransitionCreditLot`. -/
def transitionAllowed (lot : CreditLot) (new : LotStatus) (now : Int) : Bool :=
  match lot.status with
  | .pending => decide ((new = .active ∧ lot.source ≠ .supplier) ∨ new = .rejected)
  | .verified => decide (new = .active ∨ new = .rejected)
  | .active => decide (new = .suspended)
  | .suspended => decide (new = .active)
  | .exhausted => decide (new = .active ∧ 0 < lot.remainingUSD)
  | .expired => decide (new = .active ∧ (lot.expiresAt = 0 ∨ now < lot.expiresAt))
  | _ => false

/-- The row that `TransitionCreditLot` saves; `free` is what `ensureChannelFree`
answered. -/
def transitionedLot (req : CreditLotTransition) (now : Int) (free : Except LotError Unit)
    (lot : CreditLot) : Except LotError CreditLot :=
  if transitionAllowed lot req.newStatus now = false then
    .error (.transition lot.status req.newStatus)
  else if req.newStatus = .active then
    if lot.channelId = 0 then .error .needsChannel
    else if (lot.status = .pending ∨ lot.status = .verified) ∧ req.transferRightsConfirmed = false
    then .error .approvalNeedsConfirmation
    else
      match free with
      | .error e => .error e
      | .ok _ =>
        if lot.expiresAt ≠ 0 ∧ lot.expiresAt ≤ now then .error .hasExpired
        else .ok { lot with
          retiredAt := 0
          statusReason := ""
          approvedBy := if lot.status = .pending ∨ lot.status = .verified then req.actor
            else lot.approvedBy
          approvedAt := if lot.status = .pending ∨ lot.status = .verified then now
            else lot.approvedAt
          status := .active }
  else .ok { lot with statusReason := trimSpace req.reason, status := req.newStatus }

theorem transitionedLot_keeps {req : CreditLotTransition} {now : Int} {old new : CreditLot}
    {free : Except LotError Unit}
    (h : transitionedLot req now free old = .ok new) :
    transitionAllowed old req.newStatus now = true ∧
    (req.newStatus = .active → old.channelId ≠ 0 ∧ free = .ok ()) ∧
    new = { old with
      status := req.newStatus, retiredAt := new.retiredAt, statusReason := new.statusReason,
      approvedBy := new.approvedBy, approvedAt := new.approvedAt } := by
  unfold transitionedLot at h
  split at h
  · cases h
  rename_i hallowed
  rw [Bool.not_eq_false] at hallowed
  refine ⟨hallowed, ?_⟩
  split at h
  · rename_i hactive
    split at h
    · cases h
    rename_i hchannel
    split at h
    · cases h
    split at h
    · cases h
    split at h
    · cases h
    · cases h
      exact ⟨fun _ => ⟨hchannel, rfl⟩, by rw [hactive]⟩
  · rename_i hactive
    cases h
    exact ⟨fun h => absurd h hactive, rfl⟩

def detachAndDeleteLotChannel (lot : CreditLot) : Prog LotDb Unit :=
  if lot.channelId = 0 then pure ()
  else do
    let detached ← Prog.atomic fun s =>
      if lot.id ∈ s.locked then (false, s)
      else (true, { s with
        lots := s.lots.update (fun row => decide (row.id = lot.id))
          (fun row => { row with channelId := 0 }) (fun _ => rfl) })
    if detached then
      Prog.atomic fun s =>
        ((), { s with channels := s.channels.filter (fun id => decide (id ≠ lot.channelId)) })
    else pure ()

def transitionCreditLot (now id : Int) (req : CreditLotTransition) :
    Prog LotDb (Except LotError CreditLot) :=
  if (req.newStatus = .rejected ∨ req.newStatus = .suspended) ∧ trimSpace req.reason = "" then
    pure (.error .reasonRequired)
  else if textLooksLikeProviderSecret [trimSpace req.reason] then pure (.error .secretInText)
  else do
    let read ← Prog.atomic (lockLot id)
    match read with
    | .error e => pure (.error e)
    | .ok lot => do
      let free ← Prog.look (ensureChannelFree lot.channelId lot.id)
      match transitionedLot req now free lot with
      | .error e => rollbackLot id e
      | .ok lot' => do
        Prog.atomic (fun s => ((), commitLot lot'
          ⟨lot.id, req.actor, .transition, lot.status, req.newStatus⟩ s))
        Prog.when (req.newStatus = .rejected ∧ lot'.source = .supplier)
          (detachAndDeleteLotChannel lot')
        pure (.ok lot')

def activateVerifiedShareLot (now id : Int) (actor : String) :
    Prog LotDb (Except LotError CreditLot) := do
  let lot ← Prog.look fun s => s.lots.find? id
  match lot with
  | none => pure (.error .recordNotFound)
  | some lot =>
    if lot.isRevenueShare then transitionCreditLot now id ⟨.active, actor, "", true⟩
    else pure (.error .onlyContributed)

/-- What `MarkCreditLotVerified` books: a cost that is not positive is none. -/
def verificationCost (verificationUSD : ℚ) : ℚ := if 0 < verificationUSD then verificationUSD else 0

def verifiedLot (now : Int) (note : String) (verificationUSD : ℚ) (lot : CreditLot) : CreditLot :=
  { lot with
    status := .verified
    verifiedAt := now
    verificationNote := trimSpace note
    consumedUSD := lot.consumedUSD + verificationCost verificationUSD }

def markCreditLotVerified (now id : Int) (actor note : String) (verificationUSD : ℚ) :
    Prog LotDb (Except LotError CreditLot) := do
  let read ← Prog.atomic (lockLot id)
  match read with
  | .error e => pure (.error e)
  | .ok lot =>
    if lot.status ≠ .pending then rollbackLot id (.transition lot.status .verified)
    else
      Prog.atomic fun s =>
        let lot' := verifiedLot now note verificationUSD lot
        (.ok lot', { commitLot lot' ⟨lot.id, actor, .verified, .pending, .verified⟩ s with
          verifications := s.verifications ++ [⟨lot.id, verificationCost verificationUSD⟩] })

/-! ### Consumption -/

/-- `CreditSupplyUsage` and what the call meets: the cache entry, the list price, the clock and the
day. -/
structure Consumption where
  channelId : Int
  cached : Option (Option CreditLot)
  price : Option ℚ
  quotaCharged : Int
  quotaPerUnit : ℚ
  now : Int
  day : String

def Consumption.revenueUSD (u : Consumption) : ℚ :=
  if u.quotaCharged ≤ 0 ∨ u.quotaPerUnit ≤ 0 then 0 else u.quotaCharged / u.quotaPerUnit

/-- What the request draws on the lot and the revenue it books there. -/
def Consumption.draw (u : Consumption) (lot : CreditLot) : Draw :=
  ⟨lot.id, u.day, u.price.getD 0, if lot.isRevenueShare then u.revenueUSD else 0⟩

def newestLot : List CreditLot → Option CreditLot
  | [] => none
  | lot :: rest =>
    match newestLot rest with
    | none => some lot
    | some other => if other.id < lot.id then some lot else some other

def activeLotForChannel (channelId : Int) (s : LotDb) : Option CreditLot :=
  newestLot (s.lots.rows.filter fun lot =>
    decide (lot.channelId = channelId) && decide (lot.status = .active))

/-- The draw-down as the `UPDATE` writes it. -/
def drawnLot (u : Consumption) (lot row : CreditLot) : CreditLot :=
  { row with
    consumedUSD := row.consumedUSD + (u.draw lot).faceUSD
    unpricedRequests := if u.price = none then row.unpricedRequests + 1 else row.unpricedRequests
    shareRevenueUSD := row.shareRevenueUSD + (u.draw lot).revenueUSD
    shareCostUSD := if lot.isRevenueShare then
        row.shareCostUSD + (u.draw lot).faceUSD * lot.acquisitionRate
      else row.shareCostUSD }

def drawable (id : Int) (s : LotDb) : Bool :=
  decide (id ∉ s.locked) && (s.lots.find? id).any fun row => decide (row.status = .active)

theorem drawable_iff {id : Int} {s : LotDb} : drawable id s = true ↔
    id ∉ s.locked ∧ ∃ row, s.lots.find? id = some row ∧ row.status = .active := by
  unfold drawable
  cases hf : s.lots.find? id with
  | none => simp
  | some => simp

theorem drawnLot_id (u : Consumption) (lot row : CreditLot) :
    (drawnLot u lot row).id = row.id := rfl

def drawLots (u : Consumption) (lot : CreditLot) (lots : Table CreditLot.id) :
    Table CreditLot.id :=
  lots.update (fun row => decide (row.id = lot.id) && decide (row.status = .active))
    (drawnLot u lot) (drawnLot_id u lot)

def drawDown (u : Consumption) (lot : CreditLot) (s : LotDb) : Bool × LotDb :=
  if drawable lot.id s then
    (true, { s with lots := drawLots u lot s.lots, draws := s.draws ++ [u.draw lot] })
  else (false, s)

def bookedRow (d : Draw) (row : CreditLotUsage) : CreditLotUsage :=
  { row with
    requests := row.requests + 1
    faceUSD := row.faceUSD + d.faceUSD
    revenueUSD := row.revenueUSD + d.revenueUSD }

theorem bookedRow_key (d : Draw) (row : CreditLotUsage) : (bookedRow d row).key = row.key := rfl

def bookUsage (d : Draw) (usages : Table CreditLotUsage.key) : Table CreditLotUsage.key :=
  usages.update (fun row => decide (row.key = (d.lotId, d.day))) (bookedRow d) (bookedRow_key d)

/-- The `UPDATE` of the daily row. -/
def updateUsage (d : Draw) (s : LotDb) : Bool × LotDb :=
  match s.usages.find? (d.lotId, d.day) with
  | none => (false, s)
  | some _ => (true, { s with usages := bookUsage d s.usages })

/-- The `INSERT` of the daily row. -/
def insertUsage (d : Draw) (s : LotDb) : Bool × LotDb :=
  match s.usages.insert? ⟨d.lotId, d.day, 1, d.faceUSD, d.revenueUSD⟩ with
  | none => (false, s)
  | some usages => (true, { s with usages := usages })

/-- `recordCreditLotUsage`, with the attempts that are left. -/
def recordCreditLotUsage (d : Draw) : Nat → Prog LotDb Unit
  | 0 => pure ()
  | attempts + 1 => do
    let updated ← Prog.atomic (updateUsage d)
    if updated then pure ()
    else do
      let inserted ← Prog.atomic (insertUsage d)
      if inserted then pure () else recordCreditLotUsage d attempts

/-- `retireCreditLot`: the guarded `UPDATE` and the event of the one that won. -/
def retireCreditLot (lotId : Int) (status : LotStatus) (now : Int) : Prog LotDb Unit := do
  let retired ← Prog.atomic (fun s =>
    if drawable lotId s then
      (true, { s with
        lots := s.lots.update (fun row => decide (row.id = lotId) && decide (row.status = .active))
          (fun row => { row with status := status, retiredAt := now }) (fun _ => rfl) })
    else (false, s))
  Prog.when (retired = true) (Prog.atomic fun s =>
    ((), { s with events := s.events ++ [⟨lotId, "system", .retired, .active, status⟩] }))

def noteLowWater (lotId now : Int) : Prog LotDb Unit :=
  Prog.atomic fun s =>
    ((), if lotId ∈ s.locked then s
      else { s with
        lots := s.lots.update
          (fun row => decide (row.id = lotId) && decide (row.lowWaterNotifiedAt = 0))
          (fun row => { row with lowWaterNotifiedAt := now }) (fun _ => rfl) })

def afterDraw (now : Int) (fresh : Option CreditLot) : Prog LotDb Unit :=
  match fresh with
  | none => pure ()
  | some fresh =>
    if fresh.status ≠ .active then pure ()
    else if fresh.faceValueUSD ≤ fresh.consumedUSD then retireCreditLot fresh.id .exhausted now
    else Prog.when (0 < fresh.lowWaterUSD ∧ fresh.remainingUSD ≤ fresh.lowWaterUSD ∧
      fresh.lowWaterNotifiedAt = 0) (noteLowWater fresh.id now)

def recordCreditSupplyConsumption (u : Consumption) : Prog LotDb Unit :=
  if u.channelId ≤ 0 then pure ()
  else do
    let found ← (match u.cached with
      | some entry => pure entry
      | none => Prog.look (activeLotForChannel u.channelId))
    match found with
    | none => pure ()
    | some lot =>
      if lot.expiresAt ≠ 0 ∧ lot.expiresAt ≤ u.now then retireCreditLot lot.id .expired u.now
      else do
        let drawn ← Prog.atomic (drawDown u lot)
        if drawn then do
          recordCreditLotUsage (u.draw lot) 2
          let fresh ← Prog.look (fun s => s.lots.find? lot.id)
          afterDraw u.now fresh
        else pure ()

/-! ### Paying the share -/

structure SharePayoutRequest where
  actor : String
  method : PayoutMethod
  reference : String
  force : Bool

structure PayoutEnv where
  terms : CreditSupplyTerms
  quotaPerUnit : ℚ
  batch : String

/-- `SELECT … FOR UPDATE` of the supplier. -/
def lockSupplier (id : Int) (s : LotDb) : Except LotError CreditSupplier × LotDb :=
  if id ∈ s.lockedSuppliers then (.error .lockWait, s)
  else
    match s.suppliers.find? id with
    | none => (.error .recordNotFound, s)
    | some supplier => (.ok supplier, { s with lockedSuppliers := id :: s.lockedSuppliers })

def checkMethod (req : SharePayoutRequest) (supplier : CreditSupplier) : Except LotError Unit :=
  match req.method with
  | .platformCredit => if supplier.userId ≤ 0 then .error .shareNeedsWallet else .ok ()
  | .external => if trimSpace req.reference = "" then .error .shareNeedsReference else .ok ()
  | .other _ => .error .unknownMethod

/-- The contributed lots of a supplier that were not rejected. -/
def payableLots (supplierId : Int) (s : LotDb) : List CreditLot :=
  s.lots.rows.filter fun lot => decide (lot.supplierId = supplierId) && lot.isRevenueShare &&
    decide (lot.status ≠ .rejected)

/-- `SELECT … FOR UPDATE` of those lots, by id. -/
def lockLots (supplierId : Int) (s : LotDb) : Except LotError (List CreditLot) × LotDb :=
  let lots := (payableLots supplierId s).insertionSort fun a b => a.id ≤ b.id
  if lots.any (fun lot => decide (lot.id ∈ s.locked)) then (.error .lockWait, s)
  else (.ok lots, { s with locked := lots.map CreditLot.id ++ s.locked })

variable {s : LotDb} {lots : List CreditLot}

/-- The lots that a payout reads are all there, with distinct ids. -/
theorem payableLots_sorted {supplierId : Int}
    (h : lots = (payableLots supplierId s).insertionSort fun a b => a.id ≤ b.id) :
    (lots.map CreditLot.id).Nodup ∧ ∀ lot ∈ lots, s.lots.find? lot.id = some lot := by
  have hperm : lots.Perm (payableLots supplierId s) := by
    rw [h]
    exact List.perm_insertionSort _ _
  refine ⟨?_, fun lot hlot => ?_⟩
  · refine (hperm.map CreditLot.id).nodup_iff.mpr ?_
    exact List.Nodup.sublist (List.Sublist.map _ List.filter_sublist) s.lots.nodup
  · have hmem : lot ∈ payableLots supplierId s := hperm.mem_iff.mp hlot
    exact Table.find?_eq_some_iff.mpr ⟨(List.mem_filter.mp hmem).1, rfl⟩

def totalUnpaid (lots : List CreditLot) : ℚ :=
  ((lots.filter fun lot => decide (0 < lot.unpaidShareUSD)).map CreditLot.unpaidShareUSD).sum

abbrev LotTx := Tx LotDb LotError

def paidLot (lot row : CreditLot) : CreditLot := { row with paidShareUSD := lot.earnedShareUSD }

theorem paidLot_id (lot row : CreditLot) : (paidLot lot row).id = row.id := rfl

def paidLots (lot : CreditLot) (lots : Table CreditLot.id) : Table CreditLot.id :=
  lots.update (fun row => decide (row.id = lot.id) && decide (row.paidShareUSD = lot.paidShareUSD))
    (paidLot lot) (paidLot_id lot)

def payRow (lot : CreditLot) (s : LotDb) : Option LotDb :=
  if (s.lots.find? lot.id).any (fun row => decide (row.paidShareUSD = lot.paidShareUSD)) then
    some { s with lots := paidLots lot s.lots }
  else none

def payoutRow (env : PayoutEnv) (supplierId : Int) (req : SharePayoutRequest) (lot : CreditLot) :
    CreditSharePayout :=
  ⟨supplierId, lot.id, env.batch, lot.unpaidShareUSD, lot.earnedShareUSD, lot.shareRevenueUSD,
    lot.revenueSharePct, req.method, trimSpace req.reference, req.actor⟩

/-- The loop of `PaySupplierShare`: the payouts it made. -/
def payLots (env : PayoutEnv) (supplierId : Int) (req : SharePayoutRequest) :
    List CreditLot → List CreditSharePayout → LotTx (List CreditSharePayout)
  | [], made => pure made
  | lot :: lots, made =>
    if lot.unpaidShareUSD ≤ 0 then payLots env supplierId req lots made
    else do
      Tx.writeSome (payRow lot) .balanceChanged
      Tx.write (fun s => { s with
        payouts := s.payouts ++ [payoutRow env supplierId req lot]
        events := s.events ++ [⟨lot.id, req.actor, .sharePaid, lot.status, lot.status⟩] })
      payLots env supplierId req lots (made ++ [payoutRow env supplierId req lot])

def payOne (env : PayoutEnv) (supplierId : Int) (req : SharePayoutRequest) (lot : CreditLot)
    (s : LotDb) : LotDb :=
  { s with
    lots := paidLots lot s.lots
    payouts := s.payouts ++ [payoutRow env supplierId req lot]
    events := s.events ++ [⟨lot.id, req.actor, .sharePaid, lot.status, lot.status⟩] }

theorem payRow_eq_some {lot : CreditLot} {s' : LotDb} (h : payRow lot s = some s') :
    (∃ row, s.lots.find? lot.id = some row ∧ row.paidShareUSD = lot.paidShareUSD) ∧
      s' = { s with lots := paidLots lot s.lots } := by
  unfold payRow at h
  split at h
  · rename_i hany
    cases h
    obtain ⟨row, hrow, hpaid⟩ := (Option.any_eq_true _ _).mp hany
    exact ⟨⟨row, hrow, of_decide_eq_true hpaid⟩, rfl⟩
  · cases h

/-- **The rule for the loop of the payouts**, with what is left to pay. -/
theorem payLots_rule {env : PayoutEnv} {supplierId : Int} {req : SharePayoutRequest}
    {P : List CreditLot → List CreditSharePayout → LotDb → Prop}
    (hskip : ∀ lot lots made s, P (lot :: lots) made s → P lots made s)
    (hpay : ∀ lot row lots made s, P (lot :: lots) made s → 0 < lot.unpaidShareUSD →
      s.lots.find? lot.id = some row → row.paidShareUSD = lot.paidShareUSD →
      P lots (made ++ [payoutRow env supplierId req lot]) (payOne env supplierId req lot s)) :
    ∀ {made made' : List CreditSharePayout} {s s' : LotDb}, P lots made s →
      payLots env supplierId req lots made s = .ok (made', s') → P [] made' s' := by
  induction lots with
  | nil =>
    intro made made' s s' hP h
    cases Tx.pure_ok.mp h
    exact hP
  | cons lot lots ih =>
    intro made made' s s' hP h
    unfold payLots at h
    split at h
    · exact ih (hskip lot lots made s hP) h
    rename_i hpos
    simp only [bind_ok, writeSome_ok] at h
    obtain ⟨_, s₁, ⟨s₂, hrow, -, rfl⟩, _, s₃, ⟨-, rfl⟩, h⟩ := h
    obtain ⟨⟨row, hfind, hpaid⟩, rfl⟩ := payRow_eq_some hrow
    exact ih (hpay lot row lots made s hP (not_le.mp hpos) hfind hpaid) h

/-- `int(result.AmountUSD * common.QuotaPerUnit)` -/
def paidQuota (env : PayoutEnv) (made : List CreditSharePayout) : Int :=
  Billing.truncate ((made.map CreditSharePayout.amountUSD).sum * env.quotaPerUnit)

/-- What `PaySupplierShare` does once it holds the lots. -/
def payTx (env : PayoutEnv) (supplier : CreditSupplier) (req : SharePayoutRequest)
    (lots : List CreditLot) : LotTx (List CreditSharePayout) := do
  Tx.ensure (0 < totalUnpaid lots) .noShareToPay
  Tx.ensure (req.force = true ∨ env.terms.minSharePayoutUSD ≤ 0 ∨
    env.terms.minSharePayoutUSD ≤ totalUnpaid lots) .shareBelowMinimum
  let made ← payLots env supplier.id req lots []
  Tx.when (req.method = .platformCredit ∧ 0 < paidQuota env made) (do
    let _ ← Tx.zoom LotDb.store (fun s store => { s with store := store }) .account
      (adjustBillingQuotaWithTx supplier.userId (paidQuota env made))
    pure ())
  pure made

/-- Besides what the loop does, a payout only moves the wallet. -/
theorem payTx_ok {env : PayoutEnv} {supplier : CreditSupplier} {req : SharePayoutRequest}
    {made : List CreditSharePayout} {s' : LotDb}
    (h : payTx env supplier req lots s = .ok (made, s')) :
    ∃ s₁ store, payLots env supplier.id req lots [] s = .ok (made, s₁) ∧
      s' = { s₁ with store := store } := by
  simp only [payTx, bind_ok, ensure_ok, when_ok, zoom_ok] at h
  obtain ⟨_, _, ⟨-, -, rfl⟩, _, _, ⟨-, -, rfl⟩, made', s₁, hpay, _, s₂, hwallet, rfl, rfl⟩ := h
  rcases hwallet with ⟨-, _, _, ⟨_, store, -, -, rfl⟩, -, rfl⟩ | ⟨-, -, rfl⟩
  · exact ⟨s₁, store, hpay, rfl⟩
  · exact ⟨_, _, hpay, rfl⟩

/-- The end of the transaction: everything or nothing, and the locks are given back. -/
def finishPayout (supplierId : Int) (lots : List CreditLot)
    (x : LotTx (List CreditSharePayout)) (s : LotDb) :
    Except LotError (List CreditSharePayout) × LotDb :=
  let release := fun s : LotDb =>
    { s.unlock (lots.map CreditLot.id) with
      lockedSuppliers := s.lockedSuppliers.filter (fun id => decide (id ≠ supplierId)) }
  match x s with
  | .ok (made, s') => (.ok made, release s')
  | .error e => (.error e, release s)

def paySupplierShare (env : PayoutEnv) (supplierId : Int) (req : SharePayoutRequest) :
    Prog LotDb (Except LotError (List CreditSharePayout)) :=
  if textLooksLikeProviderSecret [trimSpace req.reference] then pure (.error .secretInText)
  else do
    let read ← Prog.atomic (lockSupplier supplierId)
    match read with
    | .error e => pure (.error e)
    | .ok supplier =>
      match checkMethod req supplier with
      | .error e => Prog.atomic (finishPayout supplierId [] (Tx.fail e))
      | .ok _ => do
        let lots ← Prog.atomic (lockLots supplierId)
        match lots with
        | .error e => Prog.atomic (finishPayout supplierId [] (Tx.fail e))
        | .ok lots => Prog.atomic (finishPayout supplierId lots (payTx env supplier req lots))

/-! ### Calls -/

/-- A lot as handed to `CreateCreditLot`: no counter set, and pending if a supplier submits it. -/
structure CreditLot.New (lot : CreditLot) : Prop where
  consumed : lot.consumedUSD = 0
  revenue : lot.shareRevenueUSD = 0
  cost : lot.shareCostUSD = 0
  paid : lot.paidShareUSD = 0
  pending : lot.source = .supplier → lot.status = .pending

inductive LotCall where
  | create (terms : CreditSupplyTerms) (now : Int) (lot : { lot : CreditLot // lot.New })
      (actor : String)
  | update (terms : CreditSupplyTerms) (now id : Int) (patch : CreditLot) (actor : String)
  | transition (now id : Int) (req : CreditLotTransition)
  | activate (now id : Int) (actor : String)
  | verify (now id : Int) (actor note : String) (verificationUSD : ℚ)
  | consume (u : Consumption)
  | retire (lotId : Int) (expired : Bool) (now : Int)
  | pay (env : PayoutEnv) (supplierId : Int) (req : SharePayoutRequest)

def answered {α : Type} (r : Except LotError α) : Except LotError Unit := r.map fun _ => ()

def LotCall.prog : LotCall → Prog LotDb (Except LotError Unit)
  | .create terms now lot actor => createCreditLot terms now lot.1 actor
  | .update terms now id patch actor => updateCreditLot terms now id patch actor
  | .transition now id req => answered <$> transitionCreditLot now id req
  | .activate now id actor => answered <$> activateVerifiedShareLot now id actor
  | .verify now id actor note verificationUSD =>
    answered <$> markCreditLotVerified now id actor note verificationUSD
  | .consume u => .ok <$> recordCreditSupplyConsumption u
  | .retire lotId expired now =>
    .ok <$> retireCreditLot lotId (if expired then .expired else .exhausted) now
  | .pay env supplierId req => answered <$> paySupplierShare env supplierId req

end UnifyConsole.Supply
