import UnifyConsole.Account.Store
import UnifyConsole.Lib.Prog
import Mathlib.Data.Rat.Floor
import Mathlib.Algebra.Order.Round

/-!
# Credit pools

`model/credit_pool.go`: a promotional request draws on two meters at once, the
customer's grant at contract price and the provider inventory of a pool at cost.
A reservation records both amounts, and its allocations say which lots the
inventory came from.

The five operations are transaction bodies over `CreditDb`.  Ratios are a
parameter: the source computes with 64-bit floats, and nothing below depends on
how, so `Ratio` lists the operations it uses and has one instance for floats and
one for exact rationals.
-/

namespace UnifyConsole.Credit

open Lib Account

/-! ### Ratios -/

class Ratio (R : Type) where
  one : R
  /-- Positive, and neither infinite nor not a number. -/
  usable : R → Bool
  /-- The order of a ratio column. -/
  le : R → R → Bool
  /-- Within `0.00000001` of each other. -/
  near : R → R → Bool
  /-- `int64(math.Round(float64(quota) / a * b))`. -/
  scale : Int → R → R → Int

instance : Ratio Float where
  one := 1
  usable a := !(a ≤ 0 || a.isNaN || a.isInf)
  le a b := a ≤ b
  near a b := !((a - b).abs > 0.00000001)
  scale quota a b := (Float.ofInt quota / a * b).round.toInt64.toInt

instance : Ratio ℚ where
  one := 1
  usable a := decide (0 < a)
  le a b := decide (a ≤ b)
  near a b := decide (|a - b| ≤ 1 / 100000000)
  scale quota a b := round ((quota : ℚ) / a * b)

variable {R : Type}

/-! ### Rows -/

def creditPoolStatusEnabled : Int := 1

inductive CreditReservationStatus where
  | pending
  | settled
  | refunded
deriving DecidableEq

/-- The columns of `credit_pool_lots` that allocation reads. -/
structure CreditPoolLot (R : Type) where
  id : Int
  poolId : Int
  channelId : Int
  remainingQuota : Int
  acquisitionRatio : R
  expiresAt : Int
  status : Int

structure TenantCreditGrant where
  id : Int
  tenantId : Int
  poolId : Int
  remainingQuota : Int
  startsAt : Int
  expiresAt : Int
  status : Int

structure CreditPoolReservation (R : Type) where
  id : Int
  requestId : String
  grantId : Int
  tenantId : Int
  userId : Int
  poolId : Int
  channelId : Int
  customerQuota : Int
  poolQuota : Int
  customerRatio : R
  channelCostRatio : R
  status : CreditReservationStatus

namespace CreditPoolReservation

def settledAt (r : CreditPoolReservation R) (channelId customerQuota poolQuota : Int)
    (channelCostRatio : R) : CreditPoolReservation R :=
  { r with
    channelId := channelId
    customerQuota := customerQuota
    poolQuota := poolQuota
    channelCostRatio := channelCostRatio
    status := .settled }

def resized (r : CreditPoolReservation R) (customerQuota poolQuota : Int) :
    CreditPoolReservation R :=
  { r with customerQuota := customerQuota, poolQuota := poolQuota }

def refunded (r : CreditPoolReservation R) : CreditPoolReservation R :=
  { r with status := .refunded }

end CreditPoolReservation

structure CreditPoolReservationLot where
  id : Int
  reservationId : Int
  lotId : Int
  quota : Int

structure CreditDb (R : Type) where
  store : Store
  lots : Table (CreditPoolLot.id (R := R)) := .empty
  grants : Table TenantCreditGrant.id := .empty
  reservations : Table (CreditPoolReservation.id (R := R)) := .empty
  allocations : Table CreditPoolReservationLot.id := .empty

inductive CreditError where
  | creditPoolUnavailable
  | creditGrantInsufficient
  | creditPoolInventoryShortage
  | creditReservationClosed
  | requestIdAndQuotaRequired
  | requestIdReused
  | positiveQuotaRequired
  | adjustmentExceedsSettled
  | allocationRefundExceeds
  | recordNotFound
  | account (e : AccountError)
deriving DecidableEq

abbrev CreditTx (R : Type) := Tx (CreditDb R) CreditError

/-! ### Statements -/

namespace CreditDb

/-- `UPDATE credit_pool_lots SET remaining_quota = remaining_quota + n WHERE id`. -/
def addToLot (db : CreditDb R) (lotId n : Int) : CreditDb R :=
  { db with
    lots := db.lots.update (fun l => decide (l.id = lotId))
      (fun l => { l with remainingQuota := l.remainingQuota + n }) (fun _ => rfl) }

/-- `UPDATE tenant_credit_grants SET remaining_quota = remaining_quota + n WHERE
id`. -/
def addToGrant (db : CreditDb R) (grantId n : Int) : CreditDb R :=
  { db with
    grants := db.grants.update (fun g => decide (g.id = grantId))
      (fun g => { g with remainingQuota := g.remainingQuota + n }) (fun _ => rfl) }

/-- The guarded debit of a grant: `none` when no row holds that much. -/
def takeFromGrant (db : CreditDb R) (grantId n : Int) : Option (CreditDb R) :=
  if db.grants.matched (fun g => decide (g.id = grantId) && decide (n ≤ g.remainingQuota)) = 1
  then some { db with
    grants := db.grants.update (fun g => decide (g.id = grantId) && decide (n ≤ g.remainingQuota))
      (fun g => { g with remainingQuota := g.remainingQuota - n }) (fun _ => rfl) }
  else none

def isAllocation (reservationId lotId : Int) (a : CreditPoolReservationLot) : Bool :=
  decide (a.reservationId = reservationId) && decide (a.lotId = lotId)

def addToAllocation (db : CreditDb R) (reservationId lotId n : Int) : CreditDb R :=
  { db with
    allocations := db.allocations.update (isAllocation reservationId lotId)
      (fun a => { a with quota := a.quota + n }) (fun _ => rfl) }

def chargeAllocation (db : CreditDb R) (reservationId lotId n : Int) : Option (CreditDb R) :=
  if db.allocations.matched (isAllocation reservationId lotId) = 0
  then (db.allocations.insert? ⟨db.allocations.nextId, reservationId, lotId, n⟩).map
    (fun t => { db with allocations := t })
  else some (db.addToAllocation reservationId lotId n)

def allocationsOf (db : CreditDb R) (reservationId : Int) : List CreditPoolReservationLot :=
  db.allocations.rows.filter fun a => decide (a.reservationId = reservationId)

def newestAllocationsOf (db : CreditDb R) (reservationId : Int) : List CreditPoolReservationLot :=
  (db.allocationsOf reservationId).insertionSort fun a b => b.id ≤ a.id

def lastAllocatedLot (db : CreditDb R) (reservationId : Int) : Option (CreditPoolLot R) :=
  (db.newestAllocationsOf reservationId).findSome? fun a => db.lots.find? a.lotId

/-- `DELETE FROM credit_pool_reservation_lots WHERE reservation_id`. -/
def dropAllocations (db : CreditDb R) (reservationId : Int) : CreditDb R :=
  { db with
    allocations := db.allocations.delete (fun a => decide (a.reservationId = reservationId)) }

def setReservation (db : CreditDb R) (reservationId : Int)
    (f : CreditPoolReservation R → CreditPoolReservation R) (hf : ∀ r, (f r).id = r.id) :
    CreditDb R :=
  { db with reservations := db.reservations.update (fun r => decide (r.id = reservationId)) f hf }

end CreditDb

/-! ### Allocating -/

def activeCreditLot (poolId channelId now : Int) (l : CreditPoolLot R) : Bool :=
  decide (l.poolId = poolId ∧ l.status = creditPoolStatusEnabled ∧ 0 < l.remainingQuota) &&
    decide (l.expiresAt = 0 ∨ now < l.expiresAt) &&
    (decide (channelId ≤ 0) || decide (l.channelId = 0 ∨ l.channelId = channelId))

def allocateLoop (reservationId : Int) : List (CreditPoolLot R) → Int → CreditTx R Int
  | [], remaining => pure remaining
  | lot :: rest, remaining =>
    if remaining ≤ 0 then pure remaining
    else do
      let take := min lot.remainingQuota remaining
      Tx.write (fun db => db.addToLot lot.id (-take))
      Tx.writeSome (fun db => db.chargeAllocation reservationId lot.id take)
        (.account .duplicateKey)
      allocateLoop reservationId rest (remaining - take)

/-- The loop of `restoreCreditAllocations`. -/
def restoreLots : List CreditPoolReservationLot → CreditDb R → CreditDb R
  | [], db => db
  | a :: rest, db => restoreLots rest (db.addToLot a.lotId a.quota)

def restoreCreditAllocations (reservationId : Int) : CreditTx R Unit := do
  let allocations ← Tx.read (fun db => db.allocationsOf reservationId)
  Tx.write (restoreLots allocations)
  Tx.write fun db => db.dropAllocations reservationId

/-- `UPDATE credit_pool_reservation_lots SET quota = quota - n WHERE id`. -/
def CreditDb.lowerAllocation (db : CreditDb R) (id n : Int) : CreditDb R :=
  { db with
    allocations := db.allocations.update (fun r => decide (r.id = id))
      (fun r => { r with quota := r.quota - n }) (fun _ => rfl) }

/-- Give `n` of an allocation back: the row goes when nothing is left of it. -/
def CreditDb.giveBack (db : CreditDb R) (a : CreditPoolReservationLot) (n : Int) : CreditDb R :=
  if n = a.quota then
    { db with allocations := db.allocations.delete (fun r => decide (r.id = a.id)) }
  else db.lowerAllocation a.id n

def reduceLoop : List CreditPoolReservationLot → Int → CreditTx R Int
  | [], remaining => pure remaining
  | a :: rest, remaining =>
    if remaining ≤ 0 then pure remaining
    else do
      let giveBack := min a.quota remaining
      Tx.write (fun db => db.addToLot a.lotId giveBack)
      Tx.write (fun db => db.giveBack a giveBack)
      reduceLoop rest (remaining - giveBack)

def reduceCreditAllocations (reservationId amount : Int) : CreditTx R Unit :=
  if amount ≤ 0 then pure ()
  else do
    let allocations ← Tx.read fun db => db.newestAllocationsOf reservationId
    let remaining ← reduceLoop allocations amount
    Tx.ensure (remaining ≤ 0) .allocationRefundExceeds

/-! ### Reservations -/

def isSpaceRune (c : Char) : Bool :=
  [0x09, 0x0A, 0x0B, 0x0C, 0x0D, 0x20, 0x85, 0xA0, 0x1680, 0x2028, 0x2029, 0x202F, 0x205F,
    0x3000].contains c.toNat || (decide (0x2000 ≤ c.toNat) && decide (c.toNat ≤ 0x200A))

/-- `strings.TrimSpace(s) == ""`. -/
def isBlank (s : String) : Bool := s.toList.all isSpaceRune

/-- The arguments of `ReserveCreditPool`. -/
structure ReserveRequest (R : Type) where
  requestId : String
  userId : Int
  grantId : Int
  poolId : Int
  channelId : Int
  customerQuota : Int
  poolQuota : Int
  customerRatio : R
  costRatio : R

/-- The row `ReserveCreditPool` creates. -/
def ReserveRequest.row (q : ReserveRequest R) (id tenantId : Int) : CreditPoolReservation R :=
  { id := id, requestId := q.requestId, grantId := q.grantId, tenantId := tenantId,
    userId := q.userId, poolId := q.poolId, channelId := q.channelId,
    customerQuota := q.customerQuota, poolQuota := q.poolQuota,
    customerRatio := q.customerRatio, channelCostRatio := q.costRatio, status := .pending }

def CreditDb.usableGrant (db : CreditDb R) (q : ReserveRequest R) (tenantId now : Int) :
    Option TenantCreditGrant :=
  (db.grants.find? q.grantId).filter fun g =>
    decide (g.tenantId = tenantId ∧ g.poolId = q.poolId ∧ g.status = creditPoolStatusEnabled) &&
      decide ((g.startsAt = 0 ∨ g.startsAt ≤ now) ∧ (g.expiresAt = 0 ∨ now < g.expiresAt))

def lockReservation (reservationId : Int) : CreditTx R (CreditPoolReservation R) :=
  Tx.fetch (fun db => db.reservations.find? reservationId) .recordNotFound

/-- The grant part of `ResizePendingCreditPoolReservation`: growth is guarded. -/
def resizeGrant (grantId deltaCustomer : Int) : CreditTx R Unit :=
  if 0 < deltaCustomer then
    Tx.writeSome (fun db => db.takeFromGrant grantId deltaCustomer) .creditGrantInsufficient
  else Tx.when (deltaCustomer < 0) (Tx.write fun db => db.addToGrant grantId (-deltaCustomer))

def refundCreditPoolReservation (reservationId : Int) : CreditTx R Unit := do
  let reservation ← lockReservation reservationId
  if reservation.status = .refunded then pure ()
  else do
    Tx.write (fun db => db.addToGrant reservation.grantId reservation.customerQuota)
    restoreCreditAllocations reservation.id
    Tx.write fun db => db.setReservation reservation.id (fun r => r.refunded) fun _ => rfl

/-! ### The operations that price -/

section Priced

variable [Ratio R]

def creditPoolCostQuota (customerQuota : Int) (customerRatio channelCostRatio : R) : Int :=
  if customerQuota ≤ 0 then 0
  else
    let customerRatio := if Ratio.usable customerRatio then customerRatio else Ratio.one
    let channelCostRatio := if Ratio.usable channelCostRatio then channelCostRatio else Ratio.one
    max 1 (Ratio.scale customerQuota customerRatio channelCostRatio)

/-- The order of lots: the channel's own first, then the soonest to expire, then the cheapest. -/
def lotBefore (channelId : Int) (a b : CreditPoolLot R) : Bool :=
  let channel (l : CreditPoolLot R) : Nat := if l.channelId = channelId then 0 else 1
  let never (l : CreditPoolLot R) : Nat := if l.expiresAt = 0 then 1 else 0
  if channel a ≠ channel b then decide (channel a < channel b)
  else if never a ≠ never b then decide (never a < never b)
  else if a.expiresAt ≠ b.expiresAt then decide (a.expiresAt < b.expiresAt)
  else if Ratio.le a.acquisitionRatio b.acquisitionRatio ≠
      Ratio.le b.acquisitionRatio a.acquisitionRatio
  then Ratio.le a.acquisitionRatio b.acquisitionRatio
  else decide (a.id ≤ b.id)

def orderedLots (db : CreditDb R) (poolId channelId now : Int) : List (CreditPoolLot R) :=
  (db.lots.rows.filter (activeCreditLot poolId channelId now)).insertionSort
    (fun a b => lotBefore channelId a b = true)

/-- `allocateCreditLots`. An overrun goes to the last lot drawn on, or that of the newest
allocation. -/
def allocateCreditLots (reservationId poolId channelId amount : Int) (allowOverdraft : Bool)
    (now : Int) : CreditTx R Unit :=
  if amount ≤ 0 then pure ()
  else do
    let lots ← Tx.read fun db => orderedLots db poolId channelId now
    let remaining ← allocateLoop reservationId lots amount
    if remaining ≤ 0 then pure ()
    else if allowOverdraft = false then Tx.fail .creditPoolInventoryShortage
    else do
      let last ← Tx.fetch (fun db => lots.getLast?.or (db.lastAllocatedLot reservationId))
        .creditPoolInventoryShortage
      Tx.write (fun db => db.addToLot last.id (-remaining))
      Tx.write fun db => db.addToAllocation reservationId last.id remaining

def ReserveRequest.matched (q : ReserveRequest R) (r : CreditPoolReservation R) : Bool :=
  decide (r.userId = q.userId ∧ r.grantId = q.grantId ∧ r.poolId = q.poolId ∧
    r.channelId = q.channelId ∧ r.customerQuota = q.customerQuota ∧ r.poolQuota = q.poolQuota) &&
    Ratio.near r.customerRatio q.customerRatio && Ratio.near r.channelCostRatio q.costRatio

/-- A new reservation: the grant is debited, the row created and the inventory
allocated. -/
def newReservation (q : ReserveRequest R) (now : Int) : CreditTx R (CreditPoolReservation R) := do
  let entity ← Tx.zoom CreditDb.store (fun db s => { db with store := s }) CreditError.account
    (resolveBillingEntity q.userId)
  Tx.ensure (entity.isTenant = true) .creditPoolUnavailable
  let grant ← Tx.fetch (fun db => db.usableGrant q entity.tenantId now) .creditPoolUnavailable
  Tx.writeSome (fun db => db.takeFromGrant grant.id q.customerQuota) .creditGrantInsufficient
  let id ← Tx.read (fun db => db.reservations.nextId)
  Tx.writeSome (fun db => (db.reservations.insert? (q.row id entity.tenantId)).map
    (fun t => { db with reservations := t })) (.account .duplicateKey)
  allocateCreditLots id q.poolId q.channelId q.poolQuota false now
  pure (q.row id entity.tenantId)

def reserveCreditPool (q : ReserveRequest R) (now : Int) :
    CreditTx R (CreditPoolReservation R) := do
  Tx.ensure (isBlank q.requestId = false ∧ 0 < q.customerQuota ∧ 0 < q.poolQuota)
    .requestIdAndQuotaRequired
  let existing ← Tx.read fun db =>
    db.reservations.rows.find? fun r => decide (r.requestId = q.requestId)
  match existing with
  | some r => do
    Tx.ensure (r.status ≠ .refunded) .creditReservationClosed
    Tx.ensure (q.matched r = true) .requestIdReused
    pure r
  | none => newReservation q now

/-- Move the inventory of a reservation to `poolQuota`. -/
def resizeAllocations (reservation : CreditPoolReservation R) (poolQuota : Int)
    (allowOverdraft : Bool) (now : Int) : CreditTx R Unit :=
  let deltaPool := poolQuota - reservation.poolQuota
  if 0 < deltaPool then
    allocateCreditLots reservation.id reservation.poolId reservation.channelId deltaPool
      allowOverdraft now
  else if deltaPool < 0 then reduceCreditAllocations reservation.id (-deltaPool)
  else pure ()

/-- The inventory part of `settleCreditPoolReservation`. -/
def settleAllocations (reservation : CreditPoolReservation R) (channelId poolQuota now : Int) :
    CreditTx R Unit :=
  if channelId ≠ reservation.channelId then do
    restoreCreditAllocations reservation.id
    allocateCreditLots reservation.id reservation.poolId channelId poolQuota true now
  else resizeAllocations reservation poolQuota true now

def settleCreditPoolReservation (reservation : CreditPoolReservation R)
    (channelId customerQuota poolQuota : Int) (channelCostRatio : R) (now : Int) :
    CreditTx R Unit := do
  Tx.ensure (reservation.status ≠ .refunded) .creditReservationClosed
  let channelId := if channelId ≤ 0 then reservation.channelId else channelId
  let channelCostRatio :=
    if Ratio.usable channelCostRatio then channelCostRatio else reservation.channelCostRatio
  settleAllocations reservation channelId poolQuota now
  let deltaCustomer := customerQuota - reservation.customerQuota
  Tx.when (deltaCustomer ≠ 0)
    (Tx.write fun db => db.addToGrant reservation.grantId (-deltaCustomer))
  Tx.write fun db => db.setReservation reservation.id
    (fun r => r.settledAt channelId customerQuota poolQuota channelCostRatio) fun _ => rfl

def resizePendingCreditPoolReservation (reservationId customerQuota poolQuota now : Int) :
    CreditTx R Unit := do
  Tx.ensure (0 < customerQuota ∧ 0 < poolQuota) .positiveQuotaRequired
  let reservation ← lockReservation reservationId
  Tx.ensure (reservation.status = .pending) .creditReservationClosed
  resizeGrant reservation.grantId (customerQuota - reservation.customerQuota)
  resizeAllocations reservation poolQuota false now
  Tx.write fun db => db.setReservation reservation.id
    (fun r => r.resized customerQuota poolQuota) fun _ => rfl

def settleCreditPoolReservationAtCost (reservationId channelId customerQuota poolQuota : Int)
    (channelCostRatio : R) (now : Int) : CreditTx R Unit := do
  let reservation ← lockReservation reservationId
  let channelId := if channelId ≤ 0 then reservation.channelId else channelId
  if reservation.status = .settled then
    Tx.ensure (reservation.customerQuota = customerQuota ∧ reservation.poolQuota = poolQuota ∧
      reservation.channelId = channelId) .creditReservationClosed
  else
    settleCreditPoolReservation reservation channelId customerQuota poolQuota channelCostRatio now

def adjustSettledCreditPoolReservation (reservationId deltaCustomer now : Int) :
    CreditTx R Unit := do
  let reservation ← lockReservation reservationId
  Tx.ensure (reservation.status = .settled) .creditReservationClosed
  let targetCustomer := reservation.customerQuota + deltaCustomer
  Tx.ensure (0 ≤ targetCustomer) .adjustmentExceedsSettled
  let targetPool := creditPoolCostQuota targetCustomer reservation.customerRatio
    reservation.channelCostRatio
  settleCreditPoolReservation reservation reservation.channelId targetCustomer targetPool
    reservation.channelCostRatio now

end Priced

end UnifyConsole.Credit
