import UnifyConsole.Credit.Conservation

/-!
# What one reservation is charged

`Books` says what the operations on credit pools keep when the inventory balances.  Here nothing is
asked of the inventory: whatever the lots and allocations are, a refund of a live reservation goes
through and gives its customer quota back to the grant, and an adjustment that goes through charges
the difference (`Recharged`).  Allocating, giving back and restoring have no part in this, since they
move inventory only (`MovesInventory`).
-/

namespace UnifyConsole.Credit

open Lib
open Table Tx List Option CreditDb

variable {R : Type}

/-! ### Inventory -/

/-- Only lots and allocations have changed. -/
structure InventoryOnly (db db' : CreditDb R) : Prop where
  store : db'.store = db.store
  grants : db'.grants = db.grants
  reservations : db'.reservations = db.reservations

variable {db db' db'' : CreditDb R}

theorem InventoryOnly.refl (db : CreditDb R) : InventoryOnly db db := ⟨rfl, rfl, rfl⟩

theorem InventoryOnly.trans (h : InventoryOnly db db') (h' : InventoryOnly db' db'') :
    InventoryOnly db db'' :=
  ⟨h'.store.trans h.store, h'.grants.trans h.grants, h'.reservations.trans h.reservations⟩

/-- Whatever else the body does, if it ends only inventory has moved. -/
def MovesInventory {α : Type} (x : CreditTx R α) : Prop :=
  ∀ db, Tx.Spec x db (fun _ db' => InventoryOnly db db') fun _ => True

variable {α β : Type}

theorem movesInventory_pure (a : α) : MovesInventory (pure a : CreditTx R α) :=
  fun db => spec_pure (.refl db)

theorem movesInventory_bind {x : CreditTx R α} {f : α → CreditTx R β} (hx : MovesInventory x)
    (hf : ∀ a, MovesInventory (f a)) : MovesInventory (x >>= f) :=
  fun db => spec_bind ((hx db).mono fun a db₁ h => (hf a db₁).mono fun _ _ h' => h.trans h')

theorem movesInventory_read (f : CreditDb R → α) : MovesInventory (Tx.read f : CreditTx R α) :=
  fun db => spec_read (.refl db)

theorem movesInventory_write {f : CreditDb R → CreditDb R} (h : ∀ db, InventoryOnly db (f db)) :
    MovesInventory (Tx.write f) :=
  fun db => spec_write (h db)

theorem chargeAllocation_inventoryOnly {r l n : Int} (h : db.chargeAllocation r l n = some db') :
    InventoryOnly db db' := by
  unfold chargeAllocation at h
  split at h
  · obtain ⟨t, -, rfl⟩ := Option.map_eq_some_iff.mp h
    exact ⟨rfl, rfl, rfl⟩
  · rw [← Option.some.inj h]
    exact ⟨rfl, rfl, rfl⟩

theorem allocateLoop_movesInventory (r : Int) (lots : List (CreditPoolLot R)) (remaining : Int) :
    MovesInventory (allocateLoop r lots remaining) := by
  induction lots generalizing remaining with
  | nil => exact movesInventory_pure remaining
  | cons lot lots ih =>
    unfold allocateLoop
    split
    · exact movesInventory_pure remaining
    · refine movesInventory_bind (movesInventory_write fun db => ⟨rfl, rfl, rfl⟩) fun _ => ?_
      refine movesInventory_bind (fun db => spec_writeSome (fun _ => trivial) fun _ h => ?_)
        fun _ => ih _
      exact chargeAllocation_inventoryOnly h

theorem restoreLots_inventoryOnly (l : List CreditPoolReservationLot) :
    ∀ db : CreditDb R, InventoryOnly db (restoreLots l db) := by
  induction l with
  | nil => exact InventoryOnly.refl
  | cons a rest ih =>
    intro db
    have hone : InventoryOnly db (db.addToLot a.lotId a.quota) := ⟨rfl, rfl, rfl⟩
    exact hone.trans (ih _)

theorem restoreCreditAllocations_movesInventory (r : Int) :
    MovesInventory (restoreCreditAllocations r : CreditTx R Unit) := by
  refine movesInventory_bind (movesInventory_read _) fun allocations => ?_
  refine movesInventory_bind (movesInventory_write (restoreLots_inventoryOnly allocations))
    fun _ => ?_
  exact movesInventory_write fun db => ⟨rfl, rfl, rfl⟩

theorem reduceLoop_movesInventory (l : List CreditPoolReservationLot) (remaining : Int) :
    MovesInventory (reduceLoop l remaining : CreditTx R Int) := by
  induction l generalizing remaining with
  | nil => exact movesInventory_pure remaining
  | cons a rest ih =>
    unfold reduceLoop
    split
    · exact movesInventory_pure remaining
    · refine movesInventory_bind (movesInventory_write fun db => ⟨rfl, rfl, rfl⟩) fun _ => ?_
      refine movesInventory_bind (movesInventory_write fun db => ?_) fun _ => ih _
      unfold giveBack
      split
      · exact ⟨rfl, rfl, rfl⟩
      · exact ⟨rfl, rfl, rfl⟩

theorem movesInventory_ensure (c : Prop) [Decidable c] (e : CreditError) :
    MovesInventory (Tx.ensure c e : CreditTx R Unit) :=
  fun db => spec_ensure (fun _ => trivial) fun _ => .refl db

theorem reduceCreditAllocations_movesInventory (r amount : Int) :
    MovesInventory (reduceCreditAllocations r amount : CreditTx R Unit) := by
  unfold reduceCreditAllocations
  split
  · exact movesInventory_pure ()
  · refine movesInventory_bind (movesInventory_read _) fun allocations => ?_
    exact movesInventory_bind (reduceLoop_movesInventory allocations amount) fun _ =>
      movesInventory_ensure _ _

section Priced

variable [Ratio R]

theorem allocateCreditLots_movesInventory (r poolId channelId amount : Int)
    (allowOverdraft : Bool) (now : Int) :
    MovesInventory (R := R) (allocateCreditLots r poolId channelId amount allowOverdraft now) := by
  unfold allocateCreditLots
  split
  · exact movesInventory_pure ()
  refine movesInventory_bind (movesInventory_read _) fun lots => ?_
  refine movesInventory_bind (allocateLoop_movesInventory r lots amount) fun remaining => ?_
  split
  · exact movesInventory_pure ()
  split
  · exact fun _ => spec_fail trivial
  refine movesInventory_bind (fun db => spec_fetch (fun _ => trivial) fun _ _ => .refl db)
    fun last => ?_
  refine movesInventory_bind (movesInventory_write fun db => ⟨rfl, rfl, rfl⟩) fun _ => ?_
  exact movesInventory_write fun db => ⟨rfl, rfl, rfl⟩

theorem settleAllocations_movesInventory (res : CreditPoolReservation R)
    (channelId poolQuota now : Int) :
    MovesInventory (settleAllocations res channelId poolQuota now) := by
  unfold settleAllocations
  split
  · exact movesInventory_bind (restoreCreditAllocations_movesInventory _) fun _ =>
      allocateCreditLots_movesInventory _ _ _ _ _ _
  unfold resizeAllocations
  dsimp only
  split
  · exact allocateCreditLots_movesInventory _ _ _ _ _ _
  split
  · exact reduceCreditAllocations_movesInventory _ _
  · exact movesInventory_pure ()

end Priced

/-! ### Reservations -/

/-- The row of `res` is `res'` now and `n` more is charged to its grant; else only inventory has
changed. -/
structure Recharged (res res' : CreditPoolReservation R) (n : Int) (db db' : CreditDb R) : Prop where
  store : db'.store = db.store
  quota : ∀ g, db'.grantQuota g = db.grantQuota g - if g = res.grantId then n else 0
  rows : ∀ g, (db'.grants.find? g).isSome = (db.grants.find? g).isSome
  reservations : ∀ id, db'.reservations.find? id =
    if id = res.id then some res' else db.reservations.find? id

variable {res : CreditPoolReservation R} {n : Int}

theorem recharged_of {f : CreditPoolReservation R → CreditPoolReservation R}
    {hid : ∀ r, (f r).id = r.id} (hf : db.reservations.find? res.id = some res)
    (hstore : db'.store = db.store)
    (hquota : ∀ g, db'.grantQuota g = db.grantQuota g - if g = res.grantId then n else 0)
    (hrows : ∀ g, (db'.grants.find? g).isSome = (db.grants.find? g).isSome)
    (hreservations : db'.reservations = db.reservations) :
    Recharged res (f res) n db (db'.setReservation res.id f hid) := by
  refine ⟨hstore, hquota, hrows, fun id => ?_⟩
  show (db'.reservations.update _ f hid).find? id = _
  rw [hreservations]
  exact find?_update_at hf (decide_eq_true rfl) (fun _ => of_decide_eq_true) id

/-- A refund of a live reservation goes through, whatever the inventory. -/
theorem refundCreditPoolReservation_of {id : Int} (hf : db.reservations.find? id = some res)
    (hlive : res.status ≠ .refunded) (hgrant : (db.grants.find? res.grantId).isSome = true) :
    ∃ db', refundCreditPoolReservation id db = .ok ((), db') ∧
      Recharged res res.refunded (-res.customerQuota) db db' := by
  obtain rfl := key_of_find? hf
  have hlock : (lockReservation res.id : CreditTx R _) db = .ok (res, db) :=
    fetch_ok.mpr ⟨res, hf, rfl⟩
  let db₁ := db.addToGrant res.grantId res.customerQuota
  let db₂ := (restoreLots (db₁.allocationsOf res.id) db₁).dropAllocations res.id
  have ht : Taken res.grantId (-res.customerQuota) db db₁ := taken_addToGrant hgrant _
  have hi : InventoryOnly db₁ db₂ :=
    (restoreLots_inventoryOnly _ db₁).trans ⟨rfl, rfl, rfl⟩
  refine ⟨db₂.setReservation res.id (fun r => r.refunded) (fun _ => rfl), ?_,
    recharged_of (f := fun r => r.refunded) hf hi.store (ht.congr hi.grants).1
      (ht.congr hi.grants).2 hi.reservations⟩
  unfold refundCreditPoolReservation
  rw [bind_of_ok hlock, if_neg hlive]
  rfl

theorem refundCreditPoolReservation_store (id : Int) (db : CreditDb R) :
    Tx.Spec (refundCreditPoolReservation id) db (fun _ db' => db'.store = db.store)
      (fun _ => True) := by
  refine spec_bind (spec_fetch (fun _ => trivial) fun res _ => ?_)
  split
  · exact spec_pure rfl
  · refine spec_bind (spec_write ?_)
    refine spec_bind ((restoreCreditAllocations_movesInventory res.id _).mono fun _ _ hi => ?_)
    exact spec_write hi.store

variable [Ratio R]

theorem adjustSettledCreditPoolReservation_store (id delta now : Int) (db : CreditDb R) :
    Tx.Spec (adjustSettledCreditPoolReservation id delta now) db (fun _ db' => db'.store = db.store)
      (fun _ => True) := by
  refine spec_bind (spec_fetch (fun _ => trivial) fun res _ => ?_)
  refine spec_bind (spec_ensure (fun _ => trivial) fun _ => ?_)
  refine spec_bind (spec_ensure (fun _ => trivial) fun _ => ?_)
  refine spec_bind (spec_ensure (fun _ => trivial) fun _ => ?_)
  refine spec_bind ((settleAllocations_movesInventory res _ _ now db).mono fun _ _ hi => ?_)
  exact spec_bind (spec_when (fun _ => spec_write (spec_write hi.store))
    (fun _ => spec_write hi.store))

/-- An adjustment that goes through charges the difference to the grant. -/
theorem adjustSettledCreditPoolReservation_recharged {id : Int}
    (hf : db.reservations.find? id = some res)
    (hgrant : (db.grants.find? res.grantId).isSome = true) (delta now : Int) :
    Tx.Spec (adjustSettledCreditPoolReservation id delta now) db (fun _ db' =>
      ∃ res', res'.grantId = res.grantId ∧ res'.heldCustomer = res.heldCustomer + delta ∧
        Recharged res res' delta db db') (fun _ => True) := by
  obtain rfl := key_of_find? hf
  refine spec_bind (spec_fetch (fun _ => trivial) fun res₁ h₁ => ?_)
  obtain rfl : res = res₁ := Option.some.inj (hf.symm.trans h₁)
  refine spec_bind (spec_ensure (fun _ => trivial) fun hsettled => ?_)
  refine spec_bind (spec_ensure (fun _ => trivial) fun _ => ?_)
  have hlive : res.status ≠ .refunded := by
    rw [hsettled]
    decide
  refine spec_bind (spec_ensure (fun _ => trivial) fun _ => ?_)
  refine spec_bind ((settleAllocations_movesInventory res _ _ now db).mono fun _ db₁ hi => ?_)
  have hstep : ∀ {db₂ : CreditDb R} (channelId poolQuota : Int) (ratio : R),
      Taken res.grantId (res.customerQuota + delta - res.customerQuota) db₁ db₂ →
      ∃ res', res'.grantId = res.grantId ∧ res'.heldCustomer = res.heldCustomer + delta ∧
        Recharged res res' delta db (db₂.setReservation res.id
          (fun r => r.settledAt channelId (res.customerQuota + delta) poolQuota ratio)
          (fun _ => rfl)) := by
    intro db₂ channelId poolQuota ratio ht
    rw [add_sub_cancel_left] at ht
    have hrest := ht.rest
    refine ⟨res.settledAt channelId (res.customerQuota + delta) poolQuota ratio, rfl, ?_,
      recharged_of (f := fun r => r.settledAt channelId (res.customerQuota + delta) poolQuota ratio)
        hf (by rw [hrest]; exact hi.store) (fun g => ?_) (fun g => ?_)
        (by rw [hrest]; exact hi.reservations)⟩
    · rw [(held_of_live hlive).2]
      rfl
    · rw [ht.quota, grantQuota, hi.grants, ← grantQuota]
    · rw [ht.rows, hi.grants]
  refine spec_bind (spec_when (fun _ => spec_write (spec_write (hstep _ _ _ ?_)))
    (fun hz => spec_write (hstep _ _ _ ?_)))
  · have ht : Taken res.grantId _ db₁ _ := taken_addToGrant (by rw [hi.grants]; exact hgrant)
      (-(res.customerQuota + delta - res.customerQuota))
    rwa [neg_neg] at ht
  · exact Taken.refl (by omega)

end UnifyConsole.Credit
