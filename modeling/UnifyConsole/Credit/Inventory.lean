import Mathlib
import UnifyConsole.Credit.Pool

/-!
# Inventory moves

Allocating, giving back and restoring move quota between the lots of a pool and
the allocations of one reservation, and nothing else.  `Drawn r pool n db db'` is
that move: reservation `r` holds `n` more than before, every lot has with its
allocations what it had, new allocations are from lots of the pool, and no other
reservation, no grant and no reservation row changed.  Moves compose, and each
of the three functions is one move.

The allocations stay `Tidy` throughout: every one is positive, there is at most
one for a reservation and a lot, and its lot exists.
-/

namespace UnifyConsole.Credit

open Lib
open Table Tx List Option CreditDb CreditPoolReservationLot

variable {R : Type}

variable {db : CreditDb R} {l r : Int}

namespace CreditDb

def lotPool (db : CreditDb R) (lotId : Int) : Option Int :=
  (db.lots.find? lotId).map CreditPoolLot.poolId

def lotQuota (db : CreditDb R) (lotId : Int) : Int :=
  ((db.lots.find? lotId).map CreditPoolLot.remainingQuota).getD 0

/-- The allocations whose reservation and lot satisfy `c`. -/
def allocatedWhere (db : CreditDb R) (c : Int → Int → Bool) : Int :=
  db.allocations.sum fun a => if c a.reservationId a.lotId then a.quota else 0

def lotAllocated (db : CreditDb R) (lotId : Int) : Int :=
  db.allocatedWhere fun _ l => decide (l = lotId)

def allocated (db : CreditDb R) (reservationId : Int) : Int :=
  db.allocatedWhere fun r _ => decide (r = reservationId)

def HasAllocation (db : CreditDb R) (reservationId lotId : Int) : Prop :=
  ∃ a ∈ db.allocations.rows, a.reservationId = reservationId ∧ a.lotId = lotId

/-- The allocations are positive, one for a reservation and a lot, from lots
that exist. -/
structure Tidy (db : CreditDb R) : Prop where
  positive : ∀ a ∈ db.allocations.rows, 0 < a.quota
  unique : ∀ a ∈ db.allocations.rows, ∀ b ∈ db.allocations.rows,
    a.reservationId = b.reservationId → a.lotId = b.lotId → a = b
  lots : ∀ a ∈ db.allocations.rows, (db.lots.find? a.lotId).isSome = true

/-! ### Lots -/

theorem isSome_lots_addToLot (db : CreditDb R) (l n k : Int) :
    ((db.addToLot l n).lots.find? k).isSome = (db.lots.find? k).isSome := by
  rw [addToLot, isSome_find?_update]

@[simp] theorem lotPool_addToLot (db : CreditDb R) (l n k : Int) :
    (db.addToLot l n).lotPool k = db.lotPool k := by
  rw [lotPool, addToLot, map_find?_update (by exact fun _ => rfl), lotPool]

theorem lotQuota_addToLot (hl : (db.lots.find? l).isSome = true) (n k : Int) :
    (db.addToLot l n).lotQuota k = db.lotQuota k + if k = l then n else 0 := by
  obtain ⟨lot, hlot⟩ := isSome_iff_exists.mp hl
  unfold lotQuota addToLot
  rw [find?_update_at hlot (decide_eq_true (key_of_find? hlot)) (fun _ => of_decide_eq_true)]
  by_cases hk : k = l
  · simp [hk, hlot]
  · simp [hk]

theorem Tidy.addToLot (h : db.Tidy) (l n : Int) : (db.addToLot l n).Tidy where
  positive := h.positive
  unique := h.unique
  lots a ha := by
    rw [isSome_lots_addToLot]
    exact h.lots a ha

/-! ### Allocations -/

variable {a : CreditPoolReservationLot}

theorem isAllocation_iff {reservationId lotId : Int} :
    isAllocation reservationId lotId a = true ↔ a.reservationId = reservationId ∧
      a.lotId = lotId := by
  simp [isAllocation]

theorem allocatedWhere_addToAllocation (h : db.Tidy) (hrow : db.HasAllocation r l) (n : Int)
    (c : Int → Int → Bool) :
    (db.addToAllocation r l n).allocatedWhere c =
      db.allocatedWhere c + if c r l then n else 0 := by
  obtain ⟨a, ha, har, hal⟩ := hrow
  unfold allocatedWhere addToAllocation
  have hfind : db.allocations.find? a.id = some a := find?_eq_some_iff.mpr ⟨ha, rfl⟩
  rw [sum_update_one hfind (isAllocation_iff.mpr ⟨har, hal⟩)]
  · simp only [har, hal]
    split <;> omega
  · intro x hx hp
    obtain ⟨hxr, hxl⟩ := isAllocation_iff.mp hp
    rw [h.unique x hx a ha (hxr.trans har.symm) (hxl.trans hal.symm)]

variable {n : Int}

theorem mem_addToAllocation {x : CreditPoolReservationLot} :
    x ∈ (db.addToAllocation r l n).allocations.rows ↔ ∃ a ∈ db.allocations.rows,
      x = if isAllocation r l a then { a with quota := a.quota + n } else a := by
  rw [addToAllocation, mem_update]

/-- Allocations stay tidy when the rows change in their amounts only. -/
theorem Tidy.map {db' : CreditDb R} (h : db.Tidy)
    (f : CreditPoolReservationLot → CreditPoolReservationLot)
    (hrows : ∀ x ∈ db'.allocations.rows, ∃ a ∈ db.allocations.rows, x = f a)
    (hf : ∀ a, (f a).reservationId = a.reservationId ∧ (f a).lotId = a.lotId)
    (hpos : ∀ a ∈ db.allocations.rows, 0 < (f a).quota) (hlots : db'.lots = db.lots) :
    db'.Tidy where
  positive x hx := by
    obtain ⟨a, ha, rfl⟩ := hrows x hx
    exact hpos a ha
  unique x hx y hy hr hl := by
    obtain ⟨a, ha, rfl⟩ := hrows x hx
    obtain ⟨b, hb, rfl⟩ := hrows y hy
    rw [(hf a).1, (hf b).1] at hr
    rw [(hf a).2, (hf b).2] at hl
    rw [h.unique a ha b hb hr hl]
  lots x hx := by
    obtain ⟨a, ha, rfl⟩ := hrows x hx
    rw [(hf a).2, hlots]
    exact h.lots a ha

/-- Every allocation has one before it. -/
def KeepsRows (db db' : CreditDb R) : Prop :=
  ∀ x ∈ db'.allocations.rows, db.HasAllocation x.reservationId x.lotId

theorem keepsRows_addToAllocation (db : CreditDb R) (r l n : Int) :
    KeepsRows db (db.addToAllocation r l n) := by
  intro x hx
  obtain ⟨a, ha, rfl⟩ := mem_addToAllocation.mp hx
  refine ⟨a, ha, ?_⟩
  split <;> exact ⟨rfl, rfl⟩

theorem Tidy.addToAllocation (h : db.Tidy) (r l : Int) (hn : 0 < n) :
    (db.addToAllocation r l n).Tidy := by
  refine h.map _ (fun x hx => mem_addToAllocation.mp hx) (fun a => ?_) (fun a ha => ?_) rfl
  · split <;> exact ⟨rfl, rfl⟩
  have := h.positive a ha
  split
  · show 0 < a.quota + n
    omega
  · exact this

theorem hasAllocation_addToAllocation (n : Int) {r' l' : Int} (h : db.HasAllocation r' l') :
    (db.addToAllocation r l n).HasAllocation r' l' := by
  obtain ⟨a, ha, har, hal⟩ := h
  refine ⟨_, mem_addToAllocation.mpr ⟨a, ha, rfl⟩, ?_⟩
  split <;> exact ⟨har, hal⟩

/-- Charging an allocation adds to the sums of its reservation and its lot. -/
theorem chargeAllocation_spec {db' : CreditDb R} (h : db.Tidy) (hn : 0 < n)
    (hl : (db.lots.find? l).isSome = true) (hc : db.chargeAllocation r l n = some db') :
    (∀ c, db'.allocatedWhere c = db.allocatedWhere c + if c r l then n else 0) ∧ db'.Tidy ∧
      db'.HasAllocation r l ∧ (∀ r' l', db.HasAllocation r' l' → db'.HasAllocation r' l') ∧
      (∀ x ∈ db'.allocations.rows, db.HasAllocation x.reservationId x.lotId ∨
        (x.reservationId = r ∧ x.lotId = l)) ∧
      db' = { db with allocations := db'.allocations } := by
  unfold chargeAllocation at hc
  split at hc
  · rename_i hm
    rw [matched_eq_zero_iff] at hm
    obtain ⟨t, hins, rfl⟩ := map_eq_some_iff.mp hc
    refine ⟨fun c => sum_insert? hins, ⟨fun a ha => ?_, fun a ha b hb hr hl' => ?_,
      fun a ha => ?_⟩, ?_, fun r' l' ⟨a, ha, hal⟩ => ?_, fun x hx => ?_, rfl⟩
    · rcases (mem_insert? hins).mp ha with ha | rfl
      · exact h.positive a ha
      · exact hn
    · have hfresh : ∀ x ∈ db.allocations.rows, x.reservationId = r → x.lotId ≠ l := by
        intro x hx hxr hxl
        have := hm x hx
        rw [isAllocation_iff.mpr ⟨hxr, hxl⟩] at this
        cases this
      rcases (mem_insert? hins).mp ha with ha | rfl <;>
        rcases (mem_insert? hins).mp hb with hb | rfl
      · exact h.unique a ha b hb hr hl'
      · exact absurd hl' (hfresh a ha hr)
      · exact absurd hl'.symm (hfresh b hb hr.symm)
      · rfl
    · rcases (mem_insert? hins).mp ha with ha | rfl
      · exact h.lots a ha
      · exact hl
    · exact ⟨_, (mem_insert? hins).mpr (.inr rfl), rfl, rfl⟩
    · exact ⟨a, (mem_insert? hins).mpr (.inl ha), hal⟩
    · rcases (mem_insert? hins).mp hx with hx | rfl
      · exact .inl ⟨x, hx, rfl, rfl⟩
      · exact .inr ⟨rfl, rfl⟩
  · rename_i hm
    obtain rfl := some.inj hc
    have hrow : db.HasAllocation r l := by
      by_contra hno
      refine hm (matched_eq_zero_iff.mpr fun a ha => ?_)
      by_contra hp
      exact hno ⟨a, ha, isAllocation_iff.mp (by simpa using hp)⟩
    exact ⟨allocatedWhere_addToAllocation h hrow n, h.addToAllocation r l hn,
      hasAllocation_addToAllocation n hrow, fun r' l' => hasAllocation_addToAllocation n,
      fun x hx => .inl (keepsRows_addToAllocation db r l n x hx), rfl⟩

theorem mem_lowerAllocation {id : Int} {x : CreditPoolReservationLot} :
    x ∈ (db.lowerAllocation id n).allocations.rows ↔ ∃ a ∈ db.allocations.rows,
      x = if decide (a.id = id) then { a with quota := a.quota - n } else a := by
  rw [lowerAllocation, mem_update]

/-- Giving back takes from the sums of the reservation and the lot. -/
theorem allocatedWhere_giveBack (ha : a ∈ db.allocations.rows) (n : Int) (c : Int → Int → Bool) :
    (db.giveBack a n).allocatedWhere c =
      db.allocatedWhere c - if c a.reservationId a.lotId then n else 0 := by
  have hfind : db.allocations.find? a.id = some a := find?_eq_some_iff.mpr ⟨ha, rfl⟩
  unfold giveBack
  split
  · rename_i hn
    unfold allocatedWhere
    rw [sum_delete, sum_eq_of_find? hfind (g := fun a =>
      if c a.reservationId a.lotId then a.quota else 0)]
    · simp only [decide_true, if_true, hn]
      omega
    intro x hx hne
    rw [if_neg]
    intro hp
    exact hne (db.allocations.eq_of_key_eq hx ha (by simpa using hp))
  · unfold allocatedWhere lowerAllocation
    rw [sum_update_one hfind (by simp) (fun x _ hp => by simpa using hp)]
    simp only
    split <;> omega

theorem Tidy.giveBack (h : db.Tidy) (ha : a ∈ db.allocations.rows) (hle : n ≤ a.quota) :
    (db.giveBack a n).Tidy := by
  unfold CreditDb.giveBack
  split
  · exact ⟨fun x hx => h.positive x (mem_delete.mp hx).1,
      fun x hx y hy => h.unique x (mem_delete.mp hx).1 y (mem_delete.mp hy).1,
      fun x hx => h.lots x (mem_delete.mp hx).1⟩
  refine h.map _ (fun x hx => mem_lowerAllocation.mp hx) (fun b => ?_) (fun b hb => ?_) rfl
  · split <;> exact ⟨rfl, rfl⟩
  split
  · rename_i hp
    have hba : b = a := db.allocations.eq_of_key_eq hb ha (by simpa using hp)
    rw [hba]
    show 0 < a.quota - n
    omega
  · exact h.positive b hb

theorem keepsRows_giveBack (db : CreditDb R) (a : CreditPoolReservationLot) (n : Int) :
    KeepsRows db (db.giveBack a n) := by
  unfold giveBack
  split
  · exact fun x hx => ⟨x, (mem_delete.mp hx).1, rfl, rfl⟩
  intro x hx
  obtain ⟨b, hb, rfl⟩ := mem_lowerAllocation.mp hx
  refine ⟨b, hb, ?_⟩
  split <;> exact ⟨rfl, rfl⟩

theorem giveBack_eq (db : CreditDb R) (a : CreditPoolReservationLot) (n : Int) :
    db.giveBack a n = { db with allocations := (db.giveBack a n).allocations } := by
  unfold giveBack
  split <;> rfl

theorem mem_giveBack_of_ne {b : CreditPoolReservationLot} (ha : a ∈ db.allocations.rows)
    (hb : b ∈ db.allocations.rows) (hne : b ≠ a) (n : Int) :
    b ∈ (db.giveBack a n).allocations.rows := by
  have hid : b.id ≠ a.id := fun he => hne (db.allocations.eq_of_key_eq hb ha he)
  unfold giveBack
  split
  · exact mem_delete.mpr ⟨hb, by simpa using hid⟩
  · exact mem_lowerAllocation.mpr ⟨b, hb, by rw [if_neg (by simpa using hid)]⟩

end CreditDb

/-! ### Moves -/

/-- `n` of the inventory of `pool` went to reservation `r`. -/
structure Drawn (r pool n : Int) (db db' : CreditDb R) : Prop where
  lots : ∀ k, db'.lotQuota k + db'.lotAllocated k = db.lotQuota k + db.lotAllocated k
  pools : ∀ k, db'.lotPool k = db.lotPool k
  own : db'.allocated r = db.allocated r + n
  others : ∀ r', r' ≠ r → db'.allocated r' = db.allocated r'
  source : ∀ x ∈ db'.allocations.rows, db.HasAllocation x.reservationId x.lotId ∨
    (x.reservationId = r ∧ db.lotPool x.lotId = some pool)
  grants : db'.grants = db.grants
  reservations : db'.reservations = db.reservations
  tidy : db'.Tidy

namespace Drawn

variable {db db' db'' : CreditDb R} {r pool n m : Int}

theorem refl (h : db.Tidy) (hn : n = 0) : Drawn r pool n db db :=
  ⟨fun _ => rfl, fun _ => rfl, by rw [hn, add_zero], fun _ _ => rfl,
    fun x hx => .inl ⟨x, hx, rfl, rfl⟩, rfl, rfl, h⟩

theorem trans (h : Drawn r pool n db db') (h' : Drawn r pool m db' db'') :
    Drawn r pool (n + m) db db'' where
  lots k := (h'.lots k).trans (h.lots k)
  pools k := (h'.pools k).trans (h.pools k)
  own := by rw [h'.own, h.own]; omega
  others r' hr := (h'.others r' hr).trans (h.others r' hr)
  source x hx := by
    rcases h'.source x hx with ⟨a, ha, hr, hl⟩ | ⟨hr, hl⟩
    · rw [← hr, ← hl]
      exact h.source a ha
    · rw [h.pools] at hl
      exact .inr ⟨hr, hl⟩
  grants := h'.grants.trans h.grants
  reservations := h'.reservations.trans h.reservations
  tidy := h'.tidy

/-- A move of one lot: `n` less in the lot, `n` more allocated from it. -/
theorem of_lot (hl : (db.lots.find? l).isSome = true) (hlots : db'.lots = (db.addToLot l (-n)).lots)
    (hsum : ∀ c, db'.allocatedWhere c = db.allocatedWhere c + if c r l then n else 0)
    (hsource : ∀ x ∈ db'.allocations.rows, db.HasAllocation x.reservationId x.lotId ∨
      (x.reservationId = r ∧ db.lotPool x.lotId = some pool)) (hgrants : db'.grants = db.grants)
    (hres : db'.reservations = db.reservations) (htidy : db'.Tidy) : Drawn r pool n db db' where
  lots k := by
    have hq : db'.lotQuota k = (db.addToLot l (-n)).lotQuota k := by
      rw [lotQuota, hlots, lotQuota]
    rw [hq, lotQuota_addToLot hl, lotAllocated, hsum, ← lotAllocated]
    by_cases hk : k = l
    · subst hk
      simp only [decide_true, if_true]
      omega
    · have hk' : l ≠ k := fun he => hk he.symm
      simp [hk, hk']
  pools k := by
    rw [lotPool, hlots, ← lotPool, lotPool_addToLot]
  own := by
    rw [allocated, hsum, ← allocated]
    simp
  others r' hr := by
    rw [allocated, hsum, ← allocated]
    simp [hr.symm]
  source := hsource
  grants := hgrants
  reservations := hres
  tidy := htidy

end Drawn

/-! ### Allocating -/

/-- The error no operation reaches. -/
@[simp] def NotExceeded (e : CreditError) : Prop := e ≠ .allocationRefundExceeds

theorem allocateLoop_spec (r pool : Int) (lots : List (CreditPoolLot R)) :
    ∀ (remaining : Int) (db : CreditDb R), db.Tidy → 0 ≤ remaining →
      (∀ lot ∈ lots, 0 < lot.remainingQuota ∧ db.lotPool lot.id = some pool) →
      Tx.Spec (allocateLoop r lots remaining) db
        (fun left db' => 0 ≤ left ∧ Drawn r pool (remaining - left) db db' ∧
          (∀ l, db.HasAllocation r l → db'.HasAllocation r l) ∧
          (0 < left → ∀ lot ∈ lots, db'.HasAllocation r lot.id)) NotExceeded := by
  induction lots with
  | nil =>
    intro remaining db htidy h0 _
    exact spec_pure ⟨h0, .refl htidy (sub_self _), fun _ h => h, nofun⟩
  | cons lot rest ih =>
    intro remaining db htidy h0 hlots
    unfold allocateLoop
    split
    · rename_i hle
      exact spec_pure ⟨h0, .refl htidy (sub_self _), fun _ h => h,
        fun hpos => absurd hpos (by omega)⟩
    obtain ⟨hrem, hpool⟩ := hlots lot mem_cons_self
    have hl : (db.lots.find? lot.id).isSome = true := by
      simpa [lotPool] using congrArg isSome hpool
    have htake : 0 < min lot.remainingQuota remaining := lt_min hrem (by omega)
    have hle : min lot.remainingQuota remaining ≤ remaining := min_le_right _ _
    generalize min lot.remainingQuota remaining = take at htake hle
    refine spec_bind (spec_write (spec_bind (spec_writeSome
      (by simp) fun db₁ hc => ?_)))
    have hl₁ : ((db.addToLot lot.id (-take)).lots.find? lot.id).isSome = true := by
      rw [isSome_lots_addToLot, hl]
    obtain ⟨hsum, htidy₁, hhas, hkeep, hrows, heq⟩ :=
      chargeAllocation_spec (htidy.addToLot lot.id (-take)) htake hl₁ hc
    have hd : Drawn r pool take db db₁ := by
      refine Drawn.of_lot hl (by rw [heq]) hsum (fun x hx => ?_) (by rw [heq]; rfl)
        (by rw [heq]; rfl) htidy₁
      exact (hrows x hx).imp_right fun hxrl => ⟨hxrl.1, by rw [hxrl.2]; exact hpool⟩
    refine (ih (remaining - take) db₁ htidy₁ (by omega) fun x hx => ?_).mono ?_
    · rw [hd.pools]
      exact hlots x (mem_cons_of_mem _ hx)
    rintro left db' ⟨hleft, hd', hkeep', hall⟩
    refine ⟨hleft, ?_, fun l h => hkeep' l (hkeep r l h), fun hp x hx => ?_⟩
    · have := hd.trans hd'
      rwa [show take + (remaining - take - left) = remaining - left by omega] at this
    · rcases mem_cons.mp hx with rfl | hx
      · exact hkeep' _ hhas
      · exact hall hp x hx

theorem CreditDb.lastAllocatedLot_spec {last : CreditPoolLot R}
    (h : db.lastAllocatedLot r = some last) : db.HasAllocation r last.id := by
  obtain ⟨a, ha, hf⟩ := exists_of_findSome?_eq_some h
  have hmem : a ∈ db.allocationsOf r := by
    rw [newestAllocationsOf, mem_insertionSort] at ha
    exact ha
  rw [allocationsOf, mem_filter] at hmem
  exact ⟨a, hmem.1, by simpa using hmem.2, (key_of_find? hf).symm⟩

variable [Ratio R]

theorem mem_orderedLots {poolId channelId now : Int} {lot : CreditPoolLot R}
    (h : lot ∈ orderedLots db poolId channelId now) :
    0 < lot.remainingQuota ∧ db.lotPool lot.id = some poolId := by
  rw [orderedLots, mem_insertionSort, mem_filter] at h
  have hf : db.lots.find? lot.id = some lot := find?_eq_some_iff.mpr ⟨h.1, rfl⟩
  have hact := h.2
  simp only [activeCreditLot, Bool.and_eq_true, decide_eq_true_eq] at hact
  exact ⟨hact.1.1.2.2, by rw [lotPool, hf, ← hact.1.1.1]; rfl⟩

/-- **Allocating** moves the amount, whichever lots it comes from. -/
theorem allocateCreditLots_spec (htidy : db.Tidy) (r poolId channelId amount : Int)
    (allowOverdraft : Bool) (now : Int) (h0 : 0 ≤ amount) :
    Tx.Spec (allocateCreditLots r poolId channelId amount allowOverdraft now) db
      (fun _ db' => Drawn r poolId amount db db') NotExceeded := by
  unfold allocateCreditLots
  split
  · rename_i hle
    exact spec_pure (Drawn.refl htidy (by omega))
  refine spec_bind (spec_read (spec_bind ?_))
  refine (allocateLoop_spec r poolId _ amount db htidy h0 fun lot hlot => mem_orderedLots hlot).mono ?_
  rintro left db₁ ⟨hleft, hd, -, hall⟩
  split
  · rename_i hle
    obtain rfl : left = 0 := by omega
    rw [sub_zero] at hd
    exact spec_pure hd
  split
  · exact spec_fail (by simp)
  refine spec_bind (spec_fetch (by simp) fun last hlast => ?_)
  have hhas : db₁.HasAllocation r last.id := by
    cases hg : (orderedLots db poolId channelId now).getLast? with
    | some lot =>
      rw [hg, some_or, some.injEq] at hlast
      subst hlast
      exact hall (by omega) lot (mem_of_getLast? hg)
    | none =>
      rw [hg, none_or] at hlast
      exact lastAllocatedLot_spec hlast
  have hl : (db₁.lots.find? last.id).isSome = true := by
    obtain ⟨a, ha, -, hal⟩ := hhas
    rw [← hal]
    exact hd.tidy.lots a ha
  have hmove : Drawn r poolId left db₁
      ((db₁.addToLot last.id (-left)).addToAllocation r last.id left) :=
    Drawn.of_lot hl rfl
      (allocatedWhere_addToAllocation (hd.tidy.addToLot _ _) hhas left)
      (fun x hx => .inl (keepsRows_addToAllocation _ r last.id left x hx)) rfl rfl
      ((hd.tidy.addToLot _ _).addToAllocation _ _ (by omega))
  have := hd.trans hmove
  rwa [sub_add_cancel] at this

omit [Ratio R]

/-! ### Giving back -/

theorem sum_quota_nonneg (h : db.Tidy) {l : List CreditPoolReservationLot}
    (hl : ∀ a ∈ l, a ∈ db.allocations.rows) : 0 ≤ (l.map quota).sum := by
  refine sum_nonneg fun x hx => ?_
  obtain ⟨a, ha, rfl⟩ := mem_map.mp hx
  exact (h.positive a (hl a ha)).le

/-- The loop gives back what the allocations hold, up to the amount. -/
theorem reduceLoop_spec (r pool : Int) (l : List CreditPoolReservationLot) :
    ∀ (remaining : Int) (db : CreditDb R), db.Tidy → 0 ≤ remaining → l.Nodup →
      (∀ a ∈ l, a ∈ db.allocations.rows ∧ a.reservationId = r) →
      Tx.Spec (reduceLoop l remaining) db
        (fun left db' => left = max 0 (remaining - (l.map quota).sum) ∧
          Drawn r pool (left - remaining) db db') NotExceeded := by
  induction l with
  | nil =>
    intro remaining db htidy h0 _ _
    exact spec_pure ⟨by simp [h0], .refl htidy (sub_self _)⟩
  | cons a rest ih =>
    intro remaining db htidy h0 hnd hmem
    have hrest : 0 ≤ (rest.map quota).sum :=
      sum_quota_nonneg htidy fun b hb => (hmem b (mem_cons_of_mem _ hb)).1
    obtain ⟨ha, har⟩ := hmem a mem_cons_self
    have hq := htidy.positive a ha
    rw [nodup_cons] at hnd
    simp only [map_cons, sum_cons]
    unfold reduceLoop
    split
    · rename_i hle
      exact spec_pure ⟨by omega, .refl htidy (sub_self _)⟩
    have hle₁ : min a.quota remaining ≤ a.quota := min_le_left _ _
    have hle₂ : min a.quota remaining ≤ remaining := min_le_right _ _
    have heq : min a.quota remaining = a.quota ∨ min a.quota remaining = remaining :=
      min_choice _ _
    generalize min a.quota remaining = back at hle₁ hle₂ heq
    refine spec_bind (spec_write (spec_bind (spec_write ?_)))
    have ha₁ : a ∈ (db.addToLot a.lotId back).allocations.rows := ha
    have htidy₁ := htidy.addToLot a.lotId back
    have hd : Drawn r pool (-back) db ((db.addToLot a.lotId back).giveBack a back) := by
      refine Drawn.of_lot (htidy.lots a ha) (by rw [giveBack_eq, neg_neg]) (fun c => ?_)
        (fun x hx => .inl (keepsRows_giveBack (db.addToLot a.lotId back) a back x hx))
        (by rw [giveBack_eq]; rfl) (by rw [giveBack_eq]; rfl) (htidy₁.giveBack ha₁ hle₁)
      rw [allocatedWhere_giveBack ha₁, har]
      show db.allocatedWhere c - _ = _
      split <;> omega
    refine (ih (remaining - back) _ hd.tidy (by omega) hnd.2 fun b hb => ?_).mono ?_
    · obtain ⟨hb', hbr⟩ := hmem b (mem_cons_of_mem _ hb)
      exact ⟨mem_giveBack_of_ne ha₁ hb' (fun he => hnd.1 (he ▸ hb)) back, hbr⟩
    rintro left db' ⟨hleft, hd'⟩
    refine ⟨by omega, ?_⟩
    have := hd.trans hd'
    rwa [show -back + (left - (remaining - back)) = left - remaining by omega] at this

theorem CreditDb.sum_allocationsOf (db : CreditDb R) (r : Int) :
    ((db.allocationsOf r).map quota).sum = db.allocated r :=
  sum_filter

/-- **Giving back** moves the amount, when the reservation holds that much. -/
theorem reduceCreditAllocations_spec (htidy : db.Tidy) {amount : Int} (pool : Int) (h0 : 0 ≤ amount)
    (hle : amount ≤ db.allocated r) :
    Tx.Spec (reduceCreditAllocations r amount) db (fun _ db' => Drawn r pool (-amount) db db')
      NotExceeded := by
  unfold reduceCreditAllocations
  split
  · rename_i hz
    exact spec_pure (Drawn.refl htidy (by omega))
  have hperm : (db.newestAllocationsOf r).Perm (db.allocationsOf r) :=
    perm_insertionSort _ _
  have hnd : (db.newestAllocationsOf r).Nodup :=
    hperm.nodup_iff.mpr ((Nodup.of_map _ db.allocations.nodup).filter _)
  have hsum : ((db.newestAllocationsOf r).map quota).sum =
      db.allocated r := by
    rw [(hperm.map _).sum_eq, db.sum_allocationsOf]
  refine spec_bind (spec_read (spec_bind ?_))
  refine (reduceLoop_spec r pool _ amount db htidy h0 hnd fun a ha => ?_).mono ?_
  · have hmem := hperm.mem_iff.mp ha
    rw [allocationsOf, mem_filter] at hmem
    exact ⟨hmem.1, by simpa using hmem.2⟩
  rintro left db' ⟨hleft, hd⟩
  obtain rfl : left = 0 := by omega
  rwa [zero_sub] at hd

/-! ### Restoring -/

theorem restoreLots_spec (l : List CreditPoolReservationLot) :
    ∀ db : CreditDb R, (∀ a ∈ l, (db.lots.find? a.lotId).isSome = true) →
      (∀ k, (restoreLots l db).lotQuota k =
        db.lotQuota k + (l.map fun a => if a.lotId = k then a.quota else 0).sum) ∧
      (∀ k, (restoreLots l db).lotPool k = db.lotPool k) ∧
      restoreLots l db = { db with lots := (restoreLots l db).lots } := by
  induction l with
  | nil =>
    intro db _
    exact ⟨fun k => by simp [restoreLots], fun _ => rfl, rfl⟩
  | cons a rest ih =>
    intro db hl
    obtain ⟨hq, hpools, heq⟩ := ih (db.addToLot a.lotId a.quota) fun b hb => by
      rw [isSome_lots_addToLot]
      exact hl b (mem_cons_of_mem _ hb)
    refine ⟨fun k => ?_, fun k => ?_, ?_⟩
    · rw [restoreLots, hq, lotQuota_addToLot (hl a mem_cons_self), map_cons,
        sum_cons]
      omega
    · rw [restoreLots, hpools, lotPool_addToLot]
    · rw [restoreLots, heq]
      rfl

theorem CreditDb.allocatedWhere_dropAllocations (db : CreditDb R) (r : Int)
    (c : Int → Int → Bool) :
    (db.dropAllocations r).allocatedWhere c =
      db.allocatedWhere (fun r' l => c r' l && !decide (r' = r)) := by
  rw [allocatedWhere, dropAllocations, sum_delete, allocatedWhere]
  refine sum_congr fun a _ => ?_
  by_cases ha : a.reservationId = r <;> simp [ha]

theorem CreditDb.Tidy.dropAllocations (h : db.Tidy) (r : Int) :
    (db.dropAllocations r).Tidy where
  positive a ha := h.positive a (mem_delete.mp ha).1
  unique a ha b hb := h.unique a (mem_delete.mp ha).1 b (mem_delete.mp hb).1
  lots a ha := h.lots a (mem_delete.mp ha).1

/-- **Restoring** gives everything back. -/
theorem restoreCreditAllocations_spec (htidy : db.Tidy) (r pool : Int) :
    Tx.Spec (restoreCreditAllocations r) db
      (fun _ db' => Drawn r pool (-db.allocated r) db db') NotExceeded := by
  obtain ⟨hq, hpools, heq⟩ := restoreLots_spec (db.allocationsOf r) db fun a ha =>
    htidy.lots a (mem_filter.mp ha).1
  have hsum : ∀ c, ((restoreLots (db.allocationsOf r) db).dropAllocations r).allocatedWhere c =
      db.allocatedWhere (fun r' l => c r' l && !decide (r' = r)) := by
    intro c
    rw [allocatedWhere_dropAllocations, allocatedWhere, heq]
    rfl
  have htidy' : (restoreLots (db.allocationsOf r) db).Tidy :=
    ⟨by rw [heq]; exact htidy.positive, by rw [heq]; exact htidy.unique, fun a ha => by
      rw [heq] at ha
      have hsome := htidy.lots a ha
      have hk := congrArg isSome (hpools a.lotId)
      simp only [lotPool, isSome_map] at hk
      rw [hk, hsome]⟩
  refine ⟨fun k => ?_, hpools, ?_, fun r' hr => ?_, fun x hx => ?_, ?_, ?_,
    htidy'.dropAllocations r⟩
  · show (restoreLots (db.allocationsOf r) db).lotQuota k + _ = _
    rw [hq, lotAllocated, hsum, allocationsOf, sum_filter, add_assoc,
      allocatedWhere, ← sum_add, lotAllocated, allocatedWhere]
    congr 1
    refine sum_congr fun a _ => ?_
    by_cases ha : a.reservationId = r <;> simp [ha]
  · rw [CreditDb.allocated, hsum, CreditDb.allocatedWhere, add_neg_cancel]
    refine Table.sum_eq_zero fun a _ => ?_
    by_cases ha : a.reservationId = r <;> simp [ha]
  · rw [CreditDb.allocated, hsum, CreditDb.allocatedWhere, CreditDb.allocated,
      allocatedWhere]
    refine sum_congr fun a _ => ?_
    by_cases ha : a.reservationId = r' <;> simp [ha, hr]
  · have hx' := (mem_delete.mp hx).1
    rw [heq] at hx'
    exact .inl ⟨x, hx', rfl, rfl⟩
  · rw [heq]
    rfl
  · rw [heq]
    rfl

end UnifyConsole.Credit
