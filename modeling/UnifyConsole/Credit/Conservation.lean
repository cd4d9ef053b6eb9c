import Mathlib
import UnifyConsole.Credit.Inventory

/-!
# Double-entry conservation of credit pools

`Books` is the invariant of the two meters.  Every lot has, with the allocations
drawn from it, what it was created with; every reservation that is not refunded
has allocations for exactly its pool quota, and a refunded one has none; every
grant has, with the customer quotas charged to it, what it was created with.

Each operation moves one reservation: its inventory by a `Drawn`, its grant by
the difference of the customer quotas.  `Books.move` is that step.
-/

namespace UnifyConsole.Credit

open Lib Account
open Table Tx Pool Option CreditDb

variable {R : Type}

def CreditPoolReservation.heldPool (r : CreditPoolReservation R) : Int :=
  if r.status = .refunded then 0 else r.poolQuota

def CreditPoolReservation.heldCustomer (r : CreditPoolReservation R) : Int :=
  if r.status = .refunded then 0 else r.customerQuota

theorem held_of_live {r : CreditPoolReservation R} (h : r.status ≠ .refunded) :
    r.heldPool = r.poolQuota ∧ r.heldCustomer = r.customerQuota :=
  ⟨if_neg h, if_neg h⟩

variable {db db' : CreditDb R} {grantId : Int}

namespace CreditDb

def grantQuota (db : CreditDb R) (grantId : Int) : Int :=
  ((db.grants.find? grantId).map TenantCreditGrant.remainingQuota).getD 0

def charged (db : CreditDb R) (grantId : Int) : Int :=
  db.reservations.sum fun r => if r.grantId = grantId then r.heldCustomer else 0

def owed (db : CreditDb R) (reservationId : Int) : Int :=
  ((db.reservations.find? reservationId).map CreditPoolReservation.heldPool).getD 0

/-! ### Grants -/

/-- `n` was taken from a grant that has a row. -/
structure Taken (grantId n : Int) (db db' : CreditDb R) : Prop where
  quota : ∀ g, db'.grantQuota g = db.grantQuota g - if g = grantId then n else 0
  rows : ∀ g, (db'.grants.find? g).isSome = (db.grants.find? g).isSome
  rest : db' = { db with grants := db'.grants }

theorem Taken.refl {n : Int} (hn : n = 0) : Taken grantId n db db :=
  ⟨fun _ => by simp [hn], fun _ => rfl, rfl⟩

theorem Taken.congr {db'' : CreditDb R} {n : Int} (h : Taken grantId n db db')
    (hg : db''.grants = db'.grants) :
    (∀ g, db''.grantQuota g = db.grantQuota g - if g = grantId then n else 0) ∧
      ∀ g, (db''.grants.find? g).isSome = (db.grants.find? g).isSome := by
  unfold grantQuota
  rw [hg]
  exact ⟨h.quota, h.rows⟩

theorem taken_update {p f hf grant} {n : Int} (h : db.grants.find? grantId = some grant)
    (hp : p grant = true) (hk : ∀ g, p g = true → g.id = grantId)
    (hq : (f grant).remainingQuota = grant.remainingQuota - n) :
    Taken grantId n db { db with grants := db.grants.update p f hf } := by
  refine ⟨fun g => ?_, fun g => by rw [isSome_find?_update], rfl⟩
  unfold grantQuota
  rw [find?_update_at h hp hk]
  by_cases hg : g = grantId
  · simp [hg, h, hq]
  · simp [hg]

theorem taken_addToGrant (h : (db.grants.find? grantId).isSome = true) (n : Int) :
    Taken grantId (-n) db (db.addToGrant grantId n) := by
  obtain ⟨grant, hgrant⟩ := isSome_iff_exists.mp h
  exact taken_update hgrant (decide_eq_true (key_of_find? hgrant)) (fun _ => of_decide_eq_true)
    (sub_neg_eq_add _ _).symm

theorem taken_takeFromGrant {n : Int} (h : db.takeFromGrant grantId n = some db') :
    Taken grantId n db db' ∧ (db.grants.find? grantId).isSome = true := by
  unfold takeFromGrant at h
  rw [ite_none_right_eq_some, some.injEq] at h
  obtain ⟨hm, rfl⟩ := h
  rw [matched_key] at hm
  cases hg : db.grants.find? grantId with
  | none => simp [hg] at hm
  | some grant =>
    have hle : n ≤ grant.remainingQuota := by
      by_contra hn
      simp [hg, hn] at hm
    refine ⟨taken_update hg ?_ (fun g hp => ?_) rfl, rfl⟩
    · simp [key_of_find? hg, hle]
    · exact of_decide_eq_true (Bool.and_eq_true_iff.mp hp).1

theorem Tidy.congr (h : db.Tidy) (hl : db'.lots = db.lots) (ha : db'.allocations = db.allocations) :
    db'.Tidy :=
  ⟨by rw [ha]; exact h.positive, by rw [ha]; exact h.unique, by rw [ha, hl]; exact h.lots⟩

end CreditDb

/-! ### The invariant -/

/-- The two meters balance, relative to the state `db₀` a run began in. -/
structure Books (db₀ db : CreditDb R) : Prop where
  tidy : db.Tidy
  lots : ∀ k, db.lotQuota k + db.lotAllocated k = db₀.lotQuota k
  lotPools : ∀ k, db.lotPool k = db₀.lotPool k
  allocated : ∀ id, db.allocated id = db.owed id
  grants : ∀ g, db.grantQuota g + db.charged g = db₀.grantQuota g
  grantRows : ∀ g, (db.grants.find? g).isSome = (db₀.grants.find? g).isSome
  positive : ∀ r ∈ db.reservations.rows, 0 < r.id
  reserved : ∀ r ∈ db.reservations.rows,
    0 ≤ r.poolQuota ∧ (db.grants.find? r.grantId).isSome = true
  pooled : ∀ a ∈ db.allocations.rows, ∃ r, db.reservations.find? a.reservationId = some r ∧
    db.lotPool a.lotId = some r.poolId

theorem Books.init (hr : db.reservations.rows = []) (ha : db.allocations.rows = []) :
    Books db db where
  tidy := ⟨by simp [ha], by simp [ha], by simp [ha]⟩
  lots k := by simp [lotAllocated, allocatedWhere, sum, ha]
  lotPools _ := rfl
  allocated id := by
    simp [CreditDb.allocated, CreditDb.allocatedWhere, Table.sum, ha, CreditDb.owed, Table.find?,
      hr]
  grants g := by simp [charged, sum, hr]
  grantRows _ := rfl
  positive := by simp [hr]
  reserved := by simp [hr]
  pooled := by simp [ha]

/-- The row of one reservation was changed by `f`, and the books still balance. -/
structure Rebooked (db₀ db : CreditDb R) (id : Int)
    (f : CreditPoolReservation R → CreditPoolReservation R) (db' : CreditDb R) : Prop where
  books : Books db₀ db'
  row : ∃ hid, db'.reservations = db.reservations.update (fun r => decide (r.id = id)) f hid

section Move

variable {db₀ db dbA db₁ : CreditDb R} {res : CreditPoolReservation R} {r pool n m : Int}
  {f : CreditPoolReservation R → CreditPoolReservation R}

/-- It does not matter whether the inventory moves first or the grant. -/
theorem Drawn.swap (hd : Drawn r pool n db dbA) (ht : Taken grantId m dbA db₁) :
    ∃ dbG, Taken grantId m db dbG ∧ Drawn r pool n dbG db₁ := by
  refine ⟨{ db with grants := db₁.grants }, ⟨fun g => ?_, fun g => ?_, rfl⟩, ?_⟩
  · rw [show db.grantQuota g = dbA.grantQuota g by rw [grantQuota, ← hd.grants, ← grantQuota]]
    exact ht.quota g
  · rw [← hd.grants, ← ht.rows]
  · rw [ht.rest]
    exact ⟨hd.lots, hd.pools, hd.own, hd.others, hd.source, rfl, hd.reservations,
      hd.tidy.congr rfl rfl⟩

/-- **A step of one reservation**: `m` from its grant, `n` drawn for it, its row changed by `f`. -/
theorem Books.move (hb : Books db₀ db) (hf : db.reservations.find? res.id = some res)
    (ht : Taken res.grantId m db dbA) (hd : Drawn res.id res.poolId n dbA db₁)
    (hid : ∀ r, (f r).id = r.id) (hn : (f res).heldPool = res.heldPool + n)
    (hm : (f res).heldCustomer = res.heldCustomer + m) (hgrant : (f res).grantId = res.grantId)
    (hpool : (f res).poolId = res.poolId) (h0 : 0 ≤ (f res).poolQuota) :
    Rebooked db₀ db res.id f (db₁.setReservation res.id f hid) := by
  obtain ⟨G, rfl⟩ : ∃ G, dbA = { db with grants := G } := ⟨_, ht.rest⟩
  have hres : (db₁.setReservation res.id f hid).reservations =
      db.reservations.update (fun r => decide (r.id = res.id)) f hid := by
    rw [setReservation, hd.reservations]
  have hfind (k : Int) : (db₁.setReservation res.id f hid).reservations.find? k =
      if k = res.id then some (f res) else db.reservations.find? k := by
    rw [hres]
    exact find?_update_at hf (decide_eq_true rfl) (fun _ => of_decide_eq_true) k
  have hmem : ∀ x ∈ (db₁.setReservation res.id f hid).reservations.rows,
      x = f res ∨ x ∈ db.reservations.rows := by
    intro x hx
    have hx := find?_eq_some_iff.mpr ⟨hx, rfl⟩
    rw [hfind] at hx
    split at hx
    · exact .inl (some.inj hx).symm
    · exact .inr (mem_of_find? hx)
  obtain ⟨hquota, hrows⟩ := ht.congr hd.grants
  refine ⟨⟨hd.tidy.congr rfl rfl, fun k => (hd.lots k).trans (hb.lots k),
    fun k => (hd.pools k).trans (hb.lotPools k), fun id => ?_, fun g => ?_,
    fun g => (hrows g).trans (hb.grantRows g), fun x hx => ?_, fun x hx => ?_, fun x hx => ?_⟩,
    hid, hres⟩
  · show db₁.allocated id = _
    rw [owed, hfind]
    split
    · rename_i he
      rw [he, hd.own, map_some, getD_some, hn]
      have := hb.allocated res.id
      rw [owed, hf] at this
      exact congrArg (· + n) this
    · rename_i he
      exact (hd.others id he).trans (hb.allocated id)
  · have hsum : (db₁.setReservation res.id f hid).charged g =
        db.charged g + if g = res.grantId then m else 0 := by
      rw [charged, hres, sum_update_one hf (by simp) (fun x _ hp => by simpa using hp),
        hgrant, hm, charged]
      by_cases he : res.grantId = g
      · simp [he]
      · have he' : g ≠ res.grantId := fun h => he h.symm
        simp [he, he']
    show db₁.grantQuota g + _ = _
    rw [hquota, hsum, ← hb.grants g]
    omega
  · rcases hmem x hx with rfl | hx
    · rw [hid]
      exact hb.positive res (mem_of_find? hf)
    · exact hb.positive x hx
  · show _ ∧ (db₁.grants.find? _).isSome = true
    rw [hrows]
    rcases hmem x hx with rfl | hx
    · rw [hgrant]
      exact ⟨h0, (hb.reserved res (mem_of_find? hf)).2⟩
    · exact hb.reserved x hx
  · have hsame : ∀ r, db.reservations.find? x.reservationId = some r →
        ∃ r', (db₁.setReservation res.id f hid).reservations.find? x.reservationId = some r' ∧
          r'.poolId = r.poolId := by
      intro r hr
      rw [hfind]
      split
      · rename_i he
        rw [he, hf, some.injEq] at hr
        exact ⟨_, rfl, by rw [hpool, hr]⟩
      · exact ⟨r, hr, rfl⟩
    have hlp : (db₁.setReservation res.id f hid).lotPool x.lotId = db.lotPool x.lotId :=
      hd.pools x.lotId
    rw [hlp]
    rcases hd.source x hx with ⟨a, ha, hr, hl⟩ | ⟨hr, hl⟩
    · obtain ⟨r, hfind, hp⟩ := hb.pooled a ha
      rw [hr] at hfind
      obtain ⟨r', hfind', hp'⟩ := hsame r hfind
      exact ⟨r', hfind', by rw [← hl, hp, hp']⟩
    · obtain ⟨r', hfind', hp'⟩ := hsame res (by rw [hr]; exact hf)
      exact ⟨r', hfind', by rw [hp', ← hl]; rfl⟩

end Move

/-! ### Pools -/

namespace CreditDb

def inventory (db : CreditDb R) (poolId : Int) : Int :=
  db.lots.sum fun l => if l.poolId = poolId then l.remainingQuota else 0

/-- What the reservations hold of a pool. -/
def drawn (db : CreditDb R) (poolId : Int) : Int :=
  db.reservations.sum fun r => if r.poolId = poolId then r.heldPool else 0

end CreditDb

variable {db₀ : CreditDb R}

theorem Books.drawn_eq (hb : Books db₀ db) (poolId : Int) :
    db.drawn poolId = db.lots.sum (fun l =>
      if decide (l.poolId = poolId) then db.lotAllocated l.id else 0) := by
  have hres : db.drawn poolId = db.reservations.sum (fun r => if decide (r.poolId = poolId)
      then (db.allocations.rows.map fun a => if a.reservationId = r.id then a.quota else 0).sum
      else 0) := by
    refine sum_congr fun r hr => ?_
    have halloc := hb.allocated r.id
    rw [CreditDb.owed, Table.find?_eq_some_iff.mpr ⟨hr, rfl⟩] at halloc
    simp only [map_some, getD_some] at halloc
    simp only [decide_eq_true_eq, ← halloc, CreditDb.allocated, CreditDb.allocatedWhere, Table.sum]
  have hlots : ∀ l : CreditPoolLot R, db.lotAllocated l.id =
      (db.allocations.rows.map fun a => if a.lotId = l.id then a.quota else 0).sum := by
    intro l
    simp only [CreditDb.lotAllocated, CreditDb.allocatedWhere, decide_eq_true_eq, Table.sum]
  simp only [hres, hlots]
  rw [sum_owned, sum_owned]
  congr 1
  refine List.map_congr_left fun a ha => ?_
  obtain ⟨r, hr, hp⟩ := hb.pooled a ha
  obtain ⟨l, hl, hlp⟩ := Option.map_eq_some_iff.mp hp
  simp only [hr, hl, any_some, hlp]

/-- **A pool has, with what its reservations hold, what it began with.** -/
theorem Books.inventory (hb : Books db₀ db) (poolId : Int) :
    db.inventory poolId + db.drawn poolId = db₀.inventory poolId := by
  rw [hb.drawn_eq, CreditDb.inventory, ← sum_add, CreditDb.inventory]
  refine sum_congr_find fun k => ?_
  have hpool := hb.lotPools k
  have hquota := hb.lots k
  simp only [lotPool, lotQuota] at hpool hquota
  cases hl : db.lots.find? k with
  | none =>
    rw [hl, map_none, eq_comm, map_eq_none_iff] at hpool
    rw [hpool]
    rfl
  | some l =>
    rw [hl, map_some, eq_comm, map_eq_some_iff] at hpool
    obtain ⟨l₀, hl₀, hp⟩ := hpool
    rw [hl, hl₀] at hquota
    rw [hl₀, map_some, map_some, some.injEq, hp, key_of_find? hl]
    by_cases he : l.poolId = poolId
    · simp only [he, decide_true, if_true]
      exact hquota
    · simp [he]

/-! ### Inventory of one reservation -/

variable {res : CreditPoolReservation R}

theorem Books.allocated_of_find (hb : Books db₀ db) (hf : db.reservations.find? res.id = some res)
    (hlive : res.status ≠ .refunded) : db.allocated res.id = res.poolQuota := by
  rw [hb.allocated, owed, hf, map_some, getD_some,
    CreditPoolReservation.heldPool, if_neg hlive]

theorem lockReservation_spec {id : Int} {Q : CreditPoolReservation R → CreditDb R → Prop}
    (h : ∀ res, res.id = id → db.reservations.find? res.id = some res → Q res db) :
    Tx.Spec (lockReservation id) db Q NotExceeded := by
  refine spec_fetch (by simp)
    (fun res hf => h res (key_of_find? hf) ?_)
  rw [key_of_find? hf]
  exact hf

theorem resizeGrant_spec (hg : (db.grants.find? grantId).isSome = true) (delta : Int) :
    Tx.Spec (resizeGrant grantId delta) db (fun _ db' => Taken grantId delta db db')
      NotExceeded := by
  unfold resizeGrant
  split
  · exact spec_writeSome (by simp)
      (fun db' h => (taken_takeFromGrant h).1)
  refine spec_when (fun _ => spec_write ?_) fun hn => ?_
  · have ht := taken_addToGrant hg (-delta)
    rwa [neg_neg] at ht
  · exact Taken.refl (by omega)

theorem refundCreditPoolReservation_spec (hb : Books db₀ db) {id : Int} :
    Tx.Spec (refundCreditPoolReservation id) db (fun _ db' => Books db₀ db') NotExceeded := by
  refine spec_bind (lockReservation_spec fun res hid hf => ?_)
  split
  · exact spec_pure hb
  rename_i hlive
  obtain ⟨hpool, hcustomer⟩ := held_of_live hlive
  have ht := taken_addToGrant (hb.reserved res (mem_of_find? hf)).2
    res.customerQuota
  have hown : (db.addToGrant res.grantId res.customerQuota).allocated res.id = res.poolQuota :=
    hb.allocated_of_find hf hlive
  refine spec_bind (spec_write (spec_bind ?_))
  have htidy : (db.addToGrant res.grantId res.customerQuota).Tidy := hb.tidy.congr rfl rfl
  refine (restoreCreditAllocations_spec htidy res.id res.poolId).mono
    (fun _ db₁ hd => spec_write ?_)
  refine (hb.move (f := fun r => r.refunded) hf ht hd (fun _ => rfl) ?_ ?_ rfl rfl
    (hb.reserved res (mem_of_find? hf)).1).books
  · show (0 : Int) = _
    omega
  · show (0 : Int) = _
    omega

theorem resolveBillingEntity_spec {userId : Int} {Q : BillingEntity → CreditDb R → Prop}
    (h : ∀ entity, Q entity db) :
    Tx.Spec (Tx.zoom store (fun db s => { db with store := s }) CreditError.account
      (resolveBillingEntity userId)) db Q NotExceeded := by
  refine spec_zoom (spec_bind (spec_ensure (by simp)
    (fun _ => ?_)))
  exact spec_fetch (by simp) fun entity _ => h entity

/-- The row of a new reservation, its charge and its inventory. -/
theorem Books.open {dbA : CreditDb R} {t} (hb : Books db₀ db) (row : CreditPoolReservation R)
    (hins : dbA.reservations.insert? row = some t) (hpending : row.status = .pending)
    (hpos : 0 < row.id) (h0 : 0 ≤ row.poolQuota)
    (ht : Taken row.grantId row.customerQuota db dbA)
    (hgrant : (db.grants.find? row.grantId).isSome = true)
    (hd : Drawn row.id row.poolId row.poolQuota { dbA with reservations := t } db') :
    Books db₀ db' := by
  have hlive : row.status ≠ .refunded := by
    rw [hpending]
    decide
  obtain ⟨hpool, hcustomer⟩ := held_of_live hlive
  obtain ⟨G, rfl⟩ : ∃ G, dbA = { db with grants := G } := ⟨_, ht.rest⟩
  replace hins : db.reservations.insert? row = some t := hins
  obtain ⟨hquota, hrows⟩ := ht.congr hd.grants
  refine ⟨hd.tidy, fun k => (hd.lots k).trans (hb.lots k),
    fun k => (hd.pools k).trans (hb.lotPools k), fun id => ?_, fun g => ?_,
    fun g => (hrows g).trans (hb.grantRows g), fun r hr => ?_, fun r hr => ?_, fun x hx => ?_⟩
  · rw [owed, hd.reservations, find?_insert? hins]
    split
    · rename_i he
      subst he
      have hnone := hb.allocated row.id
      rw [owed, (insert?_eq_some_iff.mp hins).1] at hnone
      rw [hd.own, map_some, getD_some, hpool]
      exact (congrArg (· + row.poolQuota) hnone).trans (zero_add _)
    · rename_i he
      exact (hd.others id fun h => he h.symm).trans (hb.allocated id)
  · rw [hquota, charged, hd.reservations, sum_insert? hins, hcustomer, ← hb.grants g, charged]
    omega
  · rw [hd.reservations] at hr
    rcases (mem_insert? hins).mp hr with hr | rfl
    · exact hb.positive r hr
    · exact hpos
  · rw [hd.reservations] at hr
    rw [hrows]
    rcases (mem_insert? hins).mp hr with hr | rfl
    · exact hb.reserved r hr
    · exact ⟨h0, hgrant⟩
  · rw [hd.reservations, hd.pools]
    rcases hd.source x hx with ⟨a, ha, hr, hl⟩ | ⟨hr, hl⟩
    · obtain ⟨r, hfind, hp⟩ := hb.pooled a ha
      exact ⟨r, find?_insert?_of_some hins (by rw [← hr]; exact hfind), by rw [← hl, ← hp]; rfl⟩
    · exact ⟨row, by rw [hr]; exact find?_insert?_self hins, hl⟩

section Priced

variable [Ratio R]

variable {poolQuota : Int}

theorem resizeAllocations_spec (htidy : db.Tidy) (hown : db.allocated res.id = res.poolQuota)
    (h0 : 0 ≤ poolQuota) (allowOverdraft : Bool) (now : Int) :
    Tx.Spec (resizeAllocations res poolQuota allowOverdraft now) db
      (fun _ db' => Drawn res.id res.poolId (poolQuota - res.poolQuota) db db') NotExceeded := by
  unfold resizeAllocations
  dsimp only
  split
  · exact allocateCreditLots_spec htidy _ _ _ _ _ _ (by omega)
  split
  · have h : Spec (reduceCreditAllocations res.id (-(poolQuota - res.poolQuota))) db
        (fun _ db' => Drawn res.id res.poolId (- -(poolQuota - res.poolQuota)) db db')
        NotExceeded :=
      reduceCreditAllocations_spec htidy _ (by omega) (by omega)
    rwa [neg_neg] at h
  · exact spec_pure (Drawn.refl htidy (by omega))

theorem settleAllocations_spec (htidy : db.Tidy) (hown : db.allocated res.id = res.poolQuota)
    (h0 : 0 ≤ poolQuota) (channelId now : Int) :
    Tx.Spec (settleAllocations res channelId poolQuota now) db
      (fun _ db' => Drawn res.id res.poolId (poolQuota - res.poolQuota) db db') NotExceeded := by
  unfold settleAllocations
  split
  · refine spec_bind ((restoreCreditAllocations_spec htidy res.id res.poolId).mono
      (fun _ db₁ hd => ?_))
    refine (allocateCreditLots_spec hd.tidy _ _ _ _ _ _ h0).mono fun _ db₂ hd' => ?_
    have := hd.trans hd'
    rwa [hown, neg_add_eq_sub] at this
  · exact resizeAllocations_spec htidy hown h0 true now

/-! ### The operations -/

theorem settleCreditPoolReservation_spec (hb : Books db₀ db)
    (hf : db.reservations.find? res.id = some res) {channelId customerQuota : Int}
    (h0 : 0 ≤ poolQuota) {ratio : R} {now : Int} :
    Tx.Spec (settleCreditPoolReservation res channelId customerQuota poolQuota ratio now) db
      (fun _ db' => ∃ channelId' ratio', Rebooked db₀ db res.id
        (fun r => r.settledAt channelId' customerQuota poolQuota ratio') db') NotExceeded := by
  refine spec_bind (spec_ensure (by simp) fun hlive => ?_)
  refine spec_bind ((settleAllocations_spec hb.tidy (hb.allocated_of_find hf hlive) h0 _
    now).mono fun _ db₁ hd => ?_)
  have hgrant : (db₁.grants.find? res.grantId).isSome = true := by
    rw [hd.grants]
    exact (hb.reserved res (mem_of_find? hf)).2
  obtain ⟨hpool, hcustomer⟩ := held_of_live hlive
  have hstep : ∀ {db₂ : CreditDb R} (channelId' : Int) (ratio' : R),
      Taken res.grantId (customerQuota - res.customerQuota) db₁ db₂ → Rebooked db₀ db res.id
        (fun r => r.settledAt channelId' customerQuota poolQuota ratio')
        (db₂.setReservation res.id (fun r => r.settledAt channelId' customerQuota poolQuota ratio')
          (fun _ => rfl)) := by
    intro db₂ channelId' ratio' ht
    obtain ⟨dbG, ht, hd⟩ := hd.swap ht
    refine hb.move (f := fun r => r.settledAt _ customerQuota poolQuota _) hf ht hd (fun _ => rfl)
      ?_ ?_ rfl rfl h0
    · show poolQuota = _
      omega
    · show customerQuota = _
      omega
  refine spec_bind (spec_when (fun _ => spec_write (spec_write ⟨_, _, hstep _ _ ?_⟩))
    (fun hz => spec_write ⟨_, _, hstep _ _ ?_⟩))
  · have ht := taken_addToGrant hgrant (-(customerQuota - res.customerQuota))
    rwa [neg_neg] at ht
  · exact Taken.refl (by omega)

theorem resizePendingCreditPoolReservation_spec (hb : Books db₀ db)
    {id customerQuota poolQuota now : Int} :
    Tx.Spec (resizePendingCreditPoolReservation id customerQuota poolQuota now) db
      (fun _ db' => ∃ res, db.reservations.find? id = some res ∧ res.status = .pending ∧
        Rebooked db₀ db id (fun r => r.resized customerQuota poolQuota) db') NotExceeded := by
  refine spec_bind (spec_ensure (by simp) fun hq => ?_)
  refine spec_bind (lockReservation_spec fun res hid hf => ?_)
  refine spec_bind (spec_ensure (by simp) fun hpending => ?_)
  have hlive : res.status ≠ .refunded := by
    rw [hpending]
    decide
  obtain ⟨hpool, hcustomer⟩ := held_of_live hlive
  refine spec_bind ((resizeGrant_spec (hb.reserved res (mem_of_find? hf)).2 _).mono
    (fun _ dbA ht => ?_))
  have hrest := ht.rest
  have hown : dbA.allocated res.id = res.poolQuota := by
    rw [hrest]
    exact hb.allocated_of_find hf hlive
  refine spec_bind ((resizeAllocations_spec (hb.tidy.congr (by rw [hrest]) (by rw [hrest])) hown
    hq.2.le false now).mono fun _ db₁ hd => spec_write ?_)
  subst hid
  refine ⟨res, hf, hpending, hb.move (f := fun r => r.resized customerQuota poolQuota) hf ht hd
    (fun _ => rfl) ?_ ?_ rfl rfl hq.2.le⟩
  · show (if res.status = .refunded then 0 else poolQuota) = _
    rw [if_neg hlive]
    omega
  · show (if res.status = .refunded then 0 else customerQuota) = _
    rw [if_neg hlive]
    omega

theorem settleCreditPoolReservationAtCost_spec (hb : Books db₀ db)
    {id channelId customerQuota : Int} (h0 : 0 ≤ poolQuota) {ratio : R} {now : Int} :
    Tx.Spec (settleCreditPoolReservationAtCost id channelId customerQuota poolQuota ratio now) db
      (fun _ db' => ∃ res, db.reservations.find? id = some res ∧
        ((db' = db ∧ res.status = .settled ∧ res.customerQuota = customerQuota ∧
            res.poolQuota = poolQuota) ∨
          ∃ channelId' ratio', Rebooked db₀ db id
            (fun r => r.settledAt channelId' customerQuota poolQuota ratio') db')) NotExceeded := by
  refine spec_bind (lockReservation_spec fun res hid hf => ?_)
  subst hid
  dsimp only
  split
  · rename_i hs
    exact spec_ensure (by simp)
      (fun heq => ⟨res, hf, .inl ⟨rfl, hs, heq.1, heq.2.1⟩⟩)
  · exact (settleCreditPoolReservation_spec hb hf h0).mono
      (fun _ _ h => ⟨res, hf, .inr h⟩)

theorem creditPoolCostQuota_nonneg (customerQuota : Int) (a b : R) :
    0 ≤ creditPoolCostQuota customerQuota a b := by
  unfold creditPoolCostQuota
  split
  · exact le_refl _
  · exact le_trans Int.one_nonneg (le_max_left _ _)

theorem adjustSettledCreditPoolReservation_spec (hb : Books db₀ db) {id deltaCustomer now : Int} :
    Tx.Spec (adjustSettledCreditPoolReservation id deltaCustomer now) db
      (fun _ db' => Books db₀ db') NotExceeded := by
  refine spec_bind (lockReservation_spec fun res hid hf => ?_)
  refine spec_bind (spec_ensure (by simp) fun _ => ?_)
  refine spec_bind (spec_ensure (by simp) fun _ => ?_)
  refine (settleCreditPoolReservation_spec hb hf (creditPoolCostQuota_nonneg _ _ _)).mono ?_
  rintro _ _ ⟨_, _, h⟩
  exact h.books

theorem newReservation_spec (hb : Books db₀ db) {q : ReserveRequest R} (h0 : 0 ≤ q.poolQuota)
    (now : Int) :
    Tx.Spec (newReservation q now) db (fun r db' => Books db₀ db' ∧ ∃ tenantId,
      r = q.row db.reservations.nextId tenantId ∧
        db.reservations.insert? r = some db'.reservations) NotExceeded := by
  refine spec_bind (resolveBillingEntity_spec fun entity => ?_)
  refine spec_bind (spec_ensure (by simp) fun _ => ?_)
  refine spec_bind (spec_fetch (by simp) fun grant hgrant => ?_)
  have hid : grant.id = q.grantId :=
    key_of_find? (filter_eq_some_iff.mp hgrant).1
  refine spec_bind (spec_writeSome (by simp) fun dbA hA => ?_)
  rw [hid] at hA
  obtain ⟨ht, hrow⟩ := taken_takeFromGrant hA
  refine spec_bind (spec_read (spec_bind (spec_writeSome
    (by simp) fun dbB hBs => ?_)))
  obtain ⟨t, hins, rfl⟩ := map_eq_some_iff.mp hBs
  have hrest := ht.rest
  have htidy : ({ dbA with reservations := t } : CreditDb R).Tidy :=
    hb.tidy.congr (by rw [hrest]) (by rw [hrest])
  refine spec_bind ((allocateCreditLots_spec htidy _ _ _ _ _ _ h0).mono fun _ db' hd => ?_)
  refine spec_pure ⟨hb.open (q.row _ entity.tenantId) hins rfl (nextId_pos _) h0 ht hrow hd,
    entity.tenantId, by rw [hrest], ?_⟩
  rw [hd.reservations, ← hins, hrest]

theorem reserveCreditPool_spec (hb : Books db₀ db) {q : ReserveRequest R} {now : Int} :
    Tx.Spec (reserveCreditPool q now) db (fun r db' => Books db₀ db' ∧
      ((db' = db ∧ db.reservations.rows.find? (fun r => decide (r.requestId = q.requestId)) = some r ∧
          r.status ≠ .refunded ∧ q.matched r = true) ∨
        (db.reservations.rows.find? (fun r => decide (r.requestId = q.requestId)) = none ∧
          ∃ tenantId, r = q.row db.reservations.nextId tenantId ∧
            db.reservations.insert? r = some db'.reservations))) NotExceeded := by
  refine spec_bind (spec_ensure (by simp) fun hq => ?_)
  refine spec_bind (spec_read ?_)
  split
  · rename_i r hr
    refine spec_bind (spec_ensure (by simp) fun hlive => ?_)
    refine spec_bind (spec_ensure (by simp) fun hm => ?_)
    exact spec_pure ⟨hb, .inl ⟨rfl, hr, hlive, hm⟩⟩
  · rename_i hnone
    exact (newReservation_spec hb hq.2.2.le now).mono
      (fun _ _ h => ⟨h.1, .inr ⟨hnone, h.2⟩⟩)

end Priced

/-! ### Runs -/

inductive CreditCall (R : Type) where
  | reserve (q : ReserveRequest R) (now : Int)
  | resize (reservationId customerQuota poolQuota now : Int)
  | settle (reservationId channelId customerQuota poolQuota : Int) (channelCostRatio : R)
      (now : Int)
  | adjust (reservationId deltaCustomer now : Int)
  | refund (reservationId : Int)

/-- A settlement is called with a cost quota, which is never negative. -/
def CreditCall.Nonneg : CreditCall R → Prop
  | .settle _ _ _ poolQuota _ _ => 0 ≤ poolQuota
  | _ => True

/-- A committed step of a call keeps the books. -/
def CreditCall.Keeps (c : CreditCall R × Bool) (db db' : CreditDb R) : Prop :=
  ∀ db₀, c.1.Nonneg → Books db₀ db → Books db₀ db'

theorem Books.no_allocation (hb : Books db₀ db) {r : CreditPoolReservation R}
    (hr : r ∈ db.reservations.rows) (hs : r.status = .refunded) :
    ∀ a ∈ db.allocations.rows, a.reservationId ≠ r.id := by
  intro a ha he
  have hf : db.reservations.find? r.id = some r := find?_eq_some_iff.mpr ⟨hr, rfl⟩
  have hz : db.allocated r.id = 0 := by
    rw [hb.allocated, owed, hf, map_some, getD_some,
      CreditPoolReservation.heldPool, if_pos hs]
  have hfa : db.allocations.find? a.id = some a := find?_eq_some_iff.mpr ⟨ha, rfl⟩
  have hle := le_sum hfa (g := fun a => if decide (a.reservationId = r.id) then a.quota else 0)
    (fun x hx => by
      have := hb.tidy.positive x hx
      split <;> omega)
  have hpos := hb.tidy.positive a ha
  rw [if_pos (by simpa using he)] at hle
  have : db.allocated r.id = db.allocations.sum
    (fun a => if decide (a.reservationId = r.id) then a.quota else 0) := rfl
  omega

section Runs

variable [Ratio R]

def CreditCall.tx : CreditCall R → CreditTx R Unit
  | .reserve q now => do
    let _ ← reserveCreditPool q now
    pure ()
  | .resize id customerQuota poolQuota now =>
    resizePendingCreditPoolReservation id customerQuota poolQuota now
  | .settle id channelId customerQuota poolQuota ratio now =>
    settleCreditPoolReservationAtCost id channelId customerQuota poolQuota ratio now
  | .adjust id deltaCustomer now => adjustSettledCreditPoolReservation id deltaCustomer now
  | .refund id => refundCreditPoolReservation id

/-- A call is one transaction, which the database commits or not. -/
def CreditCall.prog (c : CreditCall R × Bool) : Prog (CreditDb R) (Except CreditError Unit) :=
  Prog.transact c.2 (.account .database) c.1.tx

theorem CreditCall.spec (hb : Books db₀ db) {c : CreditCall R} (h0 : c.Nonneg) :
    Tx.Spec c.tx db (fun _ db' => Books db₀ db') NotExceeded := by
  cases c with
  | reserve =>
    exact spec_bind ((reserveCreditPool_spec hb).mono fun _ _ h => spec_pure h.1)
  | resize =>
    exact (resizePendingCreditPoolReservation_spec hb).mono fun _ _ ⟨_, _, _, h⟩ => h.books
  | settle =>
    refine (settleCreditPoolReservationAtCost_spec hb h0).mono fun _ db' ⟨_, _, h⟩ => ?_
    rcases h with ⟨rfl, -⟩ | ⟨_, _, h⟩
    · exact hb
    · exact h.books
  | adjust => exact adjustSettledCreditPoolReservation_spec hb
  | refund => exact refundCreditPoolReservation_spec hb

theorem CreditCall.within (c : CreditCall R × Bool) :
    (CreditCall.prog c).Within (CreditCall.Keeps c) := by
  refine Prog.within_transact (fun _ _ _ hb => hb) fun db a db' hx db₀ h0 hb => ?_
  exact (CreditCall.spec hb h0).ok hx

theorem books_of_reach (hres : db.reservations.rows = []) (halloc : db.allocations.rows = [])
    {p : Pool (CreditCall R × Bool) (CreditDb R) (Except CreditError Unit)}
    (hr : Pool.ReachIf CreditCall.prog (fun c _ => c.1.Nonneg) (Pool.start db) p) :
    Books db p.state := by
  obtain ⟨-, hrun⟩ := reach_within CreditCall.within hr (within_start _ _)
  generalize p.state = db' at hrun
  induction hrun with
  | refl => exact Books.init hres halloc
  | tail _ hs ih =>
    obtain ⟨c, h0, hk⟩ := hs
    exact hk db h0 ih

/-- **Double-entry conservation** in every run of the five operations, of lots with their
allocations, of reservations, and of grants with what is charged to them; and giving back never
exceeds a reservation. -/
theorem credit_conserved {db : CreditDb R} (hres : db.reservations.rows = [])
    (halloc : db.allocations.rows = [])
    {p : Pool (CreditCall R × Bool) (CreditDb R) (Except CreditError Unit)}
    (hr : Pool.ReachIf CreditCall.prog (fun c _ => c.1.Nonneg) (Pool.start db) p) :
    (∀ lot ∈ p.state.lots.rows, ∃ lot₀ ∈ db.lots.rows, lot₀.id = lot.id ∧
      lot.remainingQuota + p.state.lotAllocated lot.id = lot₀.remainingQuota) ∧
    (∀ r ∈ p.state.reservations.rows,
      (r.status ≠ .refunded → p.state.allocated r.id = r.poolQuota) ∧
      (r.status = .refunded → ∀ a ∈ p.state.allocations.rows, a.reservationId ≠ r.id)) ∧
    (∀ grant ∈ p.state.grants.rows, ∃ grant₀ ∈ db.grants.rows, grant₀.id = grant.id ∧
      grant.remainingQuota + p.state.charged grant.id = grant₀.remainingQuota) ∧
    ∀ c : CreditCall R, c.Nonneg → c.tx p.state ≠ .error .allocationRefundExceeds := by
  have hb := books_of_reach hres halloc hr
  refine ⟨fun lot hlot => ?_, fun r hr => ⟨fun hlive => ?_, hb.no_allocation hr⟩,
    fun grant hgrant => ?_, fun c h0 he => (CreditCall.spec hb h0).error he rfl⟩
  · have hf : p.state.lots.find? lot.id = some lot := find?_eq_some_iff.mpr ⟨hlot, rfl⟩
    have hsome := hb.lotPools lot.id
    rw [lotPool, hf] at hsome
    obtain ⟨lot₀, hf₀, -⟩ := map_eq_some_iff.mp hsome.symm
    have hsum := hb.lots lot.id
    rw [lotQuota, hf, lotQuota, hf₀] at hsum
    exact ⟨lot₀, mem_of_find? hf₀, key_of_find? hf₀, hsum⟩
  · exact hb.allocated_of_find (find?_eq_some_iff.mpr ⟨hr, rfl⟩) hlive
  · have hf : p.state.grants.find? grant.id = some grant :=
      find?_eq_some_iff.mpr ⟨hgrant, rfl⟩
    have hsome := hb.grantRows grant.id
    rw [hf] at hsome
    obtain ⟨grant₀, hf₀⟩ := isSome_iff_exists.mp hsome.symm
    have hsum := hb.grants grant.id
    rw [grantQuota, hf, grantQuota, hf₀] at hsum
    exact ⟨grant₀, mem_of_find? hf₀, key_of_find? hf₀, hsum⟩

end Runs

def twoLotsDb : CreditDb ℚ where
  store := { users := ⟨[⟨1, "eve", "Eve", 1, "acme", 0, 7⟩], by decide⟩ }
  lots := ⟨[⟨1, 9, 4, 60, 1, 0, 1⟩, ⟨2, 9, 0, 200, 1, 0, 1⟩], by decide⟩
  grants := ⟨[⟨5, 7, 9, 500, 0, 0, 1⟩], by decide⟩

def overrunCalls : List (CreditCall ℚ × Bool) :=
  [(.reserve ⟨"req", 1, 5, 9, 4, 100, 100, 1, 1⟩ 10, true),
    (.settle 1 3 300 300 1 20, true),
    (.adjust 1 (-50) 30, true)]

theorem credit_conserved_overrun :
    twoLotsDb.reservations.rows = [] ∧ twoLotsDb.allocations.rows = [] ∧
    ∃ db, db = Pool.execs CreditCall.prog overrunCalls twoLotsDb ∧
      db.lots.rows.map CreditPoolLot.remainingQuota = [60, -50] ∧
      ∀ r ∈ db.reservations.rows, r.status ≠ .refunded → db.allocated r.id = r.poolQuota := by
  have hok : ∀ c ∈ overrunCalls, ∀ _ : CreditDb ℚ, c.1.Nonneg := by
    intro c hc _
    simp only [overrunCalls, List.mem_cons, List.not_mem_nil, or_false] at hc
    rcases hc with rfl | rfl | rfl
    · trivial
    · exact (by decide : (0 : Int) ≤ 300)
    · trivial
  obtain ⟨l, hl⟩ := reach_execs CreditCall.prog overrunCalls hok twoLotsDb []
  exact ⟨rfl, rfl, _, rfl, by decide +kernel,
    fun r hr => ((credit_conserved rfl rfl hl).2.1 r hr).1⟩

/-- **Pools are kept apart**: what is left in a pool and held by its reservations is what it began
with, and every allocation is for a live reservation, from a lot of its pool. -/
theorem pools_kept_apart [Ratio R] {db : CreditDb R} (hres : db.reservations.rows = [])
    (halloc : db.allocations.rows = [])
    {p : Pool (CreditCall R × Bool) (CreditDb R) (Except CreditError Unit)}
    (hr : Pool.ReachIf CreditCall.prog (fun c _ => c.1.Nonneg) (Pool.start db) p) :
    (∀ poolId, p.state.inventory poolId + p.state.drawn poolId = db.inventory poolId) ∧
    ∀ a ∈ p.state.allocations.rows, ∃ r ∈ p.state.reservations.rows, r.id = a.reservationId ∧
      r.status ≠ .refunded ∧ db.lotPool a.lotId = some r.poolId := by
  have hb := books_of_reach hres halloc hr
  refine ⟨hb.inventory, fun a ha => ?_⟩
  obtain ⟨r, hf, hpool⟩ := hb.pooled a ha
  refine ⟨r, mem_of_find? hf, key_of_find? hf, fun hs => ?_, (hb.lotPools _).symm.trans hpool⟩
  exact hb.no_allocation (mem_of_find? hf) hs a ha (key_of_find? hf).symm

theorem pools_kept_apart_reserved :
    twoLotsDb.reservations.rows = [] ∧ twoLotsDb.allocations.rows = [] ∧
    let db := execs CreditCall.prog (overrunCalls.take 1) twoLotsDb
    db.drawn 9 = 100 ∧ db.inventory 9 + db.drawn 9 = 260 := by
  have hok : ∀ c ∈ overrunCalls.take 1, ∀ _ : CreditDb ℚ, c.1.Nonneg := by
    intro c hc _
    cases List.mem_singleton.mp hc
    trivial
  obtain ⟨l, hl⟩ := reach_execs CreditCall.prog _ hok twoLotsDb []
  exact ⟨rfl, rfl, by decide +kernel, (pools_kept_apart rfl rfl hl).1 9⟩

end UnifyConsole.Credit
