import UnifyConsole.Supply.Program
import UnifyConsole.Lib.Rely

/-!
# No update of a counter is lost

Six writers move the counters of a lot, at the granularity of single statements.
A draw-down adds to the stored row; a transition, a verification and a payout
write what they computed from a row they hold the lock of; an edit writes the
whole row it read without one.

`LotMove` says what one statement may do, with the note of its call: which rows
it holds, which row it has read for an edit, which draw-down it still has to book
on the daily row.  `Booked` is what holds between two statements of any calls.
The row an edit writes back is the row it read, so the edits have to find what
they read: `EditsCurrent` is the condition on the run.
-/

namespace UnifyConsole.Supply

open Lib Account
open List Option

/-! ### Counters and the books about them -/

/-- The counters of a lot that money depends on. -/
@[ext]
structure Counters where
  consumed : ℚ
  revenue : ℚ
  paid : ℚ
deriving DecidableEq

namespace Counters

def zero : Counters := ⟨0, 0, 0⟩

def draw (c : Counters) (d : Draw) : Counters :=
  { c with consumed := c.consumed + d.faceUSD, revenue := c.revenue + d.revenueUSD }

def verify (c : Counters) (cost : ℚ) : Counters := { c with consumed := c.consumed + cost }

def pay (c : Counters) (amount : ℚ) : Counters := { c with paid := c.paid + amount }

end Counters

def CreditLot.counters (lot : CreditLot) : Counters :=
  ⟨lot.consumedUSD, lot.shareRevenueUSD, lot.paidShareUSD⟩

def sumFor {A : Type} (lotOf : A → Int) (value : A → ℚ) (id : Int) (l : List A) : ℚ :=
  (l.map fun a => if lotOf a = id then value a else 0).sum

section SumFor

variable {A : Type} {lotOf : A → Int} {value : A → ℚ} {id : Int}

@[simp] theorem sumFor_nil : sumFor lotOf value id [] = 0 := rfl

theorem sumFor_append (l l' : List A) :
    sumFor lotOf value id (l ++ l') = sumFor lotOf value id l + sumFor lotOf value id l' := by
  simp [sumFor]

theorem sumFor_singleton (a : A) :
    sumFor lotOf value id [a] = if lotOf a = id then value a else 0 := by
  simp [sumFor]

theorem sumFor_cons (a : A) (l : List A) :
    sumFor lotOf value id (a :: l) =
      (if lotOf a = id then value a else 0) + sumFor lotOf value id l := by
  simp [sumFor]

theorem sumFor_of_ne {l : List A} (h : ∀ a ∈ l, lotOf a ≠ id) : sumFor lotOf value id l = 0 := by
  refine sum_eq_zero fun x hx => ?_
  obtain ⟨a, ha, rfl⟩ := mem_map.mp hx
  exact if_neg (h a ha)

end SumFor

namespace LotDb

def counters? (s : LotDb) (id : Int) : Option Counters := (s.lots.find? id).map CreditLot.counters

def verifiedUSD (s : LotDb) (id : Int) : ℚ :=
  sumFor Verification.lotId Verification.costUSD id s.verifications

def drawnUSD (s : LotDb) (id : Int) : ℚ := sumFor Draw.lotId Draw.faceUSD id s.draws

def accruedUSD (s : LotDb) (id : Int) : ℚ := sumFor Draw.lotId Draw.revenueUSD id s.draws

def paidOutUSD (s : LotDb) (id : Int) : ℚ :=
  sumFor CreditSharePayout.lotId CreditSharePayout.amountUSD id s.payouts

def usedUSD (s : LotDb) (id : Int) : ℚ := sumFor CreditLotUsage.lotId CreditLotUsage.faceUSD id
  s.usages.rows

def usedRevenueUSD (s : LotDb) (id : Int) : ℚ :=
  sumFor CreditLotUsage.lotId CreditLotUsage.revenueUSD id s.usages.rows

/-- Every edit under way would still read the counters it has read. -/
def EditsCurrent (s : LotDb) : Prop := ∀ row ∈ s.edits, s.counters? row.id = some row.counters

instance (s : LotDb) : Decidable s.EditsCurrent :=
  inferInstanceAs (Decidable (∀ row ∈ s.edits, s.counters? row.id = some row.counters))

end LotDb

/-- The parts of the state that the books are about, besides the lots. -/
structure LotRest where
  locked : List Int
  edits : List CreditLot
  usages : Table CreditLotUsage.key
  draws : List Draw
  verifications : List Verification
  payouts : List CreditSharePayout

def LotDb.rest (s : LotDb) : LotRest :=
  ⟨s.locked, s.edits, s.usages, s.draws, s.verifications, s.payouts⟩

open LotDb

/-! ### What a statement may do -/

/-- What a call remembers between two of its statements. -/
inductive LotNote where
  | idle
  | reading (row : CreditLot)
  | holding (rows : List CreditLot)
  | owing (d : Draw)
  | conflict (d : Draw)
  | adrift
deriving DecidableEq

def LotNote.ids : LotNote → List Int
  | .holding rows => rows.map CreditLot.id
  | _ => []

/-- The draw-down that the call has to book on the daily row. -/
def LotNote.owed : LotNote → List Draw
  | .owing d => [d]
  | .conflict d => [d]
  | _ => []

def unlocked (locked ids : List Int) : List Int := locked.filter fun id => !ids.contains id

/-- An edit locks the row that it is going to save. -/
structure LocksEdit (row candidate : CreditLot) (s s' : LotDb) : Prop where
  id : candidate.id = row.id
  same : candidate.counters = row.counters
  free : row.id ∉ s.locked
  counters : s'.counters? = s.counters?
  rest : s'.rest = { s.rest with edits := s.edits.erase row, locked := row.id :: s.locked }

structure LocksRows (rows : List CreditLot) (s s' : LotDb) : Prop where
  nodup : (rows.map CreditLot.id).Nodup
  free : ∀ row ∈ rows, row.id ∉ s.locked
  current : ∀ row ∈ rows, s.counters? row.id = some row.counters
  counters : s'.counters? = s.counters?
  rest : s'.rest = { s.rest with locked := rows.map CreditLot.id ++ s.locked }

/-- A row is saved, with what its verification cost. -/
structure SavesRow (row : CreditLot) (cost : List ℚ) (s s' : LotDb) : Prop where
  counters : ∀ id, s'.counters? id = if id = row.id then
    (s.counters? id).map (fun _ => row.counters.verify cost.sum) else s.counters? id
  rest : s'.rest = { s.rest with
    locked := unlocked s.locked [row.id]
    verifications := s.verifications ++ cost.map (Verification.mk row.id) }

structure PaysOut (rows : List CreditLot) (made : List CreditSharePayout) (s s' : LotDb) :
    Prop where
  mem : ∀ p ∈ made, p.lotId ∈ rows.map CreditLot.id
  counters : ∀ id, s'.counters? id = (s.counters? id).map (fun c =>
    c.pay (sumFor CreditSharePayout.lotId CreditSharePayout.amountUSD id made))
  rest : s'.rest = { s.rest with
    locked := unlocked s.locked (rows.map CreditLot.id)
    payouts := s.payouts ++ made }

structure DrawsDown (d : Draw) (s s' : LotDb) : Prop where
  free : d.lotId ∉ s.locked
  row : (s.counters? d.lotId).isSome = true
  counters : ∀ id, s'.counters? id = if id = d.lotId then
    (s.counters? id).map (fun c => c.draw d) else s.counters? id
  rest : s'.rest = { s.rest with draws := s.draws ++ [d] }

/-- A draw-down is added to the usage of its day. -/
structure BooksDraw (d : Draw) (s s' : LotDb) : Prop where
  counters : s'.counters? = s.counters?
  rest : s'.rest = { s.rest with usages := s'.usages }
  keys : ∀ k, (s.usages.find? k).isSome = true → (s'.usages.find? k).isSome = true
  face : ∀ id, s'.usedUSD id = s.usedUSD id + if d.lotId = id then d.faceUSD else 0
  revenue : ∀ id, s'.usedRevenueUSD id =
    s.usedRevenueUSD id + if d.lotId = id then d.revenueUSD else 0

/-- **What one statement of a call may do.** -/
inductive LotMove : LotNote → LotDb → LotNote → LotDb → Prop
  | quiet {g : LotNote} {s s' : LotDb} (hc : s'.counters? = s.counters?)
      (hr : s'.rest = s.rest) : LotMove g s g s'
  | create {s s' : LotDb} (id : Int) (hnew : s.counters? id = none)
      (hc : s'.counters? = Function.update s.counters? id (some .zero)) (hr : s'.rest = s.rest) :
      LotMove .idle s .idle s'
  | read {s s' : LotDb} (row : CreditLot) (hc : s'.counters? = s.counters?)
      (hr : s'.rest = { s.rest with edits := row :: s.edits }) :
      LotMove .idle s (.reading row) s'
  | giveUp {s s' : LotDb} (row : CreditLot) (hc : s'.counters? = s.counters?)
      (hr : s'.rest = { s.rest with edits := s.edits.erase row }) :
      LotMove (.reading row) s .idle s'
  | saving {s s' : LotDb} {row candidate : CreditLot} (h : LocksEdit row candidate s s') :
      LotMove (.reading row) s (.holding [candidate]) s'
  | lock {s s' : LotDb} {rows : List CreditLot} (h : LocksRows rows s s') :
      LotMove .idle s (.holding rows) s'
  | release {s s' : LotDb} (rows : List CreditLot) (hc : s'.counters? = s.counters?)
      (hr : s'.rest =
        { s.rest with locked := unlocked s.locked (rows.map CreditLot.id) }) :
      LotMove (.holding rows) s .idle s'
  | save {s s' : LotDb} {row : CreditLot} {cost : List ℚ} (h : SavesRow row cost s s') :
      LotMove (.holding [row]) s .idle s'
  | pay {s s' : LotDb} {rows : List CreditLot} {made : List CreditSharePayout}
      (h : PaysOut rows made s s') : LotMove (.holding rows) s .idle s'
  | draw {s s' : LotDb} {d : Draw} (h : DrawsDown d s s') : LotMove .idle s (.owing d) s'
  | booked {g : LotNote} {s s' : LotDb} {d : Draw} (hg : g.owed = [d]) (h : BooksDraw d s s') :
      LotMove g s .idle s'
  | conflict {s : LotDb} (d : Draw)
      (hkey : (s.usages.find? (d.lotId, d.day)).isSome = true) :
      LotMove (.owing d) s (.conflict d) s
  | lost {s s' : LotDb} (d : Draw) (hkey : s.usages.find? (d.lotId, d.day) = none) :
      LotMove (.conflict d) s .adrift s'
  | adrift {s s' : LotDb} : LotMove .adrift s .adrift s'

/-! ### What holds between two statements -/

def heldCount (id : Int) (gs : List (LotCall × LotNote)) : Nat :=
  (gs.map fun x => x.2.ids.count id).sum

theorem heldCount_middle (id : Int) (pre post : List (LotCall × LotNote)) (c : LotCall)
    (g : LotNote) :
    heldCount id (pre ++ (c, g) :: post) = heldCount id (pre ++ post) + g.ids.count id := by
  simp only [heldCount, map_append, map_cons, sum_append, sum_cons]
  omega

variable {id : Int}

theorem one_le_heldCount {gs : List (LotCall × LotNote)} {x : LotCall × LotNote} (hx : x ∈ gs)
    (hid : id ∈ x.2.ids) : 1 ≤ heldCount id gs := by
  obtain ⟨pre, post, rfl⟩ := append_of_mem hx
  obtain ⟨c, g⟩ := x
  rw [heldCount_middle]
  have : 0 < g.ids.count id := count_pos_iff.mpr hid
  omega

/-- The draw-downs that the calls still have to book. -/
def owedBy (gs : List (LotCall × LotNote)) : List Draw := gs.flatMap fun x => x.2.owed

theorem sumFor_owedBy_middle (value : Draw → ℚ) (id : Int) (pre post : List (LotCall × LotNote))
    (c : LotCall) (g : LotNote) :
    sumFor Draw.lotId value id (owedBy (pre ++ (c, g) :: post)) =
      sumFor Draw.lotId value id (owedBy (pre ++ post)) + sumFor Draw.lotId value id g.owed := by
  simp only [owedBy, flatMap_append, flatMap_cons, sumFor_append]
  ring

/-- How many edits that have read this row are under way. -/
def readers (row : CreditLot) (gs : List (LotCall × LotNote)) : Nat :=
  gs.countP fun x => decide (x.2 = .reading row)

theorem readers_middle (row : CreditLot) (pre post : List (LotCall × LotNote)) (c : LotCall)
    (g : LotNote) :
    readers row (pre ++ (c, g) :: post) =
      readers row (pre ++ post) + if g = .reading row then 1 else 0 := by
  simp [readers, countP_cons, Nat.add_assoc]

/-- The counters of a lot are what was booked on it. -/
def LotDb.Balanced (s : LotDb) (id : Int) : Prop :=
  (s.counters? id).getD .zero =
    ⟨s.verifiedUSD id + s.drawnUSD id, s.accruedUSD id, s.paidOutUSD id⟩

structure Booked (gs : List (LotCall × LotNote)) (s : LotDb) : Prop where
  balanced : ∀ id, s.Balanced id
  used : ∀ id, s.usedUSD id + sumFor Draw.lotId Draw.faceUSD id (owedBy gs) = s.drawnUSD id
  usedRevenue : ∀ id, s.usedRevenueUSD id +
    sumFor Draw.lotId Draw.revenueUSD id (owedBy gs) = s.accruedUSD id
  held : ∀ id, heldCount id gs ≤ s.locked.count id
  once : ∀ id, s.locked.count id ≤ 1
  rows : ∀ x ∈ gs, ∀ rows, x.2 = .holding rows → ∀ row ∈ rows,
    s.counters? row.id = some row.counters
  read : ∀ row, readers row gs ≤ s.edits.count row
  conflicts : ∀ x ∈ gs, ∀ d, x.2 = .conflict d →
    (s.usages.find? (d.lotId, d.day)).isSome = true
  steady : ∀ x ∈ gs, x.2 ≠ .adrift

section Step

variable {pre post : List (LotCall × LotNote)} {c : LotCall} {g g' : LotNote} {s s' : LotDb}

theorem mem_middle {x : LotCall × LotNote} (hx : x ∈ pre ++ (c, g') :: post) :
    x = (c, g') ∨ (x ∈ pre ++ post ∧ ∀ g, x ∈ pre ++ (c, g) :: post) := by
  rcases mem_append.mp hx with hx | hx
  · exact .inr ⟨mem_append_left _ hx, fun _ => mem_append_left _ hx⟩
  rcases mem_cons.mp hx with rfl | hx
  · exact .inl rfl
  · exact .inr ⟨mem_append_right _ hx,
      fun _ => mem_append_right _ (mem_cons_of_mem _ hx)⟩

/-- What a step does to the locks and the edits, and what its call remembers after it. -/
structure LotNote.Hands (g : LotNote) (s : LotDb) (g' : LotNote) (s' : LotDb) : Prop where
  lock : ∀ id n, n + g.ids.count id ≤ s.locked.count id → s.locked.count id ≤ 1 →
    n + g'.ids.count id ≤ s'.locked.count id ∧ s'.locked.count id ≤ 1
  own : ∀ rows, g' = .holding rows → ∀ row ∈ rows, s'.counters? row.id = some row.counters
  read : ∀ row n, n + (if g = .reading row then 1 else 0) ≤ s.edits.count row →
    n + (if g' = .reading row then 1 else 0) ≤ s'.edits.count row
  conflict : ∀ d, g' = .conflict d → (s'.usages.find? (d.lotId, d.day)).isSome = true
  steady : g' ≠ .adrift

theorem LotNote.Hands.idle (hlock : ∀ id n, n + g.ids.count id ≤ s.locked.count id →
      s.locked.count id ≤ 1 → n ≤ s'.locked.count id ∧ s'.locked.count id ≤ 1)
    (hread : ∀ row n, n + (if g = .reading row then 1 else 0) ≤ s.edits.count row →
      n ≤ s'.edits.count row) : g.Hands s .idle s' :=
  ⟨hlock, nofun, hread, nofun, by simp⟩

/-- A step keeps the books that keeps its own part and touches no counter another call has locked.
-/
theorem Booked.of_step (h : Booked (pre ++ (c, g) :: post) s) (hn : g.Hands s g' s')
    (hbalanced : ∀ id, s'.Balanced id)
    (hused : ∀ id, s'.usedUSD id + sumFor Draw.lotId Draw.faceUSD id g'.owed + s.drawnUSD id =
      s.usedUSD id + sumFor Draw.lotId Draw.faceUSD id g.owed + s'.drawnUSD id)
    (hrevenue : ∀ id, s'.usedRevenueUSD id + sumFor Draw.lotId Draw.revenueUSD id g'.owed +
        s.accruedUSD id =
      s.usedRevenueUSD id + sumFor Draw.lotId Draw.revenueUSD id g.owed + s'.accruedUSD id)
    (hcounters : ∀ id, s'.counters? id = s.counters? id ∨ s.counters? id = none ∨
      s.locked.count id = 0 ∨ id ∈ g.ids)
    (hkeys : ∀ k, (s.usages.find? k).isSome = true → (s'.usages.find? k).isSome = true) :
    Booked (pre ++ (c, g') :: post) s' := by
  have hheld : ∀ id, heldCount id (pre ++ post) + g.ids.count id ≤ s.locked.count id := by
    intro id
    rw [← heldCount_middle id pre post c g]
    exact h.held id
  refine ⟨hbalanced, fun id => ?_, fun id => ?_, fun id => ?_, fun id => ?_, fun x hx rows hr => ?_,
    fun row => ?_, fun x hx d hd => ?_, fun x hx => ?_⟩
  · have := h.used id
    have := hused id
    rw [sumFor_owedBy_middle] at *
    linarith
  · have := h.usedRevenue id
    have := hrevenue id
    rw [sumFor_owedBy_middle] at *
    linarith
  · rw [heldCount_middle]
    exact (hn.lock id _ (hheld id) (h.once id)).1
  · exact (hn.lock id _ (hheld id) (h.once id)).2
  · rcases mem_middle hx with rfl | ⟨hx, hx'⟩
    · exact hn.own rows hr
    intro row hrow
    have hrowc := h.rows x (hx' g) rows hr row hrow
    rw [← hrowc]
    have hmem : row.id ∈ x.2.ids := by
      rw [hr]
      exact mem_map_of_mem hrow
    have hone := one_le_heldCount hx hmem
    rcases hcounters row.id with he | hnone | h0 | hin
    · exact he
    · rw [hnone] at hrowc
      cases hrowc
    · have := hheld row.id
      omega
    · have := hheld row.id
      have := h.once row.id
      have : 0 < g.ids.count row.id := count_pos_iff.mpr hin
      omega
  · rw [readers_middle]
    have := h.read row
    rw [readers_middle] at this
    exact hn.read row _ this
  · rcases mem_middle hx with rfl | ⟨-, hx'⟩
    · exact hn.conflict d hd
    · exact hkeys _ (h.conflicts x (hx' g) d hd)
  · rcases mem_middle hx with rfl | ⟨-, hx'⟩
    · exact hn.steady
    · exact h.steady x (hx' g)

theorem balanced_congr (h : s.Balanced id)
    (hc : (s'.counters? id).getD .zero = (s.counters? id).getD .zero) (hd : s'.draws = s.draws)
    (hv : s'.verifications = s.verifications) (hp : s'.payouts = s.payouts) : s'.Balanced id := by
  unfold LotDb.Balanced verifiedUSD drawnUSD accruedUSD paidOutUSD at *
  rw [hc, hd, hv, hp]
  exact h

theorem count_unlocked (locked ids : List Int) (id : Int) :
    (unlocked locked ids).count id = if id ∈ ids then 0 else locked.count id := by
  unfold unlocked
  split
  · rename_i h
    exact count_eq_zero.mpr fun hm => by simp [h] at hm
  · rename_i h
    exact count_filter (by simpa using h)

/-- A step that gives back what its call holds. -/
theorem unlock_counts {ids : List Int} {n : Nat} (hn : n + ids.count id ≤ s.locked.count id)
    (hone : s.locked.count id ≤ 1) :
    n ≤ (unlocked s.locked ids).count id ∧ (unlocked s.locked ids).count id ≤ 1 := by
  rw [count_unlocked]
  split
  · rename_i h
    have : 0 < ids.count id := count_pos_iff.mpr h
    omega
  · omega

/-- An edit that ends takes the row it had read with it. -/
theorem count_erase_reader {row other : CreditLot} {n : Nat}
    (hn : n + (if LotNote.reading row = .reading other then 1 else 0) ≤ s.edits.count other) :
    n ≤ (s.edits.erase row).count other := by
  by_cases ho : row = other
  · subst ho
    rw [count_erase_self]
    simp only [if_true] at hn
    omega
  · rw [count_erase_of_ne (fun h => ho h.symm)]
    omega

/-- A step that neither draws nor books a draw-down. -/
theorem Booked.of_quiet (h : Booked (pre ++ (c, g) :: post) s) (hn : g.Hands s g' s')
    (howed : g'.owed = g.owed) (hu : s'.usages = s.usages) (hd : s'.draws = s.draws)
    (hbalanced : ∀ id, s'.Balanced id)
    (hcounters : ∀ id, s'.counters? id = s.counters? id ∨ s.counters? id = none ∨
      s.locked.count id = 0 ∨ id ∈ g.ids) : Booked (pre ++ (c, g') :: post) s' := by
  refine h.of_step hn hbalanced (fun id => ?_) (fun id => ?_) hcounters
    (fun k hk => by rw [hu]; exact hk)
  · unfold usedUSD drawnUSD
    rw [hu, hd, howed]
  · unfold usedRevenueUSD accruedUSD
    rw [hu, hd, howed]

theorem rest_fields {r : LotRest} (h : s'.rest = r) :
    s'.locked = r.locked ∧ s'.edits = r.edits ∧ s'.usages = r.usages ∧ s'.draws = r.draws ∧
      s'.verifications = r.verifications ∧ s'.payouts = r.payouts := by
  subst h
  exact ⟨rfl, rfl, rfl, rfl, rfl, rfl⟩

/-- What a saved row does to the books of its lot. -/
theorem SavesRow.balanced {row : CreditLot} {cost : List ℚ} (hs : SavesRow row cost s s')
    (h : s.Balanced id) (hrow : s.counters? row.id = some row.counters) : s'.Balanced id := by
  have hsum : ∀ l : List ℚ, sumFor Verification.lotId Verification.costUSD id
      (l.map (Verification.mk row.id)) = if id = row.id then l.sum else 0 := by
    intro l
    induction l with
    | nil => simp
    | cons x l ih =>
      rw [map_cons, sumFor_cons, ih, sum_cons]
      by_cases he : id = row.id
      · simp [he]
      · have : ¬ row.id = id := fun h => he h.symm
        simp [he, this]
  obtain ⟨-, -, -, (hd : _ = s.draws), (hv : _ = _ ++ _), (hp : _ = s.payouts)⟩ :=
    rest_fields hs.rest
  unfold LotDb.Balanced verifiedUSD drawnUSD accruedUSD paidOutUSD at h ⊢
  rw [hs.counters id, hd, hp, hv, sumFor_append, hsum]
  by_cases he : id = row.id
  · subst he
    rw [hrow, getD_some] at h
    rw [if_pos rfl, hrow, map_some, getD_some, if_pos rfl]
    rw [Counters.ext_iff] at h ⊢
    obtain ⟨h1, h2, h3⟩ := h
    refine ⟨?_, h2, h3⟩
    show row.counters.consumed + cost.sum = _
    rw [h1]
    ring
  · rw [if_neg he, if_neg he, h]
    simp

/-- What a payout does to the books. -/
theorem PaysOut.balanced {rows : List CreditLot} {made : List CreditSharePayout}
    (hs : PaysOut rows made s s') (h : s.Balanced id)
    (hrows : ∀ p ∈ made, (s.counters? p.lotId).isSome = true) : s'.Balanced id := by
  obtain ⟨-, -, -, (hd : _ = s.draws), (hv : _ = s.verifications), (hp : _ = _ ++ _)⟩ :=
    rest_fields hs.rest
  unfold LotDb.Balanced verifiedUSD drawnUSD accruedUSD paidOutUSD at h ⊢
  rw [hs.counters id, hd, hv, hp, sumFor_append]
  cases hrow : s.counters? id with
  | none =>
    have hzero : sumFor CreditSharePayout.lotId CreditSharePayout.amountUSD id made = 0 :=
      sumFor_of_ne fun p hp he => by
        have := hrows p hp
        rw [he, hrow] at this
        cases this
    rw [hrow] at h
    rw [map_none, hzero, h]
    simp
  | some =>
    rw [hrow, getD_some] at h
    rw [map_some, getD_some, h]
    rfl

/-- What a draw-down does to the books. -/
theorem DrawsDown.balanced {d : Draw} (hs : DrawsDown d s s') (h : s.Balanced id) :
    s'.Balanced id := by
  obtain ⟨-, -, -, (hd : _ = _ ++ _), (hv : _ = s.verifications), (hp : _ = s.payouts)⟩ :=
    rest_fields hs.rest
  unfold LotDb.Balanced verifiedUSD drawnUSD accruedUSD paidOutUSD at h ⊢
  rw [hs.counters id, hd, hv, hp, sumFor_append, sumFor_append, sumFor_singleton,
    sumFor_singleton]
  by_cases he : id = d.lotId
  · subst he
    obtain ⟨k, hk⟩ := isSome_iff_exists.mp hs.row
    rw [hk, getD_some] at h
    rw [if_pos rfl, hk, map_some, getD_some, if_pos rfl, if_pos rfl, h]
    simp only [Counters.draw, Counters.mk.injEq, and_true]
    ring
  · have he' : ¬ d.lotId = id := fun h => he h.symm
    rw [if_neg he, if_neg he', if_neg he', h]
    simp

/-- A step that leaves the counters and the books alone. -/
theorem Booked.of_locks (h : Booked (pre ++ (c, g) :: post) s) (hn : g.Hands s g' s')
    (howed : g'.owed = g.owed) (hc : s'.counters? = s.counters?)
    (hbooks : s'.usages = s.usages ∧ s'.draws = s.draws ∧ s'.verifications = s.verifications ∧
      s'.payouts = s.payouts) : Booked (pre ++ (c, g') :: post) s' := by
  obtain ⟨hu, hd, hv, hp⟩ := hbooks
  exact h.of_quiet hn howed hu hd
    (fun id => balanced_congr (h.balanced id) (by rw [hc]) hd hv hp)
    (fun id => .inl (congrFun hc id))

/-- A step that touches no lock and leaves its call without a note. -/
theorem LotNote.Hands.unlocked (hids : g.ids = []) (hl : s'.locked = s.locked)
    (he : s'.edits = s.edits) : g.Hands s .idle s' := by
  refine .idle (fun id n hn h1 => ?_) fun row n hn => ?_
  · rw [hl]
    rw [hids] at hn
    exact ⟨hn, h1⟩
  · rw [he]
    omega

/-- A step that gives back the locks of the rows that its call holds. -/
theorem LotNote.Hands.release {rows : List CreditLot}
    (hl : s'.locked = Supply.unlocked s.locked (rows.map CreditLot.id)) (he : s'.edits = s.edits) :
    (LotNote.holding rows).Hands s .idle s' := by
  refine .idle (fun id n hn h1 => ?_) fun row n hn => ?_
  · rw [hl]
    exact unlock_counts hn h1
  · rw [he]
    exact hn

theorem Booked.quiet (h : Booked (pre ++ (c, g) :: post) s) (hc : s'.counters? = s.counters?)
    (hr : s'.rest = s.rest) : Booked (pre ++ (c, g) :: post) s' := by
  have hmem : (c, g) ∈ pre ++ (c, g) :: post := mem_append_right _ mem_cons_self
  obtain ⟨hl, he, hbooks⟩ := rest_fields hr
  refine h.of_locks ⟨fun id n hn h1 => (by rw [hl]; exact ⟨hn, h1⟩), fun rows hg => ?_,
    fun row n hn => (by rw [he]; exact hn), fun d hg => ?_, h.steady _ hmem⟩ rfl hc hbooks
  · rw [hc]
    exact h.rows _ hmem rows hg
  · rw [hbooks.1]
    exact h.conflicts _ hmem d hg

/-- A new lot starts with nothing on its counters. -/
theorem Booked.create (h : Booked (pre ++ (c, .idle) :: post) s) (hnew : s.counters? id = none)
    (hc : s'.counters? = Function.update s.counters? id (some .zero)) (hr : s'.rest = s.rest) :
    Booked (pre ++ (c, .idle) :: post) s' := by
  obtain ⟨hl, he, hu, hd, hv, hp⟩ := rest_fields hr
  have hcid : ∀ k, s'.counters? k = s.counters? k ∨
      (s.counters? k = none ∧ s'.counters? k = some .zero) := by
    intro k
    by_cases hk : k = id
    · subst hk
      exact .inr ⟨hnew, by rw [hc, Function.update_self]⟩
    · exact .inl (by rw [hc, Function.update_of_ne hk])
  refine h.of_quiet (.unlocked rfl hl he) rfl hu hd
    (fun k => balanced_congr (h.balanced k) ?_ hd hv hp)
    (fun k => (hcid k).imp_right fun hk => .inl hk.1)
  rcases hcid k with hk | ⟨hk, hk'⟩
  · rw [hk]
  · rw [hk, hk']
    rfl

/-- An edit locks its row; it would still read what it has read. -/
theorem Booked.saving {row candidate : CreditLot} (h : Booked (pre ++ (c, .reading row) :: post) s)
    (hok : s.EditsCurrent) (hs : LocksEdit row candidate s s') :
    Booked (pre ++ (c, .holding [candidate]) :: post) s' := by
  obtain ⟨hid, hsame, hfree, hc, hr⟩ := hs
  obtain ⟨hl, he, hbooks⟩ := rest_fields hr
  have hcurrent : s.counters? row.id = some row.counters := by
    refine hok row (count_pos_iff.mp ?_)
    have := h.read row
    rw [readers_middle, if_pos rfl] at this
    omega
  refine h.of_locks ⟨fun id n hn h1 => ?_, fun rows hg r hrow => ?_, fun other n hn => ?_,
    by simp, by simp⟩ rfl hc hbooks
  · rw [hl, count_cons]
    simp only [LotNote.ids, map_cons, map_nil, hid, count_singleton] at hn ⊢
    by_cases hr : row.id = id
    · subst hr
      have := count_eq_zero.mpr hfree
      simp only [beq_self_eq_true, if_true]
      omega
    · simp only [beq_iff_eq, hr, if_false]
      omega
  · cases hg
    rw [mem_singleton] at hrow
    subst hrow
    rw [hc, hid, hsame]
    exact hcurrent
  · rw [he]
    exact count_erase_reader hn

theorem Booked.lock {rows : List CreditLot} (h : Booked (pre ++ (c, .idle) :: post) s)
    (hs : LocksRows rows s s') : Booked (pre ++ (c, .holding rows) :: post) s' := by
  obtain ⟨hnd, hfree, hrows, hc, hr⟩ := hs
  obtain ⟨hl, he, hbooks⟩ := rest_fields hr
  refine h.of_locks ⟨fun id n hn h1 => ?_,
    fun rows' hg r hrow => (by cases hg; rw [hc]; exact hrows r hrow),
    fun row n hn => (by rw [he]; exact hn), by simp, by simp⟩ rfl hc hbooks
  rw [hl, count_append]
  simp only [LotNote.ids] at hn ⊢
  by_cases hin : id ∈ rows.map CreditLot.id
  · obtain ⟨row, hrow, rfl⟩ := mem_map.mp hin
    have h0 := count_eq_zero.mpr (hfree row hrow)
    have h1' := nodup_iff_count_le_one.mp hnd row.id
    omega
  · have h0 := count_eq_zero.mpr hin
    omega

theorem Booked.save {row : CreditLot} {cost : List ℚ}
    (h : Booked (pre ++ (c, .holding [row]) :: post) s) (hs : SavesRow row cost s s') :
    Booked (pre ++ (c, .idle) :: post) s' := by
  obtain ⟨hl, he, hu, hd, -⟩ := rest_fields hs.rest
  have hrow := h.rows _ (mem_append_right _ mem_cons_self) _ rfl row (mem_singleton_self _)
  refine h.of_quiet (.release hl he) rfl hu hd (fun id => hs.balanced (h.balanced id) hrow)
    (fun id => ?_)
  by_cases hid : id = row.id
  · exact .inr (.inr (.inr (by simp [LotNote.ids, hid])))
  · exact .inl (by rw [hs.counters, if_neg hid])

theorem Booked.pay {rows : List CreditLot} {made : List CreditSharePayout}
    (h : Booked (pre ++ (c, .holding rows) :: post) s) (hs : PaysOut rows made s s') :
    Booked (pre ++ (c, .idle) :: post) s' := by
  obtain ⟨hl, he, hu, hd, -⟩ := rest_fields hs.rest
  refine h.of_quiet (.release hl he) rfl hu hd
    (fun id => hs.balanced (h.balanced id) fun p hp => ?_) fun id => ?_
  · obtain ⟨row, hrow, hid⟩ := mem_map.mp (hs.mem p hp)
    rw [← hid, h.rows _ (mem_append_right _ mem_cons_self) _ rfl row hrow]
    rfl
  by_cases hid : id ∈ rows.map CreditLot.id
  · exact .inr (.inr (.inr hid))
  have hzero : sumFor CreditSharePayout.lotId CreditSharePayout.amountUSD id made = 0 :=
    sumFor_of_ne fun p hp he => hid (he ▸ hs.mem p hp)
  refine .inl ?_
  rw [hs.counters, hzero]
  cases s.counters? id with
  | none => rfl
  | some => simp [Counters.pay]

/-- A draw-down is on the counters and is owed to the usage of its day. -/
theorem Booked.draw {d : Draw} (h : Booked (pre ++ (c, .idle) :: post) s)
    (hs : DrawsDown d s s') : Booked (pre ++ (c, .owing d) :: post) s' := by
  obtain ⟨hl, he, hu, hd, -⟩ := rest_fields hs.rest
  refine h.of_step ⟨fun id n hn h1 => (by rw [hl]; exact ⟨hn, h1⟩), by simp,
    fun row n hn => (by rw [he]; exact hn), by simp, by simp⟩
    (fun id => hs.balanced (h.balanced id)) (fun id => ?_) (fun id => ?_) (fun id => ?_)
    (fun k hk => by rw [hu]; exact hk)
  · simp only [usedUSD, drawnUSD, hu, hd, rest, sumFor_append, LotNote.owed,
      sumFor_nil]
    ring
  · simp only [usedRevenueUSD, accruedUSD, hu, hd, rest, sumFor_append,
      LotNote.owed, sumFor_nil]
    ring
  · by_cases hid : id = d.lotId
    · subst hid
      exact .inr (.inr (.inl (count_eq_zero.mpr hs.free)))
    · exact .inl (by rw [hs.counters, if_neg hid])

/-- What was owed is in the usage of its day. -/
theorem Booked.book {d : Draw} (h : Booked (pre ++ (c, g) :: post) s) (hg : g.owed = [d])
    (hs : BooksDraw d s s') : Booked (pre ++ (c, .idle) :: post) s' := by
  obtain ⟨hl, (he : _ = s.edits), -, (hd : _ = s.draws), hv, hp⟩ := rest_fields hs.rest
  have hids : g.ids = [] := by
    cases g <;> simp_all [LotNote.ids, LotNote.owed]
  refine h.of_step (.unlocked hids hl he)
    (fun id => balanced_congr (h.balanced id) (by rw [hs.counters]) hd hv hp)
    (fun id => ?_) (fun id => ?_) (fun id => .inl (congrFun hs.counters id)) hs.keys
  · rw [drawnUSD, drawnUSD, hs.face, hg, sumFor_singleton, hd]
    simp only [LotNote.owed, sumFor_nil]
    ring
  · rw [accruedUSD, accruedUSD, hs.revenue, hg, sumFor_singleton, hd]
    simp only [LotNote.owed, sumFor_nil]
    ring

/-- **One statement of one call keeps the books.** -/
theorem Booked.step (h : Booked (pre ++ (c, g) :: post) s) (hok : s.EditsCurrent)
    (hm : LotMove g s g' s') : Booked (pre ++ (c, g') :: post) s' := by
  have hmem : (c, g) ∈ pre ++ (c, g) :: post := mem_append_right _ mem_cons_self
  cases hm with
  | quiet hc hr => exact h.quiet hc hr
  | create id hnew hc hr => exact h.create hnew hc hr
  | read row hc hr =>
    obtain ⟨hl, he, hbooks⟩ := rest_fields hr
    refine h.of_locks ⟨fun id n hn h1 => (by rw [hl]; exact ⟨hn, h1⟩),
      by simp, fun other n hn => ?_, by simp, by simp⟩ rfl hc
      hbooks
    rw [he, count_cons]
    simp only [LotNote.reading.injEq, beq_iff_eq, reduceCtorEq] at hn ⊢
    omega
  | giveUp row hc hr =>
    obtain ⟨hl, he, hbooks⟩ := rest_fields hr
    exact h.of_locks (.idle (fun id n hn h1 => by rw [hl]; exact ⟨hn, h1⟩)
      (fun other n hn => by rw [he]; exact count_erase_reader hn)) rfl hc hbooks
  | saving hs => exact h.saving hok hs
  | lock hs => exact h.lock hs
  | release rows hc hr =>
    obtain ⟨hl, he, hbooks⟩ := rest_fields hr
    exact h.of_locks (.release hl he) rfl hc hbooks
  | save hs => exact h.save hs
  | pay hs => exact h.pay hs
  | draw hs => exact h.draw hs
  | booked hg hs => exact h.book hg hs
  | conflict d hkey =>
    exact h.of_quiet ⟨fun id n hn h1 => ⟨hn, h1⟩, by simp, fun row n hn => hn,
      fun d' hg => (by cases hg; exact hkey), by simp⟩ rfl rfl rfl h.balanced fun id => .inl rfl
  | lost d hkey =>
    have := h.conflicts _ hmem d rfl
    rw [hkey] at this
    cases this
  | adrift => exact absurd rfl (h.steady _ hmem)

end Step

/-- A call that begins has no note yet. -/
theorem Booked.call {gs : List (LotCall × LotNote)} {s : LotDb} (h : Booked gs s) (c : LotCall) :
    Booked ((c, .idle) :: gs) s := by
  have howed : owedBy ((c, .idle) :: gs) = owedBy gs := rfl
  have hheld : ∀ id, heldCount id ((c, .idle) :: gs) = heldCount id gs := by
    simp [heldCount, LotNote.ids]
  have hreaders : ∀ row, readers row ((c, .idle) :: gs) = readers row gs := by
    simp [readers]
  refine ⟨h.balanced, fun id => howed ▸ h.used id, fun id => howed ▸ h.usedRevenue id,
    fun id => hheld id ▸ h.held id, h.once, ?_, fun row => hreaders row ▸ h.read row, ?_, ?_⟩
  · exact forall_mem_cons.mpr ⟨nofun, h.rows⟩
  · exact forall_mem_cons.mpr ⟨nofun, h.conflicts⟩
  · exact forall_mem_cons.mpr ⟨by simp, h.steady⟩

structure LotDb.Fresh (s : LotDb) : Prop where
  counters : ∀ lot ∈ s.lots.rows, lot.counters = .zero
  usages : s.usages.rows = []
  payouts : s.payouts = []
  draws : s.draws = []
  verifications : s.verifications = []
  locked : s.locked = []
  edits : s.edits = []

theorem LotDb.Fresh.booked {s : LotDb} (h : s.Fresh) : Booked [] s := by
  have hc : ∀ id, (s.counters? id).getD .zero = .zero := by
    intro id
    unfold counters?
    cases hf : s.lots.find? id with
    | none => rfl
    | some lot => exact h.counters lot (Table.mem_of_find? hf)
  refine ⟨fun id => ?_, fun id => ?_, fun id => ?_, fun id => Nat.zero_le _, fun id => ?_,
    by simp, fun row => Nat.zero_le _, by simp, by simp⟩
  · rw [Balanced, hc, verifiedUSD, drawnUSD, accruedUSD, paidOutUSD, h.verifications, h.draws,
      h.payouts]
    simp [Counters.zero]
  · rw [usedUSD, drawnUSD, h.usages, h.draws]
    simp [owedBy]
  · rw [usedRevenueUSD, accruedUSD, h.usages, h.draws]
    simp [owedBy]
  · rw [h.locked]
    exact Nat.zero_le _

end UnifyConsole.Supply
