import Mathlib
import UnifyConsole.Supply.Counters

/-!
# The programs keep the books

Every statement of every call is one of the moves of `LotMove`, so the books hold
in every interleaving whose edits find what they read.  When all calls have
ended, each counter of each lot is the sum of what was booked on it.
-/

namespace UnifyConsole.Supply

open Lib Account
open Prog Table Pool List LotDb CreditLot

/-! ### The counters under the statements -/

variable {lot : CreditLot}

section Statements

variable {s : LotDb}

theorem counters?_of_find {id : Int} (h : s.lots.find? id = some lot) :
    s.counters? id = some lot.counters := by
  rw [counters?, h]
  rfl

/-- An `UPDATE` that sets no counter. -/
theorem counters?_update {s' : LotDb} {p : CreditLot → Bool} {f : CreditLot → CreditLot}
    (h : s'.lots.rows = s.lots.rows.map fun row => if p row then f row else row)
    (hf : ∀ row, (f row).id = row.id) (hc : ∀ row, (f row).counters = row.counters) :
    s'.counters? = s.counters? := by
  have hlots : s'.lots = s.lots.update p f hf := ext h
  funext id
  rw [counters?, hlots, find?_update, Option.map_map, counters?]
  congr 1
  funext row
  simp only [Function.comp]
  split
  · exact hc row
  · rfl

/-- `Save` writes the counters of the row that is saved. -/
theorem counters?_putLot (lot : CreditLot) (id : Int) :
    ((putLot s.lots lot).find? id).map counters =
      if id = lot.id then (s.counters? id).map (fun _ => lot.counters) else s.counters? id := by
  rw [putLot, find?_update, counters?]
  cases hf : s.lots.find? id with
  | none => simp
  | some row =>
    have hid : row.id = id := key_of_find? hf
    by_cases he : id = lot.id
    · simp [hid, he, counters]
    · simp [hid, he]

end Statements

/-! ### The programs -/

def LotNote.ended (g : LotNote) : Prop := g = .idle ∨ g = .adrift

abbrev Ends {α : Type} (g : LotNote) (p : Prog LotDb α) : Prop :=
  Prog.Follows LotMove (fun g _ => g.ended) g p

/-- The programs of this file start with nothing and end with nothing. -/
structure Keeps {α : Type} (p : Prog LotDb α) : Prop where
  follows : Ends .idle p

variable {α : Type} {terms : CreditSupplyTerms} {now id : Int} {actor note : String}

theorem follows_adrift (p : Prog LotDb α) : Ends .adrift p :=
  follows_of_forall (fun _ _ => .adrift) (fun _ => .inr rfl) p

theorem keeps_pure (a : α) : Keeps (pure a : Prog LotDb α) := ⟨.inl rfl⟩

variable {β : Type} {p : Prog LotDb α}

theorem keeps_bind {f : α → Prog LotDb β} (hp : Keeps p) (hf : ∀ a, Keeps (f a)) :
    Keeps (p >>= f) := by
  refine ⟨follows_bind (Follows.mono hp.follows fun g a hg => ?_)⟩
  rcases hg with rfl | rfl
  · exact (hf a).follows
  · exact follows_adrift (f a)

theorem keeps_map (hp : Keeps p) (f : α → β) : Keeps (f <$> p) :=
  keeps_bind hp fun a => keeps_pure (f a)

/-- A statement that moves no counter. -/
theorem keeps_quiet {x : LotDb → α × LotDb}
    (h : ∀ s, (x s).2.counters? = s.counters? ∧ (x s).2.rest = s.rest) : Keeps (atomic x) :=
  ⟨follows_atomic fun s => ⟨.idle, .quiet (h s).1 (h s).2, .inl rfl⟩⟩

theorem keeps_look (f : LotDb → α) : Keeps (Prog.look f) :=
  keeps_quiet fun _ => ⟨rfl, rfl⟩

variable {c : Prop}

theorem keeps_ite {_ : Decidable c} {q : Prog LotDb α} (hp : Keeps p) (hq : Keeps q) :
    Keeps (if c then p else q) := by
  split
  · exact hp
  · exact hq

theorem keeps_when [Decidable c] {p : Prog LotDb Unit} (h : Keeps p) : Keeps (Prog.when c p) := by
  unfold when
  split
  · exact h
  · exact keeps_pure ()

variable {g : LotNote}

/-- A read under any note. -/
theorem follows_look_bind {f : LotDb → α} {k : α → Prog LotDb β} {fin : LotNote → β → Prop}
    (h : ∀ a, Follows LotMove fin g (k a)) : Follows LotMove fin g (Prog.look f >>= k) :=
  follows_bind (follows_look fun _ => ⟨g, .quiet rfl rfl, h _⟩)

/-- A read that is left out in some cases. -/
theorem follows_ite_look_bind [Decidable c] {f : LotDb → α} {a : α} {k : α → Prog LotDb β}
    {fin : LotNote → β → Prop} (h : ∀ a, Follows LotMove fin g (k a)) :
    Follows LotMove fin g ((if c then Prog.look f else pure a) >>= k) := by
  split
  · exact follows_look_bind h
  · exact h a

theorem keeps_createCreditLot {lot : { lot : CreditLot // lot.New }} :
    Keeps (createCreditLot terms now lot.1 actor) := by
  unfold createCreditLot
  split
  · exact keeps_pure _
  rename_i lot' hv
  obtain ⟨rfl, -⟩ := validateCreditLot_ok hv
  refine keeps_bind (keeps_look _) fun supplier => ?_
  cases supplier with
  | none => exact keeps_pure _
  | some =>
    refine keeps_bind (keeps_look _) fun free => ?_
    cases free with
    | error => exact keeps_pure _
    | ok =>
      refine ⟨follows_atomic fun s => ⟨.idle, ?_, .inl rfl⟩⟩
      unfold insertLot
      split
      · rename_i lots hins
        obtain ⟨hnone, -⟩ := insert?_eq_some_iff.mp hins
        refine .create s.lots.nextId ?_ ?_ rfl
        · rw [counters?]
          exact congrArg (Option.map counters) hnone
        funext id
        show (lots.find? id).map counters = _
        have hid : (createdLot now actor s.lots.nextId
          (normaliseCreditLot terms lot.1)).id = s.lots.nextId := rfl
        rw [find?_insert? hins, Function.update_apply, hid]
        by_cases he : id = s.lots.nextId
        · rw [if_pos he, if_pos he.symm]
          have hnew := lot.2
          simp [counters, createdLot, normaliseCreditLot, hnew.consumed,
            hnew.revenue, hnew.paid, Counters.zero]
        · rw [if_neg he, if_neg (fun h => he h.symm)]
          rfl
      · exact .quiet rfl rfl

theorem editCandidate_ok {existing patch : CreditLot}
    (h : editCandidate terms now existing patch = .ok lot) :
    lot.id = existing.id ∧ lot.counters = existing.counters := by
  obtain ⟨shape, he⟩ := editCandidate_keeps h
  rw [he]
  exact ⟨rfl, rfl⟩

theorem follows_endEdit (existing : CreditLot) (e : LotError) :
    Ends (.reading existing) (endEdit existing e : Prog LotDb (Except LotError α)) :=
  follows_atomic fun _ => ⟨.idle, .giveUp existing rfl rfl, .inl rfl⟩

theorem counters?_commitLot (s : LotDb) (lot : CreditLot) (event : CreditLotEvent) (id : Int) :
    (commitLot lot event s).counters? id =
      if id = lot.id then (s.counters? id).map (fun _ => lot.counters) else s.counters? id :=
  counters?_putLot lot id

/-- A commit under the lock of the row. -/
theorem move_commit (s : LotDb) (row lot : CreditLot) (event : CreditLotEvent)
    (hid : lot.id = row.id) (hc : lot.counters = row.counters) :
    LotMove (.holding [row]) s .idle (commitLot lot event s) := by
  refine .save (⟨fun id => ?_, ?_⟩ : SavesRow row [] s _)
  · rw [counters?_commitLot, hid, hc]
    simp [Counters.verify]
  · simp [commitLot, rest, unlock, unlocked, hid]

theorem keeps_updateCreditLot {patch : CreditLot} :
    Keeps (updateCreditLot terms now id patch actor) := by
  refine ⟨follows_bind (follows_atomic fun s => ?_)⟩
  unfold readForEdit
  split
  · exact ⟨.idle, .quiet rfl rfl, (keeps_pure _).follows⟩
  rename_i existing hfind
  refine ⟨.reading existing, .read existing rfl rfl, ?_⟩
  split
  · exact follows_endEdit existing _
  rename_i candidate hcand
  obtain ⟨hid, hc⟩ := editCandidate_ok hcand
  refine follows_ite_look_bind fun free => ?_
  cases free with
  | error e => exact follows_endEdit existing e
  | ok =>
    dsimp only
    split
    · exact follows_endEdit existing _
    refine follows_bind (follows_atomic fun s => ?_)
    unfold lockForSave
    split
    · exact ⟨.idle, .giveUp existing rfl rfl, (keeps_pure _).follows⟩
    rename_i hfree
    refine ⟨.holding [candidate], .saving ⟨hid, hc, hfree, rfl, rfl⟩, ?_⟩
    exact follows_atomic fun s => ⟨.idle, move_commit s candidate candidate _ rfl rfl,
      .inl rfl⟩

theorem follows_lockLot {k : Except LotError CreditLot → Prog LotDb β}
    (herr : ∀ e, Keeps (k (.error e)))
    (hok : ∀ lot : CreditLot, lot.id = id → Ends (.holding [lot]) (k (.ok lot))) :
    Keeps (atomic (lockLot id) >>= k) := by
  refine ⟨follows_bind (follows_atomic fun s => ?_)⟩
  unfold lockLot
  split
  · exact ⟨.idle, .quiet rfl rfl, (herr _).follows⟩
  rename_i hfree
  split
  · exact ⟨.idle, .quiet rfl rfl, (herr _).follows⟩
  rename_i lot hfind
  obtain rfl : lot.id = id := key_of_find? hfind
  exact ⟨.holding [lot], .lock ⟨by simp, by simpa using hfree,
    by simpa using counters?_of_find hfind, rfl, rfl⟩, hok lot rfl⟩

theorem follows_rollbackLot (lot : CreditLot) (e : LotError) :
    Ends (.holding [lot]) (rollbackLot lot.id e : Prog LotDb (Except LotError α)) :=
  follows_atomic fun _ => ⟨.idle, .release [lot] rfl rfl, .inl rfl⟩

theorem transitionedLot_ok {req : CreditLotTransition} {free : Except LotError Unit}
    {lot' : CreditLot} (h : transitionedLot req now free lot = .ok lot') :
    lot'.id = lot.id ∧ lot'.counters = lot.counters := by
  rw [(transitionedLot_keeps h).2.2]
  exact ⟨rfl, rfl⟩

theorem keeps_detach (lot : CreditLot) : Keeps (detachAndDeleteLotChannel lot) := by
  unfold detachAndDeleteLotChannel
  split
  · exact keeps_pure _
  refine keeps_bind (keeps_quiet fun s => ?_) fun detached => ?_
  · split
    · exact ⟨rfl, rfl⟩
    · exact ⟨counters?_update rfl (fun _ => rfl) (fun _ => rfl), rfl⟩
  · split
    · exact keeps_quiet fun s => ⟨rfl, rfl⟩
    · exact keeps_pure _

theorem keeps_transitionCreditLot {req : CreditLotTransition} :
    Keeps (transitionCreditLot now id req) := by
  refine keeps_ite (keeps_pure _) (keeps_ite (keeps_pure _) ?_)
  refine follows_lockLot (fun e => keeps_pure _) fun lot hid => ?_
  subst hid
  refine follows_look_bind fun free => ?_
  split
  · exact follows_rollbackLot lot _
  rename_i lot' htr
  obtain ⟨hid, hc⟩ := transitionedLot_ok htr
  refine follows_bind (follows_atomic
    (fun s => ⟨.idle, move_commit s lot lot' _ hid hc, ?_⟩))
  exact (keeps_bind (keeps_when (keeps_detach lot')) fun _ => keeps_pure _).follows

theorem keeps_markCreditLotVerified {verificationUSD : ℚ} :
    Keeps (markCreditLotVerified now id actor note verificationUSD) := by
  refine follows_lockLot (fun e => keeps_pure _) fun lot hid => ?_
  subst hid
  dsimp only
  split
  · exact follows_rollbackLot lot _
  refine follows_atomic fun s => ⟨.idle, .save (⟨fun id => ?_, ?_⟩ :
    SavesRow lot [verificationCost verificationUSD] s _), .inl rfl⟩
  · refine (counters?_putLot (verifiedLot now note verificationUSD lot) id).trans ?_
    by_cases hid : id = lot.id
    · simp [hid, verifiedLot, counters, Counters.verify]
    · simp [hid, verifiedLot]
  · simp [commitLot, rest, unlock, unlocked, verifiedLot]

theorem keeps_activateVerifiedShareLot :
    Keeps (activateVerifiedShareLot now id actor) := by
  refine keeps_bind (keeps_look _) fun lot => ?_
  cases lot with
  | none => exact keeps_pure _
  | some => exact keeps_ite keeps_transitionCreditLot (keeps_pure _)

theorem keeps_retireCreditLot {status : LotStatus} : Keeps (retireCreditLot id status now) := by
  refine keeps_bind (keeps_quiet fun s => ?_)
    (fun retired => keeps_when (keeps_quiet fun s => ⟨rfl, rfl⟩))
  split
  · exact ⟨counters?_update rfl (fun _ => rfl) (fun _ => rfl), rfl⟩
  · exact ⟨rfl, rfl⟩

theorem keeps_afterDraw (fresh : Option CreditLot) : Keeps (afterDraw now fresh) := by
  cases fresh with
  | none => exact keeps_pure _
  | some =>
    refine keeps_ite (keeps_pure _) (keeps_ite keeps_retireCreditLot
      (keeps_when (keeps_quiet fun s => ?_)))
    split
    · exact ⟨rfl, rfl⟩
    · exact ⟨counters?_update rfl (fun _ => rfl) (fun _ => rfl), rfl⟩

/-! ### Drawing and booking the draw -/

variable {s : LotDb}

theorem find?_drawLots {u : Consumption} {row : CreditLot} {lots : Table CreditLot.id}
    (hfind : lots.find? lot.id = some row) (hactive : row.status = .active) (id : Int) :
    (drawLots u lot lots).find? id =
      if id = lot.id then some (drawnLot u lot row) else lots.find? id := by
  have hrow : row.id = lot.id := key_of_find? hfind
  exact find?_update_at hfind (by simp [hrow, hactive])
    (fun x hx => of_decide_eq_true (Bool.and_elim_left hx)) id

theorem move_draw (u : Consumption) (lot : CreditLot) (h : drawable lot.id s = true) :
    LotMove .idle s (.owing (u.draw lot)) (drawDown u lot s).2 := by
  obtain ⟨hfree, row, hfind, hactive⟩ := drawable_iff.mp h
  rw [drawDown, if_pos h]
  refine .draw ⟨hfree, ?_, fun id => ?_, rfl⟩
  · rw [show (u.draw lot).lotId = lot.id from rfl, counters?_of_find hfind]
    rfl
  show ((drawLots u lot s.lots).find? id).map counters = if id = lot.id then _ else _
  rw [find?_drawLots hfind hactive]
  by_cases hid : id = lot.id
  · rw [if_pos hid, if_pos hid, hid, counters?_of_find hfind]
    rfl
  · rw [if_neg hid, if_neg hid]
    rfl

variable {d : Draw}

/-- A booked draw-down is in the sum of the daily rows. -/
theorem sumFor_bookUsage {usages : Table CreditLotUsage.key} {row : CreditLotUsage}
    (hrow : usages.find? (d.lotId, d.day) = some row) (value : CreditLotUsage → ℚ) {x : ℚ}
    (hx : value (bookedRow d row) = value row + x) (id : Int) :
    sumFor CreditLotUsage.lotId value id (bookUsage d usages).rows =
      sumFor CreditLotUsage.lotId value id usages.rows + if d.lotId = id then x else 0 := by
  have hkey : row.key = (d.lotId, d.day) := key_of_find? hrow
  have hlot : row.lotId = d.lotId := congrArg Prod.fst hkey
  have htotal : (bookUsage d usages).total (fun u => if u.lotId = id then value u else 0) =
      usages.total (fun u => if u.lotId = id then value u else 0) +
        ((if (bookedRow d row).lotId = id then value (bookedRow d row) else 0) -
          if row.lotId = id then value row else 0) :=
    total_update_one hrow (by simp [hkey]) (by simp)
  refine htotal.trans ?_
  rw [show (bookedRow d row).lotId = row.lotId from rfl, hlot, hx]
  by_cases hid : d.lotId = id <;> simp [hid, sumFor, total]

theorem move_updateUsage (hg : g.owed = [d]) {row : CreditLotUsage}
    (hrow : s.usages.find? (d.lotId, d.day) = some row) :
    LotMove g s .idle (updateUsage d s).2 := by
  have hs : (updateUsage d s).2 = { s with usages := bookUsage d s.usages } := by
    rw [updateUsage, hrow]
  rw [hs]
  refine .booked hg ⟨rfl, rfl, fun k hk => ?_, sumFor_bookUsage hrow _ rfl,
    sumFor_bookUsage hrow _ rfl⟩
  rw [bookUsage, isSome_find?_update]
  exact hk

theorem move_insertUsage (hg : g.owed = [d]) {usages : Table CreditLotUsage.key}
    (hins : s.usages.insert? ⟨d.lotId, d.day, 1, d.faceUSD, d.revenueUSD⟩ = some usages) :
    LotMove g s .idle { s with usages := usages } :=
  .booked hg ⟨rfl, rfl, fun _ hk => isSome_find?_insert? hins hk, fun _ => total_insert? hins,
    fun _ => total_insert? hins⟩

/-- **Two attempts are enough**: the insertion fails only when the daily row is there. -/
theorem follows_recordCreditLotUsage (d : Draw) :
    Ends (.owing d) (recordCreditLotUsage d 2) := by
  have hsecond : Ends (.conflict d) (recordCreditLotUsage d 1) := by
    refine follows_bind (follows_atomic fun s => ?_)
    cases hrow : s.usages.find? (d.lotId, d.day) with
    | none => exact ⟨.adrift, .lost d hrow, follows_adrift _⟩
    | some =>
      refine ⟨.idle, move_updateUsage rfl hrow, ?_⟩
      rw [updateUsage, hrow]
      exact .inl rfl
  refine follows_bind (follows_atomic fun s => ?_)
  cases hrow : s.usages.find? (d.lotId, d.day) with
  | some =>
    refine ⟨.idle, move_updateUsage rfl hrow, ?_⟩
    rw [updateUsage, hrow]
    exact .inl rfl
  | none =>
    rw [updateUsage, hrow]
    refine ⟨.owing d, .quiet rfl rfl, ?_⟩
    refine follows_bind (follows_atomic fun s => ?_)
    unfold insertUsage
    split
    · rename_i hins
      obtain ⟨row, hrow⟩ := insert?_eq_none_iff.mp hins
      exact ⟨.conflict d, .conflict d (Option.isSome_iff_exists.mpr ⟨row, hrow⟩), hsecond⟩
    · rename_i usages hins
      exact ⟨.idle, move_insertUsage rfl hins, .inl rfl⟩

theorem keeps_recordCreditSupplyConsumption {u : Consumption} :
    Keeps (recordCreditSupplyConsumption u) := by
  refine keeps_ite (keeps_pure _) (keeps_bind ?_ fun found => ?_)
  · cases u.cached with
    | none => exact keeps_look _
    | some => exact keeps_pure _
  cases found with
  | none => exact keeps_pure _
  | some lot =>
    refine keeps_ite keeps_retireCreditLot ⟨follows_bind (follows_atomic fun s => ?_)⟩
    by_cases hd : drawable lot.id s = true
    · refine ⟨.owing (u.draw lot), move_draw u lot hd, ?_⟩
      rw [drawDown, if_pos hd]
      refine follows_bind (Follows.mono (follows_recordCreditLotUsage (u.draw lot))
        (fun g _ hg => ?_))
      rcases hg with rfl | rfl
      · exact (keeps_bind (keeps_look _) keeps_afterDraw).follows
      · exact follows_adrift _
    · rw [drawDown, if_neg hd]
      exact ⟨.idle, .quiet rfl rfl, .inl rfl⟩

/-! ### Paying -/

/-- A payout that is refused before it holds a lot. -/
theorem keeps_refusePayout (supplierId : Int) (e : LotError) :
    Keeps (atomic (finishPayout supplierId [] (Tx.fail e))) := by
  refine keeps_quiet fun s => ⟨rfl, ?_⟩
  show { s.rest with locked := unlocked s.locked [] } = s.rest
  rw [show unlocked s.locked [] = s.locked by simp [unlocked]]
  rfl

/-- Paying one lot adds the amount of the payout to what the lot was paid. -/
theorem counters?_payOne {env : PayoutEnv} {supplierId : Int} {req : SharePayoutRequest}
    {row : CreditLot} (hpos : 0 < lot.unpaidShareUSD) (hfind : s.lots.find? lot.id = some row)
    (hpaid : row.paidShareUSD = lot.paidShareUSD) (id : Int) :
    (payOne env supplierId req lot s).counters? id = (s.counters? id).map (fun c =>
      c.pay (if lot.id = id then lot.unpaidShareUSD else 0)) := by
  have hrow : row.id = lot.id := key_of_find? hfind
  show ((paidLots lot s.lots).find? id).map counters = _
  rw [paidLots, find?_update_at hfind (by simp [hrow, hpaid])
    (fun x hx => of_decide_eq_true (Bool.and_elim_left hx))]
  by_cases hid : id = lot.id
  · subst hid
    rcases lot.unpaidShareUSD_cases with h0 | ⟨-, hamount⟩
    · rw [h0] at hpos
      exact absurd hpos (lt_irrefl _)
    · rw [if_pos rfl, counters?_of_find hfind, if_pos rfl, hamount]
      simp [counters, Counters.pay, paidLot, hpaid]
  · rw [if_neg hid, if_neg (fun h => hid h.symm)]
    rw [← counters?]
    cases s.counters? id with
    | none => rfl
    | some => simp [Counters.pay]

/-- What the payouts of a supplier do to the lots it holds. -/
theorem move_pay {env : PayoutEnv} {supplier : CreditSupplier} {supplierId : Int}
    {req : SharePayoutRequest} {lots : List CreditLot} (s : LotDb) :
    LotMove (.holding lots) s .idle
      (finishPayout supplierId lots (payTx env supplier req lots) s).2 := by
  unfold finishPayout
  split
  · rename_i made s' hpay
    obtain ⟨s₁, store, hloop, rfl⟩ := payTx_ok hpay
    -- between two passes the books have moved by the payouts made so far
    have hdone := payLots_rule (P := fun left made t =>
        (∀ lot ∈ left, lot ∈ lots) ∧
        (∀ p ∈ made, p.lotId ∈ lots.map CreditLot.id) ∧
        (∀ id, t.counters? id = (s.counters? id).map fun c =>
          c.pay (sumFor CreditSharePayout.lotId CreditSharePayout.amountUSD id made)) ∧
        t.rest = { s.rest with payouts := s.payouts ++ made }) ?_ ?_
      ⟨fun _ h => h, by simp, fun id => ?_, ?_⟩ hloop
    · obtain ⟨-, hmade, hc, hr⟩ := hdone
      refine .pay ⟨hmade, hc, ?_⟩
      have hl : s₁.locked = s.locked := congrArg LotRest.locked hr
      show { s₁.rest with locked := unlocked s₁.locked (lots.map CreditLot.id) } = _
      rw [hr, hl]
    · rintro lot left made t ⟨hin, hmade, hc, hr⟩
      exact ⟨fun l hl => hin l (mem_cons_of_mem _ hl), hmade, hc, hr⟩
    · rintro lot row left made t ⟨hin, hmade, hc, hr⟩ hpos hfind hpaid
      refine ⟨fun l hl => hin l (mem_cons_of_mem _ hl), fun p hp => ?_, fun id => ?_, ?_⟩
      · rcases mem_append.mp hp with hp | hp
        · exact hmade p hp
        · rw [mem_singleton] at hp
          subst hp
          exact mem_map_of_mem (hin lot mem_cons_self)
      · rw [counters?_payOne hpos hfind hpaid, hc, Option.map_map, sumFor_append,
          sumFor_singleton]
        congr 1
        funext c
        simp only [Function.comp, Counters.pay, Counters.mk.injEq, true_and]
        exact add_assoc _ _ _
      · have hp : t.payouts = s.payouts ++ made := congrArg LotRest.payouts hr
        show { t.rest with payouts := t.payouts ++ [payoutRow env supplier.id req lot] } = _
        rw [hr, hp, append_assoc]
    · cases s.counters? id with
      | none => rfl
      | some => simp [Counters.pay]
    · rw [append_nil]
      rfl
  · exact .release lots rfl rfl

theorem keeps_paySupplierShare {env : PayoutEnv} {supplierId : Int} {req : SharePayoutRequest} :
    Keeps (paySupplierShare env supplierId req) := by
  refine keeps_ite (keeps_pure _) (keeps_bind (keeps_quiet fun s => ?_) fun read => ?_)
  · unfold lockSupplier
    split
    · exact ⟨rfl, rfl⟩
    · split <;> exact ⟨rfl, rfl⟩
  cases read with
  | error => exact keeps_pure _
  | ok =>
    dsimp only
    split
    · exact keeps_refusePayout supplierId _
    refine ⟨follows_bind (follows_atomic fun s => ?_)⟩
    unfold lockLots
    dsimp only
    split
    · exact ⟨.idle, .quiet rfl rfl, (keeps_refusePayout supplierId _).follows⟩
    rename_i hfree
    obtain ⟨hnd, hfind⟩ :=
      payableLots_sorted (show _ = (payableLots supplierId s).insertionSort _ from rfl)
    refine ⟨.holding _, .lock ⟨hnd, fun lot hlot hin => hfree ?_,
      fun lot hlot => counters?_of_find (hfind lot hlot), rfl, rfl⟩, ?_⟩
    · exact any_eq_true.mpr ⟨lot, hlot, decide_eq_true hin⟩
    · exact follows_atomic fun s => ⟨.idle, move_pay s, .inl rfl⟩

/-- **Every call keeps to the moves.** -/
theorem keeps_prog (c : LotCall) : Keeps c.prog := by
  cases c with
  | create => exact keeps_createCreditLot
  | update => exact keeps_updateCreditLot
  | transition => exact keeps_map keeps_transitionCreditLot _
  | activate => exact keeps_map keeps_activateVerifiedShareLot _
  | verify => exact keeps_map keeps_markCreditLotVerified _
  | consume => exact keeps_map keeps_recordCreditSupplyConsumption _
  | retire => exact keeps_map keeps_retireCreditLot _
  | pay => exact keeps_map keeps_paySupplierShare _

/-! ### Interleavings -/

/-- The books in every interleaving whose edits find what they read. -/
theorem booked_of_reach {db₀ : LotDb} (h₀ : db₀.Fresh)
    {p : Pool LotCall LotDb (Except LotError Unit)}
    (hr : ReachIf LotCall.prog (fun _ s => s.EditsCurrent) (Pool.start db₀) p) :
    ∃ gs, Annotated (fun _ => LotMove) (fun _ g _ => g.ended) p.calls gs ∧
      Booked gs p.state :=
  reach_annotated (fun c _ _ h => ⟨.idle, (keeps_prog c).follows, h.call c⟩)
    (fun _ _ _ _ _ _ _ h hok hm => h.step hok hm) hr ⟨[], .nil, h₀.booked⟩

/-- **No counter loses an update** when no lot changes between the read and the save of an edit. -/
theorem lot_counters_balance {db₀ : LotDb} (h₀ : db₀.Fresh)
    {p : Pool LotCall LotDb (Except LotError Unit)}
    (hr : Pool.ReachIf LotCall.prog (fun _ s => s.EditsCurrent) (Pool.start db₀) p)
    (hq : p.Quiescent) (lot : CreditLot) (hlot : lot ∈ p.state.lots.rows) :
    lot.consumedUSD = p.state.verifiedUSD lot.id + p.state.drawnUSD lot.id ∧
    lot.shareRevenueUSD = p.state.accruedUSD lot.id ∧
    lot.paidShareUSD = p.state.paidOutUSD lot.id ∧
    p.state.usedUSD lot.id = p.state.drawnUSD lot.id ∧
    p.state.usedRevenueUSD lot.id = p.state.accruedUSD lot.id := by
  obtain ⟨gs, ha, hb⟩ := booked_of_reach h₀ hr
  have howed : owedBy gs = [] := by
    refine List.flatMap_eq_nil_iff.mpr fun g hg => ?_
    obtain ⟨-, hend⟩ := annotated_quiescent ha hq g hg
    rcases hend with hidle | hadrift
    · rw [hidle]
      rfl
    · exact absurd hadrift (hb.steady g hg)
  have hc : p.state.counters? lot.id = some lot.counters :=
    counters?_of_find (Table.find?_eq_some_iff.mpr ⟨hlot, rfl⟩)
  have hbal := hb.balanced lot.id
  rw [LotDb.Balanced, hc, Option.getD_some, Counters.ext_iff] at hbal
  have hused := hb.used lot.id
  have hrevenue := hb.usedRevenue lot.id
  rw [howed, sumFor_nil, add_zero] at hused hrevenue
  exact ⟨hbal.1, hbal.2.1, hbal.2.2, hused, hrevenue⟩

/-! ### One lot -/

def sharedLot : CreditLot :=
  { id := 1, supplierId := 1, vendor := "openai", channelId := 7, faceValueUSD := 100,
    acquisitionRate := 0, dealType := .revenueShare, revenueSharePct := 1 / 2,
    revenueShareBasis := .revenue, shareRevenueUSD := 0, shareCostUSD := 0, paidShareUSD := 0,
    consumedUSD := 0, unpricedRequests := 0, lowWaterUSD := 0, lowWaterNotifiedAt := 0,
    expiresAt := 0, status := .active, source := .admin, note := "", statusReason := "",
    attestationVersion := "", attestedAt := 1, attestedBy := "root", approvedBy := "root",
    approvedAt := 1, verifiedAt := 0, verificationNote := "", payoutAccount := "",
    retiredAt := 0 }

def sharedDb : LotDb :=
  { lots := ⟨[sharedLot], by decide⟩, events := [], usages := .empty, payouts := [],
    suppliers := ⟨[⟨1, 0⟩], by decide⟩, channels := [7],
    store := {}, locked := [], lockedSuppliers := [],
    draws := [], verifications := [], edits := [] }

theorem fresh_sharedDb : sharedDb.Fresh :=
  ⟨fun lot hlot => by rw [mem_singleton.mp hlot]; rfl, rfl, rfl, rfl, rfl, rfl, rfl⟩

def fiveDollars : Consumption := ⟨7, none, some 5, 10, 1, 100, "2026-09-01"⟩

def raiseLowWater : LotCall :=
  .update ⟨.revenue, 0⟩ 100 1 { sharedLot with lowWaterUSD := 3 } "root"

def payExternally : LotCall :=
  .pay ⟨⟨.revenue, 0⟩, 1, "b1"⟩ 1 ⟨"root", .external, "tx1", false⟩

def servedThenPaid : List (Pool.Move LotCall) :=
  [.call (.consume fiveDollars), .run 0, .run 0, .run 0, .run 0, .run 0,
    .call raiseLowWater, .run 0, .run 0, .run 0,
    .call payExternally, .run 0, .run 0, .run 0]

theorem lot_counters_balance_served :
    sharedDb.Fresh ∧ ∃ p, ReachIf LotCall.prog (fun _ s => s.EditsCurrent)
        (Pool.start sharedDb) p ∧ p.Quiescent ∧
      ∃ lot ∈ p.state.lots.rows, lot.lowWaterUSD = 3 ∧ p.state.drawnUSD lot.id = 5 ∧
        p.state.paidOutUSD lot.id = 5 ∧
        lot.consumedUSD = p.state.verifiedUSD lot.id + p.state.drawnUSD lot.id ∧
        lot.shareRevenueUSD = p.state.accruedUSD lot.id ∧
        lot.paidShareUSD = p.state.paidOutUSD lot.id ∧
        p.state.usedUSD lot.id = p.state.drawnUSD lot.id ∧
        p.state.usedRevenueUSD lot.id = p.state.accruedUSD lot.id := by
  have hrun := reach_play_of LotCall.prog (fun _ s => s.EditsCurrent) servedThenPaid
    (start sharedDb) (by decide +kernel)
  have hq : (play LotCall.prog servedThenPaid (start sharedDb)).Quiescent := by
    decide +kernel
  have hlot : ∃ lot ∈ (play LotCall.prog servedThenPaid (start sharedDb)).state.lots.rows,
      lot.lowWaterUSD = 3 ∧
      (play LotCall.prog servedThenPaid (start sharedDb)).state.drawnUSD lot.id = 5 ∧
      (play LotCall.prog servedThenPaid (start sharedDb)).state.paidOutUSD lot.id = 5 := by
    decide +kernel
  obtain ⟨lot, hmem, hlow, hdrawn, hpaid⟩ := hlot
  exact ⟨fresh_sharedDb, _, hrun, hq, lot, hmem, hlow, hdrawn, hpaid,
    lot_counters_balance fresh_sharedDb hrun hq lot hmem⟩

/-- The edit reads the lot, a request is served and paid for, and the edit saves what it has read.
-/
theorem edit_loses_updates :
    sharedDb.Fresh ∧ ∃ p, Reach LotCall.prog (Pool.start sharedDb) p ∧ p.Quiescent ∧
      ∃ lot ∈ p.state.lots.rows, p.state.drawnUSD lot.id = 5 ∧ p.state.accruedUSD lot.id = 10 ∧
        p.state.paidOutUSD lot.id = 5 ∧ lot.consumedUSD = 0 ∧ lot.shareRevenueUSD = 0 ∧
        lot.paidShareUSD = 0 := by
  have hrun := reach_play LotCall.prog
    [.call raiseLowWater, .run 0,
      .call (.consume fiveDollars), .run 0, .run 0, .run 0, .run 0, .run 0,
      .call payExternally, .run 0, .run 0, .run 0, .run 2, .run 2] (start sharedDb)
  exact ⟨fresh_sharedDb, _, hrun, by decide +kernel, by decide +kernel⟩

end UnifyConsole.Supply
