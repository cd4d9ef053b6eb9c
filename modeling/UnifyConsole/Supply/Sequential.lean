import UnifyConsole.Supply.Program

/-!
# Calls on credit lots, one after the other

When nothing else runs, no lock is held between two calls, and each call does to
the lots, their events and the payouts a few things, one row at a time.
`RowChange` says what may become of one row, with the events and the payouts
that are written with it; `LotStep` is one such change, or a new lot.  `does_prog`
connects the two: every call is a sequence of these steps.
-/

namespace UnifyConsole.Supply

open Lib Account
open Prog Table List

structure LotDb.Idle (s : LotDb) : Prop where
  locked : s.locked = []
  suppliers : s.lockedSuppliers = []

/-! ### What may become of a row -/

/-- **The changes of one lot**, with the events and the payouts they write. -/
inductive RowChange (s : LotDb) (old : CreditLot) :
    CreditLot → List CreditLotEvent → List CreditSharePayout → Prop
  | edited {terms : CreditSupplyTerms} {now : Int} {patch new : CreditLot} (actor : String)
      (hedit : editCandidate terms now old patch = .ok new)
      (hfree : new.live = true → new.channelId ≠ old.channelId →
        ensureChannelFree new.channelId old.id s = .ok ())
      (hbound : new.status = .active → new.channelId ≠ 0) :
      RowChange s old new [⟨old.id, actor, .edited, old.status, old.status⟩] []
  | transitioned {req : CreditLotTransition} {now : Int} {new : CreditLot}
      (htr : transitionedLot req now (ensureChannelFree old.channelId old.id s) old = .ok new) :
      RowChange s old new [⟨old.id, req.actor, .transition, old.status, req.newStatus⟩] []
  | detached (hrejected : old.status = .rejected) : RowChange s old { old with channelId := 0 } [] []
  | verified (now : Int) (actor note : String) (verificationUSD : ℚ)
      (hpending : old.status = .pending) :
      RowChange s old (verifiedLot now note verificationUSD old)
        [⟨old.id, actor, .verified, .pending, .verified⟩] []
  | drawn (u : Consumption) (lot : CreditLot) (hactive : old.status = .active) :
      RowChange s old (drawnLot u lot old) [] []
  | retired (status : LotStatus) (now : Int) (hactive : old.status = .active)
      (hstatus : status = .exhausted ∨ status = .expired) :
      RowChange s old { old with status := status, retiredAt := now } [] []
  | noted (now : Int) : RowChange s old { old with lowWaterNotifiedAt := now } [] []
  | paid (env : PayoutEnv) (supplierId : Int) (req : SharePayoutRequest)
      (hpos : 0 < old.unpaidShareUSD) :
      RowChange s old (paidLot old old)
        [⟨old.id, req.actor, .sharePaid, old.status, old.status⟩]
        [payoutRow env supplierId req old]

variable {now : Int} {old new : CreditLot}

variable {s : LotDb}

theorem RowChange.id_eq {events : List CreditLotEvent} {payouts : List CreditSharePayout}
    (h : RowChange s old new events payouts) : new.id = old.id := by
  cases h with
  | edited actor hedit =>
    obtain ⟨shape, he⟩ := editCandidate_keeps hedit
    rw [he]
    rfl
  | transitioned htr =>
    rw [(transitionedLot_keeps htr).2.2]
  | detached | verified | drawn | retired | noted | paid => rfl

/-- **One step of a call that runs alone.** -/
inductive LotStep (s s' : LotDb) : Prop
  | stay (hl : s'.lots = s.lots) (he : s'.events = s.events) (hp : s'.payouts = s.payouts)
  | logged (event : CreditLotEvent) (htype : event.eventType = .retired) (hl : s'.lots = s.lots)
      (he : s'.events = s.events ++ [event]) (hp : s'.payouts = s.payouts)
  | created (row : CreditLot) (actor : String) (hvalid : row.Valid) (hnew : row.New)
      (hpos : 0 < row.id) (hfree : ensureChannelFree row.channelId 0 s = .ok ())
      (hins : s.lots.insert? row = some s'.lots)
      (he : s'.events = s.events ++ [⟨row.id, actor, .created, .other "", row.status⟩])
      (hp : s'.payouts = s.payouts)
  | changed (old new : CreditLot) {events : List CreditLotEvent}
      {payouts : List CreditSharePayout} (hfind : s.lots.find? old.id = some old)
      (hchange : RowChange s old new events payouts)
      (hl : ∀ id, s'.lots.find? id = if id = old.id then some new else s.lots.find? id)
      (he : s'.events = s.events ++ events) (hp : s'.payouts = s.payouts ++ payouts)

abbrev LotSteps : LotDb → LotDb → Prop := Relation.ReflTransGen LotStep

/-- Between two calls nothing is open, and what a call did is a sequence of steps. -/
structure Does {α : Type} (p : Prog LotDb α) : Prop where
  idle : ∀ s : LotDb, s.Idle → (p.exec s).2.Idle
  steps : ∀ s : LotDb, s.Idle → LotSteps s (p.exec s).2

section Does

variable {α β : Type}

theorem does_pure (a : α) : Does (pure a : Prog LotDb α) := ⟨fun _ h => h, fun _ _ => .refl⟩

variable {p : Prog LotDb α}

theorem does_bind {f : α → Prog LotDb β} (hp : Does p) (hf : ∀ a, Does (f a)) : Does (p >>= f) := by
  refine ⟨fun s hs => ?_, fun s hs => ?_⟩
  · rw [exec_bind]
    exact (hf _).idle _ (hp.idle s hs)
  · rw [exec_bind]
    exact (hp.steps s hs).trans ((hf _).steps _ (hp.idle s hs))

theorem does_map (hp : Does p) (f : α → β) : Does (f <$> p) :=
  does_bind hp fun a => does_pure (f a)

/-- A statement that leaves the locks alone. -/
theorem does_atomic {x : LotDb → α × LotDb}
    (h : ∀ s : LotDb, s.Idle → LotStep s (x s).2)
    (hl : ∀ s, (x s).2.locked = s.locked ∧ (x s).2.lockedSuppliers = s.lockedSuppliers) :
    Does (Prog.atomic x) :=
  ⟨fun s hs => ⟨(hl s).1.trans hs.locked, (hl s).2.trans hs.suppliers⟩,
    fun s hs => .single (h s hs)⟩

theorem does_look (f : LotDb → α) : Does (Prog.look f) := ⟨fun _ h => h, fun _ _ => .refl⟩

theorem does_ite {c : Prop} {_ : Decidable c} {q : Prog LotDb α} (hp : c → Does p)
    (hq : ¬ c → Does q) : Does (if c then p else q) := by
  split
  · rename_i h
    exact hp h
  · rename_i h
    exact hq h

theorem does_when {c : Prop} [Decidable c] {p : Prog LotDb Unit} (h : Does p) :
    Does (Prog.when c p) :=
  does_ite (fun _ => h) fun _ => does_pure ()

/-- The result of a call that took no step, or one. -/
theorem does_of_exec (h : ∀ s : LotDb, s.Idle → (p.exec s).2.Idle ∧ LotSteps s (p.exec s).2) :
    Does p :=
  ⟨fun s hs => (h s hs).1, fun s hs => (h s hs).2⟩

end Does

/-! ### Creating and editing -/

variable {lot : CreditLot}

theorem source_created {terms : CreditSupplyTerms} {id : Int} {actor : String}
    (h : (createdLot now actor id (normaliseCreditLot terms lot)).source =
      .supplier) : lot.source = .supplier := by
  by_cases he : lot.source = .other ""
  · simp [createdLot, normaliseCreditLot, he] at h
  · simpa [createdLot, normaliseCreditLot, he] using h

/-- A new lot keeps its zero counters. -/
theorem CreditLot.New.created (h : lot.New) (terms : CreditSupplyTerms) (now id : Int)
    (actor : String) :
    (createdLot now actor id (normaliseCreditLot terms lot)).New where
  consumed := by simp only [createdLot, normaliseCreditLot, h.consumed]
  revenue := by simp only [createdLot, normaliseCreditLot, h.revenue]
  cost := by simp only [createdLot, normaliseCreditLot, h.cost]
  paid := by simp only [createdLot, normaliseCreditLot, h.paid]
  pending := by
    intro hsource
    simp [createdLot, normaliseCreditLot, h.pending (source_created hsource)]

theorem CreditLot.Valid.created (h : lot.Valid) (now id : Int) (actor : String) :
    (createdLot now actor id lot).Valid where
  share := by simp only [createdLot, h.share]
  positive := by simp only [createdLot, h.positive]
  status := by simp only [createdLot, h.status]
  bound := by simpa only [createdLot] using h.bound

theorem does_createCreditLot (terms : CreditSupplyTerms) (now : Int)
    (lot : { lot : CreditLot // lot.New }) (actor : String) :
    Does (createCreditLot terms now lot.1 actor) := by
  unfold createCreditLot
  split
  · exact does_pure _
  rename_i lot' hv
  obtain ⟨rfl, hvalid⟩ := validateCreditLot_ok hv
  have hnew := fun id => lot.2.created terms now id actor
  generalize normaliseCreditLot terms lot.1 = row at hvalid hnew
  refine does_of_exec fun s hs => ?_
  rw [exec_bind, exec_look]
  split
  · exact ⟨hs, .refl⟩
  rw [exec_bind, exec_look]
  split
  · exact ⟨hs, .refl⟩
  rename_i u hfree
  rw [exec_atomic, insertLot]
  split
  · rename_i lots hins
    exact ⟨⟨hs.locked, hs.suppliers⟩, .single (.created _ actor
      (hvalid.created now s.lots.nextId actor) (hnew s.lots.nextId)
      s.lots.nextId_pos hfree hins rfl rfl)⟩
  · exact ⟨hs, .refl⟩

theorem find?_putLot {lots : Table CreditLot.id} (hid : new.id = old.id)
    (hfind : lots.find? old.id = some old) (id : Int) :
    (putLot lots new).find? id = if id = old.id then some new else lots.find? id := by
  have hnew : ({ new with id := old.id } : CreditLot) = new := by
    rw [← hid]
  rw [putLot, find?_update_at hfind (decide_eq_true hid.symm)
    (fun x hx => (show x.id = new.id from of_decide_eq_true hx).trans hid), hnew]

variable {t : LotDb}

/-- A commit under the lock of the row gives the lock back. -/
theorem step_commit {event : CreditLotEvent} (hs : s.Idle) (hfind : s.lots.find? old.id = some old)
    (hchange : RowChange s old new [event] []) (hlots : t.lots = s.lots)
    (hevents : t.events = s.events) (hpayouts : t.payouts = s.payouts)
    (hlocked : t.locked = [old.id]) (hsuppliers : t.lockedSuppliers = s.lockedSuppliers) :
    (commitLot new event t).Idle ∧ LotStep s (commitLot new event t) := by
  have hid := hchange.id_eq
  refine ⟨⟨?_, hsuppliers.trans hs.suppliers⟩, .changed old new hfind hchange (fun id => ?_) ?_ ?_⟩
  · simp [commitLot, LotDb.unlock, hlocked, hid]
  · show (putLot t.lots new).find? id = _
    rw [hlots]
    exact find?_putLot hid hfind id
  · show t.events ++ [event] = _
    rw [hevents]
  · show t.payouts = _
    rw [hpayouts, append_nil]

theorem exec_ite_look {α : Type} {c : Prop} [Decidable c] (f : LotDb → α) (a : α) (s : LotDb) :
    (if c then Prog.look f else pure a : Prog LotDb α).exec s = (if c then f s else a, s) := by
  split
  · rfl
  · rfl

theorem does_updateCreditLot (terms : CreditSupplyTerms) (now id : Int) (patch : CreditLot)
    (actor : String) : Does (updateCreditLot terms now id patch actor) := by
  refine does_of_exec fun s hs => ?_
  unfold updateCreditLot
  rw [exec_bind, exec_atomic]
  cases hfind : s.lots.find? id with
  | none =>
    rw [show readForEdit id s = (none, s) by rw [readForEdit, hfind]]
    exact ⟨hs, .refl⟩
  | some existing =>
  rw [show readForEdit id s = (some existing, { s with edits := existing :: s.edits }) by
    rw [readForEdit, hfind]]
  obtain rfl : existing.id = id := key_of_find? hfind
  have hend : ∀ e : LotError,
      ((endEdit existing e : Prog LotDb (Except LotError Unit)).exec
        { s with edits := existing :: s.edits }).2.Idle ∧
      LotSteps s ((endEdit existing e : Prog LotDb (Except LotError Unit)).exec
        { s with edits := existing :: s.edits }).2 :=
    fun e => ⟨⟨hs.locked, hs.suppliers⟩, .single (.stay rfl rfl rfl)⟩
  dsimp only
  split
  · exact hend _
  rename_i candidate hcand
  rw [exec_bind]
  rw [exec_ite_look]
  split
  · exact hend _
  rename_i u hfree
  split
  · exact hend _
  rename_i hbound
  rw [exec_bind, exec_atomic, lockForSave]
  have hnot : existing.id ∉ ({ s with edits := existing :: s.edits } : LotDb).locked := by
    rw [show ({ s with edits := existing :: s.edits } : LotDb).locked = [] from hs.locked]
    simp
  rw [if_neg hnot]
  have hstep := step_commit (t := { s with
      edits := (existing :: s.edits).erase existing, locked := existing.id :: s.locked }) hs hfind
    (RowChange.edited actor hcand (fun hlive hne => ?_) fun ha h0 => hbound ⟨ha, h0⟩) rfl rfl rfl
    (by rw [hs.locked]) rfl
  · exact ⟨hstep.1, .single hstep.2⟩
  · rw [if_pos ⟨hlive, hne⟩] at hfree
    exact hfree

/-! ### Transitions and verification -/

/-- A row lock of a call that runs alone is given. -/
theorem exec_lockLot {β : Type} {s : LotDb} (hs : s.Idle) (id : Int)
    (k : Except LotError CreditLot → Prog LotDb β) :
    (Prog.atomic (lockLot id) >>= k).exec s =
      match s.lots.find? id with
      | none => (k (.error .recordNotFound)).exec s
      | some lot => (k (.ok lot)).exec { s with locked := [id] } := by
  rw [exec_bind, exec_atomic, lockLot, hs.locked]
  cases s.lots.find? id with
  | none => rfl
  | some => rfl

theorem exec_rollbackLot {α : Type} (hs : s.Idle) (id : Int) (e : LotError) :
    ((rollbackLot id e : Prog LotDb (Except LotError α)).exec { s with locked := [id] }).2 = s := by
  show { s with locked := [id].filter (fun i => !([id].contains i)) } = s
  have : [id].filter (fun i => !([id].contains i)) = s.locked := by
    rw [hs.locked]
    simp
  rw [this]

/-- An `UPDATE` that can match one row only, and matches it. -/
theorem step_update {s' : LotDb} {p : CreditLot → Bool} {f : CreditLot → CreditLot}
    {row : CreditLot} (hfind : s.lots.find? row.id = some row) (hp : p row = true)
    (hk : ∀ x, p x = true → x.id = row.id) (hf : ∀ x, (f x).id = x.id)
    (hchange : RowChange s row (f row) [] [])
    (hl : s'.lots.rows = s.lots.rows.map fun x => if p x then f x else x)
    (he : s'.events = s.events) (hpay : s'.payouts = s.payouts) : LotStep s s' :=
  .changed row (f row) hfind hchange (find?_of_rows_update hl hf hfind hp hk)
    (he.trans (append_nil _).symm) (hpay.trans (append_nil _).symm)

theorem steps_detach (hs : s.Idle) (hfind : s.lots.find? lot.id = some lot)
    (hrejected : lot.status = .rejected) :
    ((detachAndDeleteLotChannel lot).exec s).2.Idle ∧
      LotSteps s ((detachAndDeleteLotChannel lot).exec s).2 := by
  unfold detachAndDeleteLotChannel
  split
  · exact ⟨hs, .refl⟩
  have hfree : lot.id ∉ s.locked := by
    rw [hs.locked]
    exact not_mem_nil
  simp only [exec_bind, exec_atomic, if_neg hfree]
  exact ⟨⟨hs.locked, hs.suppliers⟩, .single (step_update (p := fun x => decide (x.id = lot.id))
    (f := fun x => { x with channelId := 0 }) hfind (decide_eq_true rfl)
    (fun x hx => of_decide_eq_true hx) (fun _ => rfl) (.detached hrejected) rfl rfl rfl)⟩

theorem steps_when_detach (lot : CreditLot) {c : Prop} [Decidable c] (hs : s.Idle)
    (h : c → s.lots.find? lot.id = some lot ∧ lot.status = .rejected) :
    ((Prog.when c (detachAndDeleteLotChannel lot)).exec s).2.Idle ∧
      LotSteps s ((Prog.when c (detachAndDeleteLotChannel lot)).exec s).2 := by
  unfold when
  split
  · rename_i hc
    exact steps_detach hs (h hc).1 (h hc).2
  · exact ⟨hs, .refl⟩

theorem does_transitionCreditLot (now id : Int) (req : CreditLotTransition) :
    Does (transitionCreditLot now id req) := by
  refine does_ite (fun _ => does_pure _) fun _ => does_ite (fun _ => does_pure _) fun _ => ?_
  refine does_of_exec fun s hs => ?_
  rw [exec_lockLot hs]
  split
  · exact ⟨hs, .refl⟩
  rename_i lot hfind
  obtain rfl : lot.id = id := key_of_find? hfind
  rw [exec_bind, exec_look]
  split
  · rw [exec_rollbackLot hs]
    exact ⟨hs, .refl⟩
  rename_i lot' htr
  have hstep := step_commit (t := { s with locked := [lot.id] }) hs hfind
    (RowChange.transitioned htr) rfl rfl rfl rfl rfl
  rw [exec_bind, exec_atomic, exec_bind]
  have hid : lot'.id = lot.id := (RowChange.transitioned htr).id_eq
  have hwhen := steps_when_detach lot'
    (c := req.newStatus = .rejected ∧ lot'.source = .supplier) hstep.1 fun hc => ⟨?_, ?_⟩
  · exact ⟨hwhen.1, .head hstep.2 hwhen.2⟩
  · show (putLot s.lots lot').find? lot'.id = some lot'
    rw [find?_putLot hid hfind, if_pos hid]
  · rw [(transitionedLot_keeps htr).2.2]
    exact hc.1

theorem does_activateVerifiedShareLot (now id : Int) (actor : String) :
    Does (activateVerifiedShareLot now id actor) := by
  refine does_bind (does_look _) fun lot => ?_
  cases lot with
  | none => exact does_pure _
  | some => exact does_ite (fun _ => does_transitionCreditLot now id _) fun _ => does_pure _

theorem does_markCreditLotVerified (now id : Int) (actor note : String) (verificationUSD : ℚ) :
    Does (markCreditLotVerified now id actor note verificationUSD) := by
  refine does_of_exec fun s hs => ?_
  unfold markCreditLotVerified
  rw [exec_lockLot hs]
  split
  · exact ⟨hs, .refl⟩
  rename_i lot hfind
  obtain rfl : lot.id = id := key_of_find? hfind
  dsimp only
  split
  · rw [exec_rollbackLot hs]
    exact ⟨hs, .refl⟩
  rename_i hpending
  rw [not_not] at hpending
  have hstep := step_commit (t := { s with locked := [lot.id] }) hs hfind
    (RowChange.verified now actor note verificationUSD hpending) rfl rfl rfl rfl rfl
  refine ⟨⟨hstep.1.locked, hstep.1.suppliers⟩, .head hstep.2 (.single ?_)⟩
  exact .stay rfl rfl rfl

/-! ### Consumption -/

theorem does_retireCreditLot (lotId : Int) {status : LotStatus} (now : Int)
    (hstatus : status = .exhausted ∨ status = .expired) :
    Does (retireCreditLot lotId status now) := by
  refine does_bind (does_atomic (fun s hs => ?_) fun s => ?_) fun retired => does_when
    (does_atomic (fun s hs => .logged _ rfl rfl rfl rfl) fun s => ⟨rfl, rfl⟩)
  · split
    · rename_i hd
      obtain ⟨row, hfind, hactive⟩ := (drawable_iff.mp hd).2
      obtain rfl : row.id = lotId := key_of_find? hfind
      exact step_update (p := fun x => decide (x.id = row.id) && decide (x.status = .active))
        (f := fun x => { x with status := status, retiredAt := now }) hfind
        (by simp [hactive]) (fun x hx => of_decide_eq_true (Bool.and_elim_left hx)) (fun _ => rfl)
        (.retired status now hactive hstatus) rfl rfl rfl
    · exact .stay rfl rfl rfl
  · split
    · exact ⟨rfl, rfl⟩
    · exact ⟨rfl, rfl⟩

theorem does_noteLowWater (lotId now : Int) : Does (noteLowWater lotId now) := by
  refine does_atomic (fun s hs => ?_) fun s => ?_
  · rw [if_neg (by rw [hs.locked]; exact not_mem_nil)]
    by_cases h : ∃ row, s.lots.find? lotId = some row ∧ row.lowWaterNotifiedAt = 0
    · obtain ⟨row, hfind, h0⟩ := h
      obtain rfl : row.id = lotId := key_of_find? hfind
      exact step_update (p := fun x => decide (x.id = row.id) && decide (x.lowWaterNotifiedAt = 0))
        (f := fun x => { x with lowWaterNotifiedAt := now }) hfind (by simp [h0])
        (fun x hx => of_decide_eq_true (Bool.and_elim_left hx)) (fun _ => rfl) (.noted now)
        rfl rfl rfl
    · refine .stay (ext ((map_congr_left fun row hrow => if_neg fun hc => ?_).trans
        (map_id' _))) rfl rfl
      rw [Bool.and_eq_true] at hc
      exact h ⟨row, find?_eq_some_iff.mpr ⟨hrow, of_decide_eq_true hc.1⟩,
        of_decide_eq_true hc.2⟩
  · split
    · exact ⟨rfl, rfl⟩
    · exact ⟨rfl, rfl⟩

theorem does_afterDraw (now : Int) (fresh : Option CreditLot) : Does (afterDraw now fresh) := by
  cases fresh with
  | none => exact does_pure _
  | some =>
    exact does_ite (fun _ => does_pure _) fun _ => does_ite
      (fun _ => does_retireCreditLot _ _ (.inl rfl)) fun _ => does_when (does_noteLowWater _ _)

theorem does_recordCreditLotUsage (d : Draw) (attempts : Nat) :
    Does (recordCreditLotUsage d attempts) := by
  induction attempts with
  | zero => exact does_pure _
  | succ attempts ih =>
    refine does_bind (does_atomic (fun s _ => ?_) fun s => ?_) fun updated =>
      does_ite (fun _ => does_pure _) fun _ => does_bind (does_atomic (fun s _ => ?_) fun s => ?_)
        (fun inserted => does_ite (fun _ => does_pure _) fun _ => ih)
    all_goals first | unfold updateUsage | unfold insertUsage
    all_goals split
    all_goals first | exact .stay rfl rfl rfl | exact ⟨rfl, rfl⟩

theorem does_recordCreditSupplyConsumption (u : Consumption) :
    Does (recordCreditSupplyConsumption u) := by
  refine does_ite (fun _ => does_pure _) fun _ => does_bind ?_ fun found => ?_
  · cases u.cached with
    | none => exact does_look _
    | some => exact does_pure _
  cases found with
  | none => exact does_pure _
  | some lot =>
    refine does_ite (fun _ => does_retireCreditLot _ _ (.inr rfl)) fun _ => does_bind
      (does_atomic (fun s _ => ?_) fun s => ?_) fun drawn => does_ite (fun _ => does_bind
        (does_recordCreditLotUsage _ 2) fun _ => does_bind (does_look _) fun fresh =>
          does_afterDraw u.now fresh) fun _ => does_pure _
    · unfold drawDown
      split
      · rename_i hd
        obtain ⟨row, hfind, hactive⟩ := (drawable_iff.mp hd).2
        have hid : row.id = lot.id := key_of_find? hfind
        rw [← hid] at hfind
        exact step_update hfind (by simp [hid, hactive])
          (fun x hx => (of_decide_eq_true (Bool.and_elim_left hx)).trans hid.symm)
          (drawnLot_id u lot) (.drawn u lot hactive) rfl rfl rfl
      · exact .stay rfl rfl rfl
    · unfold drawDown
      split
      · exact ⟨rfl, rfl⟩
      · exact ⟨rfl, rfl⟩

/-! ### Payouts -/

variable {supplierId : Int}

/-- The loop pays one row after the other. -/
theorem steps_payLots {env : PayoutEnv} {req : SharePayoutRequest} {lots : List CreditLot}
    {made made' : List CreditSharePayout} {s' : LotDb} (hnd : (lots.map CreditLot.id).Nodup)
    (hrows : ∀ lot ∈ lots, s.lots.find? lot.id = some lot)
    (h : payLots env supplierId req lots made s = .ok (made', s')) : LotSteps s s' ∧
      s'.locked = s.locked ∧ s'.lockedSuppliers = s.lockedSuppliers := by
  have hdone := payLots_rule (P := fun left _ t =>
      ((left.map CreditLot.id).Nodup ∧ ∀ lot ∈ left, t.lots.find? lot.id = some lot) ∧
      LotSteps s t ∧ t.locked = s.locked ∧ t.lockedSuppliers = s.lockedSuppliers) ?_ ?_
    ⟨⟨hnd, hrows⟩, .refl, rfl, rfl⟩ h
  · exact hdone.2
  · rintro lot left made t ⟨⟨hn, hr⟩, hrest⟩
    exact ⟨⟨(nodup_cons.mp hn).2, fun l hl => hr l (mem_cons_of_mem _ hl)⟩, hrest⟩
  rintro lot row left made t ⟨⟨hn, hr⟩, hsteps, hlocked, hsuppliers⟩ hpos hfind hpaid
  have hlot := hr lot mem_cons_self
  have hlots : ∀ id, (payOne env supplierId req lot t).lots.find? id =
      if id = lot.id then some (paidLot lot lot) else t.lots.find? id :=
    find?_of_rows_update rfl (paidLot_id lot) hlot (by simp)
      (fun x hx => of_decide_eq_true (Bool.and_elim_left hx))
  refine ⟨⟨(nodup_cons.mp hn).2, fun l hl => ?_⟩, hsteps.tail (.changed lot _ hlot
    (.paid env supplierId req hpos) hlots rfl rfl), hlocked, hsuppliers⟩
  -- the rows that are left have other ids
  have hne : l.id ≠ lot.id := by
    intro he
    exact (nodup_cons.mp hn).1 (he ▸ mem_map_of_mem hl)
  rw [hlots, if_neg hne]
  exact hr l (mem_cons_of_mem _ hl)

theorem release_idle {ids : List Int} (hl : t.locked = ids) (hs : t.lockedSuppliers = [supplierId])
    :
    ({ t.unlock ids with lockedSuppliers :=
      t.lockedSuppliers.filter (fun id => decide (id ≠ supplierId)) } : LotDb).Idle := by
  refine ⟨?_, ?_⟩
  · show t.locked.filter (fun id => !ids.contains id) = []
    rw [hl]
    refine filter_eq_nil_iff.mpr fun id hid => ?_
    simp [hid]
  · show t.lockedSuppliers.filter _ = []
    rw [hs]
    simp

/-- Refusing a payout changes nothing but the locks. -/
theorem steps_refuse (e : LotError) (hl : s.locked = []) (hs : s.lockedSuppliers = [supplierId]) :
    (finishPayout supplierId [] (Tx.fail e) s).2.Idle ∧
      LotSteps s (finishPayout supplierId [] (Tx.fail e) s).2 :=
  ⟨release_idle hl hs, .single (.stay rfl rfl rfl)⟩

theorem steps_finishPayout (env : PayoutEnv) (supplier : CreditSupplier) (req : SharePayoutRequest)
    {lots : List CreditLot} (hnd : (lots.map CreditLot.id).Nodup)
    (hrows : ∀ lot ∈ lots, s.lots.find? lot.id = some lot) (hl : s.locked = lots.map CreditLot.id)
    (hs : s.lockedSuppliers = [supplierId]) :
    (finishPayout supplierId lots (payTx env supplier req lots) s).2.Idle ∧
      LotSteps s (finishPayout supplierId lots (payTx env supplier req lots) s).2 := by
  unfold finishPayout
  split
  · rename_i made s' hpay
    obtain ⟨s₁, store, hloop, rfl⟩ := payTx_ok hpay
    obtain ⟨hsteps, hl', hs'⟩ := steps_payLots hnd hrows hloop
    exact ⟨release_idle (hl'.trans hl) (hs'.trans hs), hsteps.tail (.stay rfl rfl rfl)⟩
  · exact ⟨release_idle hl hs, .single (.stay rfl rfl rfl)⟩

/-- When no lot is locked, a payout locks the lots that it reads. -/
theorem lockLots_free (supplierId : Int) (h : t.locked = []) :
    ∃ lots, lockLots supplierId t = (.ok lots, { t with locked := lots.map CreditLot.id }) ∧
      (lots.map CreditLot.id).Nodup ∧ ∀ lot ∈ lots, t.lots.find? lot.id = some lot := by
  refine ⟨(payableLots supplierId t).insertionSort (fun a b => a.id ≤ b.id), ?_,
    payableLots_sorted rfl⟩
  rw [lockLots]
  simp [h]

theorem does_paySupplierShare (env : PayoutEnv) (supplierId : Int) (req : SharePayoutRequest) :
    Does (paySupplierShare env supplierId req) := by
  refine does_ite (fun _ => does_pure _) fun _ => does_of_exec fun s hs => ?_
  rw [exec_bind, exec_atomic]
  cases hfind : s.suppliers.find? supplierId with
  | none =>
    rw [show lockSupplier supplierId s = (.error .recordNotFound, s) by
      simp [lockSupplier, hs.suppliers, hfind]]
    exact ⟨hs, .refl⟩
  | some supplier =>
    rw [show lockSupplier supplierId s =
        (.ok supplier, { s with lockedSuppliers := [supplierId] }) by
      simp [lockSupplier, hs.suppliers, hfind]]
    have hstay : LotStep s { s with lockedSuppliers := [supplierId] } := .stay rfl rfl rfl
    have hlocked : ({ s with lockedSuppliers := [supplierId] } : LotDb).locked = [] := hs.locked
    have hsuppliers : ({ s with lockedSuppliers := [supplierId] } : LotDb).lockedSuppliers =
      [supplierId] := rfl
    generalize ({ s with lockedSuppliers := [supplierId] } : LotDb) = t at hstay hlocked hsuppliers
    dsimp only
    split
    · obtain ⟨hidle, hsteps⟩ := steps_refuse _ hlocked hsuppliers
      exact ⟨hidle, .head hstay hsteps⟩
    obtain ⟨lots, hlots, hnd, hrows⟩ := lockLots_free supplierId hlocked
    rw [exec_bind, exec_atomic, hlots]
    obtain ⟨hidle, hsteps⟩ := steps_finishPayout env supplier req
      (s := { t with locked := lots.map CreditLot.id }) hnd hrows rfl hsuppliers
    have hlock : LotStep t { t with locked := lots.map CreditLot.id } := .stay rfl rfl rfl
    exact ⟨hidle, .head hstay (.head hlock hsteps)⟩

/-- **Every call that runs alone is a sequence of steps.** -/
theorem does_prog (c : LotCall) : Does c.prog := by
  cases c with
  | create terms now lot actor => exact does_createCreditLot terms now lot actor
  | update terms now id patch actor => exact does_updateCreditLot terms now id patch actor
  | transition now id req => exact does_map (does_transitionCreditLot now id req) _
  | activate now id actor => exact does_map (does_activateVerifiedShareLot now id actor) _
  | verify now id actor note cost =>
    exact does_map (does_markCreditLotVerified now id actor note cost) _
  | consume u => exact does_map (does_recordCreditSupplyConsumption u) _
  | retire lotId expired now =>
    refine does_map (does_retireCreditLot lotId now ?_) _
    cases expired with
    | true => exact .inr rfl
    | false => exact .inl rfl
  | pay env supplierId req => exact does_map (does_paySupplierShare env supplierId req) _

theorem steps_execs (calls : List LotCall) (hs : s.Idle) :
    (Pool.execs LotCall.prog calls s).Idle ∧ LotSteps s (Pool.execs LotCall.prog calls s) := by
  induction calls generalizing s with
  | nil => exact ⟨hs, .refl⟩
  | cons c calls ih =>
    obtain ⟨hidle, hsteps⟩ := ih ((does_prog c).idle s hs)
    exact ⟨hidle, ((does_prog c).steps s hs).trans hsteps⟩

end UnifyConsole.Supply
