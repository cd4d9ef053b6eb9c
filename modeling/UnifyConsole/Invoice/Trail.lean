import Mathlib
import UnifyConsole.Lib.Walk
import UnifyConsole.Invoice.Document

/-!
# The audit trail

A document points to its successor, and a document that replaces others lists them.  The two
sides are written in one transaction, but the status of a document can also be edited, and a
document can replace several others, which have replaced others before.

`Trail` is what the table of documents keeps through every run: the two sides of a link
agree, a successor is newer than its predecessors and of the same kind and period, and the
superseded documents are those with a successor.  From it, following the successors ends at
a document that is not superseded, and `settlementPredecessors` of that document
(`controller/settlement.go`) lists every document on the way, once.
-/

namespace UnifyConsole.Invoice

open Lib
open Prog Table Pool List

/-! ### What is kept -/

/-- The links between documents. -/
structure Trail (s : SettlementDb) : Prop where
  positive : ∀ r ∈ s.rows, 0 < r.id
  superseded : ∀ r ∈ s.rows, r.status = .superseded ↔ r.supersededByID ≠ 0
  linked : ∀ a ∈ s.rows, ∀ b ∈ s.rows, b.supersededByID = a.id ↔ b.id ∈ a.supersedesIDs
  named : ∀ a ∈ s.rows, ∀ id ∈ a.supersedesIDs, ∃ b ∈ s.rows, b.id = id
  successor : ∀ b ∈ s.rows, b.supersededByID ≠ 0 → ∃ a ∈ s.rows, a.id = b.supersededByID ∧
    b.id < a.id ∧ b.kind = a.kind ∧ b.periodStart = a.periodStart ∧ b.periodEnd = a.periodEnd

/-- What was issued stays: the frozen columns, and that a document is superseded. -/
structure Settlement.Kept (r r' : Settlement) : Prop where
  key : r'.key = r.key
  revision : r'.revision = r.revision
  amountUSD : r'.amountUSD = r.amountUSD
  statement : r'.statement = r.statement
  supersedesIDs : r'.supersedesIDs = r.supersedesIDs
  status : r.status = .superseded →
    r'.status = .superseded ∧ r'.supersededByID = r.supersededByID

/-- Every document stays. -/
def Kept (s s' : SettlementDb) : Prop :=
  ∀ id r, s.find? id = some r → ∃ r', s'.find? id = some r' ∧ r.Kept r'

theorem Settlement.Kept.refl (r : Settlement) : r.Kept r := ⟨rfl, rfl, rfl, rfl, rfl, fun h => ⟨h, rfl⟩⟩

variable {r : Settlement}

theorem Settlement.Kept.trans {r' r'' : Settlement} (h : r.Kept r') (h' : r'.Kept r'') :
    r.Kept r'' where
  key := h'.key.trans h.key
  revision := h'.revision.trans h.revision
  amountUSD := h'.amountUSD.trans h.amountUSD
  statement := h'.statement.trans h.statement
  supersedesIDs := h'.supersedesIDs.trans h.supersedesIDs
  status := fun hs => by
    obtain ⟨hs', hby⟩ := h.status hs
    obtain ⟨hs'', hby'⟩ := h'.status hs'
    exact ⟨hs'', hby'.trans hby⟩

theorem Kept.refl (s : SettlementDb) : Kept s s := fun _ r h => ⟨r, h, .refl r⟩

variable {s s' : SettlementDb}

theorem Kept.trans {s'' : SettlementDb} (h : Kept s s') (h' : Kept s' s'') : Kept s s'' := by
  intro id r hr
  obtain ⟨r', hr', hk⟩ := h id r hr
  obtain ⟨r'', hr'', hk'⟩ := h' id r' hr'
  exact ⟨r'', hr'', hk.trans hk'⟩

section Steps

variable {s s' : SettlementDb}

theorem Kept.insert? (h : s.insert? r = some s') : Kept s s' := fun _ x hx =>
  ⟨x, find?_insert?_of_some h hx, .refl x⟩

/-- What the marking of predecessors does to a row. -/
def markRow (ids : List Int) (successor now : Int) (r : Settlement) : Settlement :=
  if r.id ∈ ids then
    { r with status := .superseded, supersededByID := successor, updatedAt := now }
  else r

variable {now : Int}

theorem find?_markSuperseded {ids : List Int} {successor : Int} (id : Int) :
    (markSuperseded s ids successor now).find? id =
      (s.find? id).map (markRow ids successor now) := by
  unfold markSuperseded
  rw [find?_update]
  simp only [decide_eq_true_eq]
  rfl

theorem mem_markSuperseded {ids : List Int} {successor : Int} {x : Settlement} :
    x ∈ (markSuperseded s ids successor now).rows ↔
      ∃ r ∈ s.rows, x = markRow ids successor now r := by
  unfold markSuperseded
  rw [mem_update]
  simp only [decide_eq_true_eq, markRow]

theorem find?_updateUnlessSuperseded {e : SettlementEdit} (id : Int) :
    (updateUnlessSuperseded e now s).2.find? id = (s.find? id).map (fun r =>
      if r.id = e.id ∧ r.status ≠ .superseded then e.apply now r else r) := by
  unfold updateUnlessSuperseded
  rw [find?_update]
  simp only [decide_eq_true_eq]

/-- **Every step keeps what was issued.** -/
theorem DocumentMove.kept (h : DocumentMove s s') : Kept s s' := by
  cases h with
  | none => exact .refl s
  | create d revision now status hstatus hfresh hins => exact .insert? hins
  | @replace s₁ d ids revision now hids hpos hprevious hfresh hins =>
    refine (Kept.insert? hins).trans fun id r hr => ⟨markRow ids s.nextId now r, ?_, ?_⟩
    · rw [find?_markSuperseded, hr]
      rfl
    unfold markRow
    split
    · rename_i hmem
      refine ⟨rfl, rfl, rfl, rfl, rfl, fun hs => ?_⟩
      -- a row that is marked was active, so it is not superseded before
      obtain ⟨old, hold, -, -, -, hactive⟩ := hprevious r.id hmem
      have hr' := find?_insert?_of_some hins hold
      rw [key_of_find? hr, hr] at hr'
      cases hr'
      simp [Settlement.isActive, hs] at hactive
    · exact .refl r
  | edit =>
    intro id r hr
    refine ⟨_, by rw [find?_updateUnlessSuperseded, hr]; rfl, ?_⟩
    dsimp only
    split
    · rename_i hcond
      exact ⟨rfl, rfl, rfl, rfl, rfl, fun hs => absurd hs hcond.2⟩
    · exact .refl r

section Mark

variable {ids : List Int} {successor : Int} (y : Settlement)

@[simp] theorem id_markRow : (markRow ids successor now y).id = y.id := by
  unfold markRow
  split <;> rfl

@[simp] theorem supersedesIDs_markRow :
    (markRow ids successor now y).supersedesIDs = y.supersedesIDs := by
  unfold markRow
  split <;> rfl

/-- A marked row is of the kind and the period that it was. -/
theorem period_markRow : (markRow ids successor now y).kind = y.kind ∧
    (markRow ids successor now y).periodStart = y.periodStart ∧
    (markRow ids successor now y).periodEnd = y.periodEnd := by
  unfold markRow
  split <;> exact ⟨rfl, rfl, rfl⟩

theorem supersededByID_markRow : (markRow ids successor now y).supersededByID =
    if y.id ∈ ids then successor else y.supersededByID := by
  unfold markRow
  split <;> rfl

end Mark

/-- The document `r` has joined the documents of `s`, and those that it lists are marked. -/
structure Joined (s : SettlementDb) (r : Settlement) (now : Int) (t : SettlementDb) : Prop where
  mem : ∀ {x}, x ∈ t.rows ↔ x = r ∨ ∃ y ∈ s.rows, x = markRow r.supersedesIDs r.id now y
  newer : ∀ x ∈ s.rows, x.id < r.id
  positive : 0 < r.id
  itself : r.id ∉ r.supersedesIDs
  status : r.status ≠ .superseded
  last : r.supersededByID = 0
  previous : ∀ id ∈ r.supersedesIDs, ∃ old ∈ s.rows, old.id = id ∧ old.supersededByID = 0 ∧
    old.kind = r.kind ∧ old.periodStart = r.periodStart ∧ old.periodEnd = r.periodEnd

theorem joined_of_insert? (h : Trail s) (hins : s.insert? r = some s') (hid : r.id = s.nextId)
    (hstatus : r.status ≠ .superseded) (hby : r.supersededByID = 0)
    (hprevious : ∀ id ∈ r.supersedesIDs, ∃ old, s.find? id = some old ∧ old.kind = r.kind ∧
      old.periodStart = r.periodStart ∧ old.periodEnd = r.periodEnd ∧ old.isActive = true)
    (now : Int) : Joined s r now (markSuperseded s' r.supersedesIDs r.id now) := by
  have hnewer : ∀ x ∈ s.rows, x.id < r.id := fun x hx => hid ▸ s.lt_nextId hx
  have hitself : r.id ∉ r.supersedesIDs := by
    intro hmem
    obtain ⟨old, hold, -⟩ := hprevious _ hmem
    have := hnewer old (mem_of_find? hold)
    have := key_of_find? hold
    omega
  refine ⟨fun {x} => ?_, hnewer, hid ▸ s.nextId_pos, hitself, hstatus, hby, fun id hin => ?_⟩
  · rw [mem_markSuperseded]
    have hr : markRow r.supersedesIDs r.id now r = r := if_neg hitself
    constructor
    · rintro ⟨y, hy, rfl⟩
      rcases (mem_insert? hins).mp hy with hy | rfl
      · exact .inr ⟨y, hy, rfl⟩
      · exact .inl hr
    · rintro (rfl | ⟨y, hy, rfl⟩)
      · exact ⟨x, (mem_insert? hins).mpr (.inr rfl), hr.symm⟩
      · exact ⟨y, (mem_insert? hins).mpr (.inl hy), rfl⟩
  · -- an active document has no successor
    obtain ⟨old, hold, hkind, hstart, hend, hactive⟩ := hprevious id hin
    have hmem := mem_of_find? hold
    refine ⟨old, hmem, key_of_find? hold, ?_, hkind, hstart, hend⟩
    by_contra hne
    have hs := (h.superseded old hmem).mpr hne
    simp [Settlement.isActive, hs] at hactive

namespace Joined

variable {t : SettlementDb}

theorem old_mem (hj : Joined s r now t) {y : Settlement} (hy : y ∈ s.rows) :
    markRow r.supersedesIDs r.id now y ∈ t.rows := hj.mem.mpr (.inr ⟨y, hy, rfl⟩)

/-- The document that a listed id stands for. -/
theorem previous_of_mem (hj : Joined s r now t) {y : Settlement} (hy : y ∈ s.rows)
    (hin : y.id ∈ r.supersedesIDs) : y.supersededByID = 0 ∧ y.kind = r.kind ∧
      y.periodStart = r.periodStart ∧ y.periodEnd = r.periodEnd := by
  obtain ⟨old, hold, hid, hrest⟩ := hj.previous _ hin
  obtain rfl : old = y := s.eq_of_key_eq hold hy hid
  exact hrest

theorem superseded_iff (h : Trail s) (hj : Joined s r now t) :
    ∀ x ∈ t.rows, x.status = .superseded ↔ x.supersededByID ≠ 0 := by
  intro x hx
  rcases hj.mem.mp hx with rfl | ⟨y, hy, rfl⟩
  · simp [hj.status, hj.last]
  unfold markRow
  split
  · exact iff_of_true rfl fun heq => by have := hj.positive; dsimp only at heq; omega
  · exact h.superseded y hy

/-- The links to the new document. -/
theorem linked_new (h : Trail s) (hj : Joined s r now t) :
    ∀ b ∈ t.rows, b.supersededByID = r.id ↔ b.id ∈ r.supersedesIDs := by
  intro b hb
  have hpos := hj.positive
  rcases hj.mem.mp hb with rfl | ⟨b', hb', rfl⟩
  · have hlast := hj.last
    exact iff_of_false (by omega) hj.itself
  rw [supersededByID_markRow, id_markRow]
  split
  · rename_i hin
    exact iff_of_true rfl hin
  rename_i hin
  refine iff_of_false (fun heq => ?_) hin
  obtain ⟨x, hx, hxid, -⟩ := h.successor b' hb' (by omega)
  have := hj.newer x hx
  omega

/-- The links to a document that was there. -/
theorem linked_old (h : Trail s) (hj : Joined s r now t) {a : Settlement} (ha : a ∈ s.rows) :
    ∀ b ∈ t.rows, b.supersededByID = a.id ↔ b.id ∈ a.supersedesIDs := by
  intro b hb
  have hpos := h.positive a ha
  have hlt := hj.newer a ha
  rcases hj.mem.mp hb with rfl | ⟨b', hb', rfl⟩
  · refine iff_of_false (fun heq => ?_) fun hin => ?_
    · have := hj.last
      omega
    · obtain ⟨x, hx, hxid⟩ := h.named a ha _ hin
      have := hj.newer x hx
      omega
  rw [supersededByID_markRow, id_markRow]
  split
  · rename_i hin
    refine iff_of_false (fun heq => ?_) fun hin' => ?_
    · omega
    have := (h.linked a ha b' hb').mpr hin'
    have := (hj.previous_of_mem hb' hin).1
    omega
  · exact h.linked a ha b' hb'

theorem named (h : Trail s) (hj : Joined s r now t) :
    ∀ a ∈ t.rows, ∀ id ∈ a.supersedesIDs, ∃ b ∈ t.rows, b.id = id := by
  intro a ha id hin
  rcases hj.mem.mp ha with rfl | ⟨a', ha', rfl⟩
  · obtain ⟨old, hold, hid, -⟩ := hj.previous id hin
    exact ⟨_, hj.old_mem hold, (id_markRow old).trans hid⟩
  · rw [supersedesIDs_markRow] at hin
    obtain ⟨x, hx, hxid⟩ := h.named a' ha' id hin
    exact ⟨_, hj.old_mem hx, (id_markRow x).trans hxid⟩

theorem successor (h : Trail s) (hj : Joined s r now t) :
    ∀ b ∈ t.rows, b.supersededByID ≠ 0 → ∃ a ∈ t.rows, a.id = b.supersededByID ∧
      b.id < a.id ∧ b.kind = a.kind ∧ b.periodStart = a.periodStart ∧ b.periodEnd = a.periodEnd := by
  intro b hb hne
  rcases hj.mem.mp hb with rfl | ⟨b', hb', rfl⟩
  · exact absurd hj.last hne
  obtain ⟨hkind, hstart, hend⟩ :
      (markRow r.supersedesIDs r.id now b').kind = b'.kind ∧ _ ∧ _ := period_markRow b'
  rw [supersededByID_markRow] at hne ⊢
  rw [id_markRow, hkind, hstart, hend]
  split
  · rename_i hin
    exact ⟨r, hj.mem.mpr (.inl rfl), rfl, hj.newer b' hb', (hj.previous_of_mem hb' hin).2⟩
  rename_i hin
  rw [if_neg hin] at hne
  obtain ⟨x, hx, hxid, hlt, hk, hs, he⟩ := h.successor b' hb' hne
  obtain ⟨hk', hs', he'⟩ :
      (markRow r.supersedesIDs r.id now x).kind = x.kind ∧ _ ∧ _ := period_markRow x
  refine ⟨_, hj.old_mem hx, (id_markRow x).trans hxid, ?_, hk.trans hk'.symm, hs.trans hs'.symm,
    he.trans he'.symm⟩
  rw [id_markRow]
  exact hlt

/-- A document that replaces others joins the trail, and they are marked. -/
theorem trail (h : Trail s) (hj : Joined s r now t) : Trail t where
  positive x hx := by
    rcases hj.mem.mp hx with rfl | ⟨y, hy, rfl⟩
    · exact hj.positive
    · rw [id_markRow]
      exact h.positive y hy
  superseded := hj.superseded_iff h
  linked a ha := by
    rcases hj.mem.mp ha with rfl | ⟨a', ha', rfl⟩
    · exact hj.linked_new h
    · rw [id_markRow, supersedesIDs_markRow]
      exact hj.linked_old h ha'
  named := hj.named h
  successor := hj.successor h

end Joined

/-- A document that replaces none joins the trail: no row is marked. -/
theorem Trail.create (h : Trail s) (hins : s.insert? r = some s') (hid : r.id = s.nextId)
    (hstatus : r.status ≠ .superseded) (hby : r.supersededByID = 0) (hnone : r.supersedesIDs = []) :
    Trail s' := by
  have hr := (joined_of_insert? h hins hid hstatus hby (by simp [hnone]) 0).trail h
  rwa [markSuperseded, update_eq_self (by simp [hnone])] at hr

/-- An edit leaves every link as it is. -/
theorem Trail.edit (h : Trail s) (e : SettlementEdit) (now : Int)
    (hstatus : e.status ≠ .superseded) : Trail (updateUnlessSuperseded e now s).2 := by
  let edited (r : Settlement) : Settlement :=
    if r.id = e.id ∧ r.status ≠ .superseded then e.apply now r else r
  have hmem : ∀ {x}, x ∈ (updateUnlessSuperseded e now s).2.rows ↔ ∃ r ∈ s.rows, x = edited r := by
    intro x
    unfold updateUnlessSuperseded
    rw [mem_update]
    simp only [decide_eq_true_eq, edited]
  have hsame : ∀ r, (edited r).id = r.id ∧ (edited r).supersedesIDs = r.supersedesIDs ∧
      (edited r).supersededByID = r.supersededByID ∧ (edited r).kind = r.kind ∧
      (edited r).periodStart = r.periodStart ∧ (edited r).periodEnd = r.periodEnd ∧
      ((edited r).status = .superseded ↔ r.status = .superseded) := by
    intro r
    by_cases hr : r.id = e.id ∧ r.status ≠ .superseded
    · simp only [edited, if_pos hr]
      exact ⟨rfl, rfl, rfl, rfl, rfl, rfl, iff_of_false hstatus hr.2⟩
    · simp only [edited, if_neg hr, and_self]
  constructor
  · intro x hx
    obtain ⟨r, hr, rfl⟩ := hmem.mp hx
    rw [(hsame r).1]
    exact h.positive r hr
  · intro x hx
    obtain ⟨r, hr, rfl⟩ := hmem.mp hx
    obtain ⟨-, -, hby, -, -, -, hs⟩ := hsame r
    rw [hs, hby]
    exact h.superseded r hr
  · intro a ha b hb
    obtain ⟨a', ha', rfl⟩ := hmem.mp ha
    obtain ⟨b', hb', rfl⟩ := hmem.mp hb
    rw [(hsame b').2.2.1, (hsame a').1, (hsame b').1, (hsame a').2.1]
    exact h.linked a' ha' b' hb'
  · intro a ha id hin
    obtain ⟨a', ha', rfl⟩ := hmem.mp ha
    rw [(hsame a').2.1] at hin
    obtain ⟨b, hb, hbid⟩ := h.named a' ha' id hin
    exact ⟨_, hmem.mpr ⟨b, hb, rfl⟩, (hsame b).1.trans hbid⟩
  · intro b hb hne
    obtain ⟨b', hb', rfl⟩ := hmem.mp hb
    obtain ⟨hid, -, hby, hkind, hstart, hend, -⟩ := hsame b'
    rw [hby] at hne
    obtain ⟨a, ha, haid, hlt, hk, hs, he⟩ := h.successor b' hb' hne
    obtain ⟨hid', -, -, hk', hs', he', -⟩ := hsame a
    refine ⟨_, hmem.mpr ⟨a, ha, rfl⟩, ?_⟩
    rw [hid, hby, hkind, hstart, hend, hid', hk', hs', he']
    exact ⟨haid, hlt, hk, hs, he⟩

/-- **Every step keeps the trail.** -/
theorem DocumentMove.trail (hmove : DocumentMove s s') (h : Trail s) : Trail s' := by
  cases hmove with
  | none => exact h
  | create d revision now status hstatus hfresh hins => exact h.create hins rfl hstatus rfl rfl
  | replace d ids revision now hids hpos hprevious hfresh hins =>
    exact (joined_of_insert? h hins rfl nofun rfl hprevious now).trail h
  | edit e now hstatus => exact h.edit e now hstatus

end Steps

/-! ### Runs -/

/-- The functions that write documents, with the statuses that the controller lets through. -/
inductive DocumentCall where
  | create (d : { d : NewSettlement // d.status.valid = true }) (now : Int) (commits : Bool)
  | createNext (d : { d : NewSettlement // d.status.valid = true }) (now : Int) (commits : Bool)
  | replace (d : NewSettlement) (supersededIDs : List Int) (now : Int) (commits : Bool)
  | update (e : { e : SettlementEdit // e.status.valid = true }) (now : Int)

def DocumentCall.prog : DocumentCall → SettlementProg (Except SettlementError Settlement)
  | create d now commits => createSettlement d.1 now commits
  | createNext d now commits => createNextSettlementRevision d.1 now commits
  | replace d supersededIDs now commits => replaceCustomerSettlements d supersededIDs now commits
  | update e now => updateSettlementCounterparty e.1 now

theorem DocumentCall.within (c : DocumentCall) : c.prog.Within DocumentMove := by
  cases c with
  | create d =>
    exact within_transact (fun _ => .none) fun _ _ _ h => createSettlementTx_ok d.2 h
  | createNext d =>
    exact within_transact (fun _ => .none)
      (fun _ _ _ h => createNextSettlementRevisionTx_ok d.2 h)
  | replace =>
    exact within_transact (fun _ => .none) fun _ _ _ h => replaceCustomerSettlementsTx_move h
  | update e now =>
    refine within_updateSettlementCounterparty e.1 (fun hs => ?_) now
    have hvalid := e.2
    rw [hs] at hvalid
    cases hvalid

theorem kept_of_moves (h : Relation.ReflTransGen DocumentMove s s') : Kept s s' := by
  induction h with
  | refl => exact .refl s
  | tail _ hmove ih => exact ih.trans hmove.kept

theorem trail_of_moves (h : Relation.ReflTransGen DocumentMove s s') (hs : Trail s) :
    Trail s' := by
  induction h with
  | refl => exact hs
  | tail _ hmove ih => exact hmove.trail ih

/-! ### Following the links -/

/-- `a` is the document that `b` points to. -/
def Succeeds (s : SettlementDb) (b a : Settlement) : Prop :=
  b ∈ s.rows ∧ a ∈ s.rows ∧ b.supersededByID = a.id

section Links

variable {s : SettlementDb}

/-- **Following the successors ends** at a document that is not superseded. -/
theorem Trail.exists_last (h : Trail s) : ∀ r ∈ s.rows, ∃ last ∈ s.rows,
    last.status ≠ .superseded ∧ Relation.ReflTransGen (Succeeds s) r last := by
  -- ids grow along the links and stay below the next one
  have key : ∀ n : Nat, ∀ r ∈ s.rows, (s.nextId - r.id).toNat = n → ∃ last ∈ s.rows,
      last.status ≠ .superseded ∧ Relation.ReflTransGen (Succeeds s) r last := by
    intro n
    induction n using Nat.strongRecOn with
    | ind n ih =>
      intro r hr hn
      by_cases hs : r.status = .superseded
      · obtain ⟨a, ha, haid, hlt, -⟩ := h.successor r hr ((h.superseded r hr).mp hs)
        have := s.lt_nextId ha
        obtain ⟨last, hlast, hstatus, hpath⟩ := ih _ (by omega) a ha rfl
        exact ⟨last, hlast, hstatus, .head ⟨hr, ha, haid.symm⟩ hpath⟩
      · exact ⟨r, hr, hs, .refl⟩
  exact fun r hr => key _ r hr rfl

/-- A successor is of the same kind and period. -/
theorem Trail.same_period (h : Trail s) {b a : Settlement} (hba : Succeeds s b a) :
    b.kind = a.kind ∧ b.periodStart = a.periodStart ∧ b.periodEnd = a.periodEnd := by
  obtain ⟨hb, ha, hid⟩ := hba
  have hpos := h.positive a ha
  obtain ⟨a', ha', hid', -, hrest⟩ := h.successor b hb (by omega)
  obtain rfl : a' = a := s.eq_of_key_eq ha' ha (hid'.trans hid)
  exact hrest

end Links

def byID (saved : List Settlement) (id : Int) : Option Settlement :=
  saved.find? fun r => decide (r.id = id)

def settlementPredecessors (current : Settlement) (saved : List Settlement) : List Settlement :=
  Walk.collect (byID saved) Settlement.supersedesIDs saved.length current.supersedesIDs

section Predecessors

variable {s : SettlementDb} {last : Settlement} {saved : List Settlement}

theorem byID_eq_some_iff (hsaved : ∀ x ∈ saved, x ∈ s.rows) {id : Int} :
    byID saved id = some r ↔ r ∈ saved ∧ r.id = id := by
  unfold byID
  constructor
  · intro h
    exact ⟨mem_of_find?_eq_some h, by simpa using find?_some h⟩
  rintro ⟨hmem, rfl⟩
  cases hfind : saved.find? (fun x => decide (x.id = r.id)) with
  | none => simpa using find?_eq_none.mp hfind r hmem
  | some x =>
    have hid : x.id = r.id := by simpa using find?_some hfind
    exact congrArg some (s.eq_of_key_eq (hsaved x (mem_of_find?_eq_some hfind))
      (hsaved r hmem) hid)

variable (hall : ∀ x ∈ s.rows, x.kind = last.kind → x.periodStart = last.periodStart →
  x.periodEnd = last.periodEnd → x ∈ saved)

include hall

/-- The documents that lead to `last` are of its period. -/
theorem Trail.mem_saved (h : Trail s) {x : Settlement}
    (hx : Relation.TransGen (Succeeds s) x last) : x ∈ saved := by
  have hsame : x ∈ s.rows ∧ x.kind = last.kind ∧ x.periodStart = last.periodStart ∧
      x.periodEnd = last.periodEnd := by
    induction hx using Relation.TransGen.head_induction_on with
    | single hx => exact ⟨hx.1, h.same_period hx⟩
    | head hxy _ ih =>
      obtain ⟨hk, hs, he⟩ := h.same_period hxy
      exact ⟨hxy.1, hk.trans ih.2.1, hs.trans ih.2.2.1, he.trans ih.2.2.2⟩
  exact hall x hsame.1 hsame.2.1 hsame.2.2.1 hsame.2.2.2

/-- The keys that the walk reaches are the ids of the documents that lead to `last`. -/
theorem Trail.leads_iff (h : Trail s) (hlast : last ∈ s.rows) (hsaved : ∀ x ∈ saved, x ∈ s.rows)
    (id : Int) :
    Walk.Leads (byID saved) Settlement.supersedesIDs last.supersedesIDs id ↔
      ∃ x ∈ saved, x.id = id ∧ Relation.TransGen (Succeeds s) x last := by
  constructor
  · intro hleads
    induction hleads with
    | start hk =>
      obtain ⟨b, hb, rfl⟩ := h.named last hlast _ hk
      have hlink : Succeeds s b last := ⟨hb, hlast, (h.linked last hlast b hb).mpr hk⟩
      exact ⟨b, h.mem_saved hall (.single hlink), rfl, .single hlink⟩
    | @step k k' a _ hnode hk' ih =>
      obtain ⟨x, hx, hxid, hpath⟩ := ih
      obtain ⟨ha, haid⟩ := (byID_eq_some_iff hsaved).mp hnode
      obtain rfl : a = x := s.eq_of_key_eq (hsaved a ha) (hsaved x hx) (haid.trans hxid.symm)
      obtain ⟨b, hb, rfl⟩ := h.named a (hsaved a ha) _ hk'
      have hlink : Succeeds s b a := ⟨hb, hsaved a ha, (h.linked a (hsaved a ha) b hb).mpr hk'⟩
      exact ⟨b, h.mem_saved hall (.head hlink hpath), rfl, .head hlink hpath⟩
  · rintro ⟨x, hx, rfl, hpath⟩
    induction hpath using Relation.TransGen.head_induction_on with
    | single hlink => exact .start ((h.linked last hlast _ hlink.1).mp hlink.2.2)
    | @head x y hlink hrest ih =>
      have hy := h.mem_saved hall hrest
      exact .step (ih hy) ((byID_eq_some_iff hsaved).mpr ⟨hy, rfl⟩)
        ((h.linked y hlink.2.1 x hlink.1).mp hlink.2.2)

/-- **The predecessors of a document** are the documents that lead to it, each once. -/
theorem Trail.predecessors (h : Trail s) (hlast : last ∈ s.rows)
    (hsaved : ∀ x ∈ saved, x ∈ s.rows) :
    (settlementPredecessors last saved).Nodup ∧
      ∀ x, x ∈ settlementPredecessors last saved ↔ Relation.TransGen (Succeeds s) x last := by
  have hknown : ∀ id r, byID saved id = some r → id ∈ saved.map Settlement.id := by
    intro id r hr
    obtain ⟨hmem, rfl⟩ := (byID_eq_some_iff hsaved).mp hr
    exact mem_map_of_mem hmem
  obtain ⟨keys, hnd, hcollect, hkeys⟩ : ∃ keys : List Int, keys.Nodup ∧
      Walk.collect (byID saved) Settlement.supersedesIDs (saved.map Settlement.id).length
        last.supersedesIDs = keys.filterMap (byID saved) ∧
      ∀ id, id ∈ keys ↔ Walk.Leads (byID saved) Settlement.supersedesIDs last.supersedesIDs id ∧
        (byID saved id).isSome = true := Walk.collect_spec hknown last.supersedesIDs
  rw [length_map] at hcollect
  unfold settlementPredecessors
  rw [hcollect]
  refine ⟨hnd.filterMap (fun id id' r hr hr' => ?_), fun x => ?_⟩
  · exact ((byID_eq_some_iff hsaved).mp hr).2.symm.trans ((byID_eq_some_iff hsaved).mp hr').2
  rw [mem_filterMap]
  constructor
  · rintro ⟨id, hid, hx⟩
    obtain ⟨hleads, -⟩ := (hkeys id).mp hid
    obtain ⟨y, hy, hyid, hpath⟩ := (h.leads_iff hall hlast hsaved id).mp hleads
    obtain ⟨hxs, hxid⟩ := (byID_eq_some_iff hsaved).mp hx
    rwa [s.eq_of_key_eq (hsaved x hxs) (hsaved y hy) (hxid.trans hyid.symm)]
  intro hpath
  have hx := h.mem_saved hall hpath
  have hnode := (byID_eq_some_iff hsaved).mpr ⟨hx, rfl⟩
  exact ⟨x.id, (hkeys x.id).mpr ⟨(h.leads_iff hall hlast hsaved x.id).mpr ⟨x, hx, rfl, hpath⟩,
    by rw [hnode]; rfl⟩, hnode⟩

end Predecessors

/-- **The audit trail**, in every interleaving of any calls: what was issued never changes, the
links agree, and from every document they lead to one that is not superseded and whose predecessors
are those that lead to it. -/
theorem audit_trail {s₀ : SettlementDb} (h₀ : Trail s₀)
    {p : Pool DocumentCall SettlementDb (Except SettlementError Settlement)}
    (hr : Pool.Reach DocumentCall.prog (Pool.start s₀) p) :
    (∀ p', Pool.Reach DocumentCall.prog p p' → Kept p.state p'.state) ∧ Trail p.state ∧
    ∀ r ∈ p.state.rows, ∃ last ∈ p.state.rows, last.status ≠ .superseded ∧
      Relation.ReflTransGen (Succeeds p.state) r last ∧
      ∀ saved : List Settlement, (∀ x ∈ saved, x ∈ p.state.rows) →
        (∀ x ∈ p.state.rows, x.kind = last.kind → x.periodStart = last.periodStart →
          x.periodEnd = last.periodEnd → x ∈ saved) →
        (settlementPredecessors last saved).Nodup ∧
          ∀ x, x ∈ settlementPredecessors last saved ↔
            Relation.TransGen (Succeeds p.state) x last := by
  obtain ⟨hwithin, hmoves⟩ := reach_within (R := fun _ => DocumentMove) DocumentCall.within hr
    (within_start _ s₀)
  have hmove : ∀ s s' : SettlementDb, (∃ _ : DocumentCall, True ∧ DocumentMove s s') →
      DocumentMove s s' := by
    rintro s s' ⟨_, -, h⟩
    exact h
  have htrail : Trail p.state := trail_of_moves (Relation.ReflTransGen.mono hmove _ _ hmoves) h₀
  refine ⟨fun p' hr' => ?_, htrail, fun r hrow => ?_⟩
  · obtain ⟨-, hmoves'⟩ := reach_within (R := fun _ => DocumentMove) DocumentCall.within hr'
      hwithin
    exact kept_of_moves (Relation.ReflTransGen.mono hmove _ _ hmoves')
  · obtain ⟨last, hlast, hstatus, hpath⟩ := htrail.exists_last r hrow
    exact ⟨last, hlast, hstatus, hpath, fun saved hsaved hall =>
      htrail.predecessors hall hlast hsaved⟩

theorem trail_empty : Trail Table.empty := by
  constructor <;> exact fun _ h => absurd h not_mem_nil

/-- A document for `acme` of a month. -/
def acmeDocument : NewSettlement :=
  ⟨.customer, "pricing-group:acme", "acme", "2026-09-01", "2026-09-30", 0, "wrong rate", true, 12, 0,
    false, .blank, "", none, "2026-09-01"⟩

def correctedTwice : List (Pool.Move DocumentCall) :=
  [.call (.createNext ⟨acmeDocument, rfl⟩ 10 true), .run 0, .call (.replace acmeDocument [1] 20 true),
    .run 0, .call (.replace acmeDocument [2] 30 true), .run 0,
    .call (.update ⟨⟨3, 0, false, .settled, "paid"⟩, rfl⟩ 40), .run 0, .run 0, .run 0]

theorem audit_trail_corrected :
    let p := play DocumentCall.prog correctedTwice (start empty)
    (p.state.rows.map (fun r => (r.id, r.status, r.supersededByID)) =
      [(1, .superseded, 2), (2, .superseded, 3), (3, .settled, 0)] ∧
    (p.state.rows.map fun r => (settlementPredecessors r p.state.rows).map Settlement.id) =
      [[], [1], [2, 1]]) ∧ Trail p.state :=
  ⟨by decide +kernel, (audit_trail trail_empty (reach_play _ _ _)).2.1⟩

end UnifyConsole.Invoice
