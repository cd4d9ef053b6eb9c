import Mathlib
import UnifyConsole.Lib.Watch
import UnifyConsole.Invoice.Covered

/-!
# One active invoice

A customer is to have one active invoice for a month.  `IssueSettlement` looks the documents
of the month up before it writes, in a transaction of its own, and `UpdateSettlement` writes
any status over any other but a superseded document's; so two requests may both find nothing,
and a voided invoice may be made active again after another has taken its place.

`one_active` says in which runs this does not happen: when a request writes, the active
documents of its customer and month are among those it has read, and no active document of
the month is filed under the bare name of the customer's group; and an edit that leaves a
document active finds it active, or finds no other active document.
-/

namespace UnifyConsole.Invoice

open Lib
open Prog Table History Watch

/-! ### `UpdateSettlement` -/

structure UpdateRequest where
  invoicedUSD : ℚ
  invoiceRecorded : Bool
  status : SettlementStatus
  note : String

inductive UpdateError where
  | unknownStatus
  | notFound
  | settlement (e : SettlementError)
deriving DecidableEq

/-- The document as the request wants it; a status that is left out stays as it was read. -/
def UpdateRequest.edit (req : UpdateRequest) (existing : Settlement) : SettlementEdit :=
  ⟨existing.id, req.invoicedUSD, req.invoiceRecorded,
    if req.status = .blank then existing.status else req.status, req.note⟩

def updateSettlement (id : Int) (req : UpdateRequest) (now : Int) :
    SettlementProg (Except UpdateError Settlement) :=
  if req.status.valid = false then pure (.error .unknownStatus)
  else do
    let existing ← Prog.look (getSettlement id)
    match existing with
    | .error _ => pure (.error .notFound)
    | .ok existing => do
      let saved ← updateSettlementCounterparty (req.edit existing) now
      pure (saved.mapError .settlement)

/-! ### The calls and the condition -/

inductive OfficeCall where
  | issue (req : IssueRequest) (ctx : IssueContext)
  | update (id : Int) (req : UpdateRequest) (now : Int)

def OfficeCall.prog (cfg : Config) : OfficeCall → SettlementProg Bool
  | .issue req ctx => do
    let saved ← issueSettlement cfg req ctx
    pure saved.isOk
  | .update id req now => do
    let saved ← updateSettlement id req now
    pure saved.isOk

def IssueRequest.key (req : IssueRequest) : StatementKind × String × String × String :=
  (req.kind, req.counterparty, req.periodStart, req.periodEnd)

/-- `past` shows the active documents of the request's customer and month that there are now, and
none filed under the bare name of a group with the customer's key. -/
def IssueRequest.Informed (cfg : Config) (req : IssueRequest) (past now : SettlementDb) : Prop :=
  (∀ d ∈ now.rows, d.isActive = true → d.key = req.key →
    ∃ d₀ ∈ listSettlements past .customer req.periodStart req.periodEnd 0,
      d₀.id = d.id ∧ d₀.counterparty = d.counterparty ∧ d₀.isActive = true) ∧
  ∀ t ∈ listSettlements past .customer req.periodStart req.periodEnd 0, t.isActive = true →
    ∀ issued ∈ t.statement, t.counterparty = issued.group →
      customerPricingGroupKey cfg issued.group = req.counterparty →
      t.counterparty = req.counterparty

/-- An edit that leaves a document active finds it active, or no other of its customer and month. -/
def UpdateRequest.Harmless (req : UpdateRequest) (id : Int) (past now : SettlementDb) : Prop :=
  ∀ existing ∈ past.find? id, ∀ d ∈ now.find? id,
    (req.edit existing).status = .issued ∨ (req.edit existing).status = .settled →
    d.isActive = true ∨ ∀ b ∈ now.rows, b.key = d.key → b.isActive = true → b.id = d.id

/-- The condition on a step: a request writes in its second, an edit in its third. -/
def Careful (cfg : Config) : OfficeCall → List SettlementDb → SettlementDb → Prop
  | .issue req _, [past], now => req.kind = .customer → req.Informed cfg past now
  | .update id req _, [_, past], now => req.Harmless id past now
  | _, _, _ => True

instance (cfg : Config) (req : IssueRequest) (past now : SettlementDb) :
    Decidable (req.Informed cfg past now) :=
  inferInstanceAs (Decidable (_ ∧ _))

instance (req : UpdateRequest) (id : Int) (past now : SettlementDb) :
    Decidable (req.Harmless id past now) :=
  inferInstanceAs (Decidable (∀ existing ∈ past.find? id, ∀ d ∈ now.find? id, _))

instance (cfg : Config) :
    ∀ (c : OfficeCall) (seen : List SettlementDb) (now : SettlementDb),
      Decidable (Careful cfg c seen now)
  | .issue req _, [past], now =>
    inferInstanceAs (Decidable (req.kind = .customer → req.Informed cfg past now))
  | .update id req _, [_, past], now => inferInstanceAs (Decidable (req.Harmless id past now))
  | .issue _ _, [], _ => isTrue trivial
  | .issue _ _, _ :: _ :: _, _ => isTrue trivial
  | .update _ _ _, [], _ => isTrue trivial
  | .update _ _ _, [_], _ => isTrue trivial
  | .update _ _ _, _ :: _ :: _ :: _, _ => isTrue trivial

/-! ### The invariant -/

/-- At most one document of a customer and a month is active. -/
def OneActive (s : SettlementDb) : Prop :=
  ∀ a ∈ s.rows, ∀ b ∈ s.rows, a.kind = .customer → a.key = b.key → a.isActive = true →
    b.isActive = true → a = b

instance (s : SettlementDb) : Decidable (OneActive s) :=
  inferInstanceAs (Decidable (∀ a ∈ s.rows, ∀ b ∈ s.rows, _ → _ → _ → _ → a = b))

/-- The invariant: ids are positive, and no two documents of a customer and a month are
active. -/
structure Orderly (s : SettlementDb) : Prop where
  positive : ∀ r ∈ s.rows, 0 < r.id
  single : OneActive s

theorem orderly_empty : Orderly Table.empty :=
  ⟨fun _ => nofun, fun _ => nofun⟩

section Steps

variable {s s' : SettlementDb}

/-- Documents that are marked are not active, and the others stay as they are. -/
theorem mem_markSuperseded_active {ids : List Int} {successor now : Int} {x : Settlement}
    (hx : x ∈ (markSuperseded s ids successor now).rows) (hactive : x.isActive = true) :
    x ∈ s.rows ∧ x.id ∉ ids := by
  obtain ⟨y, hy, rfl⟩ := mem_update.mp hx
  split at hactive
  · cases hactive
  · rename_i hno
    rw [if_neg hno]
    exact ⟨hy, by simpa using hno⟩

/-- The active documents of the key are replaced by a new one. -/
theorem Orderly.replace (h : Orderly s) {r : Settlement} {ids : List Int}
    (hins : s.insert? r = some s') (hid : r.id = s.nextId)
    (hall : r.kind = .customer → r.isActive = true →
      ∀ x ∈ s.rows, x.key = r.key → x.isActive = true → x.id ∈ ids) (successor now : Int) :
    Orderly (markSuperseded s' ids successor now) := by
  have hmem : ∀ {x}, x ∈ s'.rows ↔ x ∈ s.rows ∨ x = r := mem_insert? hins
  constructor
  · intro x hx
    obtain ⟨y, hy, rfl⟩ := mem_update.mp hx
    have hy' : 0 < y.id := by
      rcases hmem.mp hy with hy | rfl
      · exact h.positive y hy
      · rw [hid]
        exact s.nextId_pos
    split <;> exact hy'
  intro a ha b hb hkind hkey hactive hactive'
  obtain ⟨ha, haids⟩ := mem_markSuperseded_active ha hactive
  obtain ⟨hb, hbids⟩ := mem_markSuperseded_active hb hactive'
  rcases hmem.mp ha with ha | rfl
  · rcases hmem.mp hb with hb | rfl
    · exact h.single a ha b hb hkind hkey hactive hactive'
    · have hbkind : b.kind = .customer := (congrArg Prod.fst hkey).symm.trans hkind
      exact absurd (hall hbkind hactive' a ha hkey hactive) haids
  · rcases hmem.mp hb with hb | rfl
    · exact absurd (hall hkind hactive b hb hkey.symm hactive') hbids
    · rfl

/-- A document whose key has no active document, or that is not active itself. -/
theorem Orderly.create (h : Orderly s) {r : Settlement} (hins : s.insert? r = some s')
    (hid : r.id = s.nextId)
    (hfree : r.kind = .customer → r.isActive = true →
      ∀ x ∈ s.rows, x.key = r.key → x.isActive = false) : Orderly s' := by
  have hr : Orderly (markSuperseded s' [] 0 0) :=
    h.replace hins hid (fun hk ha x hx hkey hact => by simp [hfree hk ha x hx hkey] at hact) 0 0
  rwa [markSuperseded, update_eq_self (by simp)] at hr

/-- An edit that leaves its document active only where no other is. -/
theorem Orderly.edit (h : Orderly s) (e : SettlementEdit) (now : Int)
    (hedit : ∀ d ∈ s.find? e.id, e.status = .issued ∨ e.status = .settled →
      d.isActive = true ∨ ∀ b ∈ s.rows, b.key = d.key → b.isActive = true → b.id = d.id) :
    Orderly (updateUnlessSuperseded e now s).2 := by
  let edited (r : Settlement) : Settlement :=
    if r.id = e.id ∧ r.status ≠ .superseded then e.apply now r else r
  have hmem : ∀ {x}, x ∈ (updateUnlessSuperseded e now s).2.rows ↔ ∃ r ∈ s.rows, x = edited r := by
    intro x
    unfold updateUnlessSuperseded
    rw [mem_update]
    simp only [decide_eq_true_eq, edited]
  have hsame : ∀ r, (edited r).id = r.id ∧ (edited r).key = r.key := by
    intro r
    simp only [edited]
    split <;> exact ⟨rfl, rfl⟩
  -- a document that is active afterwards was active, or is the edited one and alone
  have hactive : ∀ r ∈ s.rows, (edited r).isActive = true → r.isActive = true ∨
      r.id = e.id ∧ ∀ b ∈ s.rows, b.key = r.key → b.isActive = true → b.id = r.id := by
    intro r hr hact
    by_cases hcond : r.id = e.id ∧ r.status ≠ .superseded
    · simp only [edited, if_pos hcond] at hact
      have hstatus : e.status = .issued ∨ e.status = .settled := Settlement.isActive_iff.mp hact
      rcases hedit r (find?_eq_some_iff.mpr ⟨hr, hcond.1⟩) hstatus with hold | halone
      · exact .inl hold
      · exact .inr ⟨hcond.1, halone⟩
    · simp only [edited, if_neg hcond] at hact
      exact .inl hact
  constructor
  · intro x hx
    obtain ⟨r, hr, rfl⟩ := hmem.mp hx
    rw [(hsame r).1]
    exact h.positive r hr
  intro a ha b hb hkind hkey hact hact'
  obtain ⟨ra, hra, rfl⟩ := hmem.mp ha
  obtain ⟨rb, hrb, rfl⟩ := hmem.mp hb
  rw [(hsame ra).2, (hsame rb).2] at hkey
  have hkind' : ra.kind = .customer := by
    have : (edited ra).kind = ra.kind := congrArg Prod.fst (hsame ra).2
    rw [← this]
    exact hkind
  have heq : ra = rb := by
    rcases hactive ra hra hact with holda | ⟨hida, halonea⟩
    · rcases hactive rb hrb hact' with holdb | ⟨-, haloneb⟩
      · exact h.single ra hra rb hrb hkind' hkey holda holdb
      · exact s.eq_of_key_eq hra hrb (haloneb ra hra hkey holda)
    · rcases hactive rb hrb hact' with holdb | ⟨hidb, -⟩
      · exact s.eq_of_key_eq hra hrb (halonea rb hrb hkey.symm holdb).symm
      · exact s.eq_of_key_eq hra hrb (hida.trans hidb.symm)
  rw [heq]

end Steps

/-! ### The steps of the calls -/

section Issue

variable {cfg : Config} {req : IssueRequest} {ctx : IssueContext} {past now : SettlementDb}
  {ids : List Int}

/-- The history that a customer's request was let through by. -/
theorem history_of_replaced (h : req.replaced cfg ctx
      (listSettlements past .customer req.periodStart req.periodEnd 0) = .ok ids) :
    ∃ history, (listSettlements past .customer req.periodStart req.periodEnd 0).foldlM
      (enter cfg (historyIndex cfg
        (statementsForWindow cfg .customer ctx.window req.periodStart req.periodEnd)
        ctx.window.usage)) .empty = some history ∧ history.allows req = .ok ids := by
  unfold IssueRequest.replaced at h
  split at h
  · cases h
  · rename_i history hindex
    exact ⟨history, hindex, h⟩

variable (hcur : (statementsForWindow cfg .customer ctx.window req.periodStart
  req.periodEnd).find? req.counterparty ≠ none) (hinformed : req.Informed cfg past now)

include hcur hinformed

/-- An active document of the customer and month was read, and the key has a document. -/
theorem read_of_informed {history : History}
    (hindex : (listSettlements past .customer req.periodStart req.periodEnd 0).foldlM
      (enter cfg (historyIndex cfg
        (statementsForWindow cfg .customer ctx.window req.periodStart req.periodEnd)
        ctx.window.usage)) .empty = some history)
    {d : Settlement} (hd : d ∈ now.rows) (hkey : d.key = req.key) (hactive : d.isActive = true) :
    ∃ d₀ ∈ listSettlements past .customer req.periodStart req.periodEnd 0, d₀.id = d.id ∧
      d₀.counterparty = req.counterparty ∧ d₀.isActive = true ∧
      (get? history.primary req.counterparty).isSome = true := by
  obtain ⟨d₀, hmem, hid, hparty, hactive₀⟩ := hinformed.1 d hd hactive hkey
  have hcounterparty : d₀.counterparty = req.counterparty :=
    hparty.trans (congrArg (fun k => k.2.1) hkey)
  have hkind₀ := (mem_ofPeriod.mp (mem_of_mem_listSettlements hmem)).2.1
  have hcur₀ : (historyIndex cfg (statementsForWindow cfg .customer ctx.window req.periodStart
      req.periodEnd) ctx.window.usage).current d₀.counterparty = true := by
    rw [hcounterparty]
    exact Option.isSome_iff_ne_none.mpr hcur
  have hsome := isSome_primary_of_mem hkind₀ hactive₀ hcur₀ hmem hindex
  rw [hcounterparty] at hsome
  exact ⟨d₀, hmem, hid, hcounterparty, hactive₀, hsome⟩

/-- **A request that replaces nothing writes where nothing is active.** -/
theorem inactive_of_informed (hplain : req.replaceExisting = false)
    (h : req.replaced cfg ctx
      (listSettlements past .customer req.periodStart req.periodEnd 0) = .ok ids) :
    ∀ d ∈ now.rows, d.key = req.key → d.isActive = false := by
  intro d hd hkey
  by_contra hactive
  rw [Bool.not_eq_false] at hactive
  obtain ⟨history, hindex, hallows⟩ := history_of_replaced h
  obtain ⟨-, -, -, -, -, hsome⟩ := read_of_informed hcur hinformed hindex hd hkey hactive
  exact (allows_iff hplain).mp ⟨ids, hallows⟩ (.inl hsome)

/-- **A request that replaces names every active document of its customer and month.** -/
theorem mem_replaced_of_informed (hreplace : req.replaceExisting = true) (hpast : Orderly past)
    (h : req.replaced cfg ctx
      (listSettlements past .customer req.periodStart req.periodEnd 0) = .ok ids) :
    ∀ d ∈ now.rows, d.key = req.key → d.isActive = true → d.id ∈ ids := by
  intro d hd hkey hactive
  obtain ⟨history, hindex, hallows⟩ := history_of_replaced h
  obtain ⟨d₀, hmem, hid, hcounterparty, hactive₀, hsome⟩ :=
    read_of_informed hcur hinformed hindex hd hkey hactive
  obtain ⟨hrow₀, hkind₀, hstart₀, hend₀⟩ := mem_ofPeriod.mp (mem_of_mem_listSettlements hmem)
  obtain ⟨x, hx⟩ := Option.isSome_iff_exists.mp hsome
  -- the document that was found under the key is the active one
  have heq : x = d₀ := by
    obtain ⟨hxmem, hxactive, hxkind, hxkey⟩ := primary_foldlM hindex hx
    have hxcounterparty : x.counterparty = req.counterparty := by
      rcases hxkey with ⟨-, hxparty⟩ | ⟨-, issued, hissued, hbare, -, hgroup⟩
      · exact hxparty
      · exact hinformed.2 x hxmem hxactive issued hissued hbare hgroup
    obtain ⟨hxrow, -, hxstart, hxend⟩ := mem_ofPeriod.mp (mem_of_mem_listSettlements hxmem)
    refine hpast.single x hxrow d₀ hrow₀ hxkind ?_ hxactive hactive₀
    simp only [Settlement.key, hxkind, hkind₀, hxcounterparty, hcounterparty, hxstart, hstart₀,
      hxend, hend₀]
  have hids : ids = history.replacementIDs req.counterparty := by
    unfold allows at hallows
    rw [if_pos hreplace] at hallows
    split at hallows
    · cases hallows
    split at hallows
    · cases hallows
    · exact (Except.ok.inj hallows).symm
  rw [hids, replacementIDs, hx, heq, ← hid]
  exact List.mem_append_left _ (by simp)

omit hcur hinformed

/-- The document of a request is under the request's key. -/
theorem key_document {found : Statement} (hparty : found.counterparty = req.counterparty)
    (date : String) : (req.document found date).key = req.key := by
  simp only [NewSettlement.key, IssueRequest.document, IssueRequest.key, hparty]

/-- The steps of a request. -/
theorem follows_issueSettlement (cfg : Config) (req : IssueRequest) (ctx : IssueContext) :
    Prog.Follows (Keeps (Careful cfg (.issue req ctx)) Orderly) (fun _ _ => True) []
      (issueSettlement cfg req ctx) := by
  unfold issueSettlement
  cases hchecked : req.checked cfg ctx with
  | error => exact trivial
  | ok found =>
    have hfound := IssueRequest.find?_of_checked hchecked
    have hparty : found.counterparty = req.counterparty := key_of_find? hfound
    dsimp only
    split
    · rename_i hkind
      refine follows_bind (follows_transact ?_ fun _ _ => trivial)
      intro s b s' hcreate _ _ h
      obtain ⟨revision, -, hins⟩ := createSettlementTx_created hcreate
      refine h.create hins rfl fun hcustomer => ?_
      have : req.kind = .customer := hcustomer
      rw [hkind] at this
      cases this
    rename_i hkind
    rw [hkind] at hfound
    refine follows_bind (follows_look fun past =>
      ⟨[past], keeps_same _ _, ?_⟩)
    cases hreplaced : req.replaced cfg ctx
        (listSettlements past .customer req.periodStart req.periodEnd 0) with
    | error e => exact trivial
    | ok ids =>
      dsimp only
      split
      · rename_i hreplace
        refine follows_bind (follows_transact ?_ fun _ _ => trivial)
        intro s b s' htx hok hseen h
        obtain ⟨-, revision, reason, s₁, -, -, hins, hs'⟩ := replaceCustomerSettlementsTx_ok htx
        dsimp only at hs'
        rw [hs']
        refine h.replace hins rfl (fun _ _ d hd hkey hactive => ?_) _ _
        have hmem := mem_replaced_of_informed (by rw [hfound]; simp) (hok hkind) hreplace
          (hseen past (by simp)) hreplaced d hd
          (hkey.trans (key_document hparty ctx.pricingSnapshotDate)) hactive
        exact mem_replacedIDs.mpr ⟨hmem, h.positive d hd⟩
      · rename_i hplain
        refine follows_bind (follows_transact ?_ fun _ _ => trivial)
        intro s b s' htx hok _ h
        obtain ⟨revision, -, hins⟩ := createNextSettlementRevisionTx_created htx
        refine h.create hins rfl fun _ _ d hd hkey => ?_
        exact inactive_of_informed (by rw [hfound]; simp) (hok hkind) (by simpa using hplain)
          hreplaced d hd (hkey.trans (key_document hparty ctx.pricingSnapshotDate))

end Issue

/-- The steps of an edit. -/
theorem follows_updateSettlement (cfg : Config) (id : Int) (req : UpdateRequest) (now : Int) :
    Prog.Follows (Keeps (Careful cfg (.update id req now)) Orderly) (fun _ _ => True) []
      (updateSettlement id req now) := by
  unfold updateSettlement
  split
  · exact trivial
  refine follows_bind (follows_look fun past => ⟨[past], keeps_same _ _, ?_⟩)
  cases hget : getSettlement id past with
  | error => exact trivial
  | ok existing =>
    have hexisting : past.find? id = some existing := by
      unfold getSettlement at hget
      split at hget
      · rename_i hfind
        cases hget
        exact hfind
      · cases hget
    have hid : existing.id = id := key_of_find? hexisting
    refine follows_bind ?_
    unfold updateSettlementCounterparty
    split
    · exact trivial
    refine follows_bind (follows_look fun middle =>
      ⟨[middle, past], keeps_same _ _, ?_⟩)
    cases getSettlement (req.edit existing).id middle with
    | error => exact trivial
    | ok =>
      dsimp only
      split
      · exact trivial
      refine follows_bind (follows_atomic fun s =>
        ⟨[s, middle, past], ⟨rfl, fun hok _ h => ?_⟩, ?_⟩)
      · refine h.edit (req.edit existing) now fun d hd => hok existing hexisting d ?_
        rw [← hid]
        exact hd
      · split
        · exact trivial
        · exact follows_look fun s₁ => ⟨_, keeps_same _ _, trivial⟩

/-! ### Every run -/

/-- **One active invoice.** Careful steps never lead to two active invoices of a customer for a
month. -/
theorem one_active (cfg : Config) (s : SettlementDb) (h : Orderly s)
    (w : Watch OfficeCall SettlementDb Bool)
    (hrun : ReachIf (OfficeCall.prog cfg) (Careful cfg) (Watch.start s) w) :
    OneActive w.state := by
  refine (reach_invariant (fun c => ?_) hrun h).single
  cases c with
  | issue req ctx =>
    exact follows_bind ((follows_issueSettlement cfg req ctx).mono fun _ _ _ => trivial)
  | update id req now =>
    exact follows_bind ((follows_updateSettlement cfg id req now).mono fun _ _ _ => trivial)

/-- Issue the statement of `acme` for March. -/
def issueAcme : OfficeCall := .issue (marchRequest "pricing-group:acme") (marchContext "acme")

/-- Issue it again, in the place of the invoice that is there. -/
def reissueAcme : OfficeCall :=
  .issue { marchRequest "pricing-group:acme" with
    replaceExisting := true
    replacementReason := "wrong price"
    replacementComplianceConfirmed := true } (marchContext "acme")

def setStatus (id : Int) (status : SettlementStatus) : OfficeCall :=
  .update id ⟨0, false, status, "by hand"⟩ 200

def reissuedRun : List (Pool.Move OfficeCall) :=
  [.call issueAcme, .run 0, .run 0, .call reissueAcme, .run 0, .run 0, .call (setStatus 2 .settled),
    .run 0, .run 0, .run 0, .run 0]

theorem one_active_reissued :
    (Watch.play (OfficeCall.prog plainConfig) reissuedRun (Watch.start Table.empty)).state.rows.map
      (fun r => (r.id, r.status)) = [(1, .superseded), (2, .settled)] ∧
    OneActive
      (Watch.play (OfficeCall.prog plainConfig) reissuedRun (Watch.start Table.empty)).state :=
  ⟨by decide +kernel, one_active plainConfig Table.empty orderly_empty _
    (reach_play_of _ _ reissuedRun _ (by decide +kernel))⟩

/-- Two administrators issue the same statement at the same time. -/
def bothRun : List (Pool.Move OfficeCall) :=
  [.call issueAcme, .call issueAcme, .run 0, .run 1, .run 0, .run 1]

def revivedRun : List (Pool.Move OfficeCall) :=
  [.call issueAcme, .run 0, .run 0, .call (setStatus 1 .void), .run 0, .run 0, .run 0, .run 0,
    .call issueAcme, .run 0, .run 0, .call (setStatus 1 .issued), .run 0, .run 0, .run 0, .run 0]

/-- **Two active invoices**: two requests at once, or one after the other with an edit. -/
theorem two_active_invoices :
    (∃ w, Reach (OfficeCall.prog plainConfig) (Watch.start Table.empty) w ∧
      w.calls.length = 2 ∧ ¬ OneActive w.state) ∧
    ∃ w, Reach (OfficeCall.prog plainConfig) (Watch.start Table.empty) w ∧
      (w.state.rows.map (fun r => (r.id, r.status)) = [(1, .issued), (2, .issued)]) ∧
      ¬ OneActive w.state :=
  ⟨⟨_, reach_play _ bothRun _, by decide +kernel, by decide +kernel⟩,
    ⟨_, reach_play _ revivedRun _, by decide +kernel, by decide +kernel⟩⟩

end UnifyConsole.Invoice
