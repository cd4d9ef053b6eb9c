import Mathlib
import UnifyConsole.Lib.Text
import UnifyConsole.Invoice.Document
import UnifyConsole.Invoice.Funding

/-!
# The history of a period

Before a customer's statement is issued, `indexCustomerSettlementHistory`
(`controller/settlement.go`) sorts the documents of the period: under the key of a statement
it puts the active document of that key (`primary`) and the active documents of older schemes
of keys that have usage of the statement (`legacy`), by login or by the bare name of a group.
`IssueSettlement` refuses a statement that has either, unless it is told to replace them.
-/

namespace UnifyConsole.Invoice

open Lib Lib.Text
open Account (User)
open Payment (TopUpScanRow)
open List

/-! ### The statements of a period -/

/-- What the other tables hold when a request is served. -/
structure Window where
  users : Table User.id
  usage : List UsageRow
  truncated : Bool
  receipts : List TopUpScanRow
  receiptsToDate : List TopUpScanRow

def statementsForWindow (cfg : Config) (kind : StatementKind) (w : Window)
    (periodStart periodEnd : String) : Statements :=
  match kind with
  | .customer =>
    attachFundingToDate cfg (fundedStatements cfg w.users w.usage w.receipts periodStart periodEnd)
      .customer (fetchCustomerFunding cfg w.users w.receiptsToDate)
  | .vendor => buildStatements cfg w.usage .vendor periodStart periodEnd

/-! ### Documents of a period -/

/-- The order of documents: latest period, highest revision, largest amount, highest id. -/
def Settlement.sortKey (r : Settlement) : String ×ₗ ℤ ×ₗ ℚ ×ₗ ℤ :=
  toLex (r.periodStart, toLex (r.revision, toLex (r.amountUSD, r.id)))

def listedBefore (a b : Settlement) : Prop := b.sortKey ≤ a.sortKey

instance : DecidableRel listedBefore := fun a b => inferInstanceAs (Decidable (b.sortKey ≤ a.sortKey))

instance : Std.Total listedBefore := ⟨fun a b => le_total b.sortKey a.sortKey⟩

instance : IsTrans Settlement listedBefore := ⟨fun _ _ _ hab hbc => le_trans hbc hab⟩

def ofPeriod (db : SettlementDb) (kind : StatementKind) (periodStart periodEnd : String) :
    List Settlement :=
  db.rows.filter fun r => decide (r.kind = kind ∧ r.periodStart = periodStart ∧
    r.periodEnd = periodEnd)

/-- `ListSettlements` for a kind and a period. -/
def listSettlements (db : SettlementDb) (kind : StatementKind) (periodStart periodEnd : String)
    (limit : Nat) : List Settlement :=
  ((ofPeriod db kind periodStart periodEnd).insertionSort listedBefore).take
    (if limit = 0 ∨ 2000 < limit then 500 else limit)

variable {t : Settlement}

section Listed

variable {db : SettlementDb} {kind : StatementKind} {periodStart periodEnd : String}

theorem mem_ofPeriod : t ∈ ofPeriod db kind periodStart periodEnd ↔
    t ∈ db.rows ∧ t.kind = kind ∧ t.periodStart = periodStart ∧ t.periodEnd = periodEnd := by
  unfold ofPeriod
  rw [mem_filter, decide_eq_true_eq]

theorem mem_of_mem_listSettlements {limit : Nat}
    (h : t ∈ listSettlements db kind periodStart periodEnd limit) :
    t ∈ ofPeriod db kind periodStart periodEnd :=
  (mem_insertionSort _).mp (mem_of_mem_take h)

end Listed

/-! ### `indexCustomerSettlementHistory` -/

/-- The key that the history gives a row; for the default group not that of its statement. -/
def UsageRow.historyKey (cfg : Config) (row : UsageRow) : String :=
  if customerPricingGroupKey cfg row.payingGroup = "" then toString row.userId
  else customerPricingGroupKey cfg row.payingGroup

/-- What the history is looked up in: the keys of the statements, of each login's last row, and of
the rows recorded under a group. -/
structure HistoryIndex where
  current : String → Bool
  userKeys : List (Int × String)
  recordedGroupKeys : List (String × List String)

def historyIndex (cfg : Config) (statements : Statements) (usage : List UsageRow) : HistoryIndex where
  current key := (statements.find? key).isSome
  userKeys := tally UsageRow.userId (fun row => row.historyKey cfg) (fun row _ => row.historyKey cfg)
    usage
  recordedGroupKeys := tally UsageRow.userGroup (fun _ => [])
    (fun row keys => keys.insert (row.historyKey cfg))
    (usage.filter fun row => decide (row.userGroup ≠ ""))

structure History where
  primary : List (String × Settlement)
  legacy : List (String × List Settlement)
  consumed : List Int

open History

def History.empty : History := ⟨[], [], []⟩

/-- The keys that a document of an older scheme has usage of. -/
def affectedKeys (ix : HistoryIndex) (t : Settlement) (issued : Statement) : List String :=
  match atoi t.counterparty with
  | some userId => ((get? ix.userKeys userId).filter fun key => decide (key ≠ "")).toList
  | none => (get? ix.recordedGroupKeys issued.group).getD [] ∪
      (get? ix.recordedGroupKeys t.counterparty).getD []

def History.enterLegacy (ix : HistoryIndex) (t : Settlement) (h : History) (key : String) :
    History :=
  if ix.current key then
    { h with
      consumed := h.consumed.insert t.id
      legacy := if t.isActive then upsert key [] (fun docs => docs ++ [t]) h.legacy else h.legacy }
  else h

def History.setPrimary (h : History) (key : String) (t : Settlement) : History :=
  { h with primary := upsert key t (fun _ => t) h.primary, consumed := h.consumed.insert t.id }

/-- The document is active and newer than the one that is entered under its key. -/
def History.promotes (h : History) (t : Settlement) : Bool :=
  t.isActive &&
    match get? h.primary t.counterparty with
    | none => true
    | some current => decide (current.revision < t.revision)

/-- One document of the period; `none` if its frozen statement cannot be read. -/
def History.enter (cfg : Config) (ix : HistoryIndex) (h : History) (t : Settlement) :
    Option History :=
  if t.kind ≠ .customer then some h
  else if ix.current t.counterparty then
    if h.promotes t then some (h.setPrimary t.counterparty t)
    else some { h with consumed := h.consumed.insert t.id }
  else
    match t.statement with
    | none => none
    | some issued =>
      if t.isActive = true ∧ t.counterparty = issued.group ∧
          ix.current (customerPricingGroupKey cfg issued.group) = true ∧
          (get? h.primary (customerPricingGroupKey cfg issued.group)).isNone = true then
        some (h.setPrimary (customerPricingGroupKey cfg issued.group) t)
      else some ((affectedKeys ix t issued).foldl (History.enterLegacy ix t) h)

def indexCustomerSettlementHistory (cfg : Config) (statements : Statements)
    (usage : List UsageRow) (saved : List Settlement) : Option History :=
  saved.foldlM (History.enter cfg (historyIndex cfg statements usage)) .empty

/-! ### `IssueSettlement` -/

def History.activeLegacy (h : History) (key : String) : List Settlement :=
  ((get? h.legacy key).getD []).filter Settlement.isActive

/-- The documents that a new one under the key has to replace. -/
def History.replacementIDs (h : History) (key : String) : List Int :=
  (get? h.primary key).toList.map Settlement.id ++ (h.activeLegacy key).map Settlement.id

/-- `IssueSettlementRequest`. -/
structure IssueRequest where
  kind : StatementKind
  counterparty : String
  periodStart : String
  periodEnd : String
  invoicedUSD : ℚ
  invoiceRecorded : Bool
  status : SettlementStatus
  note : String
  replaceExisting : Bool
  replacementReason : String
  replacementComplianceConfirmed : Bool

inductive IssueError where
  | counterpartyRequired
  | paidOutright
  | unknownStatus
  | periodOpen
  | truncated
  | noUsage
  | unreadable
  | nothingToReplace
  | reasonRequired
  | alreadyIssued
  | covered (documents : List (Int × String))
  | settlement (e : SettlementError)
deriving DecidableEq

/-- What the history lets a customer's request do: the documents to replace. -/
def History.allows (h : History) (req : IssueRequest) : Except IssueError (List Int) :=
  if req.replaceExisting then
    if h.replacementIDs req.counterparty = [] then .error .nothingToReplace
    else if trimSpace req.replacementReason = "" ∨ req.replacementComplianceConfirmed = false then
      .error .reasonRequired
    else .ok (h.replacementIDs req.counterparty)
  else if (get? h.primary req.counterparty).isSome then .error .alreadyIssued
  else if h.activeLegacy req.counterparty ≠ [] then
    .error (.covered ((h.activeLegacy req.counterparty).map fun t => (t.id, t.label)))
  else .ok (h.replacementIDs req.counterparty)

def IssueRequest.document (req : IssueRequest) (found : Statement) (pricingSnapshotDate : String) :
    NewSettlement where
  kind := req.kind
  counterparty := found.counterparty
  label := found.label
  periodStart := req.periodStart
  periodEnd := req.periodEnd
  revision := 0
  replacementReason := req.replacementReason
  replacementComplianceConfirmed := req.replacementComplianceConfirmed
  amountUSD := found.totals.amountUSD
  invoicedUSD := req.invoicedUSD
  invoiceRecorded := req.invoiceRecorded
  status := req.status
  note := req.note
  statement := some found
  pricingSnapshotDate := pricingSnapshotDate

def isSupplierCounterparty (counterparty : String) : Bool :=
  "supplier:".toList.isPrefixOf counterparty.toList

/-- What a request runs with besides the documents. -/
structure IssueContext where
  window : Window
  closedMonth : Bool
  now : Int
  pricingSnapshotDate : String
  commits : Bool

def IssueRequest.checked (cfg : Config) (req : IssueRequest) (ctx : IssueContext) :
    Except IssueError Statement :=
  if req.counterparty = "" then .error .counterpartyRequired
  else if req.kind = .vendor ∧ isSupplierCounterparty req.counterparty = true then
    .error .paidOutright
  else if req.status.valid = false then .error .unknownStatus
  else if ctx.closedMonth = false then .error .periodOpen
  else if ctx.window.truncated = true then .error .truncated
  else
    match (statementsForWindow cfg req.kind ctx.window req.periodStart req.periodEnd).find?
        req.counterparty with
    | none => .error .noUsage
    | some found => .ok found

variable {cfg : Config}

/-- The statement of a request that is checked. -/
theorem IssueRequest.find?_of_checked {req : IssueRequest} {ctx : IssueContext} {found : Statement}
    (hchecked : req.checked cfg ctx = .ok found) :
    (statementsForWindow cfg req.kind ctx.window req.periodStart req.periodEnd).find?
      req.counterparty = some found := by
  unfold IssueRequest.checked at hchecked
  split at hchecked
  · cases hchecked
  split at hchecked
  · cases hchecked
  split at hchecked
  · cases hchecked
  split at hchecked
  · cases hchecked
  split at hchecked
  · cases hchecked
  split at hchecked
  · cases hchecked
  · rename_i hfound
    cases hchecked
    exact hfound

/-- The documents that a customer's request replaces, from those it has read of the period. -/
def IssueRequest.replaced (cfg : Config) (req : IssueRequest) (ctx : IssueContext)
    (saved : List Settlement) : Except IssueError (List Int) :=
  match indexCustomerSettlementHistory cfg
      (statementsForWindow cfg .customer ctx.window req.periodStart req.periodEnd)
      ctx.window.usage saved with
  | none => .error .unreadable
  | some h => h.allows req

def issueSettlement (cfg : Config) (req : IssueRequest) (ctx : IssueContext) :
    SettlementProg (Except IssueError Settlement) :=
  match req.checked cfg ctx with
  | .error e => pure (.error e)
  | .ok found =>
    match req.kind with
    | .vendor => do
      let saved ← createSettlement (req.document found ctx.pricingSnapshotDate) ctx.now ctx.commits
      pure (saved.mapError .settlement)
    | .customer => do
      let saved ← Prog.look fun db =>
        listSettlements db .customer req.periodStart req.periodEnd 0
      match req.replaced cfg ctx saved with
      | .error e => pure (.error e)
      | .ok ids => do
        let document := req.document found ctx.pricingSnapshotDate
        let saved ←
          if req.replaceExisting then
            replaceCustomerSettlements document ids ctx.now ctx.commits
          else createNextSettlementRevision document ctx.now ctx.commits
        pure (saved.mapError .settlement)

/-! ### What a document blocks -/

/-- The key is refused. -/
def History.Blocked (h : History) (key : String) : Prop :=
  (get? h.primary key).isSome = true ∨ h.activeLegacy key ≠ []

/-- The key under which a document is entered, or those of its older scheme. -/
def Reaches (cfg : Config) (ix : HistoryIndex) (t : Settlement) (issued : Statement)
    (key : String) : Prop :=
  if ix.current t.counterparty = true then t.counterparty = key
  else if t.counterparty = issued.group ∧
      ix.current (customerPricingGroupKey cfg issued.group) = true then
    customerPricingGroupKey cfg issued.group = key
  else key ∈ affectedKeys ix t issued

variable {ix : HistoryIndex} {issued : Statement} {key : String}

theorem reaches_iff_current (h : ix.current t.counterparty = true) :
    Reaches cfg ix t issued key ↔ t.counterparty = key := by
  unfold Reaches
  rw [if_pos h]

theorem reaches_iff_bare (h : ¬ ix.current t.counterparty = true)
    (hbare : t.counterparty = issued.group)
    (hcurrent : ix.current (customerPricingGroupKey cfg issued.group) = true) :
    Reaches cfg ix t issued key ↔ customerPricingGroupKey cfg issued.group = key := by
  unfold Reaches
  rw [if_neg h, if_pos ⟨hbare, hcurrent⟩]

theorem reaches_iff_legacy (h : ¬ ix.current t.counterparty = true)
    (hbare : t.counterparty = issued.group →
      ¬ ix.current (customerPricingGroupKey cfg issued.group) = true) :
    Reaches cfg ix t issued key ↔ key ∈ affectedKeys ix t issued := by
  unfold Reaches
  rw [if_neg h, if_neg (fun hb => hbare hb.1 hb.2)]

namespace History

variable {cfg : Config} {ix : HistoryIndex} {h h' : History} {t : Settlement} {key : String}

theorem get?_setPrimary (k : String) :
    get? (h.setPrimary key t).primary k = if key = k then some t else get? h.primary k :=
  get?_upsert key t _ h.primary k

theorem activeLegacy_enterLegacy (k : String) : (h.enterLegacy ix t key).activeLegacy k =
    if ix.current key = true ∧ t.isActive = true ∧ key = k then h.activeLegacy k ++ [t]
    else h.activeLegacy k := by
  unfold enterLegacy
  by_cases hcur : ix.current key = true
  · by_cases hactive : t.isActive = true
    · unfold activeLegacy
      by_cases hk : key = k
      · subst hk
        simp only [hcur, hactive, if_true, and_self, get?_upsert, Option.getD_some,
          filter_append]
        rw [filter_cons_of_pos hactive, filter_nil]
      · simp only [hcur, hactive, if_true, get?_upsert, hk, and_false, if_false]
    · simp [hcur, hactive, activeLegacy]
  · simp [hcur]

theorem primary_enterLegacy : (h.enterLegacy ix t key).primary = h.primary := by
  unfold enterLegacy
  split <;> rfl

/-- The keys of an older scheme, entered one after the other. -/
theorem foldl_enterLegacy (ix : HistoryIndex) (t : Settlement) (keys : List String) :
    ∀ h : History,
    (keys.foldl (enterLegacy ix t) h).primary = h.primary ∧
    ∀ k, (keys.foldl (enterLegacy ix t) h).activeLegacy k ≠ [] ↔ h.activeLegacy k ≠ [] ∨
      k ∈ keys ∧ ix.current k = true ∧ t.isActive = true := by
  induction keys with
  | nil =>
    intro h
    exact ⟨rfl, fun k => by simp⟩
  | cons key keys ih =>
    intro h
    obtain ⟨hprimary, hlegacy⟩ := ih (h.enterLegacy ix t key)
    refine ⟨hprimary.trans primary_enterLegacy, fun k => ?_⟩
    rw [foldl_cons, hlegacy, activeLegacy_enterLegacy]
    by_cases hk : key = k
    · subst hk
      by_cases hcond : ix.current key = true ∧ t.isActive = true
      · simp [hcond.1, hcond.2]
      have hsplit : ¬ (ix.current key = true ∧ t.isActive = true ∧ key = key) :=
        fun hc => hcond ⟨hc.1, hc.2.1⟩
      simp [hcond]
    · have hk' : k ≠ key := fun heq => hk heq.symm
      rw [if_neg (fun hc => hk hc.2.2), mem_cons, or_iff_right hk']

/-- The document of a key: it is under the key, or under the bare name of a group with the
key. -/
def Keyed (cfg : Config) (ix : HistoryIndex) (t : Settlement) (key : String) : Prop :=
  ix.current t.counterparty = true ∧ t.counterparty = key ∨
    ¬ ix.current t.counterparty = true ∧ ∃ issued, t.statement = some issued ∧
      t.counterparty = issued.group ∧
      ix.current (customerPricingGroupKey cfg issued.group) = true ∧
      customerPricingGroupKey cfg issued.group = key

/-- What entering a document does. -/
inductive Entered (cfg : Config) (ix : HistoryIndex) (h : History) (t : Settlement) :
    History → Prop
  | noted {consumed : List Int} (hold : t.kind = .customer →
      ix.current t.counterparty = true ∧ h.promotes t = false) :
      Entered cfg ix h t { h with consumed := consumed }
  | primary {key : String} (hkind : t.kind = .customer) (hactive : t.isActive = true)
      (hkey : Keyed cfg ix t key) : Entered cfg ix h t (h.setPrimary key t)
  | legacy {issued : Statement} (hkind : t.kind = .customer)
      (hcur : ¬ ix.current t.counterparty = true) (hissued : t.statement = some issued)
      (hold : t.isActive = true → t.counterparty = issued.group →
        ix.current (customerPricingGroupKey cfg issued.group) = true →
        (get? h.primary (customerPricingGroupKey cfg issued.group)).isSome = true) :
      Entered cfg ix h t ((affectedKeys ix t issued).foldl (enterLegacy ix t) h)

theorem enter_cases (henter : h.enter cfg ix t = some h') : Entered cfg ix h t h' := by
  unfold enter at henter
  split at henter
  · rename_i hkind
    cases henter
    exact .noted fun hk => absurd hk hkind
  rename_i hkind
  rw [not_not] at hkind
  split at henter
  · rename_i hcur
    split at henter
    · rename_i hpromotes
      cases henter
      simp only [promotes, Bool.and_eq_true] at hpromotes
      exact .primary hkind hpromotes.1 (.inl ⟨hcur, rfl⟩)
    · rename_i hpromotes
      cases henter
      exact .noted fun _ => ⟨hcur, Bool.not_eq_true _ ▸ hpromotes⟩
  rename_i hcur
  split at henter
  · cases henter
  rename_i issued hissued
  split at henter
  · rename_i hbare
    cases henter
    exact .primary hkind hbare.1 (.inr ⟨hcur, issued, hissued, hbare.2.1, hbare.2.2.1, rfl⟩)
  · rename_i hbare
    cases henter
    refine .legacy hkind hcur hissued fun hactive hb hc => ?_
    by_contra hnone
    exact hbare ⟨hactive, hb, hc, by simpa using hnone⟩

theorem exists_enter (hissued : t.statement = some issued) : ∃ h', h.enter cfg ix t = some h' := by
  unfold enter
  split
  · exact ⟨_, rfl⟩
  split
  · split <;> exact ⟨_, rfl⟩
  rw [hissued]
  dsimp only
  split <;> exact ⟨_, rfl⟩

theorem Keyed.reaches_iff {k : String} (hkey : Keyed cfg ix t k)
    (hissued : ¬ ix.current t.counterparty = true → t.statement = some issued) :
    Reaches cfg ix t issued key ↔ k = key := by
  rcases hkey with ⟨hcur, rfl⟩ | ⟨hcur, issued', hst, hbare, hc, rfl⟩
  · exact reaches_iff_current hcur
  · rw [hissued hcur] at hst
    cases hst
    exact reaches_iff_bare hcur hbare hc

theorem isSome_primary_of_not_promotes (hactive : t.isActive = true)
    (hno : h.promotes t = false) : (get? h.primary t.counterparty).isSome = true := by
  rw [promotes, hactive, Bool.true_and] at hno
  cases hp : get? h.primary t.counterparty with
  | none => simp [hp] at hno
  | some => rfl

/-- A key that has a document keeps one. -/
theorem isSome_primary_enter (hsome : (get? h.primary key).isSome = true)
    (henter : h.enter cfg ix t = some h') : (get? h'.primary key).isSome = true := by
  cases enter_cases henter with
  | noted => exact hsome
  | primary =>
    rw [get?_setPrimary]
    split
    · rfl
    · exact hsome
  | legacy =>
    rw [(foldl_enterLegacy ix t _ h).1]
    exact hsome

/-- A key that is refused stays refused. -/
theorem Blocked.enter (hblocked : h.Blocked key) (henter : h.enter cfg ix t = some h') :
    h'.Blocked key := by
  rcases hblocked with hp | hl
  · exact .inl (isSome_primary_enter hp henter)
  right
  cases enter_cases henter with
  | noted => exact hl
  | primary => exact hl
  | legacy => exact ((foldl_enterLegacy ix t _ h).2 key).mpr (.inl hl)

/-- **An active document blocks the keys that it reaches.** -/
theorem blocked_of_reaches (hkind : t.kind = .customer) (hactive : t.isActive = true)
    (hissued : ¬ ix.current t.counterparty = true → t.statement = some issued)
    (hcurrent : ix.current key = true) (hreach : Reaches cfg ix t issued key)
    (henter : h.enter cfg ix t = some h') : h'.Blocked key := by
  cases enter_cases henter with
  | noted hold =>
    obtain ⟨hcur, hno⟩ := hold hkind
    obtain rfl := (reaches_iff_current hcur).mp hreach
    exact .inl (isSome_primary_of_not_promotes hactive hno)
  | primary _ _ hkey =>
    left
    rw [get?_setPrimary, if_pos ((hkey.reaches_iff hissued).mp hreach)]
    rfl
  | legacy _ hcur hst hold =>
    rw [hissued hcur] at hst
    cases hst
    obtain ⟨hprimary, hlegacy⟩ := foldl_enterLegacy ix t (affectedKeys ix t issued) h
    by_cases hbare : t.counterparty = issued.group ∧
        ix.current (customerPricingGroupKey cfg issued.group) = true
    · obtain rfl := (reaches_iff_bare hcur hbare.1 hbare.2).mp hreach
      left
      rw [hprimary]
      exact hold hactive hbare.1 hbare.2
    · rw [reaches_iff_legacy hcur (fun hb hc => hbare ⟨hb, hc⟩)] at hreach
      exact .inr ((hlegacy key).mpr (.inr ⟨hreach, hcurrent, hactive⟩))

/-- The first document of the history blocks no other keys. -/
theorem enter_empty (hissued : t.statement = some issued)
    (hreach : t.isActive = true → ¬ Reaches cfg ix t issued key) :
    ∃ h', History.empty.enter cfg ix t = some h' ∧ ¬ h'.Blocked key := by
  obtain ⟨h', henter⟩ : ∃ h', History.empty.enter cfg ix t = some h' := exists_enter hissued
  refine ⟨h', henter, ?_⟩
  cases enter_cases henter with
  | noted =>
    rintro (hp | hl)
    · cases hp
    · exact hl rfl
  | primary _ hactive hkey =>
    have hne := hreach hactive
    rw [hkey.reaches_iff (fun _ => hissued)] at hne
    rintro (hp | hl)
    · rw [get?_setPrimary, if_neg hne] at hp
      cases hp
    · exact hl rfl
  | legacy _ hcur hst hold =>
    rw [hissued] at hst
    cases hst
    obtain ⟨hprimary, hlegacy⟩ := foldl_enterLegacy ix t (affectedKeys ix t issued) .empty
    rintro (hp | hl)
    · rw [hprimary] at hp
      cases hp
    rcases (hlegacy key).mp hl with hl | ⟨hmem, -, hactive⟩
    · exact hl rfl
    refine hreach hactive ((reaches_iff_legacy hcur fun hb hc => ?_).mpr hmem)
    cases hold hactive hb hc

/-- A document among those that are read blocks the keys that it reaches. -/
theorem blocked_of_mem (hkind : t.kind = .customer) (hactive : t.isActive = true)
    (hissued : ¬ ix.current t.counterparty = true → t.statement = some issued)
    (hcurrent : ix.current key = true) (hreach : Reaches cfg ix t issued key)
    {saved : List Settlement} (hmem : t ∈ saved)
    (hindex : saved.foldlM (enter cfg ix) h = some h') : h'.Blocked key := by
  obtain ⟨h₁, h₂, post, henter, hrest⟩ := foldlM_split hmem hindex
  exact foldlM_invariant (I := (Blocked · key)) (fun _ _ _ _ henter hb => hb.enter henter) hrest
    (blocked_of_reaches hkind hactive hissued hcurrent hreach henter)

/-- A history that was read to the end could read the documents of older schemes. -/
theorem readable_of_mem {saved : List Settlement}
    (hindex : saved.foldlM (enter cfg ix) h = some h') (hmem : t ∈ saved)
    (hkind : t.kind = .customer) (hcur : ¬ ix.current t.counterparty = true) :
    ∃ issued, t.statement = some issued := by
  obtain ⟨h₁, h₂, post, henter, -⟩ := foldlM_split hmem hindex
  cases enter_cases henter with
  | noted hold => exact absurd (hold hkind).1 hcur
  | primary _ _ hkey =>
    rcases hkey with ⟨hc, -⟩ | ⟨-, issued, hissued, -⟩
    · exact absurd hc hcur
    · exact ⟨issued, hissued⟩
  | legacy _ _ hissued => exact ⟨_, hissued⟩

/-- Documents that are not active block nothing. -/
theorem foldlM_inactive (saved : List Settlement)
    (hsaved : ∀ t ∈ saved, t.isActive = false ∧ t.statement.isSome = true) : ∀ h : History,
    ¬ h.Blocked key → ∃ h', saved.foldlM (enter cfg ix) h = some h' ∧ ¬ h'.Blocked key := by
  induction saved with
  | nil =>
    intro h hb
    exact ⟨h, rfl, hb⟩
  | cons t saved ih =>
    intro h hb
    obtain ⟨hinactive, hsome⟩ := hsaved t mem_cons_self
    obtain ⟨issued, hissued⟩ := Option.isSome_iff_exists.mp hsome
    obtain ⟨h₁, henter⟩ : ∃ h', h.enter cfg ix t = some h' := exists_enter hissued
    have hb₁ : ¬ h₁.Blocked key := by
      cases enter_cases henter with
      | noted => exact hb
      | primary _ hactive =>
        rw [hinactive] at hactive
        cases hactive
      | legacy =>
        obtain ⟨hprimary, hlegacy⟩ := foldl_enterLegacy ix t (affectedKeys ix t _) h
        rintro (hp | hl)
        · exact hb (.inl (by rwa [hprimary] at hp))
        rcases (hlegacy key).mp hl with hl | ⟨-, -, hactive⟩
        · exact hb (.inr hl)
        · rw [hinactive] at hactive
          cases hactive
    obtain ⟨h', hrest, hb'⟩ := ih (fun x hx => hsaved x (mem_cons_of_mem _ hx)) h₁ hb₁
    exact ⟨h', by rw [foldlM_cons, henter]; exact hrest, hb'⟩

/-- Where the document of a key comes from. -/
theorem primary_foldlM {x : Settlement} {saved : List Settlement}
    (hindex : saved.foldlM (enter cfg ix) .empty = some h')
    (hx : get? h'.primary key = some x) :
    x ∈ saved ∧ x.isActive = true ∧ x.kind = .customer ∧ Keyed cfg ix x key := by
  refine foldlM_invariant (I := fun h : History => get? h.primary key = some x → _) ?_ hindex
    nofun hx
  intro t ht h h' henter ih hx
  cases enter_cases henter with
  | noted => exact ih hx
  | primary hkind hactive hkey =>
    rw [get?_setPrimary] at hx
    split at hx
    · rename_i heq
      cases hx
      exact ⟨ht, hactive, hkind, heq ▸ hkey⟩
    · exact ih hx
  | legacy =>
    rw [(foldl_enterLegacy ix t _ h).1] at hx
    exact ih hx

/-- An active document under a key of the statements gives the key a document. -/
theorem isSome_primary_of_mem (hkind : t.kind = .customer) (hactive : t.isActive = true)
    (hcurrent : ix.current t.counterparty = true) {saved : List Settlement} (hmem : t ∈ saved)
    (hindex : saved.foldlM (enter cfg ix) h = some h') :
    (get? h'.primary t.counterparty).isSome = true := by
  obtain ⟨h₁, h₂, post, henter, hrest⟩ := foldlM_split hmem hindex
  refine foldlM_invariant (I := fun h : History => (get? h.primary t.counterparty).isSome = true)
    (fun _ _ _ _ henter hsome => isSome_primary_enter hsome henter) hrest ?_
  cases enter_cases henter with
  | noted hold => exact isSome_primary_of_not_promotes hactive (hold hkind).2
  | primary _ _ hkey =>
    rcases hkey with ⟨-, rfl⟩ | ⟨hcur, -⟩
    · rw [get?_setPrimary, if_pos rfl]
      rfl
    · exact absurd hcurrent hcur
  | legacy _ hcur => exact absurd hcurrent hcur

/-- A request that replaces nothing passes if its key is not blocked. -/
theorem allows_iff {req : IssueRequest} (hplain : req.replaceExisting = false) :
    (∃ ids, h.allows req = .ok ids) ↔ ¬ h.Blocked req.counterparty := by
  unfold allows Blocked
  rw [if_neg (by simp [hplain]), not_or, not_not]
  split
  · rename_i hprimary
    simp [hprimary]
  rename_i hprimary
  split
  · rename_i hlegacy
    simp [hlegacy]
  · rename_i hlegacy
    simp [hprimary, not_not.mp hlegacy]

end History

end UnifyConsole.Invoice
