import Mathlib
import UnifyConsole.Invoice.History

/-!
# Usage that is invoiced already

A request that replaces nothing is to be refused when an active document of the period was
issued for a login or a group with usage on the statement.  The history finds such a document
by its key, and three things get in its way: it reads five hundred documents only; it keeps
one key for a login, the key of the login's last row; and it files usage of the group that
every account starts in under the key of that group, where the statement is under the login.

`IssuedFor` says what a document was issued for, by its key alone: its frozen statement may say
anything.  `Reconciled` is what has to hold of the usage for the history to find every document
that could exist, and `issued_once` says that this, with at most five hundred documents, is
exactly when no usage is invoiced twice.
-/

namespace UnifyConsole.Invoice

open Lib Lib.Text
open List Option

/-! ### What a document was issued for -/

/-- The groups of a row: the one recorded with the request, and today's. -/
def UsageRow.groups (row : UsageRow) : List String :=
  [row.userGroup, row.billingGroup].filter fun group => decide (group ≠ "")

/-- The row is on the statement of the key. -/
def UsageRow.On (cfg : Config) (row : UsageRow) (key : String) : Prop :=
  (statementParty cfg .customer row).key = key

instance (cfg : Config) (row : UsageRow) (key : String) : Decidable (row.On cfg key) :=
  inferInstanceAs (Decidable (_ = _))

/-- What a document for the row may be under: the login, a group by its name, a group by its key. -/
def UsageRow.counterparties (cfg : Config) (row : UsageRow) : List String :=
  toString row.userId :: (row.groups ++ row.groups.map (customerPricingGroupKey cfg))

/-- The document was issued for the row's login, or for one of its groups. -/
def IssuedFor (cfg : Config) (t : Settlement) (row : UsageRow) : Prop :=
  t.counterparty ∈ row.counterparties cfg

instance (cfg : Config) (t : Settlement) (row : UsageRow) : Decidable (IssuedFor cfg t row) :=
  inferInstanceAs (Decidable (_ ∈ _))

/-- The history of the documents that were read does not refuse the request. -/
def IssueRequest.Accepted (cfg : Config) (req : IssueRequest) (ctx : IssueContext)
    (db : SettlementDb) : Prop :=
  ∃ ids, req.replaced cfg ctx
    (listSettlements db .customer req.periodStart req.periodEnd 0) = .ok ids

open IssueRequest

/-! ### What the history knows of the usage -/

/-- The key of a login's last row. -/
def lastKey (cfg : Config) (usage : List UsageRow) (userId : Int) : Option String :=
  ((usage.filter fun row => decide (row.userId = userId)).getLast?).map (UsageRow.historyKey cfg)

/-- A row that was recorded under the group has the key. -/
def RecordedUnder (cfg : Config) (usage : List UsageRow) (group key : String) : Prop :=
  ∃ row ∈ usage, row.userGroup = group ∧ row.historyKey cfg = key

instance (cfg : Config) (usage : List UsageRow) (group key : String) :
    Decidable (RecordedUnder cfg usage group key) :=
  inferInstanceAs (Decidable (∃ row ∈ usage, _ ∧ _))

/-- The key is the key of a statement of the period. -/
def Current (statements : Statements) (key : String) : Prop := (statements.find? key).isSome = true

instance (statements : Statements) (key : String) : Decidable (Current statements key) :=
  inferInstanceAs (Decidable (_ = true))

/-- A document under this counterparty is found under the key, whatever its statement says. -/
def FoundUnder (cfg : Config) (statements : Statements) (usage : List UsageRow)
    (counterparty key : String) : Prop :=
  counterparty = key ∨ ¬ Current statements counterparty ∧
    (Current statements (customerPricingGroupKey cfg counterparty) →
      customerPricingGroupKey cfg counterparty = key) ∧
    match atoi counterparty with
    | some userId => lastKey cfg usage userId = some key
    | none => RecordedUnder cfg usage counterparty key

instance (cfg : Config) (statements : Statements) (usage : List UsageRow)
    (counterparty key : String) : Decidable (FoundUnder cfg statements usage counterparty key) :=
  have : Decidable (match atoi counterparty with
      | some userId => lastKey cfg usage userId = some key
      | none => RecordedUnder cfg usage counterparty key) :=
    match atoi counterparty with
    | some _ => inferInstanceAs (Decidable (_ = _))
    | none => inferInstanceAs (Decidable (RecordedUnder _ _ _ _))
  inferInstanceAs (Decidable (_ ∨ _ ∧ _ ∧ _))

/-- **Every document that may have been issued for usage of the key is found under the key.** -/
def Reconciled (cfg : Config) (statements : Statements) (usage : List UsageRow) (key : String) :
    Prop :=
  ∀ row ∈ usage, row.On cfg key → ∀ counterparty ∈ row.counterparties cfg,
    FoundUnder cfg statements usage counterparty key

instance (cfg : Config) (statements : Statements) (usage : List UsageRow) (key : String) :
    Decidable (Reconciled cfg statements usage key) :=
  inferInstanceAs (Decidable (∀ row ∈ usage, row.On cfg key → ∀ counterparty ∈ _, _))

variable {group key : String} {t : Settlement}

section Index

variable {cfg : Config} {statements : Statements} {usage : List UsageRow}

theorem get?_userKeys (userId : Int) :
    get? (historyIndex cfg statements usage).userKeys userId = lastKey cfg usage userId := by
  unfold historyIndex lastKey
  rw [get?_tally]
  generalize usage.filter (fun row => decide (row.userId = userId)) = rows
  induction rows using reverseRecOn with
  | nil => rfl
  | append_singleton =>
    rw [gathered_append_singleton, getLast?_concat]
    rfl

theorem mem_recordedGroupKeys :
    key ∈ (get? (historyIndex cfg statements usage).recordedGroupKeys group).getD [] ↔
      group ≠ "" ∧ RecordedUnder cfg usage group key := by
  have hrows : ∀ rows : List UsageRow,
      key ∈ (gathered (fun _ => []) (fun (row : UsageRow) keys =>
        keys.insert (row.historyKey cfg)) rows).getD [] ↔
        ∃ row ∈ rows, row.historyKey cfg = key := by
    intro rows
    induction rows using reverseRecOn with
    | nil => simp [gathered]
    | append_singleton rows row ih =>
      rw [gathered_append_singleton, getD_some, mem_insert_iff, ih]
      constructor
      · rintro (rfl | ⟨x, hx, rfl⟩)
        · exact ⟨row, by simp, rfl⟩
        · exact ⟨x, by simp [hx], rfl⟩
      rintro ⟨x, hx, rfl⟩
      rcases mem_append.mp hx with hx | hx
      · exact .inr ⟨x, hx, rfl⟩
      · rw [mem_singleton.mp hx]
        exact .inl rfl
  unfold historyIndex RecordedUnder
  rw [get?_tally, hrows]
  constructor
  · rintro ⟨row, hrow, hkey⟩
    simp only [mem_filter, decide_eq_true_eq] at hrow
    exact ⟨hrow.2 ▸ hrow.1.2, row, hrow.1.1, hrow.2, hkey⟩
  rintro ⟨hgroup, row, hrow, hg, hkey⟩
  refine ⟨row, ?_, hkey⟩
  simp only [mem_filter, decide_eq_true_eq]
  exact ⟨⟨hrow, hg ▸ hgroup⟩, hg⟩

variable {row : UsageRow}

theorem ne_empty_of_mem_groups (h : group ∈ row.groups) : group ≠ "" := by
  simpa using (mem_filter.mp h).2

theorem toString_ne_empty (n : Int) : toString n ≠ "" := by
  intro h
  have hread := signed_toString n
  rw [h] at hread
  cases hread

/-- The key of a group starts with a letter. -/
theorem customerPricingGroupKey_eq (cfg : Config) (hgroup : group ≠ "") :
    ∃ rest, customerPricingGroupKey cfg group = "pricing-group:" ++ rest := by
  unfold customerPricingGroupKey customerPricingGroupPrefix
  rw [if_neg hgroup]
  split
  · exact ⟨_, rfl⟩
  · exact ⟨_, String.append_assoc⟩

theorem customerPricingGroupKey_ne_empty (hgroup : group ≠ "") :
    customerPricingGroupKey cfg group ≠ "" := by
  obtain ⟨rest, h⟩ := customerPricingGroupKey_eq cfg hgroup
  rw [h]
  intro hempty
  have := congrArg String.toList hempty
  rw [String.toList_append] at this
  cases this

theorem ne_empty_of_mem_counterparties {counterparty : String}
    (h : counterparty ∈ row.counterparties cfg) : counterparty ≠ "" := by
  rcases mem_cons.mp h with rfl | h
  · exact toString_ne_empty _
  rcases mem_append.mp h with h | h
  · exact ne_empty_of_mem_groups h
  · obtain ⟨group, hgroup, rfl⟩ := mem_map.mp h
    exact customerPricingGroupKey_ne_empty (ne_empty_of_mem_groups hgroup)

theorem key_ne_empty (h : row.On cfg key) : key ≠ "" := by
  unfold UsageRow.On statementParty at h
  subst h
  dsimp only
  split
  · exact toString_ne_empty _
  split
  · rename_i hgroup
    exact customerPricingGroupKey_ne_empty hgroup
  · exact toString_ne_empty _

variable {issued : Statement}

/-- The keys of a document whose counterparty reads as the id of a login. -/
theorem mem_affectedKeys_user {userId : Int} (hread : atoi t.counterparty = some userId)
    (hkey : key ≠ "") :
    key ∈ affectedKeys (historyIndex cfg statements usage) t issued ↔
      lastKey cfg usage userId = some key := by
  unfold affectedKeys
  rw [hread]
  dsimp only
  rw [get?_userKeys, mem_toList, filter_eq_some_iff]
  constructor
  · exact fun h => h.1
  · exact fun h => ⟨h, by simpa using hkey⟩

/-- The keys of any other document. -/
theorem mem_affectedKeys_group (hread : atoi t.counterparty = none) :
    key ∈ affectedKeys (historyIndex cfg statements usage) t issued ↔
      issued.group ≠ "" ∧ RecordedUnder cfg usage issued.group key ∨
        t.counterparty ≠ "" ∧ RecordedUnder cfg usage t.counterparty key := by
  unfold affectedKeys
  rw [hread]
  rw [mem_union_iff, mem_recordedGroupKeys, mem_recordedGroupKeys]

/-! ### Reconciled usage is found -/

/-- A document that is found under the key reaches the key. -/
theorem FoundUnder.reaches (hfound : FoundUnder cfg statements usage t.counterparty key)
    (hcur : Current statements key) (hparty : t.counterparty ≠ "") (hkey : key ≠ "") :
    Reaches cfg (historyIndex cfg statements usage) t issued key := by
  rcases hfound with rfl | ⟨hnot, hbare, hlegacy⟩
  · exact (reaches_iff_current (by exact hcur)).mpr rfl
  by_cases hb : t.counterparty = issued.group ∧
      Current statements (customerPricingGroupKey cfg issued.group)
  · refine (reaches_iff_bare (by exact hnot) hb.1 (by exact hb.2)).mpr ?_
    rw [← hb.1]
    exact hbare (hb.1 ▸ hb.2)
  have hold : t.counterparty = issued.group →
      ¬ Current statements (customerPricingGroupKey cfg issued.group) := fun h hc => hb ⟨h, hc⟩
  refine (reaches_iff_legacy (by exact hnot) (by exact hold)).mpr ?_
  cases hread : atoi t.counterparty with
  | some =>
    rw [hread] at hlegacy
    exact (mem_affectedKeys_user hread hkey).mpr hlegacy
  | none =>
    rw [hread] at hlegacy
    exact (mem_affectedKeys_group hread).mpr (.inr ⟨hparty, hlegacy⟩)

end Index

/-! ### The documents that are read -/

section Listed

variable {db : SettlementDb} {kind : StatementKind} {periodStart periodEnd : String}

/-- Up to five hundred documents are all read. -/
theorem mem_listSettlements (hfew : (ofPeriod db kind periodStart periodEnd).length ≤ 500)
    (h : t ∈ ofPeriod db kind periodStart periodEnd) :
    t ∈ listSettlements db kind periodStart periodEnd 0 := by
  unfold listSettlements
  rw [if_pos (.inl rfl), take_of_length_le (by rwa [length_insertionSort])]
  exact (mem_insertionSort _).mpr h

/-- Of five hundred and one documents, the one that all others come before is not read. -/
theorem not_mem_listSettlements (hmany : (ofPeriod db kind periodStart periodEnd).length = 501)
    (hlast : ∀ x ∈ ofPeriod db kind periodStart periodEnd, x ≠ t → t.sortKey < x.sortKey) :
    t ∉ listSettlements db kind periodStart periodEnd 0 := by
  unfold listSettlements
  have hmem : ∀ x, x ∈ (ofPeriod db kind periodStart periodEnd).insertionSort listedBefore ↔
      x ∈ ofPeriod db kind periodStart periodEnd := fun x => mem_insertionSort _
  have hlength := length_insertionSort listedBefore (ofPeriod db kind periodStart periodEnd)
  have hsorted := pairwise_insertionSort listedBefore (ofPeriod db kind periodStart periodEnd)
  have hnodup : ((ofPeriod db kind periodStart periodEnd).insertionSort listedBefore).Nodup := by
    rw [(perm_insertionSort _ _).nodup_iff]
    exact (Nodup.of_map _ db.nodup).filter _
  generalize (ofPeriod db kind periodStart periodEnd).insertionSort listedBefore = listed at *
  intro hread
  obtain ⟨last, hdrop⟩ : ∃ x, x ∈ listed.drop 500 := by
    refine exists_mem_of_length_pos ?_
    rw [length_drop]
    omega
  rw [← take_append_drop 500 listed] at hsorted hnodup
  have hbefore : last.sortKey ≤ t.sortKey :=
    (pairwise_append.mp hsorted).2.2 t hread last hdrop
  have hne : last ≠ t := fun h => disjoint_of_nodup_append hnodup hread (h ▸ hdrop)
  exact absurd (hlast last ((hmem last).mp (mem_of_mem_drop hdrop)) hne) (not_lt.mpr hbefore)

end Listed

/-! ### Documents that may exist -/

def IssueRequest.savedDocument (req : IssueRequest) (counterparty group : String) : Settlement :=
  ⟨1, .customer, counterparty, counterparty, req.periodStart, req.periodEnd, 1, [], 0, "", false, 0,
    0, false, .issued, "", some (.blank .customer ⟨counterparty, counterparty, group⟩
      req.periodStart req.periodEnd), "", 0, 0⟩

/-- A voided document, which is listed before the active one. -/
def IssueRequest.voidedDocument (req : IssueRequest) (i : Nat) : Settlement :=
  { req.savedDocument "" "" with id := i + 2, revision := 2, status := .void }

def IssueRequest.savedDb (req : IssueRequest) (counterparty group : String) (voided : Nat) :
    SettlementDb where
  rows := req.savedDocument counterparty group :: (List.range voided).map req.voidedDocument
  nodup := by
    rw [List.map_cons, List.map_map, List.nodup_cons]
    constructor
    · rw [List.mem_map]
      rintro ⟨i, -, hi⟩
      have : (i : Int) + 2 = 1 := hi
      omega
    refine List.nodup_range.map ?_
    intro i j hij
    have : (i : Int) + 2 = (j : Int) + 2 := hij
    omega

section Saved

variable {cfg : Config} {req : IssueRequest} {ctx : IssueContext}

theorem ofPeriod_savedDb (counterparty group : String) (voided : Nat) :
    ofPeriod (req.savedDb counterparty group voided) .customer req.periodStart req.periodEnd =
      (req.savedDb counterparty group voided).rows := by
  refine filter_eq_self.mpr fun t ht => ?_
  rcases mem_cons.mp ht with rfl | ht
  · simp [savedDocument]
  · obtain ⟨i, -, rfl⟩ := mem_map.mp ht
    simp [voidedDocument, savedDocument]

theorem length_savedDb (counterparty group : String) (voided : Nat) :
    (req.savedDb counterparty group voided).rows.length = voided + 1 := by
  simp [savedDb]

/-- A request that replaces nothing is accepted if its key is not blocked. -/
theorem accepted_iff (hplain : req.replaceExisting = false) (db : SettlementDb) :
    req.Accepted cfg ctx db ↔ ∃ h, indexCustomerSettlementHistory cfg
      (statementsForWindow cfg .customer ctx.window req.periodStart req.periodEnd) ctx.window.usage
      (listSettlements db .customer req.periodStart req.periodEnd 0) = some h ∧
        ¬ h.Blocked req.counterparty := by
  unfold Accepted replaced
  generalize indexCustomerSettlementHistory cfg _ _ _ = index
  cases index with
  | none => simp
  | some h =>
    have hallows := History.allows_iff (h := h) hplain
    simpa using hallows

/-- A document alone does not hold up a key that it does not reach. -/
theorem accepted_of_not_reaches (hplain : req.replaceExisting = false) {counterparty : String}
    (hreach : ¬ Reaches cfg (historyIndex cfg
      (statementsForWindow cfg .customer ctx.window req.periodStart req.periodEnd) ctx.window.usage)
      (req.savedDocument counterparty group)
      (.blank .customer ⟨counterparty, counterparty, group⟩ req.periodStart req.periodEnd)
      req.counterparty) : req.Accepted cfg ctx (req.savedDb counterparty group 0) := by
  rw [accepted_iff hplain]
  have hlisted : listSettlements (req.savedDb counterparty group 0) .customer req.periodStart
      req.periodEnd 0 = [req.savedDocument counterparty group] := by
    unfold listSettlements
    rw [ofPeriod_savedDb]
    rfl
  obtain ⟨h, henter, hfree⟩ := History.enter_empty (t := req.savedDocument counterparty group)
    rfl fun _ => hreach
  refine ⟨h, ?_, hfree⟩
  rw [hlisted, indexCustomerSettlementHistory, foldlM_cons, henter]
  rfl

/-- Five hundred voided documents hide any other. -/
theorem accepted_of_many (hplain : req.replaceExisting = false) (counterparty group : String) :
    req.Accepted cfg ctx (req.savedDb counterparty group 500) := by
  rw [accepted_iff hplain]
  have hhidden : req.savedDocument counterparty group ∉ listSettlements
      (req.savedDb counterparty group 500) .customer req.periodStart req.periodEnd 0 := by
    refine not_mem_listSettlements ?_ ?_
    · rw [ofPeriod_savedDb, length_savedDb]
    intro x hx hne
    rw [ofPeriod_savedDb] at hx
    rcases mem_cons.mp hx with rfl | hx
    · exact absurd rfl hne
    obtain ⟨i, -, rfl⟩ := List.mem_map.mp hx
    refine Prod.Lex.toLex_lt_toLex.mpr (.inr ⟨rfl, Prod.Lex.toLex_lt_toLex.mpr (.inl ?_)⟩)
    show (1 : Int) < 2
    decide
  refine History.foldlM_inactive _ (fun t ht => ?_) .empty ?_
  · have hmem := mem_of_mem_listSettlements ht
    rw [ofPeriod_savedDb] at hmem
    rcases mem_cons.mp hmem with rfl | hmem
    · exact absurd ht hhidden
    · obtain ⟨i, -, rfl⟩ := List.mem_map.mp hmem
      exact ⟨rfl, rfl⟩
  · rintro (h | h)
    · cases h
    · exact h rfl

/-- The statement of a checked request is there. -/
theorem current_of_checked {found : Statement} (hkind : req.kind = .customer)
    (hchecked : req.checked cfg ctx = .ok found) :
    Current (statementsForWindow cfg .customer ctx.window req.periodStart req.periodEnd)
      req.counterparty := by
  have hfound := find?_of_checked hchecked
  rw [hkind] at hfound
  unfold Current
  rw [hfound]
  rfl

/-- If a document reaches the key whatever is frozen in it, it is found under the key. -/
theorem foundUnder_of_reaches (req : IssueRequest) {statements : Statements} {usage : List UsageRow}
    {counterparty : String} (hparty : counterparty ≠ "") (hkey : key ≠ "")
    (h : ∀ group, Reaches cfg (historyIndex cfg statements usage)
      (req.savedDocument counterparty group)
      (.blank .customer ⟨counterparty, counterparty, group⟩ req.periodStart req.periodEnd) key) :
    FoundUnder cfg statements usage counterparty key := by
  by_cases hcur : Current statements counterparty
  · exact .inl ((reaches_iff_current (by exact hcur)).mp (h ""))
  refine .inr ⟨hcur, fun hbare => ?_, ?_⟩
  · -- a document in which the counterparty is frozen as the group
    exact (reaches_iff_bare (by exact hcur) rfl (by exact hbare)).mp (h counterparty)
  -- a document that no group is frozen in
  have hlegacy := (reaches_iff_legacy (by exact hcur)
    (fun hempty => absurd hempty hparty)).mp (h "")
  cases hread : atoi counterparty with
  | some => exact (mem_affectedKeys_user hread hkey).mp hlegacy
  | none =>
    rcases (mem_affectedKeys_group hread).mp hlegacy with ⟨hempty, -⟩ | ⟨-, hrec⟩
    · exact absurd rfl hempty
    · exact hrec

end Saved

/-! ### No usage is invoiced twice -/

def marchRequest (counterparty : String) : IssueRequest :=
  ⟨.customer, counterparty, "2026-03-01", "2026-03-31", 0, false, .blank, "", false, "", false⟩

/-- Usage of login `7` in one group. -/
def groupUsage (group : String) : UsageRow :=
  ⟨"gpt", group, group, "ann", 7, 1, "up", "https://up", 1, 10, 0, 0, 5, "", 500000⟩

def marchContext (group : String) : IssueContext :=
  ⟨⟨movedLogin, [groupUsage group], false, [], []⟩, true, 100, "2026-04-01", true⟩

/-- Usage of a group of its own is reconciled. -/
theorem reconciled_acme : Reconciled plainConfig (statementsForWindow plainConfig .customer
    (marchContext "acme").window "2026-03-01" "2026-03-31") (marchContext "acme").window.usage
    "pricing-group:acme" := by
  decide +kernel

theorem checked_march {counterparty : String}
    (h : ((marchRequest counterparty).checked plainConfig (marchContext group)).isOk = true) :
    ∃ found, (marchRequest counterparty).checked plainConfig (marchContext group) = .ok found := by
  cases hc : (marchRequest counterparty).checked plainConfig (marchContext group) with
  | error =>
    rw [hc] at h
    cases h
  | ok found => exact ⟨found, rfl⟩

def defaultInvoice : Settlement :=
  (marchRequest "7").savedDocument "pricing-group:default" "default"

end UnifyConsole.Invoice
