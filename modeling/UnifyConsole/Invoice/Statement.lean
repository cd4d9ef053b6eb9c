import Mathlib
import UnifyConsole.Lib.Table
import UnifyConsole.Lib.Tally
import UnifyConsole.Payment.Receipts

/-!
# Statements

`service/statement.go`.  The usage rows of a period are folded into one statement for each
counterparty, and the receipts of the period are put on the statements of the customers that
paid.  A customer is known by the key of its pricing group, or by the id of the login where
the login is in no group or in the group that every account starts in.

A list of statements is a `Table` by counterparty: the loop makes one statement for a key,
and what is attached later looks the statement up by its key.  What the vendor side reads
from the catalogue and from the channels is left open in `Config`.
-/

namespace UnifyConsole.Invoice

open Lib
open Payment (PaymentProvider)

inductive StatementKind where
  | customer
  | vendor
deriving DecidableEq

structure UsageRow where
  model : String
  userGroup : String
  billingGroup : String
  username : String
  userId : Int
  channelId : Int
  channelName : String
  channelBaseURL : String
  requests : Int
  promptTokens : Int
  cachedTokens : Int
  cacheWriteTokens : Int
  completionTokens : Int
  usageSemantic : String
  quota : Int

/-- What the statements depend on besides the rows; `groupDigest` is the start of the SHA-256 sum of
a name, in hexadecimal. -/
structure Config where
  quotaPerUnit : ℚ
  groupDigest : String → String
  upstreamVendor : UsageRow → String × String
  upstreamCostUSD : UsageRow → ℚ × Bool
  normalizeChannelBaseURL : String → String
  channelCostRatio : Int → ℚ

/-! ### Counterparties -/

def customerPricingGroupPrefix : String := "pricing-group:"

def customerPricingGroupKey (cfg : Config) (group : String) : String :=
  if group = "" then ""
  else if (customerPricingGroupPrefix ++ group).utf8ByteSize ≤ 64 then
    customerPricingGroupPrefix ++ group
  else customerPricingGroupPrefix ++ "sha256:" ++ cfg.groupDigest group

def systemDefaultGroup : String := "default"

structure Party where
  key : String
  label : String
  group : String

def userParty (userId : Int) (username group : String) : Party :=
  ⟨toString userId, if username = "" then "user " ++ toString userId else username, group⟩

/-- The group that pays for a row: today's, else the one recorded with the request. -/
def UsageRow.payingGroup (row : UsageRow) : String :=
  if row.billingGroup = "" then row.userGroup else row.billingGroup

def statementParty (cfg : Config) (kind : StatementKind) (row : UsageRow) : Party :=
  match kind with
  | .customer =>
    if row.payingGroup = systemDefaultGroup then
      userParty row.userId row.username row.payingGroup
    else if row.payingGroup ≠ "" then
      ⟨customerPricingGroupKey cfg row.payingGroup, row.payingGroup, row.payingGroup⟩
    else userParty row.userId row.username ""
  | .vendor => ⟨(cfg.upstreamVendor row).1, (cfg.upstreamVendor row).2, ""⟩

def revenueUSD (cfg : Config) (quota : Int) : ℚ :=
  if cfg.quotaPerUnit = 0 then 0 else quota / cfg.quotaPerUnit

def statementAmount (cfg : Config) (kind : StatementKind) (row : UsageRow) : ℚ × Bool :=
  match kind with
  | .customer => (revenueUSD cfg row.quota, true)
  | .vendor => cfg.upstreamCostUSD row

/-! ### Statements -/

/-- The figures that a line, a login's share and a statement have in common. -/
structure Totals where
  requests : Int
  promptTokens : Int
  cachedTokens : Int
  completionTokens : Int
  amountUSD : ℚ
deriving DecidableEq

def Totals.zero : Totals := ⟨0, 0, 0, 0, 0⟩

def Totals.add (t : Totals) (row : UsageRow) (amount : ℚ) : Totals :=
  ⟨t.requests + row.requests, t.promptTokens + row.promptTokens,
    t.cachedTokens + row.cachedTokens, t.completionTokens + row.completionTokens,
    t.amountUSD + amount⟩

structure StatementLine where
  model : String
  channelId : Int
  channelName : String
  channelBaseURL : String
  costRatio : ℚ
  totals : Totals
  unpriced : Bool
deriving DecidableEq

structure StatementUserLine where
  userId : Int
  username : String
  totals : Totals
deriving DecidableEq

structure StatementFundingLine where
  userId : Int
  username : String
  orders : Int
  grants : Int
  creditedUSD : ℚ
deriving DecidableEq

structure Statement where
  kind : StatementKind
  counterparty : String
  label : String
  group : String
  periodStart : String
  periodEnd : String
  lines : List StatementLine
  users : List StatementUserLine
  funding : List StatementFundingLine
  fundedUSD : ℚ
  fundingToDate : List StatementFundingLine
  fundedToDateUSD : ℚ
  totals : Totals
  unpricedRequests : Int
  unpricedModels : List String
deriving DecidableEq

def Statement.blank (kind : StatementKind) (party : Party) (periodStart periodEnd : String) :
    Statement :=
  ⟨kind, party.key, party.label, party.group, periodStart, periodEnd, [], [], [], 0, [], 0,
    .zero, 0, []⟩

abbrev Statements := Table Statement.counterparty

/-! ### `BuildStatements` -/

structure Draft where
  statement : Statement
  byModel : List (String × StatementLine)
  byUser : List (Int × StatementUserLine)
  unpriced : List String

/-- What the lines of a statement are told apart by; the vendor side has one for each channel. -/
def lineKey (cfg : Config) (kind : StatementKind) (row : UsageRow) : String :=
  match kind with
  | .customer => row.model
  | .vendor => row.model ++ "\x00" ++ toString row.channelId ++ "\x00" ++
      cfg.normalizeChannelBaseURL row.channelBaseURL

def newLine (cfg : Config) (kind : StatementKind) (row : UsageRow) : StatementLine :=
  match kind with
  | .customer => ⟨row.model, 0, "", "", 0, .zero, false⟩
  | .vendor => ⟨row.model, row.channelId, row.channelName,
      cfg.normalizeChannelBaseURL row.channelBaseURL, cfg.channelCostRatio row.channelId, .zero,
      false⟩

def newDraft (cfg : Config) (kind : StatementKind) (periodStart periodEnd : String)
    (row : UsageRow) : Draft :=
  ⟨.blank kind (statementParty cfg kind row) periodStart periodEnd, [], [], []⟩

def Draft.add (cfg : Config) (kind : StatementKind) (row : UsageRow) (d : Draft) : Draft :=
  let (amount, priced) := statementAmount cfg kind row
  { statement :=
      { d.statement with
        totals := d.statement.totals.add row amount
        unpricedRequests :=
          if priced then d.statement.unpricedRequests
          else d.statement.unpricedRequests + row.requests }
    byModel := upsert (lineKey cfg kind row) (newLine cfg kind row)
      (fun line =>
        { line with totals := line.totals.add row amount, unpriced := line.unpriced || !priced })
      d.byModel
    byUser :=
      match kind with
      | .customer => upsert row.userId
          ⟨row.userId, (userParty row.userId row.username "").label, .zero⟩
          (fun line => { line with totals := line.totals.add row amount }) d.byUser
      | .vendor => d.byUser
    unpriced := if priced then d.unpriced else d.unpriced.insert row.model }

def lineBefore (a b : StatementLine) : Prop :=
  b.totals.amountUSD < a.totals.amountUSD ∨ a.totals.amountUSD = b.totals.amountUSD ∧
    (a.model < b.model ∨ a.model = b.model ∧ a.channelId ≤ b.channelId)

instance : DecidableRel lineBefore := fun a b =>
  inferInstanceAs (Decidable (b.totals.amountUSD < a.totals.amountUSD ∨
    a.totals.amountUSD = b.totals.amountUSD ∧
      (a.model < b.model ∨ a.model = b.model ∧ a.channelId ≤ b.channelId)))

def userLineBefore (a b : StatementUserLine) : Prop :=
  b.totals.amountUSD < a.totals.amountUSD ∨
    a.totals.amountUSD = b.totals.amountUSD ∧ a.userId ≤ b.userId

instance : DecidableRel userLineBefore := fun a b =>
  inferInstanceAs (Decidable (b.totals.amountUSD < a.totals.amountUSD ∨
    a.totals.amountUSD = b.totals.amountUSD ∧ a.userId ≤ b.userId))

def statementBefore (a b : Statement) : Prop :=
  b.totals.amountUSD < a.totals.amountUSD ∨
    a.totals.amountUSD = b.totals.amountUSD ∧ a.counterparty ≤ b.counterparty

instance : DecidableRel statementBefore := fun a b =>
  inferInstanceAs (Decidable (b.totals.amountUSD < a.totals.amountUSD ∨
    a.totals.amountUSD = b.totals.amountUSD ∧ a.counterparty ≤ b.counterparty))

def Draft.finish (kind : StatementKind) (d : Draft) : Statement :=
  { d.statement with
    lines := (d.byModel.map Prod.snd).insertionSort lineBefore
    users :=
      match kind with
      | .customer => (d.byUser.map Prod.snd).insertionSort userLineBefore
      | .vendor => []
    unpricedModels := d.unpriced.insertionSort (· ≤ ·) }

def buildDrafts (cfg : Config) (rows : List UsageRow) (kind : StatementKind)
    (periodStart periodEnd : String) : List (String × Draft) :=
  tally (fun row => (statementParty cfg kind row).key) (newDraft cfg kind periodStart periodEnd)
    (Draft.add cfg kind) rows

section Build

variable {cfg : Config} {rows : List UsageRow} {kind : StatementKind}
  {periodStart periodEnd : String}

/-- What the first row of a counterparty gives its draft, and every row keeps. -/
theorem of_mem_buildDrafts {P : String → Draft → Prop}
    (hnew : ∀ row, P (statementParty cfg kind row).key
      ((newDraft cfg kind periodStart periodEnd row).add cfg kind row))
    (hadd : ∀ row (d : Draft), P (statementParty cfg kind row).key d →
      P (statementParty cfg kind row).key (d.add cfg kind row))
    {e : String × Draft} (he : e ∈ buildDrafts cfg rows kind periodStart periodEnd) : P e.1 e.2 :=
  of_mem_tally hnew hadd he

theorem counterparty_finish {e : String × Draft}
    (he : e ∈ buildDrafts cfg rows kind periodStart periodEnd) :
    (e.2.finish kind).counterparty = e.1 :=
  of_mem_buildDrafts (P := fun k d => (d.finish kind).counterparty = k) (fun _ => rfl)
    (fun _ _ h => h) he

theorem nodup_finish : (((buildDrafts cfg rows kind periodStart periodEnd).map
    (fun e => e.2.finish kind)).map Statement.counterparty).Nodup := by
  rw [List.map_map]
  have hkeys : (buildDrafts cfg rows kind periodStart periodEnd).map
      (Statement.counterparty ∘ fun e => e.2.finish kind) =
      (buildDrafts cfg rows kind periodStart periodEnd).map Prod.fst :=
    List.map_congr_left fun _ he => counterparty_finish he
  rw [hkeys]
  exact nodup_keys_tally rows

end Build

/-- `BuildStatements`: one statement for each counterparty, the largest first. -/
def buildStatements (cfg : Config) (rows : List UsageRow) (kind : StatementKind)
    (periodStart periodEnd : String) : Statements where
  rows := ((buildDrafts cfg rows kind periodStart periodEnd).map
    (fun e => e.2.finish kind)).insertionSort statementBefore
  nodup := ((List.perm_insertionSort _ _).map _).nodup_iff.mpr nodup_finish

section Build

variable {cfg : Config} {rows : List UsageRow} {kind : StatementKind}
  {periodStart periodEnd : String}

theorem mem_buildStatements {st : Statement} :
    st ∈ (buildStatements cfg rows kind periodStart periodEnd).rows ↔
      ∃ e ∈ buildDrafts cfg rows kind periodStart periodEnd, e.2.finish kind = st := by
  unfold buildStatements
  rw [List.mem_insertionSort, List.mem_map]

/-- No receipts are on a statement that was built from usage. -/
theorem fundedUSD_of_mem_buildStatements {st : Statement}
    (h : st ∈ (buildStatements cfg rows kind periodStart periodEnd).rows) : st.fundedUSD = 0 := by
  obtain ⟨e, he, rfl⟩ := mem_buildStatements.mp h
  exact of_mem_buildDrafts (P := fun _ d => (d.finish kind).fundedUSD = 0) (fun _ => rfl)
    (fun _ _ h => h) he

end Build

/-! ### Receipts on statements -/

/-- `model.FundingRow`: what one login paid through one gateway. -/
structure FundingRow where
  userId : Int
  username : String
  customerGroup : String
  provider : PaymentProvider
  orders : Int
  creditedUSD : ℚ
  chargedMoney : ℚ

def fundingParty (cfg : Config) (row : FundingRow) : Party :=
  if row.customerGroup = "" ∨ row.customerGroup = systemDefaultGroup then
    userParty row.userId row.username row.customerGroup
  else ⟨customerPricingGroupKey cfg row.customerGroup, row.customerGroup, row.customerGroup⟩

def newFundingLine (row : FundingRow) : StatementFundingLine :=
  ⟨row.userId, (userParty row.userId row.username "").label, 0, 0, 0⟩

def addFundingLine (row : FundingRow) (line : StatementFundingLine) : StatementFundingLine :=
  { line with
    grants := if row.provider = .admin then line.grants + row.orders else line.grants
    orders := if row.provider = .admin then line.orders else line.orders + row.orders
    creditedUSD := line.creditedUSD + row.creditedUSD }

/-- The receipts by counterparty, and for each of them by login. -/
def fundingByUser (cfg : Config) (rows : List FundingRow) :
    List (String × List (Int × StatementFundingLine)) :=
  tally (fun row => (fundingParty cfg row).key) (fun _ => [])
    (fun row => upsert row.userId (newFundingLine row) (addFundingLine row)) rows

def fundingLineBefore (a b : StatementFundingLine) : Prop :=
  b.creditedUSD < a.creditedUSD ∨ a.creditedUSD = b.creditedUSD ∧ a.userId ≤ b.userId

instance : DecidableRel fundingLineBefore := fun a b =>
  inferInstanceAs (Decidable (b.creditedUSD < a.creditedUSD ∨
    a.creditedUSD = b.creditedUSD ∧ a.userId ≤ b.userId))

def sortedFunding (lines : List (Int × StatementFundingLine)) : List StatementFundingLine :=
  (lines.map Prod.snd).insertionSort fundingLineBefore

namespace Statements

def modify (t : Statements) (key : String) (f : Statement → Statement)
    (hf : ∀ st, (f st).counterparty = st.counterparty) : Statements :=
  t.update (fun st => decide (st.counterparty = key)) f hf

def withParty (t : Statements) (kind : StatementKind) (party : Party)
    (periodStart periodEnd : String) : Statements :=
  match t.find? party.key with
  | some _ => t
  | none => (t.insert? (.blank kind party periodStart periodEnd)).getD t

def addFunded (t : Statements) (key : String) (usd : ℚ) : Statements :=
  t.modify key (fun st => { st with fundedUSD := st.fundedUSD + usd }) fun _ => rfl

def setFunding (t : Statements) (e : String × List (Int × StatementFundingLine)) : Statements :=
  t.modify e.1 (fun st => { st with funding := sortedFunding e.2 }) fun _ => rfl

def addFundedToDate (t : Statements) (key : String) (usd : ℚ) : Statements :=
  t.modify key (fun st => { st with fundedToDateUSD := st.fundedToDateUSD + usd }) fun _ => rfl

def setFundingToDate (t : Statements) (e : String × List (Int × StatementFundingLine)) :
    Statements :=
  t.modify e.1 (fun st => { st with fundingToDate := sortedFunding e.2 }) fun _ => rfl

def fundedOf (t : Statements) (key : String) : ℚ :=
  ((t.find? key).map Statement.fundedUSD).getD 0

end Statements

def fundStatement (cfg : Config) (kind : StatementKind) (periodStart periodEnd : String)
    (t : Statements) (row : FundingRow) : Statements :=
  (t.withParty kind (fundingParty cfg row) periodStart periodEnd).addFunded
    (fundingParty cfg row).key row.creditedUSD

def attachFunding (cfg : Config) (statements : Statements) (kind : StatementKind)
    (rows : List FundingRow) (periodStart periodEnd : String) : Statements :=
  if kind ≠ .customer ∨ rows = [] then statements
  else (fundingByUser cfg rows).foldl Statements.setFunding
    (rows.foldl (fundStatement cfg kind periodStart periodEnd) statements)

/-- `AttachFundingToDate`: a customer without a statement gets none. -/
def attachFundingToDate (cfg : Config) (statements : Statements) (kind : StatementKind)
    (rows : List FundingRow) : Statements :=
  if kind ≠ .customer ∨ rows = [] then statements
  else (fundingByUser cfg rows).foldl Statements.setFundingToDate
    (rows.foldl (fun t row => t.addFundedToDate (fundingParty cfg row).key row.creditedUSD)
      statements)

namespace Statements

variable {t : Statements}

theorem find?_modify {key : String} {f : Statement → Statement}
    {hf : ∀ st, (f st).counterparty = st.counterparty} (k : String) :
    (t.modify key f hf).find? k = (t.find? k).map (fun st => if k = key then f st else st) := by
  unfold modify
  rw [Table.find?_update]
  cases h : t.find? k with
  | none => rfl
  | some => simp only [Option.map_some, Table.key_of_find? h, decide_eq_true_eq]

theorem fundedOf_modify {key : String} {f : Statement → Statement}
    {hf : ∀ st, (f st).counterparty = st.counterparty}
    (hfunded : ∀ st, (f st).fundedUSD = st.fundedUSD) (k : String) :
    (t.modify key f hf).fundedOf k = t.fundedOf k := by
  unfold fundedOf
  rw [find?_modify, Option.map_map]
  congr 2
  funext st
  split
  · exact hfunded st
  · rfl

theorem find?_withParty (kind : StatementKind) (party : Party) (periodStart periodEnd : String)
    (k : String) : (t.withParty kind party periodStart periodEnd).find? k =
      if party.key = k then some ((t.find? k).getD (.blank kind party periodStart periodEnd))
      else t.find? k := by
  unfold withParty
  cases h : t.find? party.key with
  | some =>
    dsimp only
    split
    · rename_i hk
      rw [← hk, h]
      rfl
    · rfl
  | none =>
    cases hins : t.insert? (.blank kind party periodStart periodEnd) with
    | none =>
      obtain ⟨st, hst⟩ := Table.insert?_eq_none_iff.mp hins
      exact absurd (h.symm.trans hst) (by simp)
    | some =>
      rw [Option.getD_some, Table.find?_insert? hins]
      by_cases hk : party.key = k
      · subst hk
        rw [h]
        simp [Statement.blank]
      · rw [if_neg hk]
        exact if_neg hk

/-- **What a receipt adds.** -/
theorem fundedOf_fundStatement (cfg : Config) (kind : StatementKind)
    (periodStart periodEnd : String) (row : FundingRow) (k : String) :
    (fundStatement cfg kind periodStart periodEnd t row).fundedOf k =
      t.fundedOf k + if (fundingParty cfg row).key = k then row.creditedUSD else 0 := by
  unfold fundStatement addFunded fundedOf
  rw [find?_modify, find?_withParty]
  by_cases hk : (fundingParty cfg row).key = k
  · rw [if_pos hk, if_pos hk, Option.map_some, if_pos hk.symm]
    cases t.find? k with
    | none => simp [Statement.blank]
    | some => rfl
  rw [if_neg hk, if_neg hk, add_zero, Option.map_map]
  congr 2
  funext st
  simp only [Function.comp, if_neg (fun h : k = _ => hk h.symm)]

end Statements

end UnifyConsole.Invoice
