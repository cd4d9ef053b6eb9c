import Mathlib
import UnifyConsole.Invoice.Statement

/-!
# Who paid

`FetchCustomerFunding` (`model/settlement_payments.go`) gathers the completed orders of a
window by login and gateway, and `AttachFunding` puts what was gathered on the statements.
Each order carries the group in which its login was when it paid, but the entry of a login
and a gateway carries only the group of the first order that the database returned for it.

`funding_lands` says where the money lands: on the statement of the customer of that first
order.  A customer's statement shows what the customer paid exactly when the orders that are
carried away from it and those that are carried to it add up to the same; that is so when no
login changed its customer between two orders through one gateway.  Nothing is lost: the
statements together show what was paid.
-/

namespace UnifyConsole.Invoice

open Lib
open Account (User)
open Payment (PaymentProvider TopUpScanRow creditedUSD)
open Table List Statements Statement

/-! ### `FetchCustomerFunding` -/

def reportedProvider (row : TopUpScanRow) : PaymentProvider :=
  if row.paymentProvider = .other "" then .other "unknown" else row.paymentProvider

def rowUSD (cfg : Config) (row : TopUpScanRow) : ℚ :=
  creditedUSD cfg.quotaPerUnit (reportedProvider row) row.amount row.money

/-- What is entered for the first order of a login through a gateway; a deleted login has no name
and no group. -/
def newFundingRow (users : Table User.id) (row : TopUpScanRow) : FundingRow :=
  ⟨row.userId, ((users.find? row.userId).map User.username).getD "",
    if row.customerGroup = "" then ((users.find? row.userId).map User.group).getD ""
    else row.customerGroup, reportedProvider row, 0, 0, 0⟩

def addFundingRow (cfg : Config) (row : TopUpScanRow) (entry : FundingRow) : FundingRow :=
  { entry with
    orders := entry.orders + 1
    creditedUSD := entry.creditedUSD + rowUSD cfg row
    chargedMoney := entry.chargedMoney + row.money }

def providerName : PaymentProvider → String
  | .epay => "epay"
  | .stripe => "stripe"
  | .creem => "creem"
  | .waffo => "waffo"
  | .waffoPancake => "waffo_pancake"
  | .binancePay => "binance_pay"
  | .balance => "balance"
  | .admin => "admin"
  | .other name => name

def fundingRowBefore (a b : FundingRow) : Prop :=
  a.userId < b.userId ∨ a.userId = b.userId ∧ providerName a.provider ≤ providerName b.provider

instance : DecidableRel fundingRowBefore := fun a b =>
  inferInstanceAs (Decidable (a.userId < b.userId ∨
    a.userId = b.userId ∧ providerName a.provider ≤ providerName b.provider))

def fundingKey (row : TopUpScanRow) : Int × PaymentProvider := (row.userId, reportedProvider row)

/-- `FetchCustomerFunding` over the orders in the order in which the database returned them. -/
def fetchCustomerFunding (cfg : Config) (users : Table User.id) (rows : List TopUpScanRow) :
    List FundingRow :=
  ((tally fundingKey (newFundingRow users) (addFundingRow cfg) rows).map
    Prod.snd).insertionSort fundingRowBefore

/-! ### Where the money lands -/

/-- The customer of an order: its own group's, else the login's today, else the login. -/
def paidFor (cfg : Config) (users : Table User.id) (row : TopUpScanRow) : String :=
  (fundingParty cfg (newFundingRow users row)).key

def enteredFor (cfg : Config) (users : Table User.id) (rows : List TopUpScanRow)
    (row : TopUpScanRow) : String :=
  paidFor cfg users (lead fundingKey rows row)

/-- What the orders that satisfy `p` credited. -/
def paidUSD (cfg : Config) (p : TopUpScanRow → Prop) [DecidablePred p] (rows : List TopUpScanRow) :
    ℚ :=
  (rows.map fun row => if p row then rowUSD cfg row else 0).sum

/-- What is carried to a customer's statement from others is what is carried away from it. -/
def Balanced (cfg : Config) (users : Table User.id) (rows : List TopUpScanRow) : Prop :=
  ∀ key, paidUSD cfg (fun row => enteredFor cfg users rows row ≠ paidFor cfg users row ∧
      enteredFor cfg users rows row = key) rows =
    paidUSD cfg (fun row => enteredFor cfg users rows row ≠ paidFor cfg users row ∧
      paidFor cfg users row = key) rows

section Sums

variable {cfg : Config} {users : Table User.id} {rows : List TopUpScanRow}

/-- The entries of a customer add up to the orders that are entered for it. -/
theorem sum_fetchCustomerFunding (key : String) :
    ((fetchCustomerFunding cfg users rows).map
      (fun row => if (fundingParty cfg row).key = key then row.creditedUSD else 0)).sum =
    paidUSD cfg (fun row => enteredFor cfg users rows row = key) rows := by
  unfold fetchCustomerFunding paidUSD enteredFor
  rw [((perm_insertionSort fundingRowBefore _).map _).sum_eq, map_map]
  have h : ((tally fundingKey (newFundingRow users) (addFundingRow cfg) rows).map
      (fun e => if (fundingParty cfg e.2).key = key then e.2.creditedUSD else 0)).sum =
      (rows.map fun row => if paidFor cfg users (lead fundingKey rows row) = key then
        rowUSD cfg row else 0).sum := by
    refine sum_tally (fun row => (fundingParty cfg row).key) (paidFor cfg users)
      FundingRow.creditedUSD (rowUSD cfg) ?_ ?_ ?_ ?_ key rows <;> intros <;> rfl
  exact h

/-- All entries together. -/
theorem total_fetchCustomerFunding :
    ((fetchCustomerFunding cfg users rows).map FundingRow.creditedUSD).sum =
      (rows.map (rowUSD cfg)).sum := by
  unfold fetchCustomerFunding
  rw [((perm_insertionSort fundingRowBefore _).map _).sum_eq, map_map]
  have h : ((tally fundingKey (newFundingRow users) (addFundingRow cfg) rows).map
      (fun e => if () = () then e.2.creditedUSD else 0)).sum =
      (rows.map fun row => if () = () then rowUSD cfg row else 0).sum := by
    refine sum_tally (fun _ => ()) (fun _ => ()) FundingRow.creditedUSD (rowUSD cfg) ?_ ?_ ?_ ?_ ()
      rows <;> intros <;> rfl
  exact h

/-- What is entered for a customer and what it paid differ by what is carried. -/
theorem paidUSD_sub (key : String) (l : List TopUpScanRow) :
    paidUSD cfg (fun row => enteredFor cfg users rows row = key) l -
      paidUSD cfg (fun row => paidFor cfg users row = key) l =
    paidUSD cfg (fun row => enteredFor cfg users rows row ≠ paidFor cfg users row ∧
        enteredFor cfg users rows row = key) l -
      paidUSD cfg (fun row => enteredFor cfg users rows row ≠ paidFor cfg users row ∧
        paidFor cfg users row = key) l := by
  unfold paidUSD
  induction l with
  | nil => rfl
  | cons row =>
    simp only [map_cons, sum_cons]
    by_cases hmoved : enteredFor cfg users rows row = paidFor cfg users row
    · simp only [hmoved, ne_eq, not_true_eq_false, false_and, if_false, zero_add]
      linarith
    · simp only [ne_eq, hmoved, not_false_eq_true, true_and]
      linarith

theorem balanced_iff : Balanced cfg users rows ↔ ∀ key,
    paidUSD cfg (fun row => enteredFor cfg users rows row = key) rows =
      paidUSD cfg (fun row => paidFor cfg users row = key) rows := by
  refine forall_congr' fun key => ?_
  rw [← sub_eq_zero, ← paidUSD_sub, sub_eq_zero]

end Sums

/-! ### On the statements -/

section Attach

variable {cfg : Config} {kind : StatementKind} {periodStart periodEnd : String}

theorem fundedOf_foldl_fundStatement (rows : List FundingRow) : ∀ (t : Statements) (key : String),
    (rows.foldl (fundStatement cfg kind periodStart periodEnd) t).fundedOf key = t.fundedOf key +
      (rows.map fun row => if (fundingParty cfg row).key = key then row.creditedUSD else 0).sum := by
  induction rows with
  | nil =>
    simp
  | cons row rows ih =>
    intro t key
    rw [foldl_cons, ih, fundedOf_fundStatement, map_cons, sum_cons,
      add_assoc]

theorem fundedOf_foldl_setFunding (l : List (String × List (Int × StatementFundingLine))) :
    ∀ (t : Statements) (key : String), (l.foldl setFunding t).fundedOf key =
      t.fundedOf key := by
  induction l with
  | nil =>
    intro t key
    rfl
  | cons e l ih =>
    intro t key
    rw [foldl_cons, ih, setFunding, fundedOf_modify]
    intro st
    rfl

theorem total_modify {t : Statements} {key : String} {f : Statement → Statement}
    {hf : ∀ st, (f st).counterparty = st.counterparty}
    (hfunded : ∀ st, (f st).fundedUSD = st.fundedUSD) :
    (t.modify key f hf).total fundedUSD = t.total fundedUSD := by
  unfold Statements.modify Table.total Table.update
  rw [List.map_map]
  refine congrArg List.sum (map_congr_left fun st _ => ?_)
  simp only [Function.comp]
  split
  · exact hfunded st
  · rfl

theorem total_withParty (t : Statements) (party : Party) :
    (t.withParty kind party periodStart periodEnd).total fundedUSD =
      t.total fundedUSD := by
  unfold withParty
  split
  · rfl
  cases hins : t.insert? (.blank kind party periodStart periodEnd) with
  | none => rfl
  | some =>
    rw [Option.getD_some, total_insert? hins]
    exact add_zero _

theorem total_fundStatement (t : Statements) (row : FundingRow) :
    (fundStatement cfg kind periodStart periodEnd t row).total fundedUSD =
      t.total fundedUSD + row.creditedUSD := by
  unfold fundStatement Statements.addFunded Statements.modify
  obtain ⟨st, hst⟩ : ∃ st, (t.withParty kind (fundingParty cfg row) periodStart periodEnd).find?
      (fundingParty cfg row).key = some st := by
    rw [find?_withParty, if_pos rfl]
    exact ⟨_, rfl⟩
  have hkey := key_of_find? hst
  rw [total_update_one hst (by simpa using hkey) (fun x _ hx => by simpa using hx),
    total_withParty]
  ring

theorem total_foldl_fundStatement (rows : List FundingRow) : ∀ t : Statements,
    (rows.foldl (fundStatement cfg kind periodStart periodEnd) t).total fundedUSD =
      t.total fundedUSD + (rows.map FundingRow.creditedUSD).sum := by
  induction rows with
  | nil =>
    simp
  | cons row rows ih =>
    intro t
    rw [foldl_cons, ih, total_fundStatement, map_cons, sum_cons, add_assoc]

theorem total_foldl_setFunding (l : List (String × List (Int × StatementFundingLine))) :
    ∀ t : Statements, (l.foldl setFunding t).total fundedUSD =
      t.total fundedUSD := by
  induction l with
  | nil =>
    intro t
    rfl
  | cons e l ih =>
    intro t
    rw [foldl_cons, ih, setFunding, total_modify]
    intro st
    rfl

/-- What `AttachFunding` enters for a counterparty. -/
theorem fundedOf_attachFunding (t : Statements) (rows : List FundingRow) (key : String) :
    (attachFunding cfg t .customer rows periodStart periodEnd).fundedOf key = t.fundedOf key +
      (rows.map fun row => if (fundingParty cfg row).key = key then row.creditedUSD else 0).sum := by
  unfold attachFunding
  split
  · rename_i h
    have hnil : rows = [] := h.resolve_left fun h => h rfl
    rw [hnil]
    simp
  · rw [fundedOf_foldl_setFunding, fundedOf_foldl_fundStatement]

theorem total_attachFunding (t : Statements) (rows : List FundingRow) :
    (attachFunding cfg t .customer rows periodStart periodEnd).total fundedUSD =
      t.total fundedUSD + (rows.map FundingRow.creditedUSD).sum := by
  unfold attachFunding
  split
  · rename_i h
    have hnil : rows = [] := h.resolve_left fun h => h rfl
    rw [hnil]
    simp
  · rw [total_foldl_setFunding, total_foldl_fundStatement]

theorem fundedOf_buildStatements (usage : List UsageRow) (key : String) :
    (buildStatements cfg usage kind periodStart periodEnd).fundedOf key = 0 := by
  unfold fundedOf
  cases h : (buildStatements cfg usage kind periodStart periodEnd).find? key with
  | none => rfl
  | some => exact fundedUSD_of_mem_buildStatements (mem_of_find? h)

theorem total_buildStatements (usage : List UsageRow) :
    (buildStatements cfg usage kind periodStart periodEnd).total fundedUSD = 0 := by
  refine sum_eq_zero fun x hx => ?_
  obtain ⟨st, hst, rfl⟩ := mem_map.mp hx
  exact fundedUSD_of_mem_buildStatements hst

end Attach

def fundedStatements (cfg : Config) (users : Table User.id) (usage : List UsageRow)
    (rows : List TopUpScanRow) (periodStart periodEnd : String) : Statements :=
  attachFunding cfg (buildStatements cfg usage .customer periodStart periodEnd) .customer
    (fetchCustomerFunding cfg users rows) periodStart periodEnd

/-- **Where receipts land.** Every statement shows what its customer paid exactly when the carried
amounts balance; together they always show everything. -/
theorem funding_lands (cfg : Config) (users : Table User.id) (usage : List UsageRow)
    (rows : List TopUpScanRow) (periodStart periodEnd : String) :
    ((∀ key, (fundedStatements cfg users usage rows periodStart periodEnd).fundedOf key =
        paidUSD cfg (fun row => paidFor cfg users row = key) rows) ↔ Balanced cfg users rows) ∧
    (fundedStatements cfg users usage rows periodStart periodEnd).total fundedUSD =
      (rows.map (rowUSD cfg)).sum := by
  constructor
  · rw [balanced_iff]
    refine forall_congr' fun key => ?_
    unfold fundedStatements
    rw [fundedOf_attachFunding, fundedOf_buildStatements, zero_add, sum_fetchCustomerFunding]
  · unfold fundedStatements
    rw [total_attachFunding, total_buildStatements, zero_add, total_fetchCustomerFunding]

def plainConfig : Config :=
  ⟨500000, fun group => group, fun _ => ("", ""), fun _ => (0, false), fun url => url, fun _ => 1⟩

/-- Login `7`, which is of `beta` now. -/
def movedLogin : Table User.id := ⟨[⟨7, "ann", "Ann", 1, "beta", 0, 0⟩], by decide⟩

def movedReceipts : List TopUpScanRow := [⟨7, "acme", .stripe, 5, 5⟩, ⟨7, "beta", .stripe, 3, 3⟩]

theorem moved_login_pays_for_first_customer :
    let statements := fundedStatements plainConfig movedLogin [] movedReceipts "a" "b"
    statements.fundedOf "pricing-group:acme" = 8 ∧ statements.fundedOf "pricing-group:beta" = 0 ∧
    paidUSD plainConfig (fun row => paidFor plainConfig movedLogin row = "pricing-group:acme")
      movedReceipts = 5 ∧
    paidUSD plainConfig (fun row => paidFor plainConfig movedLogin row = "pricing-group:beta")
      movedReceipts = 3 := by
  decide +kernel

end UnifyConsole.Invoice
