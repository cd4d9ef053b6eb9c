import Mathlib
import UnifyConsole.Pricing.Tables

/-!
# The billing expressions of catalogued models

`setting/billing_setting` holds two maps that an administrator writes: the billing expression of
a model and its billing mode.  For a model of the catalog neither may differ from what the
catalog says.  `EnforceCatalogBillingExprs` runs after each write of one of the maps and after
each change of the discounts and of the extra models: it installs the expressions that the
catalog generates, drops those that it generated before and does not any more, and drops what
was written by hand for a catalogued model.

The two maps are not rebuilt alike.  `ApplyCatalogBillingExprs` goes through the expressions and
takes a mode along with each that it keeps, so the mode of a model without an expression is lost,
catalogued or not.  The maps are separate options and are saved one after the other; a mode that
is saved first is gone before its expression arrives.  `step_mode` says which modes remain, and
`catalog_guard_iff` when the guard touches catalogued models only.
-/

namespace UnifyConsole.Pricing

open Lib
open Table List Option

/-! ### The text of an expression -/

def TokenVar.name : TokenVar → String
  | p => "p"
  | c => "c"
  | len => "len"
  | cr => "cr"
  | cc => "cc"
  | cc1h => "cc1h"
  | img => "img"
  | imgO => "img_o"
  | ai => "ai"
  | ao => "ao"

section Guard

-- `price` formats a coefficient.
variable (price : ℚ → String)

def renderExpr : Expr TokenVar → String
  | .number q => price q
  | .var v => v.name
  | .add a b => renderExpr a ++ " + " ++ renderExpr b
  | .mul a b => renderExpr a ++ " * " ++ renderExpr b
  | .call name arg => "tier(\"" ++ name ++ "\", " ++ renderExpr arg ++ ")"
  | .ifLe a b yes no =>
    renderExpr a ++ " <= " ++ renderExpr b ++ "\n  ? " ++ renderExpr yes ++ "\n  : " ++ renderExpr no

/-- The text that `BillingExpr` returns. -/
def CatalogEntry.billingExprText (e : CatalogEntry) (discount : ℚ) : String :=
  match e.billingExpr discount with
  | some expr => renderExpr price expr
  | none => ""

/-- `Catalog`: compiled entries first. -/
def catalogEntries (tables : PriceTables) : List CatalogEntry :=
  tables.compiled.rows ++ tables.extraModels.rows.map fun r => r.2.toCatalogEntry r.1

def billingExprs (tables : PriceTables) : NameMap String :=
  Table.collect (catalogEntries tables) CatalogEntry.model fun e =>
    let expr := e.billingExprText price (getModelDiscount tables e.model)
    if expr ≠ "" then some expr else none

/-! ### The guard -/

def billingModeRatio : String := "ratio"

def billingModeTieredExpr : String := "tiered_expr"

/-- The tables of prices, and `billingSetting` with the models that the catalog manages in it. -/
structure BillingState where
  tables : PriceTables
  billingMode : NameMap String
  billingExpr : NameMap String
  catalogManagedExprs : List String

def BillingState.isCatalogued (s : BillingState) (model : String) : Bool :=
  Pricing.isCatalogued s.tables.compiled s.tables.extraModels model

def getBillingMode (s : BillingState) (model : String) : String :=
  (s.billingMode.value? model).getD billingModeRatio

def applyCatalogBillingExprs (s : BillingState) (exprs : NameMap String) : BillingState :=
  let managed := exprs.rows.map Prod.fst
  let kept := s.billingExpr.delete fun r =>
    (decide (r.1 ∈ s.catalogManagedExprs) && !decide (r.1 ∈ managed)) || decide (r.1 ∈ managed)
  -- only a model whose expression is kept has its mode copied
  let modes := s.billingMode.delete (fun r => (kept.value? r.1).isNone)
  { s with
    billingExpr := kept.putAll exprs.rows
    billingMode := modes.putAll (managed.map fun model => (model, billingModeTieredExpr))
    catalogManagedExprs := managed }

def dropBillingExprs (s : BillingState) (models : List String) : BillingState :=
  if models = [] then s
  else
    { s with
      billingExpr := s.billingExpr.delete (fun r => decide (r.1 ∈ models))
      billingMode := s.billingMode.delete (fun r => decide (r.1 ∈ models)) }

/-- The models whose pricing was written by hand although the catalog has them. -/
def handWritten (s : BillingState) (exprs : NameMap String) : List String :=
  let flat := fun model => s.isCatalogued model && decide ((exprs.value? model).getD "" = "")
  (((s.billingExpr.rows.filter fun r => flat r.1).map Prod.fst ++
    (s.billingMode.rows.filter fun r =>
      decide (r.2 = billingModeTieredExpr) && flat r.1).map Prod.fst).dedup).mergeSort
    (fun a b => decide (a ≤ b))

/-- `EnforceCatalogBillingExprs`: the models whose pricing was dropped, and what is left. -/
def enforceCatalogBillingExprs (s : BillingState) : List String × BillingState :=
  let exprs := billingExprs price s.tables
  let s := applyCatalogBillingExprs s exprs
  let dropped := handWritten s exprs
  (dropped, dropBillingExprs s dropped)

/-! ### Runs -/

inductive BillingEvent where
  | writeBillingExpr (exprs : NameMap String)
  | writeBillingMode (modes : NameMap String)
  | updateModelDiscount (discounts : NameMap ℚ)
  | updateExtraModels (extras : NameMap ExtraModel)

/-- A write replaces the map; a refused table changes nothing. -/
def BillingEvent.step (s : BillingState) : BillingEvent → BillingState
  | writeBillingExpr exprs => (enforceCatalogBillingExprs price { s with billingExpr := exprs }).2
  | writeBillingMode modes => (enforceCatalogBillingExprs price { s with billingMode := modes }).2
  | updateModelDiscount discounts =>
    match Pricing.updateModelDiscount s.tables discounts with
    | .ok tables => (enforceCatalogBillingExprs price { s with tables := tables }).2
    | .error _ => s
  | updateExtraModels extras =>
    match Pricing.updateExtraModels s.tables extras with
    | .ok tables => (enforceCatalogBillingExprs price { s with tables := tables }).2
    | .error _ => s

def startBilling (compiled : Catalog) : BillingState :=
  (enforceCatalogBillingExprs price ⟨startProcess compiled, .empty, .empty, []⟩).2

def billingAfter (compiled : Catalog) (events : List BillingEvent) : BillingState :=
  events.foldl (BillingEvent.step price) (startBilling price compiled)

/-! ### What is asked of a run -/

/-- A catalogued model bills what the catalog says. -/
def Billed (s : BillingState) : Prop :=
  ∀ model entry, catalogEntryFor s.tables.compiled s.tables.extraModels model = some entry →
    if entry.needsBillingExpr then
      s.billingExpr.value? model = (billingExprs price s.tables).value? model ∧
        s.billingExpr.value? model =
          some (entry.billingExprText price (getModelDiscount s.tables model)) ∧
        getBillingMode s model = billingModeTieredExpr
    else
      s.billingExpr.value? model = none ∧ getBillingMode s model ≠ billingModeTieredExpr

def writtenExprs (exprs : NameMap String) : BillingEvent → NameMap String
  | .writeBillingExpr exprs' => exprs'
  | _ => exprs

def writtenModes (modes : NameMap String) : BillingEvent → NameMap String
  | .writeBillingMode modes' => modes'
  | _ => modes

/-- While a model is not in the catalog it keeps what was last written for it. -/
def Kept (compiled : Catalog) (events : List BillingEvent) : Prop :=
  ∀ before since, events = before ++ since → ∀ model,
    (∀ upTo, upTo <+: since →
      (billingAfter price compiled (before ++ upTo)).isCatalogued model = false) →
    (billingAfter price compiled events).billingExpr.value? model =
        (since.foldl writtenExprs (billingAfter price compiled before).billingExpr).value? model ∧
      (billingAfter price compiled events).billingMode.value? model =
        (since.foldl writtenModes (billingAfter price compiled before).billingMode).value? model

/-- Every model has the same expression and mode, and the catalog manages the same models. -/
structure SameBilling (s s' : BillingState) : Prop where
  tables : s.tables = s'.tables
  exprs : ∀ model, s.billingExpr.value? model = s'.billingExpr.value? model
  modes : ∀ model, s.billingMode.value? model = s'.billingMode.value? model
  managed : ∀ model, model ∈ s.catalogManagedExprs ↔ model ∈ s'.catalogManagedExprs

/-- The guard does what it is for, and touches nothing else. -/
structure Guarded (compiled : Catalog) (events : List BillingEvent) : Prop where
  billed : Billed price (billingAfter price compiled events)
  kept : Kept price compiled events
  again : SameBilling (enforceCatalogBillingExprs price (billingAfter price compiled events)).2
    (billingAfter price compiled events)

end Guard

/-- What is written gives no model outside the catalog a mode without an expression. -/
def BillingEvent.Paired (s : BillingState) : BillingEvent → Prop
  | writeBillingExpr exprs => ∀ model, s.isCatalogued model = false →
      (s.billingMode.value? model).isSome = true → (exprs.value? model).isSome = true
  | writeBillingMode modes => ∀ model, s.isCatalogued model = false →
      (modes.value? model).isSome = true → (s.billingExpr.value? model).isSome = true
  | updateModelDiscount _ => True
  | updateExtraModels _ => True

/-- Every write of a run is paired where it is made. -/
def AllPaired (price : ℚ → String) (compiled : Catalog) (events : List BillingEvent) : Prop :=
  ∀ before e, before ++ [e] <+: events → e.Paired (billingAfter price compiled before)

/-! ### The expressions of the catalog -/

section Exprs

variable {price : ℚ → String} {e : CatalogEntry} {discount : ℚ} {tables : PriceTables}
  {model : String}

theorem isSome_billingExpr : (e.billingExpr discount).isSome = e.needsBillingExpr := by
  unfold CatalogEntry.billingExpr
  cases h : e.needsBillingExpr with
  | false => rfl
  | true =>
    simp only [Bool.true_eq_false, if_false]
    split <;> rfl

/-- An expression of the catalog begins with the name of a function or of a variable. -/
theorem billingExprText_eq_empty :
    e.billingExprText price discount = "" ↔ e.needsBillingExpr = false := by
  have hsome : (e.billingExpr discount).isSome = e.needsBillingExpr := isSome_billingExpr
  unfold CatalogEntry.billingExprText
  cases hexpr : e.billingExpr discount with
  | none =>
    rw [← hsome, hexpr]
    simp
  | some =>
    rw [← hsome, hexpr]
    unfold CatalogEntry.billingExpr at hexpr
    split at hexpr
    · cases hexpr
    cases htier : e.contextTier with
    | none =>
      rw [htier] at hexpr
      cases hexpr
      simp [CatalogEntry.tierExpr, renderExpr]
    | some =>
      rw [htier] at hexpr
      cases hexpr
      simp [renderExpr]

theorem needsBillingExpr_toCatalogEntry (x : ExtraModel) :
    (x.toCatalogEntry model).needsBillingExpr = false := rfl

/-- Only compiled models need an expression, and no two of them have one name. -/
theorem billingExprs_eq_some {text : String} :
    (billingExprs price tables).value? model = some text ↔
      ∃ e, tables.compiled.entryFor model = some e ∧ e.needsBillingExpr = true ∧
        text = e.billingExprText price (getModelDiscount tables model) := by
  rw [billingExprs, catalogEntries, collect_append_of_none,
    value?_collect tables.compiled.nodup]
  · simp only [ne_eq, billingExprText_eq_empty, Bool.not_eq_false, ite_none_right_eq_some,
      some.injEq]
    constructor
    · rintro ⟨e, he, rfl, hneeds, rfl⟩
      exact ⟨e, find?_eq_some_iff.mpr ⟨he, rfl⟩, hneeds, rfl⟩
    · rintro ⟨e, he, hneeds, rfl⟩
      obtain ⟨hrow, hname⟩ := find?_eq_some_iff.mp he
      exact ⟨e, hrow, hname, hneeds, by rw [hname]⟩
  · intro e he
    obtain ⟨r, -, rfl⟩ := mem_map.mp he
    simp [billingExprText_eq_empty.mpr (needsBillingExpr_toCatalogEntry r.2)]

theorem isCatalogued_of_compiled {extras : NameMap ExtraModel} {compiled : Catalog}
    (h : compiled.entryFor model = some e) : isCatalogued compiled extras model = true := by
  simp [isCatalogued, catalogEntryFor, h]

theorem billingExprs_of_not_catalogued
    (h : isCatalogued tables.compiled tables.extraModels model = false) :
    (billingExprs price tables).value? model = none := by
  rw [eq_none_iff_forall_ne_some]
  intro text htext
  obtain ⟨e, hentry, -⟩ := billingExprs_eq_some.mp htext
  rw [isCatalogued_of_compiled hentry] at h
  cases h

theorem billingExprs_of_entry {entry : CatalogEntry}
    (h : catalogEntryFor tables.compiled tables.extraModels model = some entry) :
    (billingExprs price tables).value? model =
      if entry.needsBillingExpr then
        some (entry.billingExprText price (getModelDiscount tables model))
      else none := by
  ext text
  rw [ite_none_right_eq_some, some.injEq, billingExprs_eq_some]
  unfold catalogEntryFor at h
  cases hentry : tables.compiled.entryFor model with
  | some =>
    rw [hentry] at h
    cases h
    simp [eq_comm (a := text)]
  | none =>
    rw [hentry] at h
    obtain ⟨x, -, rfl⟩ := map_eq_some_iff.mp h
    simp [needsBillingExpr_toCatalogEntry]

theorem billingExprs_getD_eq_empty : ((billingExprs price tables).value? model).getD "" = "" ↔
    (billingExprs price tables).value? model = none := by
  cases htext : (billingExprs price tables).value? model with
  | none => simp
  | some =>
    obtain ⟨e, -, hneeds, rfl⟩ := billingExprs_eq_some.mp htext
    simp [billingExprText_eq_empty, hneeds]

end Exprs

/-! ### One run of the guard -/

section Enforce

variable {price : ℚ → String} {s : BillingState} {exprs : NameMap String} {model : String}

theorem apply_expr : (applyCatalogBillingExprs s exprs).billingExpr.value? model =
    (exprs.value? model).or
      (if model ∈ s.catalogManagedExprs then none else s.billingExpr.value? model) := by
  simp only [applyCatalogBillingExprs]
  rw [value?_putAll_rows, value?_delete (fun k =>
    (decide (k ∈ s.catalogManagedExprs) && !decide (k ∈ exprs.rows.map Prod.fst)) ||
      decide (k ∈ exprs.rows.map Prod.fst))]
  cases h : exprs.value? model with
  | some => simp
  | none =>
    have hk : model ∉ exprs.rows.map Prod.fst := by
      rw [mem_keys_iff, h]
      simp
    simp [hk]

theorem apply_mode : (applyCatalogBillingExprs s exprs).billingMode.value? model =
    ((exprs.value? model).map fun _ => billingModeTieredExpr).or
      (if model ∈ s.catalogManagedExprs then none
      else (s.billingExpr.value? model).bind fun _ => s.billingMode.value? model) := by
  simp only [applyCatalogBillingExprs]
  cases h : exprs.value? model with
  | some =>
    refine value?_putAll_of_mem ?_ (mem_map.mpr ⟨model, ?_, rfl⟩)
    · simpa [Function.comp_def] using exprs.nodup
    · rw [mem_keys_iff, h]
      rfl
  | none =>
    have hk : model ∉ exprs.rows.map Prod.fst := by
      rw [mem_keys_iff, h]
      simp
    rw [map_none, none_or, value?_putAll_of_not_mem]
    · rw [value?_delete (fun k => ((s.billingExpr.delete fun r =>
        (decide (r.1 ∈ s.catalogManagedExprs) && !decide (r.1 ∈ exprs.rows.map Prod.fst)) ||
          decide (r.1 ∈ exprs.rows.map Prod.fst)).value? k).isNone),
        value?_delete (fun k =>
          (decide (k ∈ s.catalogManagedExprs) && !decide (k ∈ exprs.rows.map Prod.fst)) ||
            decide (k ∈ exprs.rows.map Prod.fst))]
      by_cases hm : model ∈ s.catalogManagedExprs
      · simp [hm, hk]
      · cases s.billingExpr.value? model <;> simp [hm, hk]
    · simpa [Function.comp_def] using hk

theorem mem_handWritten : model ∈ handWritten s exprs ↔
    s.isCatalogued model = true ∧ (exprs.value? model).getD "" = "" ∧
      ((s.billingExpr.value? model).isSome = true ∨
        s.billingMode.value? model = some billingModeTieredExpr) := by
  simp only [handWritten, mem_mergeSort, mem_dedup, mem_append, List.mem_map,
    mem_filter, Bool.and_eq_true, decide_eq_true_eq, isSome_iff_exists,
    value?_eq_some_iff]
  constructor
  · rintro (⟨⟨name, x⟩, ⟨hr, hc, he⟩, rfl⟩ | ⟨⟨name, x⟩, ⟨hr, rfl, hc, he⟩, rfl⟩)
    · exact ⟨hc, he, .inl ⟨x, hr⟩⟩
    · exact ⟨hc, he, .inr hr⟩
  · rintro ⟨hc, he, ⟨x, hr⟩ | hr⟩
    · exact .inl ⟨_, ⟨hr, hc, he⟩, rfl⟩
    · exact .inr ⟨_, ⟨hr, rfl, hc, he⟩, rfl⟩

theorem drop_value (models : List String) :
    (dropBillingExprs s models).billingExpr.value? model =
        (if model ∈ models then none else s.billingExpr.value? model) ∧
      (dropBillingExprs s models).billingMode.value? model =
        if model ∈ models then none else s.billingMode.value? model := by
  unfold dropBillingExprs
  split
  · rename_i h
    simp [h]
  · dsimp only
    rw [value?_delete (fun k => decide (k ∈ models)),
      value?_delete (fun k => decide (k ∈ models))]
    simp

theorem drop_tables (models : List String) : (dropBillingExprs s models).tables = s.tables := by
  unfold dropBillingExprs
  split <;> rfl

theorem drop_managed (models : List String) :
    (dropBillingExprs s models).catalogManagedExprs = s.catalogManagedExprs := by
  unfold dropBillingExprs
  split <;> rfl

theorem enforce_tables : (enforceCatalogBillingExprs price s).2.tables = s.tables :=
  drop_tables _

theorem enforce_isCatalogued :
    (enforceCatalogBillingExprs price s).2.isCatalogued model = s.isCatalogued model := by
  rw [BillingState.isCatalogued, enforce_tables, BillingState.isCatalogued]

theorem enforce_managed : model ∈ (enforceCatalogBillingExprs price s).2.catalogManagedExprs ↔
    ((billingExprs price s.tables).value? model).isSome = true := by
  rw [enforceCatalogBillingExprs, drop_managed]
  exact mem_keys_iff

/-- Nothing is left of an expression that the catalog managed or that was written for its model. -/
theorem enforce_value : (enforceCatalogBillingExprs price s).2.billingExpr.value? model =
      ((billingExprs price s.tables).value? model).or
        (if s.isCatalogued model = true ∨ model ∈ s.catalogManagedExprs then none
        else s.billingExpr.value? model) ∧
    (enforceCatalogBillingExprs price s).2.billingMode.value? model =
      ((billingExprs price s.tables).value? model |>.map fun _ => billingModeTieredExpr).or
        (if s.isCatalogued model = true ∨ model ∈ s.catalogManagedExprs then none
        else (s.billingExpr.value? model).bind fun _ => s.billingMode.value? model) := by
  rw [enforceCatalogBillingExprs, (drop_value _).1, (drop_value _).2, apply_mode]
  simp only [mem_handWritten, apply_expr, billingExprs_getD_eq_empty]
  cases (billingExprs price s.tables).value? model with
  | some => simp
  | none =>
    by_cases hm : model ∈ s.catalogManagedExprs
    · simp [hm]
    · have hcat : (applyCatalogBillingExprs s (billingExprs price s.tables)).isCatalogued model =
          s.isCatalogued model := rfl
      cases hx : s.billingExpr.value? model <;> simp [hm, hcat]

end Enforce

/-! ### States that the guard leaves -/

section Settled

variable {price : ℚ → String} {s : BillingState} {model : String}

def ManagedCompiled (s : BillingState) : Prop :=
  ∀ model ∈ s.catalogManagedExprs, (s.tables.compiled.entryFor model).isSome = true

/-- A state that the guard has been over. -/
structure Settled (price : ℚ → String) (s : BillingState) : Prop where
  managed : ∀ model, model ∈ s.catalogManagedExprs ↔
    ((billingExprs price s.tables).value? model).isSome = true
  catalogued : ∀ model, s.isCatalogued model = true →
    s.billingExpr.value? model = (billingExprs price s.tables).value? model ∧
      s.billingMode.value? model =
        ((billingExprs price s.tables).value? model).map (fun _ => billingModeTieredExpr)
  covered : ∀ model, (s.billingMode.value? model).isSome = true →
    (s.billingExpr.value? model).isSome = true

theorem enforce_settled (s : BillingState) :
    Settled price (enforceCatalogBillingExprs price s).2 := by
  constructor
  · intro model
    rw [enforce_managed, enforce_tables]
  · intro model hc
    rw [enforce_isCatalogued] at hc
    rw [enforce_value.1, enforce_value.2, enforce_tables, if_pos (.inl hc), if_pos (.inl hc)]
    simp
  intro model
  rw [enforce_value.1, enforce_value.2]
  cases (billingExprs price s.tables).value? model with
  | some => simp
  | none =>
    split
    · simp
    · cases s.billingExpr.value? model <;> simp

theorem Settled.managedCompiled (h : Settled price s) : ManagedCompiled s := by
  intro model hm
  obtain ⟨text, htext⟩ := isSome_iff_exists.mp ((h.managed model).mp hm)
  obtain ⟨e, hentry, -⟩ := billingExprs_eq_some.mp htext
  rw [hentry]
  rfl

theorem ManagedCompiled.not_mem (h : ManagedCompiled s) (hc : s.isCatalogued model = false) :
    model ∉ s.catalogManagedExprs := by
  intro hm
  obtain ⟨e, he⟩ := isSome_iff_exists.mp (h model hm)
  rw [BillingState.isCatalogued, isCatalogued_of_compiled he] at hc
  cases hc

theorem enforce_of_not_catalogued (h : ManagedCompiled s) (hc : s.isCatalogued model = false) :
    (enforceCatalogBillingExprs price s).2.billingExpr.value? model =
        s.billingExpr.value? model ∧
      (enforceCatalogBillingExprs price s).2.billingMode.value? model =
        (s.billingExpr.value? model).bind (fun _ => s.billingMode.value? model) := by
  rw [enforce_value.1, enforce_value.2, billingExprs_of_not_catalogued hc,
    if_neg (by simp [hc, h.not_mem hc]), if_neg (by simp [hc, h.not_mem hc])]
  exact ⟨rfl, rfl⟩

/-- A mode is copied with its expression. -/
theorem bind_mode {expr mode : Option String} (h : mode.isSome = true → expr.isSome = true) :
    expr.bind (fun _ => mode) = mode := by
  cases expr with
  | some => rfl
  | none =>
    cases mode with
    | none => rfl
    | some => cases h rfl

/-- **A second run of the guard changes nothing.** -/
theorem Settled.again (h : Settled price s) :
    SameBilling (enforceCatalogBillingExprs price s).2 s := by
  have hsame : ∀ model, (enforceCatalogBillingExprs price s).2.billingExpr.value? model =
        s.billingExpr.value? model ∧
      (enforceCatalogBillingExprs price s).2.billingMode.value? model =
        s.billingMode.value? model := by
    intro model
    cases hc : s.isCatalogued model with
    | false =>
      rw [← bind_mode (h.covered model)]
      exact enforce_of_not_catalogued h.managedCompiled hc
    | true =>
      have hafter : Settled price (enforceCatalogBillingExprs price s).2 := enforce_settled s
      obtain ⟨hexpr, hmode⟩ := hafter.catalogued model (enforce_isCatalogued.trans hc)
      rw [hexpr, hmode, enforce_tables, (h.catalogued model hc).1, (h.catalogued model hc).2]
      exact ⟨rfl, rfl⟩
  refine ⟨enforce_tables, fun model => (hsame model).1, fun model => (hsame model).2, ?_⟩
  intro model
  rw [enforce_managed, h.managed]

theorem isCatalogued_of_entry {entry : CatalogEntry}
    (h : catalogEntryFor s.tables.compiled s.tables.extraModels model = some entry) :
    s.isCatalogued model = true := by
  simp [BillingState.isCatalogued, isCatalogued, h]

theorem Settled.billed (h : Settled price s) : Billed price s := by
  intro model entry hentry
  obtain ⟨hexpr, hmode⟩ := h.catalogued model (isCatalogued_of_entry hentry)
  rw [billingExprs_of_entry hentry] at hexpr hmode
  rw [billingExprs_of_entry hentry, getBillingMode, hexpr, hmode]
  cases entry.needsBillingExpr with
  | true => simp
  | false => simp [billingModeRatio, billingModeTieredExpr]

end Settled

/-! ### One event -/

section Step

variable {price : ℚ → String} {s : BillingState} {e : BillingEvent} {model : String}

/-- An event changes one of the tables, and the guard goes over the state; or it is refused. -/
theorem step_cases (price : ℚ → String) (s : BillingState) (e : BillingEvent) :
    (∃ tables, tables.compiled = s.tables.compiled ∧
      e.step price s = (enforceCatalogBillingExprs price
        { s with
          tables := tables
          billingExpr := writtenExprs s.billingExpr e
          billingMode := writtenModes s.billingMode e }).2) ∨
    (e.step price s = s ∧ writtenExprs s.billingExpr e = s.billingExpr ∧
      writtenModes s.billingMode e = s.billingMode) := by
  cases e with
  | writeBillingExpr | writeBillingMode => exact .inl ⟨s.tables, rfl, rfl⟩
  | updateModelDiscount discounts =>
    cases hu : Pricing.updateModelDiscount s.tables discounts with
    | error => exact .inr ⟨by simp only [BillingEvent.step, hu], rfl, rfl⟩
    | ok tables =>
      refine .inl ⟨tables, ?_, by simp only [BillingEvent.step, hu, writtenExprs, writtenModes]⟩
      rw [(updateModelDiscount_eq_ok.mp hu).2]
  | updateExtraModels extras =>
    cases hu : Pricing.updateExtraModels s.tables extras with
    | error => exact .inr ⟨by simp only [BillingEvent.step, hu], rfl, rfl⟩
    | ok tables =>
      refine .inl ⟨tables, ?_, by simp only [BillingEvent.step, hu, writtenExprs, writtenModes]⟩
      rw [(updateExtraModels_eq_ok.mp hu).2]

theorem Settled.step (h : Settled price s) (e : BillingEvent) : Settled price (e.step price s) := by
  obtain ⟨tables, -, he⟩ | ⟨he, -⟩ := step_cases price s e
  · rw [he]
    exact enforce_settled _
  · rwa [he]

/-- **A model outside the catalog keeps its expression**, and its mode with it. -/
theorem step_uncatalogued (h : Settled price s)
    (hc : (e.step price s).isCatalogued model = false) :
    (e.step price s).billingExpr.value? model = (writtenExprs s.billingExpr e).value? model ∧
      (e.step price s).billingMode.value? model =
        ((writtenExprs s.billingExpr e).value? model).bind
          (fun _ => (writtenModes s.billingMode e).value? model) := by
  obtain ⟨tables, htables, he⟩ | ⟨he, hexprs, hmodes⟩ := step_cases price s e
  · rw [he, enforce_isCatalogued] at hc
    have hm : ManagedCompiled { s with
        tables := tables
        billingExpr := writtenExprs s.billingExpr e
        billingMode := writtenModes s.billingMode e } := by
      intro model hmem
      rw [htables]
      exact h.managedCompiled model hmem
    rw [he]
    exact enforce_of_not_catalogued hm hc
  · rw [he, hexprs, hmodes, bind_mode (h.covered model)]
    exact ⟨rfl, rfl⟩

theorem step_mode (h : Settled price s) (hp : e.Paired s)
    (hc : s.isCatalogued model = false) (hc' : (e.step price s).isCatalogued model = false) :
    (e.step price s).billingMode.value? model =
      (writtenModes s.billingMode e).value? model := by
  rw [(step_uncatalogued h hc').2]
  refine bind_mode fun hm => ?_
  cases e with
  | writeBillingExpr | writeBillingMode => exact hp model hc hm
  | updateModelDiscount | updateExtraModels => exact h.covered model hm

/-- A mode without an expression is lost. -/
theorem paired_of_step (h : Settled price s)
    (hkept : ∀ model, s.isCatalogued model = false → (e.step price s).isCatalogued model = false →
      (e.step price s).billingMode.value? model =
        (writtenModes s.billingMode e).value? model) : e.Paired s := by
  have hpaired : ∀ model, s.isCatalogued model = false →
      (e.step price s).isCatalogued model = false →
      ((writtenModes s.billingMode e).value? model).isSome = true →
      ((writtenExprs s.billingExpr e).value? model).isSome = true := by
    intro model hc hc' hm
    rw [← hkept model hc hc', (step_uncatalogued h hc').2] at hm
    exact isSome_of_isSome_bind hm
  cases e with
  -- the catalog does not change with the maps
  | writeBillingExpr | writeBillingMode =>
    exact fun model hc => hpaired model hc (enforce_isCatalogued.trans hc)
  | updateModelDiscount | updateExtraModels => trivial

end Step

/-! ### Runs of the guard -/

section Runs

variable (price : ℚ → String) (compiled : Catalog)

theorem billingAfter_append (events : List BillingEvent) (e : BillingEvent) :
    billingAfter price compiled (events ++ [e]) =
      e.step price (billingAfter price compiled events) := by
  rw [billingAfter, foldl_append]
  rfl

theorem settled_after (events : List BillingEvent) :
    Settled price (billingAfter price compiled events) := by
  induction events using reverseRecOn with
  | nil => exact enforce_settled _
  | append_singleton events e ih =>
    rw [billingAfter_append]
    exact ih.step e

theorem kept_of_paired {events : List BillingEvent} (h : AllPaired price compiled events) :
    Kept price compiled events := by
  intro before since
  induction since using reverseRecOn generalizing events with
  | nil =>
    intro he model _
    rw [he, append_nil]
    exact ⟨rfl, rfl⟩
  | append_singleton since e ih =>
    intro he model hc
    rw [← append_assoc] at he
    have hsettled := settled_after price compiled (before ++ since)
    have hpaired : e.Paired (billingAfter price compiled (before ++ since)) :=
      h _ e (by rw [he])
    have hprefix : AllPaired price compiled (before ++ since) := by
      intro before' e' hbefore'
      refine h before' e' (hbefore'.trans ?_)
      rw [he]
      exact prefix_append _ _
    obtain ⟨hexpr, hmode⟩ := ih hprefix rfl model fun upTo hupTo =>
      hc upTo (hupTo.trans (prefix_append _ _))
    have hc₁ := hc since (prefix_append _ _)
    have hc₂ := hc (since ++ [e]) prefix_rfl
    rw [← append_assoc, billingAfter_append] at hc₂
    rw [he, billingAfter_append, foldl_append, foldl_append]
    refine ⟨?_, ?_⟩
    · rw [(step_uncatalogued hsettled hc₂).1]
      cases e with
      | writeBillingExpr => rfl
      | writeBillingMode | updateModelDiscount | updateExtraModels => exact hexpr
    rw [step_mode hsettled hpaired hc₁ hc₂]
    cases e with
    | writeBillingMode => rfl
    | writeBillingExpr | updateModelDiscount | updateExtraModels => exact hmode

theorem paired_of_kept {before : List BillingEvent} {e : BillingEvent}
    (h : Kept price compiled (before ++ [e])) : e.Paired (billingAfter price compiled before) := by
  refine paired_of_step (settled_after price compiled before) fun model hc hc' => ?_
  have hkept := (h before [e] rfl model ?_).2
  · rwa [billingAfter_append] at hkept
  intro upTo hupTo
  rcases sublist_singleton.mp hupTo.sublist with rfl | rfl
  · rwa [append_nil]
  · rwa [billingAfter_append]

/-- **The guard touches catalogued models only** exactly in the runs in which no model outside the
catalog is given a mode without an expression: then catalogued models bill what the catalog says,
all others what was last written, and a second run changes nothing. -/
theorem catalog_guard_iff (events : List BillingEvent) :
    (∀ done, done <+: events → Guarded price compiled done) ↔ AllPaired price compiled events := by
  constructor
  · intro h before e hbefore
    exact paired_of_kept price compiled (h _ hbefore).kept
  intro h done hdone
  have hsettled := settled_after price compiled done
  refine ⟨hsettled.billed, kept_of_paired price compiled ?_, hsettled.again⟩
  intro before e hbefore
  exact h before e (hbefore.trans hdone)

end Runs

/-! ### A mode that is saved before its expression -/

def localModes : NameMap String := ⟨[("local-llm", billingModeTieredExpr)], by decide⟩

def localExprs : NameMap String := ⟨[("local-llm", "tier(\"base\", p * 1)")], by decide⟩

/-- The mode of `local-llm` is saved before its expression, and is lost, though the catalog is
empty. -/
theorem mode_lost_before_expression :
    let run := billingAfter (fun _ => "1") empty
      [.writeBillingMode localModes, .writeBillingExpr localExprs]
    run.isCatalogued "local-llm" = false ∧
      run.billingExpr.value? "local-llm" = some "tier(\"base\", p * 1)" ∧
      run.billingMode.value? "local-llm" = none ∧
      getBillingMode run "local-llm" = billingModeRatio ∧
      ¬ Kept (fun _ => "1") empty [.writeBillingMode localModes] := by
  refine ⟨by decide +kernel, by decide +kernel, by decide +kernel, by decide +kernel, ?_⟩
  intro h
  have hmode := (h [] _ rfl "local-llm" ?_).2
  · revert hmode
    decide +kernel
  intro upTo hupTo
  rcases sublist_singleton.mp hupTo.sublist with rfl | rfl
  · decide +kernel
  · decide +kernel

end UnifyConsole.Pricing
