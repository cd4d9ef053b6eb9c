import Mathlib
import UnifyConsole.Pricing.Ratio

/-!
# Stored price tables

Three tables of prices are rows of the options table: discounts of models (`ModelDiscount`),
prices of customer groups for models (`GroupModelDiscount`) and prices of models that the
compiled catalog does not have (`ExtraModelPricing`).  Each is checked when it is saved, and
checked again whenever a process loads it, against the catalog that the process was compiled
with.  A table with one entry that does not pass is refused as a whole.

Only for the prices of groups are the entries of unknown models left out before the check
(`SanitizeGroupModelDiscountJSON`).  So a model that is no longer sold takes all discounts with
it, and a model that has been added to the catalog all extra prices; and the order of the rows
matters, because discounts may be for extra models.  `load_at` says what is in force after a
start, and `tables_survive` when that is what was saved.
-/

namespace UnifyConsole.Pricing

open Lib Lib.Text
open List Option

/-! ### The tables -/

abbrev NameMap (V : Type) := Table (Prod.fst : String × V → String)

/-- `ExtraModel`: prices in dollars for a million tokens. -/
structure ExtraModel where
  inputUSD : ℚ
  outputUSD : ℚ
  cacheReadUSD : ℚ
  cacheWriteUSD : ℚ
deriving DecidableEq

def ExtraModel.toCatalogEntry (x : ExtraModel) (model : String) : CatalogEntry :=
  ⟨model, x.inputUSD, x.outputUSD, x.cacheReadUSD, x.cacheWriteUSD, 0, 0, none⟩

/-- What a process prices with. -/
structure PriceTables where
  /-- `catalogIndex`. -/
  compiled : Catalog
  /-- `modelDiscountMap`. -/
  modelDiscounts : NameMap ℚ
  /-- `groupModelDiscountMap`. -/
  groupModelDiscounts : NameMap (NameMap ℚ)
  /-- `extraModelMap`. -/
  extraModels : NameMap ExtraModel

/-- `CatalogEntryFor`: compiled entries first. -/
def catalogEntryFor (compiled : Catalog) (extras : NameMap ExtraModel) (model : String) :
    Option CatalogEntry :=
  match compiled.entryFor model with
  | some e => some e
  | none => (extras.value? model).map fun x => x.toCatalogEntry model

def isCatalogued (compiled : Catalog) (extras : NameMap ExtraModel) (model : String) : Bool :=
  (catalogEntryFor compiled extras model).isSome

/-- `GetModelDiscount`, from a table. -/
def discountOf (discounts : NameMap ℚ) (model : String) : ℚ :=
  match discounts.value? (formatMatchingModelName model) with
  | some discount => if 0 < discount then discount else 1
  | none => 1

/-- `GetGroupModelDiscount`, from a table. -/
def groupDiscountOf (discounts : NameMap (NameMap ℚ)) (userGroup model : String) : Option ℚ :=
  ((discounts.value? userGroup).bind
    (fun models => models.value? (formatMatchingModelName model))).filter fun r => decide (0 < r)

def getModelDiscount (s : PriceTables) : String → ℚ := discountOf s.modelDiscounts

def getGroupModelDiscount (s : PriceTables) : String → String → Option ℚ :=
  groupDiscountOf s.groupModelDiscounts

/-! ### Checking -/

inductive DiscountProblem where
  | uncatalogued (model : String)
  | notPositive (model : String) (discount : ℚ)
  | exceedsBound (model : String) (discount bound : ℚ)
deriving DecidableEq

def discountProblem (catalogued : String → Bool) (bound : ℚ) (model : String) (discount : ℚ) :
    Option DiscountProblem :=
  if catalogued model = false then some (.uncatalogued model)
  else if discount ≤ 0 then some (.notPositive model discount)
  else if bound < discount then some (.exceedsBound model discount bound)
  else none

def maxModelDiscount : ℚ := 10

def maxGroupModelDiscount : ℚ := 10

/-- `ValidateModelDiscounts`: what is wrong, and the multipliers that are markups. -/
def validateModelDiscounts (catalogued : String → Bool) (discounts : NameMap ℚ) :
    List DiscountProblem × List (String × ℚ) :=
  (discounts.rows.filterMap (fun r => discountProblem catalogued maxModelDiscount r.1 r.2),
    discounts.rows.filter fun r =>
      decide (discountProblem catalogued maxModelDiscount r.1 r.2 = none ∧ 1 < r.2))

inductive GroupDiscountProblem where
  | emptyGroup
  | discount (group : String) (problem : DiscountProblem)
deriving DecidableEq

def validateGroupModelDiscounts (catalogued : String → Bool) (discounts : NameMap (NameMap ℚ)) :
    List GroupDiscountProblem :=
  discounts.rows.flatMap fun g =>
    if trimSpace g.1 = "" then [.emptyGroup]
    else g.2.rows.filterMap fun r =>
      (discountProblem catalogued maxGroupModelDiscount r.1 r.2).map (.discount g.1)

inductive ExtraProblem where
  | blankName
  | paddedName (name : String)
  | catalogued (name : String)
  | inputNotPositive (name : String) (price : ℚ)
  | outputNotPositive (name : String) (price : ℚ)
  | priceTooHigh (name : String) (bound : ℚ)
  | negativeCachePrice (name : String)
  | cacheReadAboveInput (name : String) (cacheRead input : ℚ)
deriving DecidableEq

def maxExtraPriceUSD : ℚ := 1000

def extraPriceProblems (name : String) (x : ExtraModel) : List ExtraProblem :=
  (if x.inputUSD ≤ 0 then [.inputNotPositive name x.inputUSD]
    else if x.outputUSD ≤ 0 then [.outputNotPositive name x.outputUSD]
    else if maxExtraPriceUSD < x.inputUSD ∨ maxExtraPriceUSD < x.outputUSD then
      [.priceTooHigh name maxExtraPriceUSD]
    else []) ++
  if x.cacheReadUSD < 0 ∨ x.cacheWriteUSD < 0 then [.negativeCachePrice name]
  else if x.inputUSD < x.cacheReadUSD then [.cacheReadAboveInput name x.cacheReadUSD x.inputUSD]
  else []

def validateExtraModels (compiled : Catalog) (extras : NameMap ExtraModel) : List ExtraProblem :=
  extras.rows.flatMap fun r =>
    if trimSpace r.1 = "" then [.blankName]
    else if r.1 ≠ trimSpace r.1 then [.paddedName r.1]
    else if (compiled.entryFor r.1).isSome then [.catalogued r.1]
    else extraPriceProblems r.1 r.2

/-! ### Updating -/

def updateModelDiscount (s : PriceTables) (discounts : NameMap ℚ) :
    Except (List DiscountProblem) PriceTables :=
  let problems := (validateModelDiscounts (isCatalogued s.compiled s.extraModels) discounts).1
  if problems ≠ [] then .error problems else .ok { s with modelDiscounts := discounts }

def updateGroupModelDiscount (s : PriceTables) (discounts : NameMap (NameMap ℚ)) :
    Except (List GroupDiscountProblem) PriceTables :=
  let problems := validateGroupModelDiscounts (isCatalogued s.compiled s.extraModels) discounts
  if problems ≠ [] then .error problems else .ok { s with groupModelDiscounts := discounts }

def updateExtraModels (s : PriceTables) (extras : NameMap ExtraModel) :
    Except (List ExtraProblem) PriceTables :=
  let problems := validateExtraModels s.compiled extras
  if problems ≠ [] then .error problems else .ok { s with extraModels := extras }

/-- The entries of catalogued models, in groups that have any. -/
def cleanGroups (catalogued : String → Bool) (discounts : NameMap (NameMap ℚ)) :
    NameMap (NameMap ℚ) :=
  (discounts.update (fun _ => true) (fun g => (g.1, g.2.delete fun r => !catalogued r.1))
    (fun _ => rfl)).delete fun g => g.2.rows.isEmpty

/-- `SanitizeGroupModelDiscountJSON`: the table, and what was left out. -/
def sanitizeGroupModelDiscount (catalogued : String → Bool) (discounts : NameMap (NameMap ℚ)) :
    NameMap (NameMap ℚ) × List String :=
  let dropped := discounts.rows.flatMap (fun g =>
    (g.2.rows.filter fun r => !catalogued r.1).map fun r => g.1 ++ " / " ++ r.1)
  (if dropped = [] then discounts else cleanGroups catalogued discounts, dropped)

/-! ### Loading -/

inductive OptionKey where
  | modelDiscount
  | groupModelDiscount
  | extraModelPricing
  | other (name : String)
deriving DecidableEq

inductive OptionRow where
  | modelDiscount (discounts : NameMap ℚ)
  | groupModelDiscount (discounts : NameMap (NameMap ℚ))
  | extraModelPricing (extras : NameMap ExtraModel)
  | other (name value : String)

def OptionRow.key : OptionRow → OptionKey
  | modelDiscount _ => .modelDiscount
  | groupModelDiscount _ => .groupModelDiscount
  | extraModelPricing _ => .extraModelPricing
  | other name _ => .other name

/-- One row of `loadOptionsFromDatabase`: a table that is refused leaves what is in force. -/
def loadOption (s : PriceTables) : OptionRow → PriceTables
  | .modelDiscount discounts => (updateModelDiscount s discounts).toOption.getD s
  | .groupModelDiscount discounts =>
    (updateGroupModelDiscount s
      (sanitizeGroupModelDiscount (isCatalogued s.compiled s.extraModels) discounts).1).toOption.getD s
  | .extraModelPricing extras => (updateExtraModels s extras).toOption.getD s
  | .other _ _ => s

/-- `loadOptionsFromDatabase`, for the rows in the order in which the database returns them. -/
def loadOptionsFromDatabase (s : PriceTables) (rows : List OptionRow) : PriceTables :=
  rows.foldl loadOption s

def startProcess (compiled : Catalog) : PriceTables := ⟨compiled, .empty, .empty, .empty⟩

/-! ### What was saved -/

/-- The row was accepted in some process, compiled with some catalog. -/
def OptionRow.Accepted (row : OptionRow) : Prop :=
  ∃ s : PriceTables, match row with
    | .modelDiscount discounts => ∃ s', updateModelDiscount s discounts = .ok s'
    | .groupModelDiscount discounts => ∃ s', updateGroupModelDiscount s discounts = .ok s'
    | .extraModelPricing extras => ∃ s', updateExtraModels s extras = .ok s'
    | .other _ _ => True

def OptionRow.discounts? : OptionRow → Option (NameMap ℚ)
  | modelDiscount t => some t
  | _ => none

def OptionRow.groupDiscounts? : OptionRow → Option (NameMap (NameMap ℚ))
  | groupModelDiscount t => some t
  | _ => none

def OptionRow.extras? : OptionRow → Option (NameMap ExtraModel)
  | extraModelPricing t => some t
  | _ => none

def discountsIn (rows : List OptionRow) : NameMap ℚ :=
  (rows.findSome? OptionRow.discounts?).getD .empty

def groupDiscountsIn (rows : List OptionRow) : NameMap (NameMap ℚ) :=
  (rows.findSome? OptionRow.groupDiscounts?).getD .empty

def extrasIn (rows : List OptionRow) : NameMap ExtraModel :=
  (rows.findSome? OptionRow.extras?).getD .empty

def rowsBefore (rows : List OptionRow) (key : OptionKey) : List OptionRow :=
  rows.takeWhile fun r => decide (r.key ≠ key)

/-- A model with a price: a compiled one, or a saved extra. -/
def Priced (compiled : Catalog) (rows : List OptionRow) (model : String) : Prop :=
  (compiled.entryFor model).isSome = true ∨ ((extrasIn rows).value? model).isSome = true

/-- What was saved is in force. -/
structure InForce (s : PriceTables) (rows : List OptionRow) : Prop where
  discounts : ∀ model, Priced s.compiled rows model →
    getModelDiscount s model = discountOf (discountsIn rows) model
  groupDiscounts : ∀ group model, Priced s.compiled rows model →
    getGroupModelDiscount s group model = groupDiscountOf (groupDiscountsIn rows) group model
  extras : ∀ name extra, (extrasIn rows).value? name = some extra →
    s.compiled.entryFor name = none →
    catalogEntryFor s.compiled s.extraModels name = some (extra.toCatalogEntry name)

/-! ### What survives -/

/-- The extra prices in force once the rows are read: all, or none if the catalog has one of them.
-/
def survivingExtras (compiled : Catalog) (rows : List OptionRow) : NameMap ExtraModel :=
  if (extrasIn rows).rows.any (fun r => (compiled.entryFor r.1).isSome) then .empty
  else extrasIn rows

/-- The tables that survive a start with a catalog. -/
structure Surviving (compiled : Catalog) (rows : List OptionRow) : Prop where
  /-- Every discount is for a model that is priced when the row is read, or there is none. -/
  discounts :
    (∀ r ∈ (discountsIn rows).rows,
      isCatalogued compiled (survivingExtras compiled (rowsBefore rows .modelDiscount)) r.1 = true) ∨
    ∀ model, Priced compiled rows model → discountOf (discountsIn rows) model = 1
  /-- The name that a group's price is looked up under is priced when the row is read. -/
  groupDiscounts : ∀ group model, Priced compiled rows model →
    groupDiscountOf (groupDiscountsIn rows) group model ≠ none →
    isCatalogued compiled (survivingExtras compiled (rowsBefore rows .groupModelDiscount))
      (formatMatchingModelName model) = true
  /-- The catalog has none of the extra models, or all of them. -/
  extras : (∀ r ∈ (extrasIn rows).rows, compiled.entryFor r.1 = none) ∨
    ∀ r ∈ (extrasIn rows).rows, (compiled.entryFor r.1).isSome = true

/-! ### Checks that do not read the catalog -/

section Checks

variable {s : PriceTables} {catalogued : String → Bool} {bound : ℚ}

theorem discountProblem_eq_none {model : String} {discount : ℚ} :
    discountProblem catalogued bound model discount = none ↔
      catalogued model = true ∧ 0 < discount ∧ discount ≤ bound := by
  unfold discountProblem
  split_ifs with h1 h2 h3
  · simp [h1]
  · simp [not_lt.mpr h2]
  · simp [not_le.mpr h3]
  · simp only [Bool.not_eq_false] at h1
    simp [h1, not_le.mp h2, not_lt.mp h3]

variable {s' : PriceTables}

/-- A change that is made when a list of problems is empty. -/
theorem ite_problems_eq_ok {E A : Type} {problems : List E} {a a' : A} {P : Prop}
    (hp : problems = [] ↔ P) :
    (if problems ≠ [] then .error problems else .ok a : Except (List E) A) = .ok a' ↔
      P ∧ a' = a := by
  rw [← hp]
  split
  · rename_i h
    simp [h]
  · rename_i h
    simp [not_not.mp h, eq_comm]

theorem updateModelDiscount_eq_ok {discounts : NameMap ℚ} :
    updateModelDiscount s discounts = .ok s' ↔
      (∀ r ∈ discounts.rows, isCatalogued s.compiled s.extraModels r.1 = true ∧ 0 < r.2 ∧
        r.2 ≤ maxModelDiscount) ∧ s' = { s with modelDiscounts := discounts } := by
  refine ite_problems_eq_ok ?_
  simp only [validateModelDiscounts, filterMap_eq_nil_iff, discountProblem_eq_none]

theorem updateExtraModels_eq_ok {extras : NameMap ExtraModel} :
    updateExtraModels s extras = .ok s' ↔
      (∀ r ∈ extras.rows, (trimSpace r.1 ≠ "" ∧ r.1 = trimSpace r.1 ∧
        extraPriceProblems r.1 r.2 = []) ∧ s.compiled.entryFor r.1 = none) ∧
      s' = { s with extraModels := extras } := by
  refine ite_problems_eq_ok ?_
  simp only [validateExtraModels, flatMap_eq_nil_iff]
  refine forall₂_congr (fun r _ => ?_)
  split_ifs with h1 h2 h3
  · simp [h1]
  · simp [h2]
  · simp [isSome_iff_ne_none.mp h3]
  · rw [Bool.not_eq_true, isSome_eq_false_iff, isNone_iff_eq_none] at h3
    exact ⟨fun hp => ⟨⟨h1, not_not.mp h2, hp⟩, h3⟩, fun hp => hp.1.2.2⟩

theorem updateGroupModelDiscount_eq_ok {discounts : NameMap (NameMap ℚ)} :
    updateGroupModelDiscount s discounts = .ok s' ↔
      (∀ g ∈ discounts.rows, trimSpace g.1 ≠ "" ∧ ∀ r ∈ g.2.rows,
        isCatalogued s.compiled s.extraModels r.1 = true ∧ 0 < r.2 ∧
          r.2 ≤ maxGroupModelDiscount) ∧ s' = { s with groupModelDiscounts := discounts } := by
  refine ite_problems_eq_ok ?_
  simp only [validateGroupModelDiscounts, flatMap_eq_nil_iff]
  refine forall₂_congr fun g _ => ?_
  split
  · rename_i h
    simp [h]
  · rename_i h
    simp only [filterMap_eq_nil_iff, map_eq_none_iff, discountProblem_eq_none]
    simp [h]

end Checks

/-! ### Leaving out the models that are gone -/

section Sanitize

variable {catalogued : String → Bool} {discounts : NameMap (NameMap ℚ)}

/-- What is left of an entry. -/
theorem value?_cleanGroups (group model : String) :
    ((cleanGroups catalogued discounts).value? group).bind (fun models => models.value? model) =
      if catalogued model then
        (discounts.value? group).bind (fun models => models.value? model) else none := by
  unfold cleanGroups
  rw [Table.value?, Table.find?_delete, Table.find?_update, Table.value?]
  cases hg : discounts.find? group with
  | none => simp
  | some g =>
    have hleft : ∀ models : NameMap ℚ, (models.delete fun r => !catalogued r.1).value? model =
        if catalogued model then models.value? model else none := by
      intro models
      rw [Table.value?_delete (fun name => !catalogued name)]
      cases catalogued model <;> rfl
    simp only [if_true, map_some, filter_some]
    cases hempty : (g.2.delete fun r => !catalogued r.1).rows.isEmpty with
    | false => simpa using hleft g.2
    | true =>
      -- a group without entries is left out
      have hnone : (g.2.delete fun r => !catalogued r.1).value? model = none := by
        rw [Table.value?, Table.find?, isEmpty_iff.mp hempty]
        rfl
      rw [hleft] at hnone
      simpa using hnone.symm

theorem value?_sanitize (group model : String) :
    ((sanitizeGroupModelDiscount catalogued discounts).1.value? group).bind
        (fun models => models.value? model) =
      if catalogued model then
        (discounts.value? group).bind (fun models => models.value? model) else none := by
  simp only [sanitizeGroupModelDiscount]
  split
  · rename_i hdropped
    split
    · rfl
    rename_i hmodel
    rw [bind_eq_none_iff]
    intro models hmodels
    rw [eq_none_iff_forall_ne_some]
    intro ratio hratio
    have hkept := flatMap_eq_nil_iff.mp hdropped (group, models)
      (Table.value?_eq_some_iff.mp hmodels)
    rw [map_eq_nil_iff, filter_eq_nil_iff] at hkept
    exact hkept (model, ratio) (Table.value?_eq_some_iff.mp hratio) (by simpa using hmodel)
  · exact value?_cleanGroups group model

/-- The entries that are kept are entries of catalogued models. -/
theorem mem_sanitize {g : String × NameMap ℚ}
    (hg : g ∈ (sanitizeGroupModelDiscount catalogued discounts).1.rows) :
    ∃ g' ∈ discounts.rows, g.1 = g'.1 ∧ ∀ r ∈ g.2.rows, r ∈ g'.2.rows ∧ catalogued r.1 = true := by
  simp only [sanitizeGroupModelDiscount] at hg
  split at hg
  · rename_i hdropped
    refine ⟨g, hg, rfl, ?_⟩
    intro r hr
    have hkept := flatMap_eq_nil_iff.mp hdropped g hg
    rw [map_eq_nil_iff, filter_eq_nil_iff] at hkept
    exact ⟨hr, by simpa using hkept r hr⟩
  obtain ⟨hg, -⟩ := Table.mem_delete.mp hg
  obtain ⟨g', hg', rfl⟩ := Table.mem_update.mp hg
  refine ⟨g', hg', rfl, ?_⟩
  intro r hr
  obtain ⟨hr, hkept⟩ := Table.mem_delete.mp hr
  exact ⟨hr, by simpa using hkept⟩

end Sanitize

/-! ### What a start leaves in force -/

section Load

variable {s : PriceTables} {rows : List OptionRow} {key : OptionKey} {r : OptionRow}

/-- A row changes at most the table of its key. -/
structure Framed (s s' : PriceTables) (key : OptionKey) : Prop where
  compiled : s'.compiled = s.compiled
  discounts : key ≠ .modelDiscount → s'.modelDiscounts = s.modelDiscounts
  groupDiscounts : key ≠ .groupModelDiscount → s'.groupModelDiscounts = s.groupModelDiscounts
  extras : key ≠ .extraModelPricing → s'.extraModels = s.extraModels

theorem framed_loadOption (s : PriceTables) (row : OptionRow) :
    Framed s (loadOption s row) row.key := by
  have hrefl : ∀ key, Framed s s key := fun _ => ⟨rfl, fun _ => rfl, fun _ => rfl, fun _ => rfl⟩
  cases row with
  | modelDiscount t =>
    rw [loadOption]
    cases h : updateModelDiscount s t with
    | error => exact hrefl _
    | ok =>
      obtain ⟨-, rfl⟩ := updateModelDiscount_eq_ok.mp h
      exact ⟨rfl, fun hk => absurd rfl hk, fun _ => rfl, fun _ => rfl⟩
  | groupModelDiscount t =>
    rw [loadOption]
    cases h : updateGroupModelDiscount s
        (sanitizeGroupModelDiscount (isCatalogued s.compiled s.extraModels) t).1 with
    | error e => exact hrefl _
    | ok s' =>
      obtain ⟨-, rfl⟩ := updateGroupModelDiscount_eq_ok.mp h
      exact ⟨rfl, fun _ => rfl, fun hk => absurd rfl hk, fun _ => rfl⟩
  | extraModelPricing t =>
    rw [loadOption]
    cases h : updateExtraModels s t with
    | error => exact hrefl _
    | ok =>
      obtain ⟨-, rfl⟩ := updateExtraModels_eq_ok.mp h
      exact ⟨rfl, fun _ => rfl, fun _ => rfl, fun hk => absurd rfl hk⟩
  | other => exact hrefl _

/-- A field that no row writes. -/
theorem load_field {A : Type} {f : PriceTables → A} (hf : ∀ s, ∀ r ∈ rows, f (loadOption s r) = f s) :
    f (loadOptionsFromDatabase s rows) = f s := by
  induction rows generalizing s with
  | nil => rfl
  | cons r rows ih =>
    show f (loadOptionsFromDatabase (loadOption s r) rows) = f s
    rw [ih (fun s x hx => hf s x (mem_cons_of_mem _ hx)), hf s r mem_cons_self]

theorem load_compiled : (loadOptionsFromDatabase s rows).compiled = s.compiled :=
  load_field fun s r _ => (framed_loadOption s r).compiled

variable (compiled : Catalog)

/-- A field that only the rows of a key write. -/
theorem load_at {A T : Type} {f : PriceTables → A} (row : T → OptionRow)
    (get : OptionRow → Option T) (hf : ∀ s r, r.key ≠ key → f (loadOption s r) = f s)
    (hget : ∀ r, (get r = none ∧ r.key ≠ key) ∨ ∃ t, get r = some t ∧ r = row t ∧ r.key = key)
    (hkeys : (rows.map OptionRow.key).Nodup) (hrows : ∀ r ∈ rows, r.Accepted) :
    (rows.findSome? get = none ∧
      f (loadOptionsFromDatabase (startProcess compiled) rows) = f (startProcess compiled)) ∨
    ∃ t s, rows.findSome? get = some t ∧ (row t).Accepted ∧
      s = loadOptionsFromDatabase (startProcess compiled) (rowsBefore rows key) ∧
      s.compiled = compiled ∧ f s = f (startProcess compiled) ∧
      f (loadOptionsFromDatabase (startProcess compiled) rows) = f (loadOption s (row t)) := by
  by_cases h : ∀ r ∈ rows, r.key ≠ key
  · refine .inl ⟨findSome?_eq_none_iff.mpr (fun r hr => ?_),
      load_field fun s r hr => hf s r (h r hr)⟩
    obtain ⟨hnone, -⟩ | ⟨-, -, -, hkey⟩ := hget r
    · exact hnone
    · exact absurd hkey (h r hr)
  push Not at h
  obtain ⟨r, hr, rfl⟩ := h
  obtain ⟨-, hne⟩ | ⟨t, ht, rfl, -⟩ := hget r
  · exact absurd rfl hne
  obtain ⟨before, after, rfl⟩ := append_of_mem hr
  rw [map_append, map_cons, nodup_append, nodup_cons] at hkeys
  obtain ⟨-, ⟨hafter, -⟩, hdistinct⟩ := hkeys
  have hbefore : ∀ r ∈ before, r.key ≠ (row t).key := fun r hr =>
    hdistinct r.key (mem_map_of_mem hr) _ mem_cons_self
  have hread : rowsBefore (before ++ row t :: after) (row t).key = before := by
    unfold rowsBefore
    rw [takeWhile_append_of_pos (by simpa using hbefore),
      takeWhile_cons_of_neg (by simp), append_nil]
  refine .inr ⟨t, _, ?_, hrows _ hr, rfl, load_compiled, ?_, ?_⟩
  · rw [findSome?_append, findSome?_eq_none_iff.mpr (fun r hr => ?_), none_or,
      findSome?_cons, ht]
    obtain ⟨hnone, -⟩ | ⟨-, -, -, hkey⟩ := hget r
    · exact hnone
    · exact absurd hkey (hbefore r hr)
  · rw [hread]
    exact load_field fun s r hr => hf s r (hbefore r hr)
  · rw [hread, loadOptionsFromDatabase, foldl_append, foldl_cons]
    exact load_field fun s r hr => hf s r fun he => hafter (he ▸ mem_map_of_mem hr)

/-- **Extra prices**: the table is in force, unless the catalog has one of its models. -/
theorem load_extras (hkeys : (rows.map OptionRow.key).Nodup) (hrows : ∀ r ∈ rows, r.Accepted) :
    (loadOptionsFromDatabase (startProcess compiled) rows).extraModels =
      survivingExtras compiled rows := by
  unfold survivingExtras extrasIn
  obtain ⟨hfind, hload⟩ | ⟨t, s, hfind, ⟨_, _, hsaved⟩, -, hcompiled, hempty, hload⟩ :=
    load_at compiled OptionRow.extraModelPricing OptionRow.extras?
      (fun s r => (framed_loadOption s r).extras)
      (fun r => by cases r <;> simp [OptionRow.extras?, OptionRow.key]) hkeys hrows
  · rw [hload, hfind]
    rfl
  have hchecked := (updateExtraModels_eq_ok.mp hsaved).1
  rw [hload, hfind, getD_some]
  split
  · rename_i hany
    obtain ⟨r, hr, hdefined⟩ := any_eq_true.mp hany
    cases h : updateExtraModels s t with
    | error => simp only [loadOption, h]; exact hempty
    | ok =>
      have := ((updateExtraModels_eq_ok.mp h).1 r hr).2
      rw [hcompiled] at this
      exact absurd hdefined (not_isSome_iff_eq_none.mpr this)
  rename_i hany
  have hok : updateExtraModels s t = .ok { s with extraModels := t } := by
    refine updateExtraModels_eq_ok.mpr ⟨?_, rfl⟩
    intro r hr
    refine ⟨(hchecked r hr).1, ?_⟩
    rw [hcompiled, ← not_isSome_iff_eq_none]
    exact fun he => hany (any_eq_true.mpr ⟨r, hr, he⟩)
  simp only [loadOption, hok]
  rfl

/-- The extra prices in force when the row of a key is read. -/
theorem load_extras_before (hkeys : (rows.map OptionRow.key).Nodup)
    (hrows : ∀ r ∈ rows, r.Accepted) (key : OptionKey) :
    (loadOptionsFromDatabase (startProcess compiled) (rowsBefore rows key)).extraModels =
      survivingExtras compiled (rowsBefore rows key) :=
  have hsub := takeWhile_sublist (l := rows) (fun r => decide (r.key ≠ key))
  load_extras compiled (hkeys.sublist (hsub.map _)) fun r hr => hrows r (hsub.subset hr)

/-- **Discounts**: the table is in force if all its models are priced when it is read. -/
theorem load_discounts (hkeys : (rows.map OptionRow.key).Nodup) (hrows : ∀ r ∈ rows, r.Accepted) :
    (loadOptionsFromDatabase (startProcess compiled) rows).modelDiscounts =
      if (discountsIn rows).rows.all (fun r => isCatalogued compiled
        (survivingExtras compiled (rowsBefore rows .modelDiscount)) r.1) then discountsIn rows
      else .empty := by
  unfold discountsIn
  obtain ⟨hfind, hload⟩ | ⟨t, s, hfind, ⟨_, _, hsaved⟩, rfl, hcompiled, hempty, hload⟩ :=
    load_at compiled OptionRow.modelDiscount OptionRow.discounts?
      (fun s r => (framed_loadOption s r).discounts)
      (fun r => by cases r <;> simp [OptionRow.discounts?, OptionRow.key]) hkeys hrows
  · rw [hload, hfind]
    rfl
  have hchecked := (updateModelDiscount_eq_ok.mp hsaved).1
  rw [hload, hfind, getD_some, ← load_extras_before compiled hkeys hrows]
  generalize loadOptionsFromDatabase (startProcess compiled) _ = s at hcompiled hempty
  split
  · rename_i hall
    have hok : updateModelDiscount s t = .ok { s with modelDiscounts := t } := by
      refine updateModelDiscount_eq_ok.mpr ⟨?_, rfl⟩
      intro r hr
      rw [hcompiled]
      exact ⟨all_eq_true.mp hall r hr, (hchecked r hr).2⟩
    simp only [loadOption, hok]
    rfl
  rename_i hall
  cases h : updateModelDiscount s t with
  | error => simp only [loadOption, h]; exact hempty
  | ok =>
    refine absurd (all_eq_true.mpr fun r hr => ?_) hall
    rw [← hcompiled]
    exact ((updateModelDiscount_eq_ok.mp h).1 r hr).1

/-- **Prices of groups**: an entry is in force if its model is priced when the table is read. -/
theorem load_groupDiscounts (hkeys : (rows.map OptionRow.key).Nodup)
    (hrows : ∀ r ∈ rows, r.Accepted) (group model : String) :
    getGroupModelDiscount (loadOptionsFromDatabase (startProcess compiled) rows) group model =
      if isCatalogued compiled (survivingExtras compiled (rowsBefore rows .groupModelDiscount))
        (formatMatchingModelName model) then groupDiscountOf (groupDiscountsIn rows) group model
      else none := by
  unfold getGroupModelDiscount groupDiscountsIn
  obtain ⟨hfind, hload⟩ | ⟨t, s, hfind, ⟨_, _, hsaved⟩, rfl, hcompiled, -, hload⟩ :=
    load_at compiled OptionRow.groupModelDiscount OptionRow.groupDiscounts?
      (fun s r => (framed_loadOption s r).groupDiscounts)
      (fun r => by cases r <;> simp [OptionRow.groupDiscounts?, OptionRow.key]) hkeys hrows
  · rw [hload, hfind]
    split <;> rfl
  have hchecked := (updateGroupModelDiscount_eq_ok.mp hsaved).1
  rw [hload, hfind, getD_some, ← load_extras_before compiled hkeys hrows]
  generalize loadOptionsFromDatabase (startProcess compiled) _ = s at hcompiled
  rw [← hcompiled]
  -- what is left passes the check
  have hok : updateGroupModelDiscount s
      (sanitizeGroupModelDiscount (isCatalogued s.compiled s.extraModels) t).1 =
      .ok { s with groupModelDiscounts :=
        (sanitizeGroupModelDiscount (isCatalogued s.compiled s.extraModels) t).1 } := by
    refine updateGroupModelDiscount_eq_ok.mpr ⟨?_, rfl⟩
    intro g hg
    obtain ⟨g', hg', hname, hentries⟩ := mem_sanitize hg
    obtain ⟨hblank, hratios⟩ := hchecked g' hg'
    refine ⟨hname ▸ hblank, ?_⟩
    intro r hr
    obtain ⟨hr', hcatalogued⟩ := hentries r hr
    exact ⟨hcatalogued, (hratios r hr').2⟩
  simp only [loadOption, hok, Except.toOption, getD_some, groupDiscountOf,
    value?_sanitize]
  split <;> rfl

end Load

/-- **When stored price tables survive a change of the catalog**: if and only if no discount is for
a model without a price when the discounts are read (or they say nothing about the models there
are), every price of a group is under a name with a price when the groups are read, and the catalog
has none of the extra models or all of them. -/
theorem tables_survive (compiled : Catalog) (rows : Table OptionRow.key)
    (hrows : ∀ r ∈ rows.rows, r.Accepted) :
    InForce (loadOptionsFromDatabase (startProcess compiled) rows.rows) rows.rows ↔
      Surviving compiled rows.rows := by
  have hcompiled : (loadOptionsFromDatabase (startProcess compiled) rows.rows).compiled = compiled :=
    load_compiled
  have hdiscounts := load_discounts compiled rows.nodup hrows
  have hgroups := load_groupDiscounts compiled rows.nodup hrows
  have hextras := load_extras compiled rows.nodup hrows
  have hempty : ∀ model, discountOf .empty model = 1 := fun _ => rfl
  constructor
  · intro h
    refine ⟨?_, ?_, ?_⟩
    · split at hdiscounts
      · rename_i hall
        exact .inl fun r hr => all_eq_true.mp hall r hr
      refine .inr ?_
      intro model hmodel
      have := h.discounts model (hcompiled.symm ▸ hmodel)
      rw [getModelDiscount, hdiscounts, hempty] at this
      exact this.symm
    · intro group model hmodel hsaved
      by_contra hgone
      have := h.groupDiscounts group model (hcompiled.symm ▸ hmodel)
      rw [hgroups, if_neg hgone] at this
      exact hsaved this.symm
    by_cases hany : (extrasIn rows.rows).rows.any (fun r => (compiled.entryFor r.1).isSome) = true
    · refine .inr ?_
      intro r hr
      by_contra hnone
      rw [Bool.not_eq_true, isSome_eq_false_iff, isNone_iff_eq_none] at hnone
      have := h.extras r.1 r.2 (Table.value?_eq_some_iff.mpr hr) (by rw [hcompiled]; exact hnone)
      rw [hextras, survivingExtras, if_pos hany, hcompiled, catalogEntryFor, hnone] at this
      cases this
    · refine .inl ?_
      intro r hr
      rw [eq_none_iff_forall_ne_some]
      intro e he
      exact hany (any_eq_true.mpr ⟨r, hr, by rw [he]; rfl⟩)
  intro h
  refine ⟨?_, ?_, ?_⟩
  · intro model hmodel
    rw [hcompiled] at hmodel
    rw [getModelDiscount, hdiscounts]
    split
    · rfl
    rename_i hall
    rcases h.discounts with hpriced | hone
    · exact absurd (all_eq_true.mpr hpriced) hall
    · rw [hempty, hone model hmodel]
  · intro group model hmodel
    rw [hcompiled] at hmodel
    rw [hgroups]
    split
    · rfl
    · rename_i hgone
      by_contra hsaved
      exact hgone (h.groupDiscounts group model hmodel (Ne.symm hsaved))
  · intro name extra hsaved hnone
    rw [hcompiled] at hnone
    have hmem := Table.value?_eq_some_iff.mp hsaved
    rw [hextras, hcompiled, catalogEntryFor, hnone, survivingExtras]
    rcases h.extras with hfree | htaken
    · rw [if_neg]
      · dsimp only
        rw [hsaved, map_some]
      intro hany
      obtain ⟨r, hr, hdefined⟩ := any_eq_true.mp hany
      rw [hfree r hr] at hdefined
      cases hdefined
    · have := htaken _ hmem
      rw [hnone] at this
      cases this

def catalogOf (names : List String) (hnames : names.Nodup) : Catalog :=
  ⟨names.map (fun name => ⟨name, 2, 8, 0, 0, 0, 0, none⟩), by
    rw [List.map_map]
    simpa [Function.comp_def] using hnames⟩

def oldCatalog : Catalog := catalogOf ["alpha", "beta"] (by decide)

def newCatalog : Catalog := catalogOf ["alpha", "gamma"] (by decide)

def widerCatalog : Catalog := catalogOf ["alpha", "beta", "gamma"] (by decide)

def lastingRows : Table OptionRow.key :=
  ⟨[.extraModelPricing ⟨[("delta", ⟨1, 4, 0, 0⟩)], by decide⟩,
    .groupModelDiscount ⟨[("acme", ⟨[("alpha", 4 / 5), ("beta", 7 / 10)], by decide⟩)], by simp⟩,
    .modelDiscount ⟨[("alpha", 1 / 2), ("delta", 9 / 10)], by decide⟩], by decide⟩

def staleRows : Table OptionRow.key :=
  ⟨[.extraModelPricing ⟨[("delta", ⟨1, 4, 0, 0⟩), ("gamma", ⟨3, 9, 0, 0⟩)], by decide⟩,
    .modelDiscount ⟨[("alpha", 1 / 2), ("beta", 9 / 10)], by decide⟩], by decide⟩

def oldProcess (rows : Table OptionRow.key) : PriceTables :=
  { startProcess oldCatalog with extraModels := extrasIn rows.rows }

theorem accepted_lastingRows : ∀ r ∈ lastingRows.rows, r.Accepted := by
  intro r hr
  simp only [lastingRows, mem_cons, not_mem_nil, or_false] at hr
  obtain rfl | rfl | rfl := hr
  · exact ⟨oldProcess lastingRows, _, updateExtraModels_eq_ok.mpr ⟨by decide +kernel, rfl⟩⟩
  · exact ⟨oldProcess lastingRows, _, updateGroupModelDiscount_eq_ok.mpr ⟨by decide +kernel, rfl⟩⟩
  · exact ⟨oldProcess lastingRows, _, updateModelDiscount_eq_ok.mpr ⟨by decide +kernel, rfl⟩⟩

/-- A group's price is an entry of the table. -/
theorem exists_entry_of_groupDiscountOf {discounts : NameMap (NameMap ℚ)} {group model : String}
    (h : groupDiscountOf discounts group model ≠ none) :
    ∃ g ∈ discounts.rows, ∃ r ∈ g.2.rows, r.1 = formatMatchingModelName model := by
  obtain ⟨ratio, hratio⟩ := ne_none_iff_exists'.mp h
  obtain ⟨models, hmodels, hvalue⟩ :=
    bind_eq_some_iff.mp (filter_eq_some_iff.mp hratio).1
  exact ⟨_, Table.value?_eq_some_iff.mp hmodels, _, Table.value?_eq_some_iff.mp hvalue, rfl⟩

theorem tables_survive_lastingRows :
    (∀ r ∈ lastingRows.rows, r.Accepted) ∧
    InForce (loadOptionsFromDatabase (startProcess widerCatalog) lastingRows.rows)
      lastingRows.rows := by
  have hentries : ∀ g ∈ (groupDiscountsIn lastingRows.rows).rows, ∀ r ∈ g.2.rows,
      isCatalogued widerCatalog
        (survivingExtras widerCatalog (rowsBefore lastingRows.rows .groupModelDiscount)) r.1 =
          true := by
    decide +kernel
  refine ⟨accepted_lastingRows, (tables_survive widerCatalog lastingRows accepted_lastingRows).mpr
    ⟨.inl (by decide +kernel), ?_, .inl (by decide +kernel)⟩⟩
  intro group model _ hsaved
  obtain ⟨g, hg, r, hr, hname⟩ := exists_entry_of_groupDiscountOf hsaved
  rw [← hname]
  exact hentries g hg r hr

/-- **One entry disables the others**: alpha is sold without its discount, and delta has no price.
-/
theorem stale_entry_disables_others :
    (∀ r ∈ staleRows.rows, r.Accepted) ∧
    (let s := loadOptionsFromDatabase (startProcess newCatalog) staleRows.rows
    discountOf (discountsIn staleRows.rows) "alpha" = 1 / 2 ∧ getModelDiscount s "alpha" = 1 ∧
      (extrasIn staleRows.rows).value? "delta" = some ⟨1, 4, 0, 0⟩ ∧
      catalogEntryFor s.compiled s.extraModels "delta" = none) := by
  refine ⟨?_, by decide +kernel, by decide +kernel, by decide +kernel, by decide +kernel⟩
  intro r hr
  simp only [staleRows, mem_cons, not_mem_nil, or_false] at hr
  obtain rfl | rfl := hr
  · exact ⟨oldProcess staleRows, _, updateExtraModels_eq_ok.mpr ⟨by decide +kernel, rfl⟩⟩
  · exact ⟨oldProcess staleRows, _, updateModelDiscount_eq_ok.mpr ⟨by decide +kernel, rfl⟩⟩

end UnifyConsole.Pricing
