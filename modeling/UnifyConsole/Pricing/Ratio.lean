import Mathlib
import UnifyConsole.Lib.Table
import UnifyConsole.Lib.Text
import UnifyConsole.Pricing.Expression

/-!
# The catalog by name

`setting/ratio_setting` keeps the catalog by the names of its models.  Some names stand for a
family: `FormatMatchingModelName` turns the name of a request into the one that the tables have.
-/

namespace UnifyConsole.Pricing

open Lib Lib.Text

/-! ### The catalog -/

abbrev Catalog := Table CatalogEntry.model

def Catalog.entryFor (catalog : Catalog) (model : String) : Option CatalogEntry :=
  catalog.find? model

/-! ### Names -/

def handleThinkingBudgetModel (name start wildcard : String) : String :=
  if hasPrefix name start && contains name "-thinking-" then wildcard else name

def formatMatchingModelName (name : String) : String :=
  let name :=
    if hasPrefix name "gemini-2.5-flash-lite" then
      handleThinkingBudgetModel name "gemini-2.5-flash-lite" "gemini-2.5-flash-lite-thinking-*"
    else if hasPrefix name "gemini-2.5-flash" then
      handleThinkingBudgetModel name "gemini-2.5-flash" "gemini-2.5-flash-thinking-*"
    else if hasPrefix name "gemini-2.5-pro" then
      handleThinkingBudgetModel name "gemini-2.5-pro" "gemini-2.5-pro-thinking-*"
    else name
  let name := if hasPrefix name "gpt-4-gizmo" then "gpt-4-gizmo-*" else name
  if hasPrefix name "gpt-4o-gizmo" then "gpt-4o-gizmo-*" else name

end UnifyConsole.Pricing
