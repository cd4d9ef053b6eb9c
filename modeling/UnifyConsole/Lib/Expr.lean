import Mathlib

/-!
# Price expressions

A small language of price expressions over variables of any type: numbers, variables, sums and
products, a conditional on a comparison, and a call that names the amount it passes on.  The
calls made on the way are the trace of an evaluation.

`weighted` is the expression that sums variables with their prices, which is what a price list
comes down to; `value_weighted` and `mem_vars_weighted` say what it evaluates to and which
variables it names.
-/

namespace UnifyConsole.Lib

inductive Expr (V : Type) where
  | number (q : ℚ)
  | var (v : V)
  | add (a b : Expr V)
  | mul (a b : Expr V)
  | call (name : String) (arg : Expr V)
  | ifLe (a b yes no : Expr V)
deriving DecidableEq

namespace Expr

variable {V : Type}

/-- The value of an expression, and the calls made while it was evaluated. -/
def eval (env : V → ℚ) : Expr V → ℚ × List (String × ℚ)
  | number q => (q, [])
  | var v => (env v, [])
  | add a b => ((a.eval env).1 + (b.eval env).1, (a.eval env).2 ++ (b.eval env).2)
  | mul a b => ((a.eval env).1 * (b.eval env).1, (a.eval env).2 ++ (b.eval env).2)
  | call name arg => ((arg.eval env).1, (arg.eval env).2 ++ [(name, (arg.eval env).1)])
  | ifLe a b yes no =>
    let chosen := if (a.eval env).1 ≤ (b.eval env).1 then yes.eval env else no.eval env
    (chosen.1, (a.eval env).2 ++ (b.eval env).2 ++ chosen.2)

def value (env : V → ℚ) (e : Expr V) : ℚ := (e.eval env).1

def vars : Expr V → List V
  | number _ => []
  | var v => [v]
  | add a b => a.vars ++ b.vars
  | mul a b => a.vars ++ b.vars
  | call _ arg => arg.vars
  | ifLe a b yes no => a.vars ++ b.vars ++ yes.vars ++ no.vars

/-- `v₀ * q₀ + v₁ * q₁ + …`. -/
def weighted (first : V × ℚ) (rest : List (V × ℚ)) : Expr V :=
  rest.foldl (fun e t => add e (mul (var t.1) (number t.2))) (mul (var first.1) (number first.2))

theorem eval_weighted (env : V → ℚ) (first : V × ℚ) (rest : List (V × ℚ)) :
    (weighted first rest).eval env =
      (env first.1 * first.2 + (rest.map fun t => env t.1 * t.2).sum, []) := by
  unfold weighted
  have hfold : ∀ (rest : List (V × ℚ)) (e : Expr V), (e.eval env).2 = [] →
      (rest.foldl (fun e t => add e (mul (var t.1) (number t.2))) e).eval env =
        ((e.eval env).1 + (rest.map fun t => env t.1 * t.2).sum, []) := by
    intro rest
    induction rest with
    | nil =>
      intro e he
      simp [← he]
    | cons t rest ih =>
      intro e he
      rw [List.foldl_cons, ih _ (by simp [eval, he])]
      simp only [eval, List.map_cons, List.sum_cons, add_assoc]
  exact hfold rest _ rfl

theorem value_weighted (env : V → ℚ) (first : V × ℚ) (rest : List (V × ℚ)) :
    (weighted first rest).value env =
      env first.1 * first.2 + (rest.map fun t => env t.1 * t.2).sum := by
  rw [value, eval_weighted]

theorem mem_vars_weighted {first : V × ℚ} {rest : List (V × ℚ)} {v : V} :
    v ∈ (weighted first rest).vars ↔ v = first.1 ∨ v ∈ rest.map Prod.fst := by
  unfold weighted
  have hfold : ∀ (rest : List (V × ℚ)) (e : Expr V),
      v ∈ (rest.foldl (fun e t => add e (mul (var t.1) (number t.2))) e).vars ↔
        v ∈ e.vars ∨ v ∈ rest.map Prod.fst := by
    intro rest
    induction rest with
    | nil =>
      intro e
      simp
    | cons t rest ih =>
      intro e
      rw [List.foldl_cons, ih]
      simp [vars, or_assoc]
  rw [hfold]
  simp [vars]

end Expr

end UnifyConsole.Lib
