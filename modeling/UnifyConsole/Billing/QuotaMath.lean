import Mathlib.Algebra.Order.Floor.Ring
import Mathlib.Data.Rat.Floor
import Mathlib.Tactic.Linarith

/-!
# From prices to quota

`common/quota_math.go`: a price is computed as a decimal, rounded half away from
zero and cut off at the range of a 32-bit column.  Decimals are exact, so they
are rationals here; a decimal is never the float that is not a number.
-/

namespace UnifyConsole.Billing

def maxQuota : Int := 2147483647

def minQuota : Int := -2147483648

inductive QuotaClampKind where
  | overflow
  | underflow
deriving DecidableEq

structure QuotaClamp where
  op : String
  kind : QuotaClampKind
  original : Int
  clamped : Int
deriving DecidableEq

/-- `decimal.Round(0)`. -/
def roundDecimal (d : ℚ) : Int := if 0 ≤ d then ⌊d + 1 / 2⌋ else -⌊-d + 1 / 2⌋

/-- The conversion of a number to an integer: what is behind the point is cut off. -/
def truncate (d : ℚ) : Int := if 0 ≤ d then ⌊d⌋ else -⌊-d⌋

def saturateQuota (value : Int) (op : String) : Int × Option QuotaClamp :=
  if maxQuota ≤ value then (maxQuota, some ⟨op, .overflow, value, maxQuota⟩)
  else if value ≤ minQuota then (minQuota, some ⟨op, .underflow, value, minQuota⟩)
  else (value, none)

def quotaFromDecimalChecked (d : ℚ) : Int × Option QuotaClamp :=
  saturateQuota (roundDecimal d) "QuotaFromDecimal"

variable {d : ℚ}

theorem roundDecimal_nonneg (h : 0 ≤ d) : 0 ≤ roundDecimal d := by
  rw [roundDecimal, if_pos h]
  exact Int.floor_nonneg.mpr (by linarith)

theorem roundDecimal_eq_zero (h : 0 ≤ d) : roundDecimal d = 0 ↔ d < 1 / 2 := by
  rw [roundDecimal, if_pos h, Int.floor_eq_zero_iff, Set.mem_Ico]
  constructor
  · rintro ⟨-, hlt⟩
    linarith
  · intro hlt
    constructor <;> linarith

theorem saturateQuota_nonneg {value : Int} (h : 0 ≤ value) (op : String) :
    0 ≤ (saturateQuota value op).1 := by
  unfold saturateQuota minQuota maxQuota
  split
  · show (0 : Int) ≤ 2147483647
    decide
  · split
    · omega
    · exact h

theorem saturateQuota_eq_zero {value : Int} (op : String) :
    (saturateQuota value op).1 = 0 ↔ value = 0 := by
  unfold saturateQuota minQuota maxQuota
  split
  · simp only [Int.reduceEq, false_iff]
    omega
  split
  · simp only [Int.reduceNeg, Int.reduceEq, false_iff]
    omega
  · rfl

theorem quotaFromDecimalChecked_nonneg (h : 0 ≤ d) : 0 ≤ (quotaFromDecimalChecked d).1 :=
  saturateQuota_nonneg (roundDecimal_nonneg h) _

/-- A decimal that is not negative becomes nothing exactly below a half. -/
theorem quotaFromDecimalChecked_eq_zero (h : 0 ≤ d) :
    (quotaFromDecimalChecked d).1 = 0 ↔ d < 1 / 2 := by
  unfold quotaFromDecimalChecked
  rw [saturateQuota_eq_zero, roundDecimal_eq_zero h]

end UnifyConsole.Billing
