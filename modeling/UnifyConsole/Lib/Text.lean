import Mathlib

/-!
# Text functions of the Go library

`strings.HasPrefix` and its kin, `strings.TrimSpace`, `strconv.Itoa` and `strconv.Atoi`.  `Itoa`
is `toString`; `atoi_toString` says that `Atoi` reads it back.
-/

namespace UnifyConsole.Lib.Text

def hasPrefix (text start : String) : Bool := start.toList.isPrefixOf text.toList

def hasSuffix (text ending : String) : Bool := ending.toList.isSuffixOf text.toList

def contains (text part : String) : Bool := decide (part.toList <:+: text.toList)

def isSpace (c : Char) : Bool :=
  let n := c.toNat
  decide (9 ≤ n ∧ n ≤ 13) || n == 32 || n == 0x85 || n == 0xa0 || n == 0x1680 ||
    decide (0x2000 ≤ n ∧ n ≤ 0x200a) || n == 0x2028 || n == 0x2029 || n == 0x202f || n == 0x205f ||
    n == 0x3000

def trimSpace (text : String) : String :=
  String.ofList ((text.toList.dropWhile isSpace).reverse.dropWhile isSpace).reverse

theorem trimSpace_trimSpace (text : String) : trimSpace (trimSpace text) = trimSpace text := by
  have hkey : ∀ l : List Char, List.dropWhile isSpace (List.rdropWhile isSpace
      (List.dropWhile isSpace l)) = List.rdropWhile isSpace (List.dropWhile isSpace l) := by
    intro l
    rcases (List.rdropWhile_prefix isSpace (List.dropWhile isSpace l)) with ⟨rest, hrest⟩
    cases hr : List.rdropWhile isSpace (List.dropWhile isSpace l) with
    | nil => rfl
    | cons c =>
      rw [hr, List.cons_append] at hrest
      have hc : isSpace c = false := by
        have := List.head?_dropWhile_not isSpace l
        rw [← hrest] at this
        exact this
      exact List.dropWhile_cons_of_neg (by simp [hc])
  unfold trimSpace
  rw [String.toList_ofList]
  exact congrArg String.ofList ((congrArg (List.rdropWhile isSpace) (hkey text.toList)).trans
    (List.rdropWhile_idempotent isSpace _))

/-- `strings.Split` at a single character. -/
def split (text : String) (separator : Char) : List String :=
  (text.toList.splitOn separator).map String.ofList

/-- `strings.ReplaceAll` on characters; every round takes at least one of them. -/
def replaceChars (old new : List Char) : ℕ → List Char → List Char
  | 0, text => text
  | _ + 1, [] => []
  | fuel + 1, c :: rest =>
    if old.isPrefixOf (c :: rest) then new ++ replaceChars old new fuel ((c :: rest).drop old.length)
    else c :: replaceChars old new fuel rest

/-- `strings.ReplaceAll` for a text `old` that is not empty. -/
def replaceAll (text old new : String) : String :=
  String.ofList (replaceChars old.toList new.toList text.toList.length text.toList)

def decimal (digits : List Char) : Option Nat :=
  if digits ≠ [] ∧ digits.all Char.isDigit = true then some (Nat.ofDigitChars 10 digits 0) else none

def fitsInt (n : Int) : Prop := -2 ^ 63 ≤ n ∧ n < 2 ^ 63

instance (n : Int) : Decidable (fitsInt n) := inferInstanceAs (Decidable (-2 ^ 63 ≤ n ∧ n < 2 ^ 63))

def signed : List Char → Option Int
  | [] => none
  | c :: digits =>
    if c = '+' then (decimal digits).map Int.ofNat
    else if c = '-' then (decimal digits).map fun n => -Int.ofNat n
    else (decimal (c :: digits)).map Int.ofNat

def atoi (text : String) : Option Int :=
  (signed text.toList).filter fun n => decide (fitsInt n)

theorem decimal_toDigits (n : Nat) : decimal (Nat.toDigits 10 n) = some n := by
  unfold decimal
  have hne : Nat.toDigits 10 n ≠ [] := Nat.toDigits_ne_nil
  have hdigits : (Nat.toDigits 10 n).all Char.isDigit = true :=
    List.all_eq_true.mpr fun c hc => Nat.isDigit_of_mem_toDigits (by omega) (by omega) hc
  rw [if_pos ⟨hne, hdigits⟩, Nat.ofDigitChars_toDigits (by omega) (by omega)]

theorem signed_toDigits (n : Nat) : signed (Nat.toDigits 10 n) = some (Int.ofNat n) := by
  have hdigit : ∀ c ∈ Nat.toDigits 10 n, c.isDigit = true :=
    fun c hc => Nat.isDigit_of_mem_toDigits (by omega) (by omega) hc
  have hdecimal := decimal_toDigits n
  cases hn : Nat.toDigits 10 n with
  | nil => exact absurd hn Nat.toDigits_ne_nil
  | cons c =>
    rw [hn] at hdigit hdecimal
    have hc := hdigit c List.mem_cons_self
    have hplus : c ≠ '+' := by
      rintro rfl
      exact absurd hc (by decide)
    have hminus : c ≠ '-' := by
      rintro rfl
      exact absurd hc (by decide)
    simp only [signed, if_neg hplus, if_neg hminus, hdecimal, Option.map_some]

theorem signed_toString (n : Int) : signed (toString n).toList = some n := by
  cases n with
  | ofNat m =>
    show signed (Nat.repr m).toList = _
    rw [Nat.repr_eq_ofList_toDigits, String.toList_ofList, signed_toDigits]
  | negSucc m =>
    show signed ("-" ++ Nat.repr (m + 1)).toList = _
    have hminus : "-".toList = ['-'] := rfl
    rw [String.toList_append, hminus, Nat.repr_eq_ofList_toDigits, String.toList_ofList,
      List.singleton_append]
    simp only [signed, decimal_toDigits]
    rfl

/-- `Atoi` reads back what `Itoa` writes. -/
theorem atoi_toString {n : Int} (h : fitsInt n) : atoi (toString n) = some n := by
  unfold atoi
  rw [signed_toString, Option.filter_some, if_pos (by simpa using h)]

end UnifyConsole.Lib.Text
