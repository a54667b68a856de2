import Confos.Library.Text
import Mathlib.Algebra.Group.Nat.Defs

/-!
# Decimal numerals

The number that a run of ASCII digits stands for, and how a machine word is
read off a text.
-/

namespace Confos.Library.Numerals

/-- The number that some digits stand for, the highest first. -/
def decimalValue (digits : List Char) : Nat :=
  Nat.ofDigitChars 10 digits 0

/-- A text of digits, at least one. -/
def IsNumeral (text : List Char) : Prop :=
  text ≠ [] ∧ ∀ char ∈ text, char.isDigit = true

instance (text : List Char) : Decidable (IsNumeral text) :=
  decidable_of_iff (text ≠ [] ∧ text.all Char.isDigit = true) <| by
    rw [IsNumeral, List.all_eq_true]

def withoutPlus : List Char → List Char
  | '+' :: text => text
  | text => text

/-- A number of a word in Rust: a plus sign is taken, and it must fit. -/
def parseWord (width : Nat) (text : List Char) : Option Nat :=
  let digits := withoutPlus text
  if IsNumeral digits ∧ decimalValue digits < 2 ^ width then
    some (decimalValue digits)
  else
    none

def parseU64 (text : List Char) : Option Nat :=
  parseWord 64 text

theorem withoutPlus_of_isNumeral
    {digits : List Char} (numeral : IsNumeral digits) :
    withoutPlus digits = digits := by
  rw [withoutPlus.eq_def]
  split
  · next rest =>
      have isDigit := numeral.2 '+' List.mem_cons_self
      cases isDigit
  · rfl

/-- Digits are read as the number they stand for, if it fits. -/
theorem parseU64_of_isNumeral
    {digits : List Char} (numeral : IsNumeral digits) :
    parseU64 digits =
      if decimalValue digits < 2 ^ 64 then some (decimalValue digits)
      else none := by
  rw [parseU64, parseWord, withoutPlus_of_isNumeral numeral]
  simp only [numeral, true_and]

end Confos.Library.Numerals
