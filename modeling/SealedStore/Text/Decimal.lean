/-!
# Bounded decimal numbers

A number is written in decimal digits, at least one, after at most one plus sign; leading zeros mean
nothing. Reading stops at the first digit that is none, or that takes the number over its bound.
-/

namespace SealedStore.Decimal

/-- Why a text is no number. -/
inductive Defect where
  | empty
  | invalidDigit
  | tooLarge
  deriving DecidableEq, Repr

/-- The wording of a defect. -/
def Defect.message : Defect → String
  | .empty => "cannot parse integer from empty string"
  | .invalidDigit => "invalid digit found in string"
  | .tooLarge => "number too large to fit in target type"

/-- The value of a decimal digit. -/
def digit? (char : Char) : Option Nat :=
  if '0' ≤ char ∧ char ≤ '9' then some (char.toNat - '0'.toNat) else none

/-- The number that the digits go on to spell after `value`. -/
def readDigits (bound value : Nat) : List Char → Except Defect Nat
  | [] => .ok value
  | char :: rest =>
      match digit? char with
      | none => .error .invalidDigit
      | some digit =>
          if value * 10 + digit ≤ bound then readDigits bound (value * 10 + digit) rest
          else .error .tooLarge

/-- The number, at most `bound`, that the characters spell. -/
def read (bound : Nat) : List Char → Except Defect Nat
  | [] => .error .empty
  | ['+'] => .error .invalidDigit
  | '+' :: digits => readDigits bound 0 digits
  | digits => readDigits bound 0 digits

/-- The digits of a number. -/
def write (number : Nat) : String :=
  Nat.repr number

end SealedStore.Decimal
