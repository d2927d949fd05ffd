/-!
Unsigned integers written in a positional notation of radix at most 36. Reading goes from left to
right and stops at the first fault, so of an alien character and an overflow the earlier one is told.
-/

namespace ModuleCompiler

/-- The value of a digit below the radix; letters continue after `9` in either case. -/
def digitValue? (radix : Nat) (c : Char) : Option Nat :=
  let v :=
    if '0' ≤ c ∧ c ≤ '9' then c.toNat - '0'.toNat
    else if 'a' ≤ c ∧ c ≤ 'z' then c.toNat - 'a'.toNat + 10
    else if 'A' ≤ c ∧ c ≤ 'Z' then c.toNat - 'A'.toNat + 10
    else radix
  if v < radix then some v else none

inductive DigitsError where
  | empty
  | invalidDigit
  | tooLarge
  deriving DecidableEq, Repr

def DigitsError.message : DigitsError → String
  | empty => "cannot parse integer from empty string"
  | invalidDigit => "invalid digit found in string"
  | tooLarge => "number too large to fit in target type"

/-- Continues a number whose digits so far are worth `acc`. -/
def readDigits (radix bound : Nat) : Nat → List Char → Except DigitsError Nat
  | acc, [] => .ok acc
  | acc, c :: cs =>
    match digitValue? radix c with
    | none => .error .invalidDigit
    | some d =>
      let next := acc * radix + d
      if next ≤ bound then readDigits radix bound next cs else .error .tooLarge

/-- One or more digits after an optional `+`, worth at most `bound`. -/
def readUnsigned (radix bound : Nat) : List Char → Except DigitsError Nat
  | [] => .error .empty
  | ['+'] => .error .invalidDigit
  | '+' :: cs => readDigits radix bound 0 cs
  | cs => readDigits radix bound 0 cs

def naturalOfDigits? (radix : Nat) (cs : List Char) : Option Nat :=
  if cs.isEmpty then none
  else cs.foldl (fun acc c => acc.bind fun n => (digitValue? radix c).map (n * radix + ·)) (some 0)

end ModuleCompiler
