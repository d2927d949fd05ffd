import ModuleCompiler.Number.Digits
import ModuleCompiler.Number.Binary

/-!
Decimal notation of real numbers, read as the nearest number of a binary format: digits with an
optional fraction and exponent, or one of the words for infinity and not-a-number in any case.
-/

namespace ModuleCompiler

def spanDigits (cs : List Char) : List Char × List Char :=
  (cs.takeWhile Char.isDigit, cs.dropWhile Char.isDigit)

def naturalOf (ds : List Char) : Nat :=
  ds.foldl (fun n c => n * 10 + (c.toNat - '0'.toNat)) 0

/-- Digits with at most one point among or around them. Answers all digits, how many of them stand
after the point, and what follows. -/
def readMantissa? (cs : List Char) : Option (List Char × Nat × List Char) :=
  let (whole, rest) := spanDigits cs
  match rest with
  | '.' :: rest' =>
    let (fraction, rest'') := spanDigits rest'
    if whole.isEmpty && fraction.isEmpty then none
    else some (whole ++ fraction, fraction.length, rest'')
  | _ => if whole.isEmpty then none else some (whole, 0, rest)

def readExponent? : List Char → Option Int
  | [] => some 0
  | c :: cs =>
    if c = 'e' ∨ c = 'E' then
      match cs with
      | '+' :: ds => (naturalOfDigits? 10 ds).map Int.ofNat
      | '-' :: ds => (naturalOfDigits? 10 ds).map fun n => -(n : Int)
      | ds => (naturalOfDigits? 10 ds).map Int.ofNat
    else none

def readMagnitude? (f : BinaryFloat.Format) (negative : Bool) (cs : List Char) :
    Option BinaryFloat :=
  let word := String.ofList (cs.map Char.toLower)
  if word = "inf" ∨ word = "infinity" then some (.infinite negative)
  else if word = "nan" then some .nan
  else do
    let (digits, places, rest) ← readMantissa? cs
    let exponent ← readExponent? rest
    return .ofScientific f negative (naturalOf digits) (exponent - places)

/-- The number of a format that a decimal text names; the sign is optional. -/
def readReal? (f : BinaryFloat.Format) : List Char → Option BinaryFloat
  | '+' :: cs => readMagnitude? f false cs
  | '-' :: cs => readMagnitude? f true cs
  | cs => readMagnitude? f false cs

def readDouble? (cs : List Char) : Option BinaryFloat := readReal? .double cs

end ModuleCompiler
