/-!
Binary floating point numbers as sign, whole mantissa and power of two, beside `Float`.
Arithmetic that has to be exact is done here on natural numbers.
-/

namespace ModuleCompiler

/-- A binary number: `finite neg m q` stands for `± m · 2 ^ q`. -/
inductive BinaryFloat where
  | nan
  | infinite (negative : Bool)
  | finite (negative : Bool) (mantissa : Nat) (exponent : Int)
  deriving DecidableEq, Repr

namespace BinaryFloat

def ofBits (bits : UInt64) : BinaryFloat :=
  let negative := bits >>> 63 == 1
  let biased := ((bits >>> 52) &&& 0x7ff).toNat
  let fraction := (bits &&& 0xfffffffffffff).toNat
  if biased = 2047 then
    if fraction = 0 then .infinite negative else .nan
  else if biased = 0 then .finite negative fraction (-1074)
  else .finite negative (fraction + Nat.pow 2 52) ((biased : Int) - 1075)

/-- The bit pattern of a number whose mantissa is that of a double: at most `2 ^ 53`, and below
`2 ^ 52` only for the least exponent. A mantissa of `2 ^ 53` carries into the exponent. -/
def toBits : BinaryFloat → UInt64
  | nan => 0x7ff8000000000000
  | infinite negative => sign negative ||| 0x7ff0000000000000
  | finite negative m q =>
    if m < Nat.pow 2 52 then sign negative ||| m.toUInt64
    else
      let biased := (q + 1075).toNat
      let pattern := biased * Nat.pow 2 52 + (m - Nat.pow 2 52)
      if 2047 * Nat.pow 2 52 ≤ pattern then sign negative ||| 0x7ff0000000000000
      else sign negative ||| pattern.toUInt64
where
  sign (negative : Bool) : UInt64 := if negative then 0x8000000000000000 else 0

def ofFloat (x : Float) : BinaryFloat := ofBits x.toBits

def toFloat (b : BinaryFloat) : Float := Float.ofBits b.toBits

/-- `⌊num / den⌉` with halves going to the even neighbour. -/
def roundHalfEven (num den : Nat) : Nat :=
  let q := num / den
  let r := num % den
  if 2 * r < den then q
  else if den < 2 * r then q + 1
  else if q % 2 = 0 then q else q + 1

/-- A binary format: bits of a mantissa, and the least and greatest power of two of its last bit. -/
structure Format where
  precision : Nat
  least : Int
  greatest : Int

def Format.double : Format := ⟨53, -1074, 971⟩

def Format.single : Format := ⟨24, -149, 104⟩

/-- The power of two of the last mantissa bit of the number next to `num / den`. -/
def lastPlace (f : Format) (num den : Nat) : Int :=
  let guess : Int := (num.log2 : Int) - (den.log2 : Int)
  let below := num * Nat.pow 2 (-guess).toNat < den * Nat.pow 2 guess.toNat
  max ((if below then guess else guess + 1) - f.precision) f.least

/-- The number of a format next to `± num / den`, halves going to the even mantissa. -/
def ofRatio (f : Format) (negative : Bool) (num den : Nat) : BinaryFloat :=
  if num = 0 then .finite negative 0 f.least
  else
    let q := lastPlace f num den
    let m := roundHalfEven (num * Nat.pow 2 (-q).toNat) (den * Nat.pow 2 q.toNat)
    if f.greatest < q ∨ (q = f.greatest ∧ m = Nat.pow 2 f.precision) then .infinite negative
    else .finite negative m q

/-- The number of a format next to `± digits · 10 ^ exponent`. Numbers far outside the range of
doubles are settled by their size alone. -/
def ofScientific (f : Format) (negative : Bool) (digits : Nat) (exponent : Int) : BinaryFloat :=
  if digits = 0 then .finite negative 0 f.least
  else
    let point := exponent + (Nat.toDigits 10 digits).length
    if 310 < point then .infinite negative
    else if point < -330 then .finite negative 0 f.least
    else ofRatio f negative (digits * Nat.pow 10 exponent.toNat) (Nat.pow 10 (-exponent).toNat)

def widen : BinaryFloat → BinaryFloat
  | finite negative m q => ofRatio .double negative (m * Nat.pow 2 q.toNat) (Nat.pow 2 (-q).toNat)
  | b => b

def isFinite : BinaryFloat → Bool
  | finite .. => true
  | _ => false

def isPositive : BinaryFloat → Bool
  | finite negative m _ => !negative && m != 0
  | infinite negative => !negative
  | nan => false

/-- `⌊x · 2 ^ k⌋` cut off at `bound`, for a number that is not negative. -/
def scaledFloor (bound : Nat) (k : Nat) : BinaryFloat → Nat
  | finite _ m q => min (m * Nat.pow 2 (q + k).toNat / Nat.pow 2 (-(q + k)).toNat) bound
  | infinite _ => bound
  | nan => 0

end BinaryFloat

end ModuleCompiler
