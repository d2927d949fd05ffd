import ModuleCompiler.Number.Binary

/-!
The shortest decimal that reads back as a given double, and its notations.

For one, two, … seventeen digits the two neighbours of the number on that decimal grid are compared
with the interval of reals that round to it. The first grid with a hit wins, and of two hits the
nearer. Notations differ in what they make of two hits that are equally near. All arithmetic is
exact.
-/

namespace ModuleCompiler

/-- `digits · 10 ^ exponent`. -/
structure Decimal where
  digits : Nat
  exponent : Int
  deriving DecidableEq, Repr

namespace Decimal

/-- Drops trailing zeros; each drop divides the digits by ten, and no double has over 20 digits. -/
def normalize : Nat → Decimal → Decimal
  | 0, d => d
  | fuel + 1, d =>
    if d.digits ≠ 0 ∧ d.digits % 10 = 0 then normalize fuel ⟨d.digits / 10, d.exponent + 1⟩ else d

end Decimal

/-- The neighbour to take when a number lies half-way between two. -/
inductive TieRule where
  | upper
  | even
  deriving DecidableEq, Repr

/-- Is it the lower neighbour, of which the digits are given? -/
def TieRule.takesLower : TieRule → Nat → Bool
  | upper, _ => false
  | even, low => low % 2 = 0

namespace Shortest

/-- The power of ten of the first digit of `num / den`. -/
def leadingPlace (num den : Nat) : Int :=
  if den ≤ num then ((Nat.toDigits 10 (num / den)).length : Int) - 1
  else
    -- `den / num` has `k + 1` digits before the point, so `10 ^ -(k + 1) < num / den ≤ 10 ^ -k`
    let k := (Nat.toDigits 10 (den / num)).length - 1
    if den ≤ num * Nat.pow 10 k then -(k : Int) else -(k : Int) - 1

/-- The reals that round to a positive double, as `num / den` with the half widths of the gaps
below and above it over the same denominator. -/
structure Interval where
  num : Nat
  den : Nat
  below : Nat
  above : Nat
  closed : Bool

/-- Below a power of two the gap is half as wide, except at the least exponent. -/
def Interval.ofDouble (m : Nat) (q : Int) : Interval :=
  let scale := Nat.pow 2 q.toNat
  { num := 4 * m * scale
    den := 4 * Nat.pow 2 (-q).toNat
    below := if m = Nat.pow 2 52 ∧ q ≠ -1074 then scale else 2 * scale
    above := 2 * scale
    closed := m % 2 = 0 }

/-- Distance of `d · 10 ^ k` from the number, if it lies in the interval; both over the
denominator `den · 10 ^ (-k)`. -/
def Interval.distance? (i : Interval) (d : Nat) (k : Int) : Option Nat :=
  let up := Nat.pow 10 (-k).toNat
  let point := d * Nat.pow 10 k.toNat * i.den
  let centre := i.num * up
  if point ≤ centre then
    let gap := centre - point
    if gap < i.below * up ∨ (i.closed ∧ gap = i.below * up) then some gap else none
  else
    let gap := point - centre
    if gap < i.above * up ∨ (i.closed ∧ gap = i.above * up) then some gap else none

/-- The better neighbour on the grid of multiples of `10 ^ k`. -/
def Interval.onGrid? (i : Interval) (tie : TieRule) (k : Int) : Option Decimal :=
  let low := i.num * Nat.pow 10 (-k).toNat / (i.den * Nat.pow 10 k.toNat)
  match i.distance? low k, i.distance? (low + 1) k with
  | some a, some b =>
    some ⟨if a < b ∨ (a = b ∧ tie.takesLower low) then low else low + 1, k⟩
  | some _, none => some ⟨low, k⟩
  | none, some _ => some ⟨low + 1, k⟩
  | none, none => none

def search (i : Interval) (tie : TieRule) (first : Int) : Nat → Nat → Decimal
  | 0, n =>
    ⟨i.num * Nat.pow 10 (n - first).toNat / (i.den * Nat.pow 10 (first - n).toNat), first - n⟩
  | fuel + 1, n =>
    match i.onGrid? tie (first - n) with
    | some d => d
    | none => search i tie first fuel (n + 1)

end Shortest

/-- The shortest decimal that rounds to `m · 2 ^ q`. -/
def shortestDecimal (tie : TieRule) (m : Nat) (q : Int) : Decimal :=
  if m = 0 then ⟨0, 0⟩
  else
    let i := Shortest.Interval.ofDouble m q
    (Shortest.search i tie (Shortest.leadingPlace i.num i.den) 17 0).normalize 20

/-- Where a notation of doubles leaves positional form, whether whole numbers keep a point, and
which of two decimals it takes. -/
structure RealNotation where
  /-- Is a number whose first digit has this power of ten written positionally? -/
  positional : Int → Bool
  wholeSuffix : String
  tie : TieRule
  exponentSign : String := ""

namespace RealNotation

/-- Numbers from `10 ^ -5` up to `10 ^ 16` stand in positional form, with a fraction. -/
def document : RealNotation :=
  { positional := fun e => -5 ≤ e && e < 16, wholeSuffix := ".0", tie := .even }

/-- Numbers from `10 ^ -4` up to `10 ^ 16` stand in positional form, with a fraction. -/
def diagnostic : RealNotation :=
  { positional := fun e => -4 ≤ e && e < 16, wholeSuffix := ".0", tie := .upper }

/-- Never an exponent, and no fraction for a whole number. -/
def plain : RealNotation := { positional := fun _ => true, wholeSuffix := "", tie := .upper }

/-- Never an exponent, always a fraction. -/
def pointed : RealNotation := { positional := fun _ => true, wholeSuffix := ".0", tie := .upper }

def zeros (n : Nat) : String := String.ofList (List.replicate n '0')

def unsigned (style : RealNotation) (d : Decimal) : String :=
  let ds := Nat.toDigits 10 d.digits
  let first := d.exponent + ds.length - 1
  if d.digits = 0 then "0" ++ style.wholeSuffix
  else if style.positional first then
    if 0 ≤ d.exponent then String.ofList ds ++ zeros d.exponent.toNat ++ style.wholeSuffix
    else if 0 ≤ first then
      let whole := (first + 1).toNat
      String.ofList (ds.take whole) ++ "." ++ String.ofList (ds.drop whole)
    else "0." ++ zeros (-first - 1).toNat ++ String.ofList ds
  else
    let fraction := if ds.length ≤ 1 then "" else "." ++ String.ofList (ds.drop 1)
    let sign := if first < 0 then "" else style.exponentSign
    String.ofList (ds.take 1) ++ fraction ++ "e" ++ sign ++ toString first

/-- The text of a double: `NaN`, `inf` and `-inf` besides numbers. -/
def render (style : RealNotation) (x : Float) : String :=
  match BinaryFloat.ofFloat x with
  | .nan => "NaN"
  | .infinite negative => if negative then "-inf" else "inf"
  | .finite negative m q =>
    (if negative then "-" else "") ++ style.unsigned (shortestDecimal style.tie m q)

end RealNotation

end ModuleCompiler
