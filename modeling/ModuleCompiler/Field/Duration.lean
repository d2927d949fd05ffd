import ModuleCompiler.Number.Digits
import ModuleCompiler.Number.Word
import ModuleCompiler.Text.Blank

/-!
Spans of time, and their text: numbers with units such as `1h 30m`. A month is 30.44 days and a year
365.25 days.
-/

namespace ModuleCompiler

structure Duration where
  seconds : UInt64
  nanos : Fin 1000000000
  deriving DecidableEq, Repr, Inhabited

namespace Duration

def zero : Duration := ⟨0, 0⟩

def ofSeconds (n : UInt64) : Duration := ⟨n, 0⟩

inductive TimeUnit where
  | nanosecond
  | microsecond
  | millisecond
  | second
  | minute
  | hour
  | day
  | week
  | month
  | year
  deriving DecidableEq, Repr

namespace TimeUnit

def ofName? : String → Option TimeUnit
  | "nanos" | "nsec" | "ns" => some nanosecond
  | "usec" | "us" | "µs" => some microsecond
  | "millis" | "msec" | "ms" => some millisecond
  | "seconds" | "second" | "secs" | "sec" | "s" => some second
  | "minutes" | "minute" | "min" | "mins" | "m" => some minute
  | "hours" | "hour" | "hr" | "hrs" | "h" => some hour
  | "days" | "day" | "d" => some day
  | "weeks" | "week" | "wk" | "wks" | "w" => some week
  | "months" | "month" | "M" => some month
  | "years" | "year" | "yr" | "yrs" | "y" => some year
  | _ => none

def seconds : TimeUnit → Nat
  | nanosecond | microsecond | millisecond => 0
  | second => 1
  | minute => 60
  | hour => 3600
  | day => 86400
  | week => 604800
  | month => 2630016
  | year => 31557600

/-- Nanoseconds in a unit shorter than a second. -/
def nanos : TimeUnit → Nat
  | nanosecond => 1
  | microsecond => 1000
  | millisecond => 1000000
  | _ => 0

/-- Into how many seconds or nanoseconds a fraction of a unit must divide without rest. -/
inductive Grain where
  | none
  | nanos (count : Nat)
  | seconds (count : Nat)

def grain : TimeUnit → Grain
  | nanosecond => .none
  | microsecond => .nanos 1000
  | millisecond => .nanos 1000000
  | second => .nanos 1000000000
  | minute => .nanos 60000000000
  | u => .seconds u.seconds

end TimeUnit

def bounded? (n : Nat) : Option Nat := if n < wordBound 64 then some n else none

def add? (d : Duration) (seconds nanos : Nat) : Option Duration := do
  let ns ← bounded? (d.nanos.val + nanos)
  let s ← bounded? (seconds + ns / 1000000000)
  let s ← bounded? (d.seconds.toNat + s)
  return ⟨s.toUInt64, Fin.ofNat _ ns⟩

structure Part where
  whole : List Char
  fraction : Option (List Char)
  unit : List Char

def digitsValue (ds : List Char) : Nat :=
  ds.foldl (fun n d => 10 * n + (d.toNat - '0'.toNat)) 0

/-- `value / scale` times `count`, if it comes out whole and no step exceeds 64 bits. -/
def portion? (value scale count : Nat) : Option Nat := do
  let value ← bounded? value
  let scale ← bounded? scale
  let product ← bounded? (value * count)
  if product % scale = 0 then some (product / scale) else none

def addFraction? (d : Duration) (unit : TimeUnit) (digits : List Char) : Option Duration :=
  if digits.isEmpty then none
  else
    let value := digitsValue digits
    let scale := Nat.pow 10 digits.length
    match unit.grain with
    | .none => none
    | .nanos count => (portion? value scale count).bind (d.add? 0 ·)
    | .seconds count => (portion? value scale count).bind (d.add? · 0)

def addPart? (d : Duration) (p : Part) : Option Duration := do
  let unit ← TimeUnit.ofName? (String.ofList p.unit)
  let n ← bounded? (digitsValue p.whole)
  let seconds ← bounded? (n * unit.seconds)
  let nanos ← bounded? (n * unit.nanos)
  let d ← d.add? seconds nanos
  match p.fraction with
  | none => return d
  | some digits => d.addFraction? unit digits

def isUnitChar (c : Char) : Bool := c.isAlpha || c = 'µ'

/-- The digits of a run in which white space does not count, and what follows it. -/
def digitRun (cs : List Char) : List Char × List Char :=
  ((cs.takeWhile fun c => c.isDigit || isBlank c).filter Char.isDigit,
    cs.dropWhile fun c => c.isDigit || isBlank c)

/-- A part at the head of a text. White space or the next number has to follow it. -/
def readPart? (cs : List Char) : Option (Part × List Char) :=
  let (whole, rest) := digitRun cs
  let (fraction, rest) := match rest with
    | '.' :: rest =>
      let (ds, rest) := digitRun rest
      (some ds, rest)
    | _ => (none, rest)
  let unit := rest.takeWhile isUnitChar
  let rest := rest.dropWhile isUnitChar
  if rest.isEmpty || rest.head?.any (fun c => c.isDigit || isBlank c) then
    some (⟨whole, fraction, unit⟩, rest)
  else none

/-- Adds the parts of a text. Each begins with a digit and takes at least one character. -/
def readParts? : Nat → Duration → List Char → Option Duration
  | 0, _, _ => none
  | fuel + 1, d, cs =>
    let cs := cs.dropWhile isBlank
    if cs.isEmpty then some d
    else if !cs.head?.any Char.isDigit then none
    else do
      let (p, rest) ← readPart? cs
      let d ← d.addPart? p
      readParts? fuel d rest

def ofText? (s : String) : Option Duration :=
  let cs := s.toList
  if s = "0" then some zero
  else if cs.all isBlank then none
  else readParts? (cs.length + 1) zero cs

/-- The counts of each unit, from years down, that make up a duration. Weeks are not among them. -/
def counts (d : Duration) : List (TimeUnit × Nat) :=
  let s := d.seconds.toNat
  let ofYear := s % 31557600
  let ofMonth := ofYear % 2630016
  let ofDay := ofMonth % 86400
  let ns := d.nanos.val
  [(.year, s / 31557600), (.month, ofYear / 2630016), (.day, ofMonth / 86400),
    (.hour, ofDay / 3600), (.minute, ofDay % 3600 / 60), (.second, ofDay % 60),
    (.millisecond, ns / 1000000), (.microsecond, ns / 1000 % 1000), (.nanosecond, ns % 1000)]

def unitName (count : Nat) : TimeUnit → String
  | .year => plural "year"
  | .month => plural "month"
  | .week => plural "week"
  | .day => plural "day"
  | .hour => "h"
  | .minute => "m"
  | .second => "s"
  | .millisecond => "ms"
  | .microsecond => "us"
  | .nanosecond => "ns"
where
  plural (name : String) : String := if 1 < count then name ++ "s" else name

def toText (d : Duration) : String :=
  if d = zero then "0s"
  else
    " ".intercalate <|
      (d.counts.filter (·.2 ≠ 0)).map fun (unit, n) => toString n ++ unitName n unit

end Duration

end ModuleCompiler
