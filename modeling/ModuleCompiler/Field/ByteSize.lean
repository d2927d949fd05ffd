import ModuleCompiler.Number.DecimalText
import ModuleCompiler.Number.Word
import ModuleCompiler.Text.Alphabetic
import ModuleCompiler.Text.Blank
import ModuleCompiler.Text.Upper

/-!
Sizes in bytes with binary units: each unit is 1024 times the one before it.
-/

namespace ModuleCompiler

inductive SizeError where
  | noUnit (text : String)
  | notPositive (text : String)
  | unknownUnit (text unit : String)
  deriving DecidableEq, Repr

def SizeError.message : SizeError → String
  | noUnit s => s!"invalid size '{s}': must be a positive number with a unit like K, M, MiB, G or GB"
  | notPositive s => s!"invalid size '{s}': must be a positive number"
  | unknownUnit s unit => s!"invalid size '{s}': unknown unit '{unit}'"

def sizeUnitPower? : String → Option Nat
  | "B" => some 0
  | "K" | "KB" | "KIB" => some 1
  | "M" | "MB" | "MIB" => some 2
  | "G" | "GB" | "GIB" => some 3
  | "T" | "TB" | "TIB" => some 4
  | "P" | "PB" | "PIB" => some 5
  | "E" | "EB" | "EIB" => some 6
  | _ => none

def maxByteSize : Nat := wordBound 64 - 1

/-- A decimal number and a unit, in either case. The unit begins at the first letter, so the number
has no exponent. Fractions of a byte are dropped, and a size out of range is the largest one. -/
def parseByteSize (s : String) : Except SizeError UInt64 :=
  let cs := upperText (trim s.toList)
  let number := cs.takeWhile (!isAlphabetic ·)
  let unit := cs.dropWhile (!isAlphabetic ·)
  if unit.isEmpty then .error (.noUnit s)
  else
    match readDouble? (trim number) with
    | none => .error (.notPositive s)
    | some x =>
      if !x.isPositive then .error (.notPositive s)
      else
        match sizeUnitPower? (String.ofList unit) with
        | none => .error (.unknownUnit s (String.ofList unit))
        | some k => .ok (x.scaledFloor maxByteSize (10 * k)).toUInt64

end ModuleCompiler
