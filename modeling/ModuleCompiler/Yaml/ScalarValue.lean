import ModuleCompiler.Number.DecimalText
import ModuleCompiler.Number.Word
import ModuleCompiler.Yaml.Event

/-!
The values that scalars stand for where no type is asked for: by their look if they are plain, by
their tag if they carry one of the core tags, and otherwise as text.
-/

namespace ModuleCompiler.Yaml

inductive ScalarValue where
  | null
  | bool (b : Bool)
  /-- Zero may have been written with a minus sign. -/
  | integer (n : Int) (minus : Bool)
  | float (x : Float)
  | text (s : String)

namespace ScalarText

def isNull (s : String) : Bool := s = "null" || s = "Null" || s = "NULL" || s = "~"

def bool? (s : String) : Option Bool :=
  if s = "true" ∨ s = "True" ∨ s = "TRUE" then some true
  else if s = "false" ∨ s = "False" ∨ s = "FALSE" then some false
  else none

def dropPlus : List Char → List Char
  | '+' :: cs => cs
  | cs => cs

def isSigned (cs : List Char) : Bool := cs.head? = some '+' || cs.head? = some '-'

/-- More than one digit with a zero in front: a number to nobody. -/
def hasLeadingZero (cs : List Char) : Bool :=
  match (if isSigned cs then cs.drop 1 else cs) with
  | '0' :: d :: ds => (d :: ds).all Char.isDigit
  | _ => false

def magnitude? (cs : List Char) : Option Nat :=
  match cs with
  | '0' :: 'x' :: ds => naturalOfDigits? 16 ds
  | '0' :: 'o' :: ds => naturalOfDigits? 8 ds
  | '0' :: 'b' :: ds => naturalOfDigits? 2 ds
  | ds => if hasLeadingZero ds then none else naturalOfDigits? 10 ds

def natural? (s : String) : Option Nat := magnitude? (dropPlus s.toList)

/-- A whole number that fits a word of 128 bits; larger ones do not count as such. -/
def integer? (s : String) : Option Int :=
  match s.toList with
  | '-' :: cs => do
    let n ← magnitude? cs
    if n ≤ wordBound 127 then some (-(n : Int)) else none
  | _ => do
    let n ← natural? s
    if n < wordBound 128 then some (n : Int) else none

/-- A finite decimal number, or one of the words for infinity and not-a-number. -/
def float? (s : String) : Option Float :=
  let cs := s.toList
  let unsigned := dropPlus cs
  if cs.head? = some '+' ∧ isSigned unsigned then none
  else if unsigned = ".inf".toList ∨ unsigned = ".Inf".toList ∨ unsigned = ".INF".toList then
    some (BinaryFloat.infinite false).toFloat
  else if s = "-.inf" ∨ s = "-.Inf" ∨ s = "-.INF" then some (BinaryFloat.infinite true).toFloat
  else if s = ".nan" ∨ s = ".NaN" ∨ s = ".NAN" then some BinaryFloat.nan.toFloat
  else
    match readDouble? unsigned with
    | some b => if b.isFinite then some b.toFloat else none
    | none => none

def plainValue (s : String) : ScalarValue :=
  if s.isEmpty || isNull s then .null
  else
    match bool? s with
    | some b => .bool b
    | none =>
      match integer? s with
      | some n => .integer n (s.startsWith "-")
      | none =>
        if hasLeadingZero s.toList then .text s
        else
          match float? s with
          | some x => .float x
          | none => .text s

end ScalarText

namespace Scalar

def isEmptyPlain (s : Scalar) : Bool := s.text.isEmpty && s.style = .plain

/-- A core tag forces its reading; the failure says what was asked for. -/
def value (s : Scalar) : Except String ScalarValue :=
  let plain := if s.style = .plain then ScalarText.plainValue s.text else .text s.text
  match s.tag with
  | none => .ok plain
  | some tag =>
    if tag = Tag.core "bool" then
      match ScalarText.bool? s.text with
      | some b => .ok (.bool b)
      | none => .error "a boolean"
    else if tag = Tag.core "int" then
      match ScalarText.integer? s.text with
      | some n => .ok (.integer n (s.text.startsWith "-"))
      | none => .error "an integer"
    else if tag = Tag.core "float" then
      match ScalarText.float? s.text with
      | some x => .ok (.float x)
      | none => .error "a float"
    else if tag = Tag.core "null" then
      if ScalarText.isNull s.text then .ok .null else .error "null"
    else if tag.isLocal then .ok plain
    else .ok (.text s.text)

/-- May the text be read as the type that a core tag names? Plain text may, and a literal block with
that very tag. -/
def admits (s : Scalar) (name : String) : Bool :=
  s.style = .plain || (s.style = .literal && s.tag = some (Tag.core name))

end Scalar

end ModuleCompiler.Yaml
