import ModuleCompiler.Number.Shortest
import ModuleCompiler.Number.Word
import ModuleCompiler.SortedMap

/-!
Values of a descriptor before they get a type, and how they are taken as values of one kind.
-/

namespace ModuleCompiler

/-- An untyped value. `absent` is both a missing field and an explicit null. The keys of a map
ascend. -/
inductive RawValue where
  | absent
  | string (s : String)
  | bool (b : Bool)
  | int (n : Int64)
  | float (x : Float)
  | list (items : List RawValue)
  | map (entries : List (String × RawValue))
  deriving Inhabited

namespace RawValue

def kind : RawValue → String
  | absent => "null"
  | string _ => "string"
  | bool _ => "bool"
  | int _ => "int64"
  | float _ => "float64"
  | list _ => "list"
  | map _ => "map"

def isAbsent : RawValue → Bool
  | absent => true
  | _ => false

def ofInt? (n : Int) : Option RawValue :=
  if isSignedWord 64 n then some (.int (Int64.ofInt n)) else none

def ofList (items : List α) (f : α → RawValue) : RawValue := .list (items.map f)

end RawValue

structure CoerceError where
  expected : String
  found : String
  deriving DecidableEq, Repr

def CoerceError.message (e : CoerceError) : String :=
  s!"invalid data type '{e.found}', expected {e.expected}"

inductive DataType where
  | string
  | bool
  | int
  | float
  deriving DecidableEq, Repr, Inhabited

namespace DataType

def ofName? : String → Option DataType
  | "string" => some string
  | "bool" => some bool
  | "int" | "int64" => some int
  | "float" | "float64" => some float
  | _ => none

def name : DataType → String
  | string => "string"
  | bool => "bool"
  | int => "int"
  | float => "float"

end DataType

inductive ConfigScalar where
  | string (s : String)
  | bool (b : Bool)
  | int (n : Int64)
  | float (x : Float)
  deriving Inhabited

namespace ConfigScalar

def dataType : ConfigScalar → DataType
  | string _ => .string
  | bool _ => .bool
  | int _ => .int
  | float _ => .float

end ConfigScalar

namespace RawValue

def mismatch (expected : String) (v : RawValue) : Except CoerceError α :=
  .error ⟨expected, v.kind⟩

def toString : RawValue → Except CoerceError String
  | .string s => .ok s
  | v => v.mismatch "string"

/-- Numbers are taken too, in decimal notation without exponent. -/
def toText : RawValue → Except CoerceError String
  | .string s => .ok s
  | .int n => .ok (ToString.toString n.toInt)
  | .float x => .ok (RealNotation.plain.render x)
  | v => v.mismatch "string"

def toBool : RawValue → Except CoerceError Bool
  | .bool b => .ok b
  | v => v.mismatch "bool"

def toInt : RawValue → Except CoerceError Int64
  | .int n => .ok n
  | v => v.mismatch "int64"

def toFloat : RawValue → Except CoerceError Float
  | .float x => .ok x
  | v => v.mismatch "float64"

/-- The scalar that a value is by itself. Lists, maps and nulls are none. -/
def toScalar : RawValue → Except CoerceError ConfigScalar
  | .string s => .ok (.string s)
  | .bool b => .ok (.bool b)
  | .int n => .ok (.int n)
  | .float x => .ok (.float x)
  | v => v.mismatch "scalar"

/-- The value as one of a kind; texts take numbers in. -/
def coerce (kind : DataType) (v : RawValue) : Except CoerceError ConfigScalar :=
  match kind with
  | .string => v.toText.map .string
  | .bool => v.toBool.map .bool
  | .int => v.toInt.map .int
  | .float => v.toFloat.map .float

end RawValue

end ModuleCompiler
