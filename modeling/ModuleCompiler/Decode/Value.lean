import ModuleCompiler.RawValue
import ModuleCompiler.Decode.Basic
import ModuleCompiler.Field.Duration

/-!
Decoders of single values: untyped ones, and fields with a notation of their own.
-/

namespace ModuleCompiler

namespace RawValue

def ofScalarValue (p : Decode.Place) : Yaml.ScalarValue → Decode RawValue
  | .null => return .absent
  | .bool b => return .bool b
  | .integer n _ =>
    match RawValue.ofInt? n with
    | some v => return v
    | none => p.fail (.integerTooWide n)
  | .float x => return .float x
  | .text s => return .string s

def assembly : Decode.Assembly RawValue where
  expected := "any YAML value"
  scalar := ofScalarValue
  nothing := .absent
  list := .list
  map := .map

def decoder : Decoder RawValue := fun p => Decode.any assembly p.depth p.path

end RawValue

def PortSpec.expected : String := "a port number or a 'start-end' port range"

def PortSpec.decoder : Decoder PortSpec := Decode.untyped PortSpec.expected fun p u =>
  match u with
  | .scalar v@(.integer k _) =>
    if 0 ≤ k ∧ k < 65536 then return .ofPort k.toNat.toUInt16
    else if isWord 64 k then p.fail (.portOutOfRange k)
    else Decode.refuseUntyped p PortSpec.expected (.scalar v)
  | .scalar (.text s) =>
    match PortSpec.ofText s with
    | .ok spec => return spec
    | .error e => p.fail (.port e)
  | u => Decode.refuseUntyped p PortSpec.expected u

def byteSizeExpected : String := "a byte count or a size string like '64Mb'"

def byteSizeDecoder : Decoder UInt64 := Decode.untyped byteSizeExpected fun p u =>
  match u with
  | .scalar v@(.integer k _) =>
    if 0 ≤ k ∧ k.toNat < wordBound 64 then return k.toNat.toUInt64
    else if isWord 64 k then p.fail (.negativeSize k)
    else Decode.refuseUntyped p byteSizeExpected (.scalar v)
  | .scalar (.text s) =>
    match parseByteSize s with
    | .ok size => return size
    | .error e => p.fail (.size e)
  | u => Decode.refuseUntyped p byteSizeExpected u

/-- Octal digits, whatever the scalar looks like. -/
def fileModeDecoder : Decoder UInt32 := Decode.textTo "an octal file mode like '0770'" fun p s =>
  match parseFileMode s with
  | .ok mode => return mode
  | .error e => p.fail (.mode e)

def commandExpected : String := "a string or a list of strings"

/-- A command line in one piece, or its arguments. Null is the empty one. -/
def commandDecoder : Decoder (List String) := Decode.untyped commandExpected fun p u =>
  match u with
  | .scalar (.text s) => return [s]
  | .scalar .null => return []
  | .seq ns => Decode.descend p fun depth => Decode.items p depth Decode.text 0 ns
  | u => Decode.refuseUntyped p commandExpected u

def Duration.decoder : Decoder Duration := Decode.textTo "a duration" fun p s =>
  match Duration.ofText? s with
  | some d => return d
  | none => p.fail (.wrongValue (.text s) "a duration")

end ModuleCompiler
