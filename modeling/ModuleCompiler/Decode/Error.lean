import ModuleCompiler.Field.ByteSize
import ModuleCompiler.Field.FileMode
import ModuleCompiler.Field.PortSpec
import ModuleCompiler.Number.Shortest
import ModuleCompiler.Text.Quoted
import ModuleCompiler.Yaml.Node
import ModuleCompiler.Yaml.ScalarValue

/-!
Why a document is not a value of the type asked for, and where.
-/

namespace ModuleCompiler

namespace Decode

inductive Step where
  | key (name : String)
  | index (n : Nat)
  /-- An entry whose key is no scalar in its place. -/
  | unnamed
  deriving DecidableEq, Repr

/-- Steps from the node back to the root. -/
abbrev Path := List Step

def Path.render : Path → String
  | [] => "."
  | .index n :: p => render p ++ s!"[{n}]"
  | .key name :: [] => name
  | .key name :: p => render p ++ "." ++ name
  | .unnamed :: [] => "?"
  | .unnamed :: p => render p ++ ".?"

/-- What a document holds where something else was asked for. -/
inductive Found where
  | bool (b : Bool)
  | integer (n : Int)
  | float (x : Float)
  | text (s : String)
  | null
  | nothing
  | sequence
  | map
  | variant

/-- Integers beyond 64 bits are told with the width they need. -/
def Found.message : Found → String
  | bool b => s!"boolean \x60{b}\x60"
  | integer n =>
    if Int.ofNat (wordBound 64) ≤ n then s!"integer \x60{n}\x60 as u128"
    else if n < -Int.ofNat (wordBound 63) then s!"integer \x60{n}\x60 as i128"
    else s!"integer \x60{n}\x60"
  | float x => "floating point \x60" ++ RealNotation.pointed.render x ++ "\x60"
  | text s => "string " ++ quoted s
  | null => "unit value"
  | nothing => "Option value"
  | sequence => "sequence"
  | map => "map"
  | variant => "enum"

inductive Problem where
  | wrongType (found : Found) (expected : String)
  | wrongValue (found : Found) (expected : String)
  | repeatedField (name : String)
  | integerTooWide (n : Int)
  | portOutOfRange (n : Int)
  | port (e : PortError)
  | negativeSize (n : Int)
  | size (e : SizeError)
  | mode (e : ModeError)

def Problem.message : Problem → String
  | wrongType found expected => s!"invalid type: {found.message}, expected {expected}"
  | wrongValue found expected => s!"invalid value: {found.message}, expected {expected}"
  | repeatedField name => s!"duplicate field \x60{name}\x60"
  | integerTooWide n => s!"integer {n} does not fit into 64-bit signed range"
  | portOutOfRange n => s!"port {n} out of range"
  | port e => e.message
  | negativeSize n => s!"invalid size: {n}"
  | size e => e.message
  | mode e => e.message

end Decode

inductive DecodeError where
  | syntaxError (e : Yaml.SyntaxError)
  | unknownAnchor (mark : Yaml.Mark)
  | recursionLimit (mark : Yaml.Mark)
  | repetitionLimit
  | endOfDocument
  | severalDocuments
  | mismatch (path : Decode.Path) (mark : Yaml.Mark) (problem : Decode.Problem)

namespace DecodeError

def ofFault : Yaml.Fault → DecodeError
  | .form e => syntaxError e
  | .unknownAnchor mark => unknownAnchor mark

/-- Where in the text it went wrong, if that is told. -/
def mark? : DecodeError → Option Yaml.Mark
  | syntaxError e => some e.mark
  | unknownAnchor mark => some mark
  | recursionLimit mark => some mark
  | mismatch _ mark _ => some mark
  | repetitionLimit => none
  | endOfDocument => none
  | severalDocuments => none

/-- The path goes in front, except at the root. -/
def message : DecodeError → String
  | syntaxError e => e.problem.message
  | unknownAnchor _ => "unknown anchor"
  | recursionLimit _ => "recursion limit exceeded"
  | repetitionLimit => "repetition limit exceeded"
  | endOfDocument => "EOF while parsing a value"
  | severalDocuments =>
    "deserializing from YAML containing more than one document is not supported"
  | mismatch path _ problem =>
    let place := Decode.Path.render path
    if place = "." then problem.message else place ++ ": " ++ problem.message

/-- The message and its place in the text. -/
def report (e : DecodeError) : String := e.message ++ (e.mark?.map Yaml.Mark.suffix).getD ""

end DecodeError

end ModuleCompiler
