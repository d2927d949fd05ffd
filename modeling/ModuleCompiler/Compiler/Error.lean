import ModuleCompiler.Decode.Error
import ModuleCompiler.Module.Error

/-!
Why a document has no module.
-/

namespace ModuleCompiler

inductive CompileError where
  | noDecoders
  | noVersion
  | unknownVersion (version : String)
  | decode (e : DecodeError)
  | generate (e : GenerateError)

namespace CompileError

def message : CompileError → String
  | noDecoders => "no decoders registered"
  | noVersion => "no version"
  | unknownVersion version => s!"no decoder for version '{version}'"
  | decode e => "invalid document: " ++ e.message
  | generate e => e.message

/-- The message, with the place in the text where there is one. -/
def report : CompileError → String
  | decode e => "invalid document: " ++ e.report
  | e => e.message

def category : CompileError → ErrorCategory
  | generate e => e.category
  | _ => .schema

end CompileError

end ModuleCompiler
