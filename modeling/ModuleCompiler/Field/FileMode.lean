import ModuleCompiler.Number.Digits
import ModuleCompiler.Number.Word

/-!
Permission bits of files, written in octal.
-/

namespace ModuleCompiler

structure ModeError where
  text : String
  cause : DigitsError
  deriving DecidableEq, Repr

def ModeError.message (e : ModeError) : String :=
  s!"invalid file mode '{e.text}': " ++ e.cause.message

def parseFileMode (s : String) : Except ModeError UInt32 :=
  match readUnsigned 8 (wordBound 32 - 1) s.toList with
  | .ok n => .ok n.toUInt32
  | .error e => .error ⟨s, e⟩

end ModuleCompiler
