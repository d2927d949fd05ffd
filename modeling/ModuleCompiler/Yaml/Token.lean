import ModuleCompiler.Yaml.Cursor
import ModuleCompiler.Yaml.Tag

/-!
The tokens of a YAML text. Indentation and the keys that show only by a later `:` are tokens of
their own, so the grammar over tokens needs no columns.
-/

namespace ModuleCompiler.Yaml

inductive ScalarStyle where
  | plain
  | singleQuoted
  | doubleQuoted
  | literal
  | folded
  deriving DecidableEq, Repr, Inhabited

inductive Token where
  | streamEnd
  | versionDirective (major minor : Nat)
  | tagDirective (handle : String) (expansion : Tag)
  | documentStart
  | documentEnd
  | blockSequenceStart
  | blockMappingStart
  | blockEnd
  | flowSequenceStart
  | flowSequenceEnd
  | flowMappingStart
  | flowMappingEnd
  | blockEntry
  | flowEntry
  | key
  | value
  | alias (name : String)
  | anchor (name : String)
  | tag (handle : String) (suffix : Tag)
  | scalar (text : String) (style : ScalarStyle)
  deriving DecidableEq, Repr, Inhabited

/-- A token in its place. One that shows only by what follows has no width. -/
structure Lexeme where
  token : Token
  start : Mark
  stop : Mark
  deriving DecidableEq, Repr, Inhabited

def Lexeme.empty (t : Token) (mark : Mark) : Lexeme := ⟨t, mark, mark⟩

end ModuleCompiler.Yaml
