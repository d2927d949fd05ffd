import ModuleCompiler.Log.Level
import ModuleCompiler.Text.Quoted
import ModuleCompiler.Tree.Basic

/-!
Entries of a log: what is told, and the spans of work it is told in. An entry is written as a line
to read or as a record.
-/

namespace ModuleCompiler.Log

/-- What a field holds. In a line, text stands in quotes and shown text does not. -/
inductive FieldValue where
  | shown (s : String)
  | text (s : String)
  | number (n : Nat)
  deriving DecidableEq, Repr

namespace FieldValue

def render : FieldValue → String
  | shown s => s
  | text s => quoted s
  | number n => toString n

def toTree : FieldValue → Tree
  | shown s => .text s
  | text s => .text s
  | number n => .integer n

end FieldValue

abbrev Fields := List (String × FieldValue)

namespace Fields

def render (fs : Fields) : String := " ".intercalate (fs.map fun f => f.1 ++ "=" ++ f.2.render)

def toTrees (fs : Fields) : List (String × Tree) := fs.map fun f => (f.1, f.2.toTree)

end Fields

structure Span where
  name : String
  target : String
  level : Level := .info
  fields : Fields := []
  deriving DecidableEq, Repr

namespace Span

def render (s : Span) : String := s.name ++ "\x7b" ++ s.fields.render ++ "\x7d:"

def toTree (s : Span) : Tree := .record (s.fields.toTrees ++ [("name", .text s.name)])

end Span

structure Entry where
  level : Level
  target : String
  message : String
  fields : Fields := []
  /-- The outermost comes first. -/
  spans : List Span := []
  deriving DecidableEq, Repr

def Level.column (l : Level) : String :=
  String.ofList (List.replicate (5 - l.name.length) ' ') ++ l.name

namespace Entry

def spanText (e : Entry) : String :=
  if e.spans.isEmpty then "" else String.join (e.spans.map Span.render) ++ " "

def line (e : Entry) : String :=
  e.level.column ++ " " ++ e.spanText ++ e.target ++ ": " ++
    " ".intercalate ((e.message :: [e.fields.render]).filter (· ≠ ""))

/-- The innermost span by itself, and all of them. -/
def spanTrees (e : Entry) : List (String × Tree) :=
  match e.spans.getLast? with
  | none => []
  | some inner => [("span", inner.toTree), ("spans", .list (e.spans.map Span.toTree))]

def toTree (e : Entry) : Tree :=
  .record ([("level", .text e.level.name),
    ("fields", .record (("message", .text e.message) :: e.fields.toTrees)),
    ("target", .text e.target)] ++ e.spanTrees)

end Entry

end ModuleCompiler.Log
