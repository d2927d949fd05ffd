import ModuleCompiler.Number.Shortest
import ModuleCompiler.Tree.Basic

/-!
Trees as JSON, in one line or with one field or item a line. There is no number for infinity and
not-a-number, so both are null.
-/

namespace ModuleCompiler.Tree

def hexEscape (n : Nat) : String :=
  let ds := Nat.toDigits 16 n
  "\\u" ++ String.ofList (List.replicate (4 - ds.length) '0' ++ ds)

/-- Quotes, backslashes and control characters are escaped, and nothing else. -/
def jsonChar (c : Char) : String :=
  match c with
  | '"' => "\\\""
  | '\\' => "\\\\"
  | '\x08' => "\\b"
  | '\x0c' => "\\f"
  | '\n' => "\\n"
  | '\r' => "\\r"
  | '\t' => "\\t"
  | c => if c.toNat < 0x20 then hexEscape c.toNat else c.toString

def jsonText (s : String) : String :=
  "\"" ++ String.join (s.toList.map jsonChar) ++ "\""

/-- Exponents have a sign in any case. -/
def jsonNotation : RealNotation := { RealNotation.document with exponentSign := "+" }

def jsonFloat (x : Float) : String :=
  if (BinaryFloat.ofFloat x).isFinite then jsonNotation.render x else "null"

/-- What stands between parts of a collection: how a collection opens at a depth, how parts are
joined there, how it closes, and what follows the colon of a field. -/
structure JsonLayout where
  /-- Before the first part and after each comma. -/
  gap : Nat → String
  colon : String

def JsonLayout.compact : JsonLayout := ⟨fun _ => "", ":"⟩

def indentation (n : Nat) : String := String.ofList (List.replicate n ' ')

def JsonLayout.pretty : JsonLayout := ⟨fun depth => "\n" ++ indentation (2 * depth), ": "⟩

mutual

/-- A tree whose own parts stand at the next depth. -/
def writeJson (l : JsonLayout) (depth : Nat) : Tree → String
  | .null => "null"
  | .bool b => toString b
  | .integer n => toString n
  | .float x => jsonFloat x
  | .text s => jsonText s
  | .list ts =>
    if ts.isEmpty then "[]" else "[" ++ jsonItems l (depth + 1) ts ++ l.gap depth ++ "]"
  | .record fs =>
    if fs.isEmpty then "\x7b\x7d"
    else "\x7b" ++ jsonFields l (depth + 1) fs ++ l.gap depth ++ "\x7d"

def jsonItems (l : JsonLayout) (depth : Nat) : List Tree → String
  | [] => ""
  | t :: ts =>
    l.gap depth ++ writeJson l depth t ++ (if ts.isEmpty then "" else ",") ++ jsonItems l depth ts

def jsonFields (l : JsonLayout) (depth : Nat) : List (String × Tree) → String
  | [] => ""
  | (k, t) :: fs =>
    l.gap depth ++ jsonText k ++ l.colon ++ writeJson l depth t ++
      (if fs.isEmpty then "" else ",") ++ jsonFields l depth fs

end

/-- One line, or two blanks more for each depth. -/
def toJson (pretty : Bool) (t : Tree) : String :=
  writeJson (if pretty then .pretty else .compact) 0 t

end ModuleCompiler.Tree
