/-!
Characters of a YAML text and a position that moves over them.
-/

namespace ModuleCompiler.Yaml

def isBreak (c : Char) : Bool :=
  c = '\n' || c = '\r' || c = '\u0085' || c = '\u2028' || c = '\u2029'

def isSpace (c : Char) : Bool := c = ' ' || c = '\t'

def isNameChar (c : Char) : Bool := c.isAlphanum || c = '_' || c = '-'

def isAllowed (c : Char) : Bool :=
  let n := c.toNat
  n = 0x09 || n = 0x0a || n = 0x0d || (0x20 ≤ n && n ≤ 0x7e) || n = 0x85 ||
    (0xa0 ≤ n && n ≤ 0xfffd) || 0x10000 ≤ n

/-- At the end of the text, a line break or white space. -/
def atSpace : List Char → Bool
  | [] => true
  | c :: _ => isSpace c || isBreak c

def atBreak : List Char → Bool
  | [] => true
  | c :: _ => isBreak c

def atDocumentMarker : List Char → Bool
  | '-' :: '-' :: '-' :: cs => atSpace cs
  | '.' :: '.' :: '.' :: cs => atSpace cs
  | _ => false

def octetCount (cs : List Char) : Nat := cs.foldl (fun n c => n + c.utf8Size) 0

structure Mark where
  index : Nat
  line : Nat
  column : Nat
  deriving DecidableEq, Repr, Inhabited

namespace Mark

def start : Mark := ⟨0, 0, 0⟩

/-- How a place is told behind a message. Lines and columns count from one, and the start of a text
is not told. -/
def suffix (m : Mark) : String :=
  if m.line = 0 ∧ m.column = 0 then ""
  else " at line " ++ toString (m.line + 1) ++ " column " ++ toString (m.column + 1)

end Mark

structure Cursor where
  rest : List Char
  mark : Mark
  deriving Inhabited

namespace Cursor

def ofText (cs : List Char) : Cursor := ⟨cs, .start⟩

def column (c : Cursor) : Nat := c.mark.column

def skip (c : Cursor) (n : Nat) : Cursor :=
  ⟨c.rest.drop n,
    { c.mark with
      index := c.mark.index + octetCount (c.rest.take n)
      column := c.mark.column + n }⟩

/-- The longest run of a class without line breaks, and the place after it. -/
def run (c : Cursor) (p : Char → Bool) : List Char × Cursor :=
  let cs := c.rest.takeWhile p
  (cs, c.skip cs.length)

def skipWhile (c : Cursor) (p : Char → Bool) : Cursor := (c.run p).2

private def breakMark (c : Cursor) (width : Nat) : Mark :=
  ⟨c.mark.index + width, c.mark.line + 1, 0⟩

/-- Begins a new line, unless the place is at the beginning of one. -/
def endLine (c : Cursor) : Cursor := if c.column = 0 then c else ⟨c.rest, c.breakMark 0⟩

/-- A line break ahead, as the character that stands for it in a scalar. -/
def lineBreak? (c : Cursor) : Option (Char × Cursor) :=
  match c.rest with
  | '\r' :: '\n' :: cs => some ('\n', ⟨cs, c.breakMark 2⟩)
  | b :: cs =>
    if b = '\u2028' ∨ b = '\u2029' then some (b, ⟨cs, c.breakMark b.utf8Size⟩)
    else if isBreak b then some ('\n', ⟨cs, c.breakMark b.utf8Size⟩)
    else none
  | [] => none

def startsWith (c : Cursor) (ch : Char) : Bool := c.rest.head? == some ch

def atMarker (c : Cursor) : Bool := c.column == 0 && atDocumentMarker c.rest

end Cursor

end ModuleCompiler.Yaml
