import ModuleCompiler.Number.Shortest
import ModuleCompiler.Tree.Json
import ModuleCompiler.Yaml.Cursor
import ModuleCompiler.Yaml.ScalarValue

/-!
Trees as YAML in block style. Texts stand plain where they read back as themselves; one that holds a
line feed is a literal block, one that would read as another kind is quoted once, and one with
characters that cannot be shown is quoted with escapes.
-/

namespace ModuleCompiler.Tree

open Yaml

def isShown (c : Char) : Bool :=
  let n := c.toNat
  n = 0x0a || (0x20 ≤ n && n ≤ 0x7e) || (0xa0 ≤ n && n ≠ 0xfeff && n ≠ 0xfffe && n ≠ 0xffff)

def endsWord : List Char → Bool
  | [] => true
  | c :: _ => isSpace c || isBreak c || c = '\x00'

/-- The first character would begin something other than a text. -/
def beginsMarkup : List Char → Bool
  | '-' :: '-' :: '-' :: _ => true
  | '.' :: '.' :: '.' :: _ => true
  | c :: cs =>
    "#,[]{}&*!|>'\"%@\x60".toList.contains c || ((c = '?' || c = ':' || c = '-') && endsWord cs)
  | [] => false

/-- A colon at the end of a word or a hash at the start of one. -/
def holdsMarkup : List Char → Bool
  | [] => false
  | [_] => false
  | a :: b :: cs => (b = ':' && endsWord cs) || (b = '#' && endsWord [a]) || holdsMarkup (b :: cs)

def hasPair (p q : Char → Bool) : List Char → Bool
  | a :: b :: cs => (p a && q b) || hasPair p q (b :: cs)
  | _ => false

def isBlankOrBreak (c : Char) : Bool := c = ' ' || isBreak c

/-- A break before a blank, so that a line of the text begins with one. -/
def indentsLine (cs : List Char) : Bool := hasPair isBreak (· = ' ') cs

def needsEscapes (cs : List Char) : Bool :=
  cs.any (!isShown ·) || hasPair (· = ' ') isBreak cs

def allowsPlain (cs : List Char) : Bool :=
  !(cs.head?.any isBlankOrBreak || cs.getLast?.any isBlankOrBreak || cs.any isBreak ||
    needsEscapes cs || beginsMarkup cs || holdsMarkup cs)

def allowsSingleQuotes (cs : List Char) : Bool := !(indentsLine cs || needsEscapes cs)

def allowsBlock (cs : List Char) : Bool := !(cs.getLast? = some ' ' || needsEscapes cs)

def looksLikeOtherKind (s : String) : Bool :=
  match ScalarText.plainValue s with
  | .text _ => ScalarText.hasLeadingZero s.toList
  | _ => true

/-- The style of a text. A key in front of its colon stands on one line. -/
def styleOf (inKey : Bool) (s : String) : ScalarStyle :=
  let cs := s.toList
  if cs.contains '\n' then
    if allowsBlock cs && !inKey then .literal else .doubleQuoted
  else if inKey && cs.any isBreak then .doubleQuoted
  else if allowsPlain cs && !looksLikeOtherKind s then .plain
  else if allowsSingleQuotes cs then .singleQuoted
  else .doubleQuoted

def upperHex (width n : Nat) : String :=
  let ds := (Nat.toDigits 16 n).map Char.toUpper
  String.ofList (List.replicate (width - ds.length) '0' ++ ds)

def yamlEscape (c : Char) : String :=
  match c with
  | '\x00' => "\\0"
  | '\x07' => "\\a"
  | '\x08' => "\\b"
  | '\t' => "\\t"
  | '\n' => "\\n"
  | '\x0b' => "\\v"
  | '\x0c' => "\\f"
  | '\r' => "\\r"
  | '\x1b' => "\\e"
  | '"' => "\\\""
  | '\\' => "\\\\"
  | '\u0085' => "\\N"
  | '\u00a0' => "\\_"
  | '\u2028' => "\\L"
  | '\u2029' => "\\P"
  | c =>
    let n := c.toNat
    if n ≤ 0xff then "\\x" ++ upperHex 2 n
    else if n ≤ 0xffff then "\\u" ++ upperHex 4 n
    else "\\U" ++ upperHex 8 n

def doubleQuotedText (s : String) : String :=
  "\"" ++ String.join (s.toList.map fun c =>
    if !isShown c || isBreak c || c = '"' || c = '\\' then yamlEscape c else c.toString) ++ "\""

/-- Lines after the first begin at the indentation; an empty line has none. -/
def indentLines (n : Nat) (newLine : Bool) : List Char → String
  | [] => ""
  | c :: cs =>
    if isBreak c then c.toString ++ indentLines n true cs
    else (if newLine then indentation n else "") ++ c.toString ++ indentLines n false cs

/-- Quotes are doubled. A text that ends with a break has its closing quote on a line of its own. -/
def singleQuotedText (n : Nat) (s : String) : String :=
  let cs := s.toList
  let doubled := cs.flatMap fun c => if c = '\'' then ['\'', '\''] else [c]
  let last := if cs.getLast?.any isBreak then indentation n else ""
  "'" ++ indentLines n false doubled ++ last ++ "'"

def chompMark (cs : List Char) : String :=
  match cs.reverse with
  | [] => "-"
  | [c] => if isBreak c then "+" else "-"
  | c :: d :: _ => if !isBreak c then "-" else if isBreak d then "+" else ""

def literalText (n : Nat) (s : String) : String :=
  let cs := s.toList
  "|" ++ (if cs.head?.any isBlankOrBreak then "2" else "") ++ chompMark cs ++ "\n" ++
    indentLines n true cs

/-- A text whose further lines are indented by two more than the entry it stands in. -/
def yamlText (indent : Nat) (inKey : Bool) (s : String) : String :=
  match styleOf inKey s with
  | .literal | .folded => literalText (indent + 2) s
  | .doubleQuoted => doubleQuotedText s
  | .singleQuoted => singleQuotedText (indent + 2) s
  | .plain => s

def yamlFloat (x : Float) : String :=
  match BinaryFloat.ofFloat x with
  | .nan => ".nan"
  | .infinite negative => if negative then "-.inf" else ".inf"
  | .finite .. => RealNotation.document.render x

def isSimpleKey (k : String) : Bool := k.utf8ByteSize ≤ 128 && !k.toList.any isBreak

def endLine (s : String) : String :=
  if s.toList.getLast?.any isBreak then s else s ++ "\n"

def yamlLeaf (indent : Nat) : Tree → String
  | .null => "null"
  | .bool b => toString b
  | .integer n => toString n
  | .float x => yamlFloat x
  | .text s => yamlText indent false s
  | .list _ => "[]"
  | .record _ => "\x7b\x7d"

mutual

def afterMark (indent : Nat) : Tree → String
  | .list ts => if ts.isEmpty then " []" else " " ++ yamlItems (indent + 2) ts
  | .record fs => if fs.isEmpty then " \x7b\x7d" else " " ++ yamlFields (indent + 2) fs
  | leaf => " " ++ yamlLeaf indent leaf

/-- What follows the colon of a key. Lists are not indented below it. -/
def afterKey (indent : Nat) : Tree → String
  | .list ts => if ts.isEmpty then " []" else "\n" ++ indentation indent ++ yamlItems indent ts
  | .record fs =>
    if fs.isEmpty then " \x7b\x7d"
    else "\n" ++ indentation (indent + 2) ++ yamlFields (indent + 2) fs
  | leaf => " " ++ yamlLeaf indent leaf

def yamlItems (indent : Nat) : List Tree → String
  | [] => ""
  | t :: ts =>
    let first := "-" ++ afterMark indent t
    if ts.isEmpty then first else endLine first ++ indentation indent ++ yamlItems indent ts

def yamlFields (indent : Nat) : List (String × Tree) → String
  | [] => ""
  | (k, t) :: fs =>
    let first :=
      if isSimpleKey k then yamlText indent true k ++ ":" ++ afterKey indent t
      else
        endLine ("? " ++ yamlText indent false k) ++ indentation indent ++ ":" ++ afterMark indent t
    if fs.isEmpty then first else endLine first ++ indentation indent ++ yamlFields indent fs

end

def toYaml (t : Tree) : String :=
  endLine <|
    match t with
    | .list (i :: is) => yamlItems 0 (i :: is)
    | .record (f :: fs) => yamlFields 0 (f :: fs)
    | leaf => yamlLeaf 0 leaf

end ModuleCompiler.Tree
