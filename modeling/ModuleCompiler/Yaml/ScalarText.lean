import ModuleCompiler.Yaml.SyntaxError

/-!
The texts of scalars: plain, in quotes, and as blocks of lines. Line breaks inside flowing text
fold: a single one becomes a space, further ones stay.

Loops over the text take fuel. A caller passes the length of the text, and every turn moves ahead.
-/

namespace ModuleCompiler.Yaml

structure Gap where
  spaces : String
  first : String
  others : String
  broken : Bool

namespace Gap

def none : Gap := ⟨"", "", "", false⟩

def escapedBreak : Gap := ⟨"", "", "", true⟩

def folded (g : Gap) : String :=
  if g.broken then
    if g.first.startsWith "\n" then (if g.others.isEmpty then " " else g.others)
    else g.first ++ g.others
  else g.spaces

/-- Takes in white space and line breaks. After a break, a tab left of column `margin` is
refused. -/
def scan (margin : Nat) : Nat → Gap → Cursor → Scan (Gap × Cursor)
  | 0, g, c => .ok (g, c)
  | fuel + 1, g, c =>
    match c.lineBreak? with
    | some (b, c') =>
      if g.broken then scan margin fuel { g with others := g.others.push b } c'
      else scan margin fuel ⟨"", g.first.push b, g.others, true⟩ c'
    | .none =>
      match c.rest with
      | ch :: _ =>
        if isSpace ch then
          if g.broken then
            if ch = '\t' ∧ c.column < margin then c.fail .tabIndentation
            else scan margin fuel g (c.skip 1)
          else scan margin fuel { g with spaces := g.spaces.push ch } (c.skip 1)
        else .ok (g, c)
      | [] => .ok (g, c)

end Gap

/-- How far a word of a plain scalar reaches: to white space, to a `:` before white space, and in
flow context to `,`, a bracket or a brace. -/
def plainWordLength (flow : Bool) : List Char → Except Nat Nat
  | [] => .ok 0
  | c :: cs =>
    if isSpace c || isBreak c then .ok 0
    else if flow && c = ':' && (cs.head?.any fun d => ",?[]\x7b\x7d".toList.contains d) then
      .error 0
    else if (c = ':' && atSpace cs) || (flow && ",[]\x7b\x7d".toList.contains c) then .ok 0
    else
      match plainWordLength flow cs with
      | .ok n => .ok (n + 1)
      | .error n => .error (n + 1)

/-- Words and gaps from a place on. Answers whether it stopped at the start of a line. -/
def scanPlain (flow : Bool) (margin bound : Nat) :
    Nat → String → Gap → Cursor → Scan (String × Bool × Cursor)
  | 0, text, gap, c => .ok (text, gap.broken, c)
  | fuel + 1, text, gap, c =>
    if c.atMarker || c.startsWith '#' then .ok (text, gap.broken, c)
    else
      match plainWordLength flow c.rest with
      | .error n => (c.skip n).fail .colonInScalar
      | .ok n => do
        let word := c.rest.take n
        let (text, gap) :=
          if word.isEmpty then (text, gap) else (text ++ gap.folded ++ String.ofList word, Gap.none)
        let c := c.skip n
        if c.rest.isEmpty || !atSpace c.rest then return (text, gap.broken, c)
        let (gap, c) ← Gap.scan margin bound gap c
        if !flow && c.column < margin then return (text, gap.broken, c)
        scanPlain flow margin bound fuel text gap c

def simpleEscape? : Char → Option Char
  | '0' => some '\x00'
  | 'a' => some '\x07'
  | 'b' => some '\x08'
  | 't' => some '\t'
  | '\t' => some '\t'
  | 'n' => some '\n'
  | 'v' => some '\x0b'
  | 'f' => some '\x0c'
  | 'r' => some '\r'
  | 'e' => some '\x1b'
  | ' ' => some ' '
  | '"' => some '"'
  | '/' => some '/'
  | '\\' => some '\\'
  | 'N' => some '\u0085'
  | '_' => some '\u00a0'
  | 'L' => some '\u2028'
  | 'P' => some '\u2029'
  | _ => none

def escapeWidth? : Char → Option Nat
  | 'x' => some 2
  | 'u' => some 4
  | 'U' => some 8
  | _ => none

def hexDigit? (c : Char) : Option Nat :=
  if '0' ≤ c ∧ c ≤ '9' then some (c.toNat - 48)
  else if 'a' ≤ c ∧ c ≤ 'f' then some (c.toNat - 87)
  else if 'A' ≤ c ∧ c ≤ 'F' then some (c.toNat - 55)
  else none

def hexValue? (width : Nat) (cs : List Char) : Option Nat :=
  let ds := cs.take width
  if ds.length < width then none
  else ds.foldl (fun acc c => acc.bind fun n => (hexDigit? c).map (16 * n + ·)) (some 0)

def scanEscape (c : Cursor) : Scan (Char × Cursor) :=
  match c.rest with
  | _ :: e :: cs =>
    match simpleEscape? e with
    | some ch => .ok (ch, c.skip 2)
    | none =>
      match escapeWidth? e with
      | none => c.fail .escapeUnknown
      | some width =>
        match hexValue? width cs with
        | none => c.fail .escapeHex
        | some n =>
          if (0xd800 ≤ n ∧ n ≤ 0xdfff) ∨ 0x10ffff < n then c.fail .escapeCodePoint
          else .ok (Char.ofNat n, c.skip (2 + width))
  | _ => c.fail .escapeUnknown

/-- Characters of a quoted scalar up to white space, the closing quote or an escaped line break;
answers whether it was the last. -/
def scanQuotedWord (single : Bool) : Nat → String → Cursor → Scan (String × Bool × Cursor)
  | 0, text, c => .ok (text, false, c)
  | fuel + 1, text, c =>
    match c.rest with
    | [] => .ok (text, false, c)
    | ch :: cs =>
      if isSpace ch || isBreak ch then .ok (text, false, c)
      else if single then
        if ch = '\'' then
          if cs.head? = some '\'' then scanQuotedWord single fuel (text.push '\'') (c.skip 2)
          else .ok (text, false, c)
        else scanQuotedWord single fuel (text.push ch) (c.skip 1)
      else if ch = '"' then .ok (text, false, c)
      else if ch = '\\' then
        match (c.skip 1).lineBreak? with
        | some (_, c') => .ok (text, true, c')
        | none => do
          let (e, c') ← scanEscape c
          scanQuotedWord single fuel (text.push e) c'
      else scanQuotedWord single fuel (text.push ch) (c.skip 1)

def scanQuoted (single : Bool) (bound : Nat) : Nat → String → Cursor → Scan (String × Cursor)
  | 0, _, c => c.fail .endInScalar
  | fuel + 1, text, c => do
    if c.atMarker then c.fail .markerInScalar
    else if c.rest.isEmpty then c.fail .endInScalar
    else
      let (text, escaped, c) ← scanQuotedWord single bound text c
      if c.startsWith (if single then '\'' else '"') then return (text, c.skip 1)
      let (gap, c) ← Gap.scan 0 bound (if escaped then Gap.escapedBreak else Gap.none) c
      scanQuoted single bound fuel (text ++ gap.folded) c

/-- What happens to the line breaks at the end of a block scalar. -/
inductive Chomping where
  | strip
  | clip
  | keep
  deriving DecidableEq, Repr

/-- The header of a block scalar: chomping and explicit indentation, in either order. -/
def scanBlockHeader (c : Cursor) : Scan (Chomping × Option Nat × Cursor) := do
  let chomping? (c : Cursor) : Option Chomping × Cursor :=
    if c.startsWith '+' then (some .keep, c.skip 1)
    else if c.startsWith '-' then (some .strip, c.skip 1)
    else (none, c)
  let digit (c : Cursor) : Scan (Option Nat × Cursor) :=
    match c.rest with
    | d :: _ =>
      if d = '0' then c.fail .blockIndentZero
      else if d.isDigit then return (some (d.toNat - 48), c.skip 1)
      else return (none, c)
    | [] => return (none, c)
  match chomping? c with
  | (some chomping, c) =>
    let (increment, c) ← digit c
    return (chomping, increment, c)
  | (none, c) =>
    let (increment, c) ← digit c
    match increment, chomping? c with
    | some _, (some chomping, c) => return (chomping, increment, c)
    | _, _ => return (.clip, increment, c)

/-- Indentation and empty lines before a line of a block scalar. With `indent` zero the deepest of
these lines decides the indentation, which is at least `least`. -/
def scanBlockBreaks (least : Nat) :
    Nat → Nat → Nat → String → Cursor → Scan (Nat × String × Cursor)
  | 0, indent, _, breaks, c => .ok (indent, breaks, c)
  | fuel + 1, indent, deepest, breaks, c =>
    let spaces := (c.rest.takeWhile (· = ' ')).length
    let c := c.skip (if indent = 0 then spaces else min spaces (indent - c.column))
    let deepest := max deepest c.column
    if (indent = 0 ∨ c.column < indent) ∧ c.startsWith '\t' then c.fail .tabIndentation
    else
      match c.lineBreak? with
      | some (b, c') => scanBlockBreaks least fuel indent deepest (breaks.push b) c'
      | none => .ok (if indent = 0 then max deepest least else indent, breaks, c)

/-- A line of a block scalar: its text, the break after it, and whether it starts with space. -/
structure BlockLines where
  text : String
  lastBreak : String
  emptyLines : String
  spaced : Bool

def scanBlockLines (folded : Bool) (indent bound : Nat) :
    Nat → BlockLines → Cursor → Scan (BlockLines × Cursor)
  | 0, ls, c => .ok (ls, c)
  | fuel + 1, ls, c =>
    if c.column = indent ∧ !c.rest.isEmpty then do
      let spaced := c.rest.head?.any isSpace
      let join :=
        if folded && ls.lastBreak.startsWith "\n" && !ls.spaced && !spaced then
          if ls.emptyLines.isEmpty then " " else ""
        else ls.lastBreak
      let (line, c) := c.run (!isBreak ·)
      let (lastBreak, c) :=
        match c.lineBreak? with
        | some (b, c) => (b.toString, c)
        | none => ("", c)
      let (_, emptyLines, c) ← scanBlockBreaks indent bound indent 0 "" c
      let text := ls.text ++ join ++ ls.emptyLines ++ String.ofList line
      scanBlockLines folded indent bound fuel ⟨text, lastBreak, emptyLines, spaced⟩ c
    else .ok (ls, c)

/-- A block scalar after its indicator, inside a collection indented by `parent`. -/
def scanBlockScalar (folded : Bool) (parent : Int) (bound : Nat) (c : Cursor) :
    Scan (String × Cursor) := do
  let (chomping, increment, c) ← scanBlockHeader c
  let c := c.skipWhile isSpace
  let c := if c.startsWith '#' then c.skipWhile (!isBreak ·) else c
  if !atBreak c.rest then c.fail .blockHeader
  else
    let c := match c.lineBreak? with
      | some (_, c) => c
      | none => c
    let indent := match increment with
      | some n => if 0 ≤ parent then parent.toNat + n else n
      | none => 0
    let (indent, breaks, c) ← scanBlockBreaks (max (parent + 1).toNat 1) bound indent 0 "" c
    let (ls, c) ← scanBlockLines folded indent bound bound ⟨"", "", breaks, false⟩ c
    let text := if chomping = .strip then ls.text else ls.text ++ ls.lastBreak
    return (if chomping = .keep then text ++ ls.emptyLines else text, c)

end ModuleCompiler.Yaml
