import ModuleCompiler.Yaml.SyntaxError
import ModuleCompiler.Yaml.Tag

/-!
Tags and directives as they are written.
-/

namespace ModuleCompiler.Yaml

def isTagChar (verbatim : Bool) (c : Char) : Bool :=
  isNameChar c || ";/?:@&=+$.%!~*'()".toList.contains c || (verbatim && ",[]".toList.contains c)

def octetWidth? (b : Nat) : Option Nat :=
  if b < 0x80 then some 1
  else if 0xc0 ≤ b ∧ b < 0xe0 then some 2
  else if 0xe0 ≤ b ∧ b < 0xf0 then some 3
  else if 0xf0 ≤ b ∧ b < 0xf8 then some 4
  else none

def escapedOctet? : List Char → Option Nat
  | '%' :: a :: b :: _ => do return 16 * (← hex a) + (← hex b)
  | _ => none
where
  hex (c : Char) : Option Nat :=
    if '0' ≤ c ∧ c ≤ '9' then some (c.toNat - 48)
    else if 'a' ≤ c ∧ c ≤ 'f' then some (c.toNat - 87)
    else if 'A' ≤ c ∧ c ≤ 'F' then some (c.toNat - 55)
    else none

def continuationOctets : Nat → Cursor → Scan (List UInt8 × Cursor)
  | 0, c => .ok ([], c)
  | k + 1, c =>
    match escapedOctet? c.rest with
    | none => c.fail .tagEscape
    | some b =>
      if 0x80 ≤ b ∧ b < 0xc0 then do
        let (octets, c) ← continuationOctets k (c.skip 3)
        return (b.toUInt8 :: octets, c)
      else c.fail .tagEscape

/-- The escaped octets of one character. Only the class of each octet is looked at, so they may spell
what is no character. -/
def scanTagEscape (c : Cursor) : Scan (List UInt8 × Cursor) :=
  match escapedOctet? c.rest with
  | none => c.fail .tagEscape
  | some b =>
    match octetWidth? b with
    | none => c.fail .tagEscape
    | some width => do
      let (octets, c) ← continuationOctets (width - 1) (c.skip 3)
      return (b.toUInt8 :: octets, c)

/-- The octets of a tag after its handle; those found so far are given last first. -/
def scanTagOctets (verbatim : Bool) : Nat → List UInt8 → Cursor → Scan (List UInt8 × Cursor)
  | 0, found, c => .ok (found.reverse, c)
  | fuel + 1, found, c =>
    match c.rest with
    | [] => .ok (found.reverse, c)
    | ch :: _ =>
      if !isTagChar verbatim ch then .ok (found.reverse, c)
      else if ch = '%' then do
        let (octets, c) ← scanTagEscape c
        scanTagOctets verbatim fuel (octets.reverse ++ found) c
      else scanTagOctets verbatim fuel (ch.toNat.toUInt8 :: found) (c.skip 1)

def scanTagNonempty (verbatim : Bool) (bound : Nat) (c : Cursor) : Scan (Tag × Cursor) := do
  let (octets, c') ← scanTagOctets verbatim bound [] c
  if octets.isEmpty then c.fail .tagEmpty else return (.ofOctets octets, c')

def scanTagHandle (c : Cursor) : Scan (String × Cursor) :=
  if !c.startsWith '!' then c.fail .tagHandle
  else
    let (name, c) := (c.skip 1).run isNameChar
    let handle := "!" ++ String.ofList name
    if c.startsWith '!' then .ok (handle.push '!', c.skip 1) else .ok (handle, c)

/-- A tag as handle and suffix. A verbatim tag has no handle, and neither has the lone `!`. -/
def scanTag (flow : Bool) (bound : Nat) (c : Cursor) : Scan (String × Tag × Cursor) := do
  let (handle, suffix, c) ←
    if c.rest[1]? = some '<' then do
      let (suffix, c) ← scanTagNonempty true bound (c.skip 2)
      if c.startsWith '>' then pure ("", suffix, c.skip 1) else c.fail .tagUnclosed
    else do
      let (handle, c) ← scanTagHandle c
      if 1 < handle.length ∧ handle.endsWith "!" then
        let (suffix, c) ← scanTagNonempty false bound c
        pure (handle, suffix, c)
      else
        let (octets, c) ← scanTagOctets false bound [] c
        let suffix := (Tag.ofText (handle.drop 1).toString).append (.ofOctets octets)
        pure (if suffix.isEmpty then ("", Tag.ofText "!", c) else ("!", suffix, c))
  if atSpace c.rest || (flow && c.startsWith ',') then return (handle, suffix, c)
  else c.fail .tagSpace

inductive Directive where
  | version (major minor : Nat)
  | tag (handle : String) (expansion : Tag)

private def scanVersionNumber (c : Cursor) : Scan (Nat × Cursor) :=
  let (ds, c') := c.run Char.isDigit
  if ds.isEmpty then c.fail .versionNumber
  else if 9 < ds.length then c.fail .versionLength
  else .ok (ds.foldl (fun n d => 10 * n + (d.toNat - 48)) 0, c')

def scanDirective (bound : Nat) (c : Cursor) : Scan (Directive × Cursor) := do
  let (name, c) := (c.skip 1).run isNameChar
  if name.isEmpty || !atSpace c.rest then c.fail .directiveName
  else
    let (directive, c) ←
      if name = "YAML".toList then do
        let (major, c) ← scanVersionNumber (c.skipWhile isSpace)
        if !c.startsWith '.' then c.fail .versionDot
        else
          let (minor, c) ← scanVersionNumber (c.skip 1)
          pure (Directive.version major minor, c)
      else if name = "TAG".toList then do
        let (handle, c) ← scanTagHandle (c.skipWhile isSpace)
        if handle ≠ "!" ∧ !handle.endsWith "!" then c.fail .tagHandle
        else if c.rest.isEmpty || !(c.rest.head?.any isSpace) then c.fail .tagSpace
        else
          let (expansion, c) ← scanTagNonempty true bound (c.skipWhile isSpace)
          if atSpace c.rest then pure (Directive.tag handle expansion, c) else c.fail .tagSpace
      else c.fail .directiveUnknown
    let c := c.skipWhile isSpace
    let c := if c.startsWith '#' then c.skipWhile (!isBreak ·) else c
    if !atBreak c.rest then c.fail .directiveEnd
    else
      match c.lineBreak? with
      | some (_, c) => return (directive, c)
      | none => return (directive, c)

end ModuleCompiler.Yaml
