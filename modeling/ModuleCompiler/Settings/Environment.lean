import ModuleCompiler.Number.DecimalText
import ModuleCompiler.Settings.Value
import ModuleCompiler.Text.Blank

/-!
Settings from variables of the environment. The name of a variable gives the path of the setting and
its text the value, in a notation of its own: `[a, b]` is a list, `{k = v}` a table, `"a"` text, `'a'`
a character, and anything else is a truth value, a number or text by its look. A value that begins
like a truth value is one, and what follows has to fit.
-/

namespace ModuleCompiler

namespace SettingText

def isSeparator (c : Char) : Bool := c = ',' || c = '[' || c = ']' || c = '\x7b' || c = '\x7d'

/-- White space around parts of a value; only that of ASCII counts. -/
def isPadding (c : Char) : Bool := c = ' ' || c = '\t' || c = '\n' || c = '\x0c' || c = '\r'

def skipPadding (cs : List Char) : List Char := cs.dropWhile isPadding

def integer? : List Char → Option SettingValue
  | '-' :: ds =>
    match naturalOfDigits? 10 ds with
    | some n => if n ≤ wordBound 63 then some (.integer (-Int.ofNat n) true) else none
    | none => none
  | ds =>
    match readUnsigned 10 (wordBound 64 - 1) ds with
    | .ok n => some (.integer n false)
    | .error _ => none

def real? (cs : List Char) : Option SettingValue :=
  if cs.contains '.' then (readDouble? cs).map fun x => .float x.toFloat else none

/-- A value by its look. -/
def bare (cs : List Char) : SettingValue :=
  (real? cs <|> integer? cs).getD (.text (String.ofList cs))

def unescape? : Char → Option Char
  | '"' => some '"'
  | '\\' => some '\\'
  | 'b' => some '\x08'
  | 'f' => some '\x0c'
  | 'n' => some '\n'
  | 'r' => some '\r'
  | 't' => some '\t'
  | _ => none

def codePoint? (ds : List Char) : Option Char := do
  let n ← naturalOfDigits? 16 ds
  if n.isValidChar then some (Char.ofNat n) else none

/-- Controls other than the tab have to be escaped. -/
def isBareInQuotes (c : Char) : Bool := c = '\t' || (0x20 ≤ c.toNat && c.toNat ≠ 0x7f)

def quotedRest? : List Char → Option (List Char × List Char)
  | [] => none
  | '"' :: cs => some ([], cs)
  | '\\' :: 'u' :: a :: b :: c :: d :: cs => do
    let e ← codePoint? [a, b, c, d]
    let (ds, rest) ← quotedRest? cs
    return (e :: ds, rest)
  | '\\' :: 'U' :: a :: b :: c :: d :: e :: f :: g :: h :: cs => do
    let e ← codePoint? [a, b, c, d, e, f, g, h]
    let (ds, rest) ← quotedRest? cs
    return (e :: ds, rest)
  | '\\' :: c :: cs => do
    let e ← unescape? c
    let (ds, rest) ← quotedRest? cs
    return (e :: ds, rest)
  | c :: cs =>
    if isBareInQuotes c then do
      let (ds, rest) ← quotedRest? cs
      return (c :: ds, rest)
    else none

def isKeyChar (c : Char) : Bool := c.isAlphanum || c = '_' || c = '-'

def key? (cs : List Char) : Option (String × List Char) :=
  match skipPadding cs with
  | '"' :: cs => (quotedRest? cs).map fun (ds, rest) => (String.ofList ds, rest)
  | cs =>
    let ds := cs.takeWhile isKeyChar
    if ds.isEmpty then none else some (String.ofList ds, cs.dropWhile isKeyChar)

mutual

def value? : Nat → List Char → Option (SettingValue × List Char)
  | 0, _ => none
  | fuel + 1, cs =>
    let found : Option (SettingValue × List Char) := match skipPadding cs with
      | 't' :: 'r' :: 'u' :: 'e' :: rest => some (.bool true, rest)
      | 'f' :: 'a' :: 'l' :: 's' :: 'e' :: rest => some (.bool false, rest)
      | '[' :: cs => (items? fuel cs).map fun (vs, rest) => (.list vs, rest)
      | '\x7b' :: cs => (entries? fuel [] cs).map fun (es, rest) => (.table es, rest)
      | '"' :: cs => (quotedRest? cs).map fun (ds, rest) => (.text (String.ofList ds), rest)
      | '\'' :: c :: '\'' :: rest => some (.char c, rest)
      | '\'' :: _ => none
      | cs => some (bare (trim (cs.takeWhile (!isSeparator ·))), cs.dropWhile (!isSeparator ·))
    found.map fun (v, rest) => (v, skipPadding rest)

/-- Items up to the closing bracket; a comma may stand after the last. -/
def items? : Nat → List Char → Option (List SettingValue × List Char)
  | 0, _ => none
  | _, ']' :: rest => some ([], rest)
  | fuel + 1, cs => do
    let (v, rest) ← value? fuel cs
    match rest with
    | ',' :: rest =>
      let (vs, rest) ← items? fuel rest
      return (v :: vs, rest)
    | ']' :: rest => return ([v], rest)
    | _ => none

/-- Entries up to the closing brace; a comma may stand after the last. -/
def entries? : Nat → List (String × SettingValue) → List Char →
    Option (List (String × SettingValue) × List Char)
  | 0, _, _ => none
  | _, es, '\x7d' :: rest => some (es, rest)
  | fuel + 1, es, cs => do
    let (k, rest) ← key? cs
    match skipPadding rest with
    | '=' :: rest =>
      let (v, rest) ← value? fuel rest
      let es := Entries.insert k v es
      match rest with
      | ',' :: rest => entries? fuel es rest
      | '\x7d' :: rest => return (es, rest)
      | _ => none
    | _ => none

end

/-- The value of a text. One that does not follow the notation stands for itself. -/
def read (s : String) : SettingValue :=
  match value? (2 * s.length + 2) s.toList with
  | some (v, []) => v
  | _ => .text s

end SettingText

/-- The names of variables with their texts. -/
abbrev Environment := List (String × String)

namespace Environment

/-- Names of variables that hold settings begin with this, in either case. -/
def marker : String := "MODFILE__"

/-- What follows a marker, letters being alike in either case. -/
def dropMarker? : List Char → List Char → Option (List Char)
  | [], cs => some cs
  | _, [] => none
  | m :: ms, c :: cs => if m.toLower = c.toLower then dropMarker? ms cs else none

def splitName : List Char → List (List Char)
  | [] => [[]]
  | '_' :: '_' :: cs => [] :: splitName cs
  | c :: cs =>
    if c = '.' then [] :: splitName cs
    else
      match splitName cs with
      | [] => [[c]]
      | part :: parts => (c :: part) :: parts

/-- The path that a variable sets, in lower case. A name with an empty part sets nothing. -/
def path? (name : String) : Option (List String) := do
  let rest ← dropMarker? marker.toList (trim name.toList)
  let parts := splitName (trim rest)
  if parts.any List.isEmpty then none
  else some (parts.map fun cs => (String.ofList cs).toLower)

def nest : List String → SettingValue → SettingValue
  | [], v => v
  | k :: ks, v => .table [(k, nest ks v)]

/-- The settings of all variables, later ones over earlier ones. -/
def layer (environment : Environment) : SettingValue :=
  environment.foldl
    (fun below (name, text) =>
      match path? name with
      | none => below
      | some path => (nest path (SettingText.read text)).onTop below)
    (.table [])

end Environment

end ModuleCompiler
