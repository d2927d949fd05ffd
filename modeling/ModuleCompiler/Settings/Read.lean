import ModuleCompiler.Settings.Basic
import ModuleCompiler.Settings.Value
import ModuleCompiler.Text.Quoted

/-!
Typed settings from untyped ones. The entries of a table are read by ascending key, and what is
missing is noticed last.
-/

namespace ModuleCompiler

inductive SettingProblem where
  | wrongType (found : SettingValue) (expected : String)
  | wrongValue (n : Int) (minus : Bool) (expected : String)
  | wrongLength (length : Nat) (expected : String)
  | unknownVariant (name : String) (known : List String)
  | unknownField (name : String) (known : List String)
  | missingField (name : String)

namespace SettingProblem

/-- Numbers beyond 64 bits are told with the width they need, others with whether they have a sign. -/
def integerText (n : Int) (minus : Bool) : String :=
  if Int.ofNat (wordBound 64) ≤ n then s!"integer \x60{n}\x60 as u128"
  else if n < -Int.ofNat (wordBound 63) then s!"integer \x60{n}\x60 as i128"
  else if minus then s!"signed int \x60{n}\x60"
  else s!"unsigned int \x60{n}\x60"

def foundText : SettingValue → String
  | .null => "unit"
  | .bool b => s!"bool {b}"
  | .integer n minus => integerText n minus
  | .float x => "float \x60" ++ RealNotation.plain.render x ++ "\x60"
  | .char c => "string " ++ quoted c.toString
  | .text s => "string " ++ quoted s
  | .list _ => "sequence"
  | .table _ => "map"

def oneOf (names : List String) : String :=
  " or ".intercalate (names.map fun name => s!"\x60{name}\x60")

def message : SettingProblem → String
  | wrongType found expected => s!"invalid type: found {foundText found}, expected {expected}"
  | wrongValue n minus expected =>
    s!"invalid value {integerText n minus}, expected {expected}"
  | wrongLength length expected => s!"invalid length {length}, expected {expected}"
  | unknownVariant name known =>
    s!"unknown variant: found \x60{name}\x60, expected \x60{oneOf known}\x60"
  | unknownField name known =>
    s!"unknown field: found \x60{name}\x60, expected \x60{oneOf known}\x60"
  | missingField name => s!"missing field \x60{name}\x60"

end SettingProblem

structure SettingError where
  path : List String
  problem : SettingProblem

abbrev SettingReader (α : Type) := SettingValue → Except SettingError α

namespace SettingReader

def fail (p : SettingProblem) : Except SettingError α := .error ⟨[], p⟩

def inside (key : String) (x : Except SettingError α) : Except SettingError α :=
  x.mapError fun e => { e with path := key :: e.path }

def text : SettingReader String
  | .char c => .ok c.toString
  | .text s => .ok s
  | v => fail (.wrongType v "a string")

def bool : SettingReader Bool
  | .bool b => .ok b
  | v => fail (.wrongType v "a boolean")

def natural (bound : Nat) (expected : String) : SettingReader Nat
  | .integer n minus =>
    if 0 ≤ n ∧ n < bound then .ok n.toNat
    else if isWord 64 n then fail (.wrongValue n minus expected)
    else fail (.wrongType (.integer n minus) expected)
  | v => fail (.wrongType v expected)

def option (r : SettingReader α) : SettingReader (Option α)
  | .null => .ok none
  | v => (r v).map some

/-- A part of a record: how its value goes in, and whether a list may end before it. -/
structure FieldReader (ρ : Type) where
  name : String
  read : SettingReader (ρ → ρ)
  skippable : Bool := true

def field (name : String) (r : SettingReader α) (store : α → ρ → ρ) : FieldReader ρ :=
  { name := name, read := fun v => (r v).map store }

/-- Keys that are not known may be refused. -/
def entries (known : List (FieldReader ρ)) (strict : Bool) :
    ρ → List (String × SettingValue) → Except SettingError ρ
  | acc, [] => .ok acc
  | acc, (k, v) :: es =>
    match known.find? (·.name == k) with
    | some f =>
      match inside k (f.read v) with
      | .error e => .error e
      | .ok store => entries known strict (store acc) es
    | none =>
      if strict then .error ⟨[k], .unknownField k (known.map (·.name))⟩
      else entries known strict acc es

/-- Values in the order of the fields, from the given place on. -/
def places (expected : String) :
    Nat → List (FieldReader ρ) → ρ → List SettingValue → Except SettingError ρ
  | _, [], acc, _ => .ok acc
  | i, f :: fs, acc, [] =>
    if f.skippable then places expected (i + 1) fs acc [] else fail (.wrongLength i expected)
  | i, f :: fs, acc, v :: vs =>
    match inside (toString i) (f.read v) with
    | .error e => .error e
    | .ok store => places expected (i + 1) fs (store acc) vs

/-- A record from a table, or from a list of its fields. -/
def record (name : String) (known : List (FieldReader ρ)) (strict : Bool) (initial : ρ) :
    SettingReader ρ
  | .table es => entries known strict initial es
  | .list vs => places s!"struct {name} with {known.length} elements" 0 known initial vs
  | v => fail (.wrongType v ("struct " ++ name))

def tableEntries (r : SettingReader α) :
    SortedMap α → List (String × SettingValue) → Except SettingError (SortedMap α)
  | acc, [] => .ok acc
  | acc, (k, v) :: es =>
    match inside k (r v) with
    | .error e => .error e
    | .ok a => tableEntries r (acc.insert k a) es

def table (r : SettingReader α) : SettingReader (SortedMap α)
  | .table es => tableEntries r ∅ es
  | v => fail (.wrongType v "a map")

end SettingReader

open SettingReader

namespace OutputFormat

def ofName? : String → Option OutputFormat
  | "json" => some json
  | "yaml" => some yaml
  | _ => none

def ofVariant (name : String) : Except SettingError OutputFormat :=
  match ofName? name with
  | some f => .ok f
  | none => fail (.unknownVariant name ["json", "yaml"])

/-- A name, or a table with the name as its key and nothing below it. -/
def reader : SettingReader OutputFormat
  | .text s => ofVariant s
  | .table ((k, v) :: _) =>
    inside k <|
      match ofVariant k, v with
      | .error e, _ => .error e
      | .ok f, .null => .ok f
      | .ok _, v => fail (.wrongType v "unit")
  | .table [] => fail (.wrongType (.table []) "enum")
  | v => fail (.wrongType v "enum OutputFormat")

end OutputFormat

def OutputSettings.fields : List (FieldReader OutputSettings) :=
  [field "format" OutputFormat.reader fun v o => { o with format := v },
    field "pretty" bool fun v o => { o with pretty := v }]

def OutputSettings.reader : SettingReader OutputSettings :=
  record "OutputConfig" OutputSettings.fields true {}

namespace LogSection

def levelField : String := "console_level"

def uint32 : SettingReader UInt32 := fun v => (natural (wordBound 32) "u32" v).map Nat.toUInt32

def uint64 (expected : String) : SettingReader UInt64 := fun v =>
  (natural (wordBound 64) expected v).map Nat.toUInt64

def fields : List (FieldReader LogSection) :=
  [{ field levelField text fun v s => { s with consoleLevel := v } with skippable := false },
    field "file" text fun v s => { s with file := v },
    field "file_level" text fun v s => { s with fileLevel := v },
    { field "max_age_days" (option uint32) fun v s => { s with maxAgeDays := v } with
      skippable := false },
    field "max_backups" (option (uint64 "usize")) fun v s => { s with maxBackups := v },
    field "max_size_mb" (option (uint64 "u64")) fun v s => { s with maxSizeMb := v }]

/-- The console level is the only field that must be there. -/
def hasLevel : SettingValue → Bool
  | .table es => (Entries.get? levelField es).isSome
  | _ => true

def reader : SettingReader LogSection := fun v => do
  let s ← record "Section" fields false { consoleLevel := "" } v
  if hasLevel v then .ok s else fail (.missingField levelField)

end LogSection

def Settings.fields : List (FieldReader Settings) :=
  [field "logging" (option (table LogSection.reader)) fun v s => { s with logging := v },
    field "output" OutputSettings.reader fun v s => { s with output := v }]

def Settings.reader : SettingReader Settings := record "AppConfig" Settings.fields true {}

end ModuleCompiler
