import ModuleCompiler.Decode.Basic
import ModuleCompiler.Tree.Basic

/-!
Settings before they get a type. One layer of them goes over another: tables are joined key by key,
and any other value replaces what lies below.
-/

namespace ModuleCompiler

inductive SettingValue where
  | null
  | bool (b : Bool)
  /-- Zero may have been written with a minus sign. -/
  | integer (n : Int) (minus : Bool)
  | float (x : Float)
  | char (c : Char)
  | text (s : String)
  | list (items : List SettingValue)
  | table (entries : List (String × SettingValue))
  deriving Inhabited

namespace SettingValue

mutual

def ofTree : Tree → SettingValue
  | .null => .null
  | .bool b => .bool b
  | .integer n => .integer n (n < 0)
  | .float x => .float x
  | .text s => .text s
  | .list ts => .list (ofTrees ts)
  | .record fs => .table (ofFields fs)

def ofTrees : List Tree → List SettingValue
  | [] => []
  | t :: ts => ofTree t :: ofTrees ts

def ofFields : List (String × Tree) → List (String × SettingValue)
  | [] => []
  | (k, t) :: fs => Entries.insert k (ofTree t) (ofFields fs)

end

mutual

def onTop : SettingValue → SettingValue → SettingValue
  | .table es, .table base => .table (entriesOnTop es base)
  | v, _ => v

def entriesOnTop : List (String × SettingValue) → List (String × SettingValue) →
    List (String × SettingValue)
  | [], base => base
  | (k, v) :: es, base =>
    let joined := match Entries.get? k base with
      | some below => onTop v below
      | none => v
    entriesOnTop es (Entries.insert k joined base)

end

/-- The value below a path of keys and list places. -/
def at? : SettingValue → List String → Option SettingValue
  | v, [] => some v
  | .table es, k :: ks => (Entries.get? k es).bind (at? · ks)
  | .list vs, k :: ks => (k.toNat?.bind (vs[·]?)).bind (at? · ks)
  | _, _ :: _ => none

def ofScalarValue : Yaml.ScalarValue → SettingValue
  | .null => .null
  | .bool b => .bool b
  | .integer n minus => .integer n minus
  | .float x => .float x
  | .text s => .text s

/-- A key under which an identifier may stand. It has to be a number and is not kept. -/
def idKey : String := "___figment_value_id"

/-- A table with this key stands for the value under it. -/
def valueKey : String := "___figment_value_value"

def idExpected : String := "a 64-bit metadata id integer"

def checkId : Decoder Unit := Decode.untyped idExpected fun p u =>
  match u with
  | .scalar v@(.integer k minus) =>
    if !minus && isWord 64 k then return () else Decode.refuseUntyped p idExpected (.scalar v)
  | u => Decode.refuseUntyped p idExpected u

/-- A table, unless it stands for a value. -/
def ofEntries (es : Entries SettingValue) : SettingValue :=
  (Entries.get? valueKey es).getD (.table es)

/-- A variant is a table with its name as the only key. -/
def assembly : Decode.Assembly SettingValue where
  expected := "any value"
  scalar := fun _ v => return ofScalarValue v
  nothing := .null
  list := .list
  map := ofEntries
  variant := some fun name v => .table [(name, v)]
  dropped := fun key => if key = idKey then some checkId else none

def decoder : Decoder SettingValue := fun p => Decode.any assembly p.depth p.path

def fileDecoder : Decoder SettingValue := fun p n => do
  let table ← Decode.table decoder p n
  return .table table.entries

end SettingValue

end ModuleCompiler
