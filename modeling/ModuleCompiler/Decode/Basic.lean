import ModuleCompiler.SortedMap
import ModuleCompiler.Decode.Error

/-!
Decoders: values of a type from the nodes of a document.

A decoder looks at nodes in document order and only as far as it needs to, so an error of type may
come before a fault further down. Aliases are followed where a value is asked for. Two limits bound
that: how deep lists and maps nest, and how many aliases are followed in all.
-/

namespace ModuleCompiler

open Yaml

namespace Decode

/-- What a document tells its decoders: the nodes behind aliases, and how many may be followed. -/
structure Anchors where
  nodes : List (Nat × Node)
  limit : Nat

/-- Where a node stands, and how many levels of lists and maps may still open there. What goes
wrong is told with the mark, which is that of the node once it is entered, and that of the node
around it before. -/
structure Place where
  path : Path
  depth : Nat
  mark : Mark

/-- Levels that may open below the root. -/
def maxDepth : Nat := 128

namespace Place

def root : Place := ⟨[], maxDepth, .start⟩

def child (p : Place) (s : Step) (depth : Nat) : Place := ⟨s :: p.path, depth, p.mark⟩

def enter (p : Place) (n : Node) : Place := { p with mark := n.mark }

end Place

end Decode

/-- A computation that counts the aliases followed. -/
abbrev Decode := ReaderT Decode.Anchors (StateT Nat (Except DecodeError))

abbrev Decoder (α : Type) := Decode.Place → Node → Decode α

namespace Decode

def fail (e : DecodeError) : Decode α := throw e

def Place.fail (p : Place) (problem : Problem) : Decode α :=
  Decode.fail (.mismatch p.path p.mark problem)

/-- The node itself, or the one behind an alias. Reading stops at a fault. -/
def resolve (n : Node) : Decode Node := do
  match n with
  | .alias anchor mark =>
    let count := (← get) + 1
    set count
    if (← read).limit < count then Decode.fail .repetitionLimit
    else
      match (← read).nodes.lookup anchor with
      | some target => return target
      | none => Decode.fail (.unknownAnchor mark)
  | .broken f => Decode.fail (.ofFault f)
  | n => return n

/-- Passes over a node without looking into it; only a fault is noticed. -/
def ignore (n : Node) : Decode Unit :=
  match n.fault? with
  | some f => Decode.fail (.ofFault f)
  | none => return

def foundValue : ScalarValue → Found
  | .null => .null
  | .bool b => .bool b
  | .integer n _ => .integer n
  | .float x => .float x
  | .text s => .text s

def refuse (p : Place) (expected : String) (n : Node) : Decode α :=
  let p := p.enter n
  match n with
  | .scalar s =>
    match s.value with
    | .ok v => p.fail (.wrongType (foundValue v) expected)
    | .error forced => p.fail (.wrongValue (.text s.text) forced)
  | .seq .. => p.fail (.wrongType .sequence expected)
  | .map .. => p.fail (.wrongType .map expected)
  | .broken f => Decode.fail (.ofFault f)
  | .alias _ mark => Decode.fail (.unknownAnchor mark)
  | .absent _ => Decode.fail .endOfDocument

/-- Opens a list or a map, which takes one level. -/
def descend (p : Place) (inner : Nat → Decode α) : Decode α :=
  match p.depth with
  | 0 => Decode.fail (.recursionLimit p.mark)
  | depth + 1 => inner depth

/-- An empty scalar stands for an empty list or map, and so does an empty document. -/
def isEmptyCollection : Node → Bool
  | .scalar s => s.isEmptyPlain
  | .absent _ => true
  | _ => false

/-- What is made of the text of a scalar. -/
def textTo (expected : String) (make : Place → String → Decode α) : Decoder α := fun p n => do
  let n ← resolve n
  match n with
  | .scalar s => make (p.enter n) s.text
  | n => refuse p expected n

def textAs (expected : String) : Decoder String := textTo expected fun _ s => return s

@[simp] theorem textAs_scalar (expected : String) (p : Place) (s : Scalar) :
    textAs expected p (.scalar s) = pure s.text := rfl

def text : Decoder String := textAs "a string"

def bool : Decoder Bool := fun p n => do
  let n ← resolve n
  match n with
  | .scalar s =>
    match if s.admits "bool" then ScalarText.bool? s.text else none with
    | some b => return b
    | none => refuse p "a boolean" n
  | n => refuse p "a boolean" n

def unsigned (bits : Nat) : Decoder Nat := fun p n => do
  let expected := s!"u{bits}"
  let n ← resolve n
  match n with
  | .scalar s =>
    match if s.admits "int" then ScalarText.natural? s.text else none with
    | some k =>
      if k < wordBound bits then return k
      else if k < wordBound 64 then (p.enter n).fail (.wrongValue (.integer k) expected)
      else refuse p expected n
    | none => refuse p expected n
  | n => refuse p expected n

def uint16 : Decoder UInt16 := fun p n => Nat.toUInt16 <$> unsigned 16 p n

def uint32 : Decoder UInt32 := fun p n => Nat.toUInt32 <$> unsigned 32 p n

/-- A value, or none for an empty or null plain scalar. What goes wrong before the value is reached
is the fault of the enclosing node. -/
def option (decoder : Decoder α) : Decoder (Option α) := fun p n => do
  let n ← resolve n
  let absent ← match n with
    | .scalar s =>
      if s.style ≠ .plain then pure false
      else
        match s.tag with
        | none => pure (s.text.isEmpty || ScalarText.isNull s.text)
        | some tag =>
          if tag ≠ Tag.core "null" then pure false
          else if ScalarText.isNull s.text then pure true
          else Decode.fail (.mismatch p.path.tail p.mark (.wrongValue (.text s.text) "null"))
    | .absent _ => pure true
    | _ => pure false
  if absent then return none else some <$> decoder p n

def items (p : Place) (depth : Nat) (decoder : Decoder α) : Nat → List Node → Decode (List α)
  | _, [] => return []
  | i, n :: ns => do
    let a ← decoder (p.child (.index i) depth) n
    let as ← items p depth decoder (i + 1) ns
    return a :: as

def list (decoder : Decoder α) : Decoder (List α) := fun p n => do
  let n ← resolve n
  match n with
  | .seq _ ns =>
    let p := p.enter n
    descend p fun depth => items p depth decoder 0 ns
  | n => if isEmptyCollection n then return [] else refuse p "a sequence" n

/-- How an entry is called in paths: only a scalar in its place has a name. -/
def entryStep : Node → Step
  | .scalar s => .key s.text
  | _ => .unnamed

def entries (p : Place) (depth : Nat) (decoder : String → Decoder α) (put : String → α → σ → σ) :
    σ → List (Node × Node) → Decode σ
  | acc, [] => return acc
  | acc, (k, v) :: es => do
    let key ← text { p with depth := depth } k
    let value ← decoder key (p.child (entryStep k) depth) v
    entries p depth decoder put (put key value acc) es

/-- A table by key. Of equal keys the last counts. -/
def table (decoder : Decoder α) : Decoder (SortedMap α) := fun p n => do
  let n ← resolve n
  match n with
  | .map _ es =>
    let p := p.enter n
    descend p fun depth => entries p depth (fun _ => decoder) (fun k v m => m.insert k v) ∅ es
  | n => if isEmptyCollection n then return ∅ else refuse p "a map" n

/-- A field of a record: its names, the first of which is its own, and how its value goes in. -/
structure FieldDecoder (ρ : Type) where
  name : String
  otherNames : List String
  read : Decoder (ρ → ρ)

def field (name : String) (decoder : Decoder α) (store : α → ρ → ρ) : FieldDecoder ρ :=
  ⟨name, [], fun p n => store <$> decoder p n⟩

def FieldDecoder.orNamed (f : FieldDecoder ρ) (name : String) : FieldDecoder ρ :=
  { f with otherNames := name :: f.otherNames }

def FieldDecoder.isNamed (f : FieldDecoder ρ) (key : String) : Bool :=
  f.name == key || f.otherNames.contains key

/-- Entries of a record in document order. Unknown keys are passed over, and a field may come
once. -/
def fields (p : Place) (depth : Nat) (known : List (FieldDecoder ρ)) :
    List String → ρ → List (Node × Node) → Decode ρ
  | _, acc, [] => return acc
  | seen, acc, (k, v) :: es => do
    let key ← textAs "field identifier" { p with depth := depth } k
    match known.find? (·.isNamed key) with
    | none =>
      ignore v
      fields p depth known seen acc es
    | some f =>
      if seen.contains f.name then p.fail (.repeatedField f.name)
      else
        let store ← f.read (p.child (entryStep k) depth) v
        fields p depth known (f.name :: seen) (store acc) es

def record (name : String) (known : List (FieldDecoder ρ)) (initial : ρ) : Decoder ρ :=
  fun p n => do
  let n ← resolve n
  match n with
  | .map _ es =>
    let p := p.enter n
    descend p fun depth => fields p depth known [] initial es
  | n => if isEmptyCollection n then return initial else refuse p ("struct " ++ name) n

inductive Untyped where
  | scalar (v : ScalarValue)
  | seq (items : List Node)
  | map (entries : List (Node × Node))
  | nothing

def tagOf? : Node → Option Tag
  | .scalar s => s.tag
  | .seq o _ => o.tag
  | .map o _ => o.tag
  | _ => none

/-- What a node holds, whatever its tag. -/
def content (p : Place) (expected : String) (n : Node) : Decode Untyped :=
  match n with
  | .scalar s =>
    match s.value with
    | .ok v => return .scalar v
    | .error forced => (p.enter n).fail (.wrongValue (.text s.text) forced)
  | .seq _ ns => return .seq ns
  | .map _ es => return .map es
  | .absent _ => return .nothing
  | n => refuse p expected n

/-- What is made of a node, unless its tag makes it a variant of the document's own. -/
def untyped (expected : String) (make : Place → Untyped → Decode α) : Decoder α := fun p n => do
  let n ← resolve n
  let p := p.enter n
  if ((tagOf? n).bind Tag.variant?).isSome then p.fail (.wrongType .variant expected)
  else make p (← content p expected n)

def refuseUntyped (p : Place) (expected : String) : Untyped → Decode α
  | .scalar v => p.fail (.wrongType (foundValue v) expected)
  | .seq _ => p.fail (.wrongType .sequence expected)
  | .map _ => p.fail (.wrongType .map expected)
  | .nothing => p.fail (.wrongType .nothing expected)

/-- How values of one type are put together from nodes of any type. -/
structure Assembly (α : Type) where
  expected : String
  scalar : Place → ScalarValue → Decode α
  nothing : α
  list : List α → α
  map : Entries α → α
  variant : Option (String → α → α) := none
  /-- Keys whose values are looked at but not kept. -/
  dropped : String → Option (Decoder Unit) := fun _ => none

def variantOf (r : Assembly α) (p : Place) (n : Node) : Decode (α → α) :=
  match (tagOf? n).bind Tag.variant? with
  | none => return id
  | some name =>
    match r.variant with
    | none => p.fail (.wrongType .variant r.expected)
    | some wrap => return wrap name

/-- Any node, in so many levels. Of equal keys of a map the last counts. -/
def any (r : Assembly α) : Nat → Path → Node → Decode α
  | 0, path, n => do
    let n ← resolve n
    let p : Place := ⟨path, 0, n.mark⟩
    let wrap ← variantOf r p n
    match ← content p r.expected n with
    | .scalar v => wrap <$> r.scalar p v
    | .nothing => return r.nothing
    | _ => Decode.fail (.recursionLimit p.mark)
  | depth + 1, path, n => do
    let n ← resolve n
    let p : Place := ⟨path, depth + 1, n.mark⟩
    let wrap ← variantOf r p n
    match ← content p r.expected n with
    | .scalar v => wrap <$> r.scalar p v
    | .nothing => return r.nothing
    | .seq ns => (wrap ∘ r.list) <$> items p depth (fun q => any r depth q.path) 0 ns
    | .map es =>
      let value (key : String) : Decoder (Option α) := fun q n =>
        match r.dropped key with
        | some look => do
          look q n
          return none
        | none => some <$> any r depth q.path n
      let put (key : String) (v : Option α) (vs : Entries α) : Entries α :=
        match v with
        | some v => Entries.insert key v vs
        | none => vs
      (wrap ∘ r.map) <$> entries p depth value put [] es

end Decode

/-- The value that a whole document holds. It must be well-formed to its end and the only one. -/
def Decoder.run (decoder : Decoder α) (doc : Yaml.Document) : Except DecodeError α :=
  match (decoder .root doc.root).run ⟨doc.anchored, 100 * doc.eventCount⟩ |>.run 0 with
  | .error e => .error e
  | .ok (a, _) =>
    match doc.fault with
    | some f => .error (.ofFault f)
    | none => if doc.continues then .error .severalDocuments else .ok a

end ModuleCompiler
