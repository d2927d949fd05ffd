import ModuleCompiler.Yaml.Event

/-!
Documents as trees. A text that is malformed somewhere still has a tree: the part read so far, with
a `broken` leaf where it breaks off. A reader that never gets there never notices.
-/

namespace ModuleCompiler.Yaml

inductive Node where
  | scalar (s : Scalar)
  | seq (o : Opening) (items : List Node)
  | map (o : Opening) (entries : List (Node × Node))
  | alias (anchor : Nat) (mark : Mark)
  /-- The whole of an empty document, with its end. -/
  | absent (mark : Mark)
  | broken (fault : Fault)
  deriving Repr, Inhabited

namespace Node

/-- Where the node begins. -/
def mark : Node → Mark
  | .scalar s => s.mark
  | .seq o _ => o.mark
  | .map o _ => o.mark
  | .alias _ mark => mark
  | .absent mark => mark
  | .broken f => f.mark

section Equality

mutual

def same : Node → Node → Bool
  | .scalar s, .scalar t => s = t
  | .seq o ns, .seq o' ns' => o = o' && sameItems ns ns'
  | .map o es, .map o' es' => o = o' && sameEntries es es'
  | .alias a mark, .alias b mark' => a = b && mark = mark'
  | .absent mark, .absent mark' => mark = mark'
  | .broken f, .broken g => f = g
  | _, _ => false

def sameItems : List Node → List Node → Bool
  | [], [] => true
  | n :: ns, n' :: ns' => n.same n' && sameItems ns ns'
  | _, _ => false

def sameEntries : List (Node × Node) → List (Node × Node) → Bool
  | [], [] => true
  | (k, v) :: es, (k', v') :: es' => k.same k' && v.same v' && sameEntries es es'
  | _, _ => false

end

mutual

theorem same_iff : ∀ {n n' : Node}, n.same n' = true ↔ n = n'
  | .scalar s, n' => by cases n' <;> simp [same]
  | .seq o ns, n' => by cases n' <;> simp [same, sameItems_iff]
  | .map o es, n' => by cases n' <;> simp [same, sameEntries_iff]
  | .alias a mark, n' => by cases n' <;> simp [same]
  | .absent mark, n' => by cases n' <;> simp [same]
  | .broken f, n' => by cases n' <;> simp [same]

theorem sameItems_iff : ∀ {ns ns' : List Node}, sameItems ns ns' = true ↔ ns = ns'
  | [], ns' => by cases ns' <;> simp [sameItems]
  | n :: ns, ns' => by cases ns' <;> simp [sameItems, same_iff, sameItems_iff]

theorem sameEntries_iff : ∀ {es es' : List (Node × Node)}, sameEntries es es' = true ↔ es = es'
  | [], es' => by cases es' <;> simp [sameEntries]
  | (k, v) :: es, es' => by
    cases es' <;> simp [sameEntries, same_iff, sameEntries_iff, Prod.ext_iff]

end

instance : DecidableEq Node := fun n n' => decidable_of_iff (n.same n' = true) same_iff

end Equality

mutual

def fault? : Node → Option Fault
  | .seq _ items => itemsFault? items
  | .map _ entries => entriesFault? entries
  | .broken f => some f
  | .scalar _ => none
  | .alias .. => none
  | .absent _ => none

def itemsFault? : List Node → Option Fault
  | [] => none
  | n :: ns => n.fault? <|> itemsFault? ns

def entriesFault? : List (Node × Node) → Option Fault
  | [] => none
  | (k, v) :: es => k.fault? <|> v.fault? <|> entriesFault? es

end

mutual

/-- The node at the head of a sequence of events, and the events after it. -/
def ofEvents (fault : Fault) : Nat → List Event → Node × List Event
  | 0, es => (.broken fault, es)
  | _, [] => (.broken fault, [])
  | fuel + 1, e :: es =>
    match e with
    | .alias n mark => (.alias n mark, es)
    | .scalar s => (.scalar s, es)
    | .sequenceStart o =>
      let (items, es) := itemsOfEvents fault fuel es
      (.seq o items, es)
    | .mappingStart o =>
      let (entries, es) := entriesOfEvents fault fuel es
      (.map o entries, es)
    | .sequenceEnd => (.broken fault, es)
    | .mappingEnd => (.broken fault, es)

def itemsOfEvents (fault : Fault) : Nat → List Event → List Node × List Event
  | 0, es => ([.broken fault], es)
  | _, [] => ([.broken fault], [])
  | fuel + 1, es@(e :: rest) =>
    match e with
    | .sequenceEnd => ([], rest)
    | _ =>
      let (item, es) := ofEvents fault fuel es
      let (items, es) := itemsOfEvents fault fuel es
      (item :: items, es)

def entriesOfEvents (fault : Fault) : Nat → List Event → List (Node × Node) × List Event
  | 0, es => ([(.broken fault, .broken fault)], es)
  | _, [] => ([(.broken fault, .broken fault)], [])
  | fuel + 1, es@(e :: rest) =>
    match e with
    | .mappingEnd => ([], rest)
    | _ =>
      let (key, es) := ofEvents fault fuel es
      let (value, es) := ofEvents fault fuel es
      let (entries, es) := entriesOfEvents fault fuel es
      ((key, value) :: entries, es)

end

end Node

structure Document where
  root : Node
  anchored : List (Nat × Node) := []
  eventCount : Nat := 1
  fault : Option Fault := none
  continues : Bool := false

namespace Document

def ofSource (s : Source) : Document :=
  let fuel := 4 * s.text.length + 16
  let (outcome, r) := (Reading.firstDocument fuel).run.run { tokens := .ofSource s }
  let fault? := match outcome with
    | .ok () => none
    | .error f => some f
  let events := r.events.toList
  let fault := fault?.getD (.form ⟨.nodeContent, r.tokens.cursor.mark⟩)
  let continues := match (Reading.continues fuel).run.run r with
    | (.ok more, _) => more
    | (.error _, _) => true
  if events.isEmpty && fault?.isNone then { root := .absent r.tokens.cursor.mark }
  else
    { root := (Node.ofEvents fault fuel events).1
      anchored := r.marked.map fun (n, i) => (n, (Node.ofEvents fault fuel (events.drop i)).1)
      eventCount := events.length
      fault := fault?
      continues := continues }

def ofBytes (bytes : ByteArray) : Document := ofSource (.ofBytes bytes)

end Document

end ModuleCompiler.Yaml
