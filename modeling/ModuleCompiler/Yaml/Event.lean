import ModuleCompiler.Yaml.Tokens

/-!
The first document of a text as a sequence of events: scalars, aliases, and the starts and ends of
collections. A fault ends the sequence where it is met, and what came before it stays.
-/

namespace ModuleCompiler.Yaml

structure Scalar where
  text : String
  style : ScalarStyle
  tag : Option Tag
  mark : Mark
  deriving DecidableEq, Repr, Inhabited

/-- How a list or a map begins. -/
structure Opening where
  tag : Option Tag
  mark : Mark
  deriving DecidableEq, Repr, Inhabited

/-- All but the ends know where they begin. -/
inductive Event where
  | alias (anchor : Nat) (mark : Mark)
  | scalar (s : Scalar)
  | sequenceStart (o : Opening)
  | sequenceEnd
  | mappingStart (o : Opening)
  | mappingEnd
  deriving DecidableEq, Repr, Inhabited

inductive Fault where
  | form (e : SyntaxError)
  | unknownAnchor (mark : Mark)
  deriving DecidableEq, Repr

def Fault.mark : Fault → Mark
  | form e => e.mark
  | unknownAnchor mark => mark

structure EventReader where
  tokens : TokenQueue
  handles : List (String × Tag) := []
  anchors : List (String × Nat) := []
  /-- Anchor numbers with the index of the event they mark; the first entry of a number counts. -/
  marked : List (Nat × Nat) := []
  events : Array Event := #[]

abbrev Reading := ExceptT Fault (StateM EventReader)

namespace Reading

def ahead : Reading Lexeme := do
  let r ← get
  match r.tokens.peek with
  | .error e => throw (.form e)
  | .ok (t, tokens) =>
    set { r with tokens := tokens }
    return t

def peek : Reading Token := return (← ahead).token

/-- Where the token ahead begins. -/
def here : Reading Mark := return (← ahead).start

def drop : Reading Unit := modify fun r => { r with tokens := r.tokens.drop }

/-- Drops the token ahead and answers where it ends. -/
def pass : Reading Mark := do
  let t ← ahead
  drop
  return t.stop

def emit (e : Event) : Reading Unit := modify fun r => { r with events := r.events.push e }

def fail (p : SyntaxProblem) : Reading α := do
  throw (.form ⟨p, (← get).tokens.cursor.mark⟩)

/-- Marks the next event. A new anchor gets as number the count of the names in use. -/
def mark (anchor : Option String) : Reading Unit :=
  match anchor with
  | none => return
  | some name => modify fun r =>
    let n := r.anchors.length
    { r with
      anchors := (name, n) :: r.anchors.filter (·.1 != name)
      marked := (n, r.events.size) :: r.marked }

def emptyScalar (mark : Mark) : Event := .scalar ⟨"", .plain, none, mark⟩

/-- Handles that need no directive. -/
def standardHandle? : String → Option Tag
  | "!" => some (.ofText "!")
  | "!!" => some (.ofText Tag.corePrefix)
  | _ => none

/-- The full tag; one without a handle stands for itself. -/
def expandTag (handle : String) (suffix : Tag) : Reading Tag := do
  if handle.isEmpty then return suffix
  match (← get).handles.lookup handle <|> standardHandle? handle with
  | some expansion => return expansion.append suffix
  | none => fail .tagHandleUndefined

def anchor? : Reading (Option String) := do
  match ← peek with
  | .anchor name =>
    drop
    return some name
  | _ => return none

def tag? : Reading (Option (String × Tag)) := do
  match ← peek with
  | .tag handle suffix =>
    drop
    return some (handle, suffix)
  | _ => return none

def properties : Reading (Option String × Option (String × Tag)) := do
  match ← anchor? with
  | some name => return (some name, ← tag?)
  | none =>
    match ← tag? with
    | none => return (none, none)
    | some tag => return (← anchor?, some tag)

/-- Runs the reader of a node, unless one of the tokens ahead leaves the node empty. It then stands
at the mark. -/
def nodeOrEmpty (ends : List Token) (mark : Mark) (node : Reading Unit) : Reading Unit := do
  if ends.contains (← peek) then emit (emptyScalar mark) else node

/-- The token that begins an entry between brackets or closes them. Entries after the first follow
a comma. -/
def entryOrEnd (first : Bool) (close : Token) (problem : SyntaxProblem) : Reading Token := do
  let ahead ← peek
  if first || ahead == close then return ahead
  else if ahead == .flowEntry then
    drop
    peek
  else fail problem

mutual

/-- A node. In block context it may be a block collection; as the value or key of a mapping also a
sequence that is not indented. -/
def node : Nat → (block indentless : Bool) → Reading Unit
  | 0, _, _ => fail .nodeContent
  | fuel + 1, block, indentless => do
    let start ← here
    if let .alias name ← peek then
      match (← get).anchors.lookup name with
      | none => throw (.unknownAnchor start)
      | some n => emit (.alias n start)
      drop
      return
    let (anchor, written) ← properties
    let ahead ← peek
    let tag ← match written with
      | some (handle, suffix) => some <$> expandTag handle suffix
      | none => pure none
    mark anchor
    match ahead with
    | .scalar text style =>
      emit (.scalar ⟨text, style, tag, start⟩)
      drop
    | .flowSequenceStart =>
      emit (.sequenceStart ⟨tag, start⟩)
      drop
      flowSequence fuel true
    | .flowMappingStart =>
      emit (.mappingStart ⟨tag, start⟩)
      drop
      flowMapping fuel true
    | .blockEntry =>
      if indentless then
        emit (.sequenceStart ⟨tag, start⟩)
        indentlessSequence fuel
      else empty anchor tag start
    | .blockSequenceStart =>
      if block then
        emit (.sequenceStart ⟨tag, start⟩)
        drop
        blockSequence fuel
      else empty anchor tag start
    | .blockMappingStart =>
      if block then
        emit (.mappingStart ⟨tag, start⟩)
        drop
        blockMapping fuel
      else empty anchor tag start
    | _ => empty anchor tag start
where
  empty (anchor : Option String) (tag : Option Tag) (start : Mark) : Reading Unit :=
    if anchor.isSome || tag.isSome then emit (.scalar ⟨"", .plain, tag, start⟩)
    else fail .nodeContent

def blockSequence : Nat → Reading Unit
  | 0 => fail .sequenceEntry
  | fuel + 1 => do
    match ← peek with
    | .blockEntry =>
      nodeOrEmpty [.blockEntry, .blockEnd] (← pass) (node fuel true false)
      blockSequence fuel
    | .blockEnd =>
      emit .sequenceEnd
      drop
    | _ => fail .sequenceEntry

def indentlessSequence : Nat → Reading Unit
  | 0 => fail .sequenceEntry
  | fuel + 1 => do
    match ← peek with
    | .blockEntry =>
      nodeOrEmpty [.blockEntry, .key, .value, .blockEnd] (← pass) (node fuel true false)
      indentlessSequence fuel
    | _ => emit .sequenceEnd

def blockMapping : Nat → Reading Unit
  | 0 => fail .mappingKey
  | fuel + 1 => do
    match ← peek with
    | .key =>
      nodeOrEmpty [.key, .value, .blockEnd] (← pass) (node fuel true true)
      match ← peek with
      | .value => nodeOrEmpty [.key, .value, .blockEnd] (← pass) (node fuel true true)
      | _ => emit (emptyScalar (← here))
      blockMapping fuel
    | .blockEnd =>
      emit .mappingEnd
      drop
    | _ => fail .mappingKey

/-- Entries up to the closing bracket. An entry may be a single pair without braces; where its key
is left out, the token after `?` is lost. -/
def flowSequence : Nat → (first : Bool) → Reading Unit
  | 0, _ => fail .flowSequenceEnd
  | fuel + 1, first => do
    match ← entryOrEnd first .flowSequenceEnd .flowSequenceEnd with
    | .flowSequenceEnd =>
      emit .sequenceEnd
      drop
    | .key =>
      emit (.mappingStart ⟨none, ← here⟩)
      drop
      let ahead ← peek
      if [Token.value, .flowEntry, .flowSequenceEnd].contains ahead then
        emit (emptyScalar (← pass))
      else node fuel false false
      match ← peek with
      | .value =>
        drop
        nodeOrEmpty [.flowEntry, .flowSequenceEnd] (← here) (node fuel false false)
      | _ => emit (emptyScalar (← here))
      emit .mappingEnd
      flowSequence fuel false
    | _ =>
      node fuel false false
      flowSequence fuel false

def flowMapping : Nat → (first : Bool) → Reading Unit
  | 0, _ => fail .flowMappingEnd
  | fuel + 1, first => do
    match ← entryOrEnd first .flowMappingEnd .flowMappingEnd with
    | .flowMappingEnd =>
      emit .mappingEnd
      drop
    | .key =>
      drop
      nodeOrEmpty [.value, .flowEntry, .flowMappingEnd] (← here) (node fuel false false)
      match ← peek with
      | .value =>
        drop
        nodeOrEmpty [.flowEntry, .flowMappingEnd] (← here) (node fuel false false)
      | _ => emit (emptyScalar (← here))
      flowMapping fuel false
    | _ =>
      node fuel false false
      emit (emptyScalar (← here))
      flowMapping fuel false

end

def directives : Nat → Bool → Reading Unit
  | 0, _ => return
  | fuel + 1, versioned => do
    match ← peek with
    | .versionDirective major minor =>
      if versioned then fail .versionRepeated
      if major != 1 || (minor != 1 && minor != 2) then fail .versionUnsupported
      drop
      directives fuel true
    | .tagDirective handle expansion =>
      if ((← get).handles.lookup handle).isSome then fail .tagHandleRepeated
      modify fun r => { r with handles := (handle, expansion) :: r.handles }
      drop
      directives fuel versioned
    | _ => return

/-- The first document, if there is one. Only what it holds becomes events. -/
def firstDocument (fuel : Nat) : Reading Unit := do
  match ← peek with
  | .streamEnd => return
  | .versionDirective .. | .tagDirective .. | .documentStart =>
    directives fuel false
    if (← peek) != .documentStart then fail .documentStart
    drop
    match ← peek with
    | .versionDirective .. | .tagDirective .. | .documentStart | .documentEnd | .streamEnd =>
      emit (emptyScalar (← here))
    | _ => node fuel true false
  | _ => node fuel true false
  if (← peek) == .documentEnd then drop

/-- Is there anything after the first document, well-formed or not? -/
def continues : Nat → Reading Bool
  | 0 => return true
  | fuel + 1 => do
    match ← peek with
    | .documentEnd =>
      drop
      continues fuel
    | .streamEnd => return false
    | _ => return true

end Reading

end ModuleCompiler.Yaml
