import ModuleCompiler.Yaml.Token
import ModuleCompiler.Yaml.ScalarText
import ModuleCompiler.Yaml.Source
import ModuleCompiler.Yaml.TagText

/-!
Tokens of a text, one at a time. A token that may turn out to begin a key is held back until the `:`
that makes it one is found, or can no longer follow: a key ends on its line and within 1024 octets.
Only then is it known whether a `key` token goes before it.
-/

namespace ModuleCompiler.Yaml

/-- A place where a key may begin: the number of its token, and whether nothing else may stand
there. -/
structure KeyCandidate where
  number : Nat
  required : Bool
  mark : Mark

structure TokenQueue where
  cursor : Cursor
  fault : Option SyntaxProblem := none
  /-- At least the length of the text: fuel for every loop over it. -/
  bound : Nat
  /-- The candidate of the innermost collection in brackets, or of the block context. -/
  candidate : Option KeyCandidate := none
  /-- Candidates of the enclosing ones, one for each open bracket. -/
  outer : List (Option KeyCandidate) := []
  keyAllowed : Bool := true
  indent : Int := -1
  indents : List Int := []
  pending : List Lexeme := []
  taken : Nat := 0
  ended : Bool := false

namespace TokenQueue

def ofSource (s : Source) : TokenQueue :=
  { cursor := Cursor.ofText s.text, fault := s.fault, bound := s.text.length + 8 }

def inFlow (q : TokenQueue) : Bool := !q.outer.isEmpty

/-- Adds the token that ends where the cursor goes to. -/
def push (q : TokenQueue) (t : Token) (c : Cursor) : TokenQueue :=
  { q with pending := q.pending ++ [⟨t, q.cursor.mark, c.mark⟩], cursor := c }

def pushIndicator (q : TokenQueue) (t : Token) (width : Nat) : TokenQueue :=
  q.push t (q.cursor.skip width)

def fail (q : TokenQueue) (p : SyntaxProblem) : Scan α := q.cursor.fail p

/-- More characters than given have to stand before the fault of a text. -/
def checkFault (q : TokenQueue) (ahead : Nat) : Scan TokenQueue :=
  match q.fault with
  | none => .ok q
  | some p => if (q.cursor.rest.drop ahead).isEmpty then q.fail p else .ok q

/-- Spaces, comments and line breaks. A line may begin with a byte order mark. In block context a
new line may begin a key again, and a tab is white space only where no key may begin. -/
def skipToToken (flow : Bool) : Nat → Bool → Cursor → Bool × Cursor
  | 0, keyAllowed, c => (keyAllowed, c)
  | fuel + 1, keyAllowed, c =>
    let c := if c.column = 0 ∧ c.startsWith '\ufeff' then c.skip 1 else c
    let c := c.skipWhile fun ch => ch = ' ' || ((flow || !keyAllowed) && ch = '\t')
    let c := if c.startsWith '#' then c.skipWhile (!isBreak ·) else c
    match c.lineBreak? with
    | some (_, c) => skipToToken flow fuel (keyAllowed || !flow) c
    | none => (keyAllowed, c)

/-- A candidate that the text has outrun is dropped, which a required one does not allow. -/
def checkCandidate (here : Mark) : Option KeyCandidate → Scan (Option KeyCandidate)
  | none => .ok none
  | some k =>
    if k.mark.line < here.line ∨ k.mark.index + 1024 < here.index then
      if k.required then .error ⟨.missingColon, k.mark⟩ else .ok none
    else .ok (some k)

def dropStale (q : TokenQueue) : Scan TokenQueue := do
  let outer ← q.outer.reverse.mapM (checkCandidate q.cursor.mark)
  let candidate ← checkCandidate q.cursor.mark q.candidate
  return { q with candidate := candidate, outer := outer.reverse }

def dropCandidate (q : TokenQueue) : Scan TokenQueue :=
  match q.candidate with
  | none => .ok q
  | some k =>
    if k.required then .error ⟨.missingColon, k.mark⟩ else .ok { q with candidate := none }

def saveCandidate (q : TokenQueue) : Scan TokenQueue :=
  if q.keyAllowed then do
    let q' ← q.dropCandidate
    return { q' with
      candidate := some
        { number := q.taken + q.pending.length
          required := !q.inFlow && q.indent == q.cursor.column
          mark := q.cursor.mark } }
  else .ok q

def closeBlocks (column : Int) (here : Mark) :
    List Int → Int → List Lexeme → List Int × Int × List Lexeme
  | [], indent, ts => ([], indent, ts)
  | i :: is, indent, ts =>
    if column < indent then closeBlocks column here is i (ts ++ [.empty .blockEnd here])
    else (i :: is, indent, ts)

def unrollIndent (q : TokenQueue) (column : Int) : TokenQueue :=
  if q.inFlow then q
  else
    let (indents, indent, pending) := closeBlocks column q.cursor.mark q.indents q.indent q.pending
    { q with indents := indents, indent := indent, pending := pending }

/-- Opens a block collection at a column deeper than the current ones; its start goes before the
pending token `before`, or behind all. -/
def rollIndent (q : TokenQueue) (place : Mark) (start : Token) (before : Option Nat) : TokenQueue :=
  if q.inFlow || (place.column : Int) ≤ q.indent then q
  else
    { q with
      indents := q.indent :: q.indents
      indent := place.column
      pending :=
        match before with
        | some n => q.pending.insertIdx (n - q.taken) (.empty start place)
        | none => q.pending ++ [.empty start place] }

/-- The end of the text ends its last line, and with it all candidates. -/
def fetchStreamEnd (q : TokenQueue) : Scan TokenQueue := do
  let q ← ({ q with cursor := q.cursor.endLine }.unrollIndent (-1)).dropCandidate
  return { q.push .streamEnd q.cursor with keyAllowed := false, ended := true }

def fetchDirective (q : TokenQueue) : Scan TokenQueue := do
  let q ← (q.unrollIndent (-1)).dropCandidate
  let (directive, c) ← scanDirective q.bound q.cursor
  let token := match directive with
    | .version major minor => Token.versionDirective major minor
    | .tag handle expansion => Token.tagDirective handle expansion
  return { q.push token c with keyAllowed := false }

def fetchMarker (q : TokenQueue) (t : Token) : Scan TokenQueue := do
  let q ← (q.unrollIndent (-1)).dropCandidate
  return { q.pushIndicator t 3 with keyAllowed := false }

def fetchFlowStart (q : TokenQueue) (t : Token) : Scan TokenQueue := do
  let q ← q.saveCandidate
  return { q.pushIndicator t 1 with
    outer := q.candidate :: q.outer, candidate := none, keyAllowed := true }

def fetchFlowEnd (q : TokenQueue) (t : Token) : Scan TokenQueue := do
  let q ← q.dropCandidate
  let q' := { q.pushIndicator t 1 with keyAllowed := false }
  match q.outer with
  | [] => return q'
  | k :: ks => return { q' with candidate := k, outer := ks }

def fetchFlowEntry (q : TokenQueue) : Scan TokenQueue := do
  let q ← q.dropCandidate
  return { q.pushIndicator .flowEntry 1 with keyAllowed := true }

def fetchBlockEntry (q : TokenQueue) : Scan TokenQueue := do
  if !q.inFlow && !q.keyAllowed then q.fail .entryMisplaced
  else
    let q ← (q.rollIndent q.cursor.mark .blockSequenceStart none).dropCandidate
    return { q.pushIndicator .blockEntry 1 with keyAllowed := true }

def fetchKey (q : TokenQueue) : Scan TokenQueue := do
  if !q.inFlow && !q.keyAllowed then q.fail .keyMisplaced
  else
    let q ← (q.rollIndent q.cursor.mark .blockMappingStart none).dropCandidate
    return { q.pushIndicator .key 1 with keyAllowed := !q.inFlow }

/-- A `:` makes the candidate a key, or else stands for itself where a key may begin. -/
def fetchValue (q : TokenQueue) : Scan TokenQueue :=
  match q.candidate with
  | some k =>
    let q := { q with pending := q.pending.insertIdx (k.number - q.taken) (.empty .key k.mark) }
    let q := q.rollIndent k.mark .blockMappingStart (some k.number)
    .ok { q.pushIndicator .value 1 with candidate := none, keyAllowed := false }
  | none =>
    if !q.inFlow && !q.keyAllowed then q.fail .valueMisplaced
    else
      let q := q.rollIndent q.cursor.mark .blockMappingStart none
      .ok { q.pushIndicator .value 1 with keyAllowed := !q.inFlow }

def fetchAnchor (q : TokenQueue) (make : String → Token) : Scan TokenQueue := do
  let q ← q.saveCandidate
  let (name, c) := (q.cursor.skip 1).run isNameChar
  let ends := atSpace c.rest || c.rest.head?.any fun ch => "?:,]\x7d%@\x60".toList.contains ch
  if name.isEmpty || !ends then q.fail .anchorName
  else return { q.push (make (String.ofList name)) c with keyAllowed := false }

def fetchTag (q : TokenQueue) : Scan TokenQueue := do
  let q ← q.saveCandidate
  let (handle, suffix, c) ← scanTag q.inFlow q.bound q.cursor
  return { q.push (.tag handle suffix) c with keyAllowed := false }

def fetchBlockScalar (q : TokenQueue) (style : ScalarStyle) : Scan TokenQueue := do
  let q ← q.dropCandidate
  let (text, c) ← scanBlockScalar (style = .folded) q.indent q.bound (q.cursor.skip 1)
  return { q.push (.scalar text style) c with keyAllowed := true }

def fetchQuoted (q : TokenQueue) (style : ScalarStyle) : Scan TokenQueue := do
  let q ← q.saveCandidate
  let (text, c) ← scanQuoted (style = .singleQuoted) q.bound q.bound "" (q.cursor.skip 1)
  return { q.push (.scalar text style) c with keyAllowed := false }

def fetchPlain (q : TokenQueue) : Scan TokenQueue := do
  let q ← q.saveCandidate
  let (text, broken, c) ←
    scanPlain q.inFlow (q.indent + 1).toNat q.bound q.bound "" Gap.none q.cursor
  return { q.push (.scalar text .plain) c with keyAllowed := broken }

/-- Indicators never begin a plain scalar, but `-`, and in block context `?` and `:`, do before a
character that is not white space. -/
def plainStarts (flow : Bool) : List Char → Bool
  | [] => false
  | c :: cs =>
    !(isSpace c || isBreak c || "-?:,[]\x7b\x7d#&*!|>'\"%@\x60".toList.contains c) ||
      (c = '-' && !(cs.head?.any isSpace)) ||
      (!flow && (c = '?' || c = ':') && !atSpace cs)

def fetchAhead (q : TokenQueue) : Scan TokenQueue :=
  let c := q.cursor
  match c.rest with
  | [] => q.fetchStreamEnd
  | ch :: cs =>
    if c.column = 0 ∧ ch = '%' then q.fetchDirective
    else if c.atMarker then q.fetchMarker (if ch = '-' then .documentStart else .documentEnd)
    else if ch = '[' then q.fetchFlowStart .flowSequenceStart
    else if ch = '\x7b' then q.fetchFlowStart .flowMappingStart
    else if ch = ']' then q.fetchFlowEnd .flowSequenceEnd
    else if ch = '\x7d' then q.fetchFlowEnd .flowMappingEnd
    else if ch = ',' then q.fetchFlowEntry
    else if ch = '-' ∧ atSpace cs then q.fetchBlockEntry
    else if ch = '?' ∧ (q.inFlow ∨ atSpace cs) then q.fetchKey
    else if ch = ':' ∧ (q.inFlow ∨ atSpace cs) then q.fetchValue
    else if ch = '*' then q.fetchAnchor .alias
    else if ch = '&' then q.fetchAnchor .anchor
    else if ch = '!' then q.fetchTag
    else if ch = '|' ∧ !q.inFlow then q.fetchBlockScalar .literal
    else if ch = '>' ∧ !q.inFlow then q.fetchBlockScalar .folded
    else if ch = '\'' then q.fetchQuoted .singleQuoted
    else if ch = '"' then q.fetchQuoted .doubleQuoted
    else if plainStarts q.inFlow c.rest then q.fetchPlain
    else q.fail .noToken

/-- Finds the next token and adds it to the queue. It begins with up to four characters, and to see
where it ends takes one more. -/
def fetch (q : TokenQueue) : Scan TokenQueue := do
  let (keyAllowed, c) := skipToToken q.inFlow q.bound q.keyAllowed q.cursor
  let q ← dropStale { q with keyAllowed := keyAllowed, cursor := c }
  let q ← (q.unrollIndent c.column).checkFault 3
  let q ← q.fetchAhead
  q.checkFault 0

/-- Could a `key` still have to go before the first pending token? -/
def isHeadOpen (q : TokenQueue) : Bool :=
  (q.candidate :: q.outer).any fun k => k.any (·.number == q.taken)

def settle : Nat → TokenQueue → Scan TokenQueue
  | 0, q => .ok q
  | fuel + 1, q =>
    if q.pending.isEmpty then
      if q.ended then .ok q else q.fetch.bind (settle fuel)
    else do
      let q ← q.dropStale
      if q.isHeadOpen then q.fetch.bind (settle fuel) else return q

/-- The first token, which stays in the queue; behind the end there is only the end. -/
def peek (q : TokenQueue) : Scan (Lexeme × TokenQueue) := do
  let q ← q.settle (2 * q.bound)
  return (q.pending.head?.getD (.empty .streamEnd q.cursor.mark), q)

def drop (q : TokenQueue) : TokenQueue :=
  { q with pending := q.pending.tail, taken := q.taken + 1 }

end TokenQueue

end ModuleCompiler.Yaml
