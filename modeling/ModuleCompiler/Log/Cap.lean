import ModuleCompiler.Log.Entry
import ModuleCompiler.Log.Filter
import ModuleCompiler.Number.DecimalText
import ModuleCompiler.Text.Alphabetic
import ModuleCompiler.Text.Blank

/-!
A cap on all logs, as a text of directives between commas: `level`, `target`, `target=level` or
`target[span]=level`. The last kind opens the log for what happens inside a span.
-/

namespace ModuleCompiler.Log

/-- What passes inside spans of a name that have certain fields. -/
structure SpanRule where
  target : Option String := none
  span : Option String := none
  fields : List String := []
  threshold : Threshold := some .trace
  deriving DecidableEq, Repr

def SpanRule.covers (r : SpanRule) (s : Span) : Bool :=
  (Rule.mk r.target r.threshold).covers s.target &&
    r.span.all (· == s.name) &&
    r.fields.all fun name => s.fields.any (·.1 == name)

inductive Directive where
  | rule (r : Rule)
  | spanRule (r : SpanRule)
  deriving DecidableEq, Repr

namespace Threshold

def ofNumber? : Nat → Option Threshold
  | 0 => some none
  | 1 => some (some .error)
  | 2 => some (some .warn)
  | 3 => some (some .info)
  | 4 => some (some .debug)
  | 5 => some (some .trace)
  | _ => none

def ofWord? (s : String) : Option Threshold :=
  match s.toLower with
  | "off" => some none
  | "error" => some (some .error)
  | "warn" => some (some .warn)
  | "info" => some (some .info)
  | "debug" => some (some .debug)
  | "trace" => some (some .trace)
  | _ =>
    match readUnsigned 10 5 s.toList with
    | .ok n => ofNumber? n
    | .error _ => none

/-- What stands after the equals sign. Nothing there lets everything pass. -/
def ofAssigned? (cs : List Char) : Option Threshold :=
  if cs.isEmpty then some (some .trace) else ofWord? (String.ofList cs)

end Threshold

namespace Directive

def nameOf? (cs : List Char) : Option String :=
  if cs.isEmpty then none else some (String.ofList cs)

/-- A word is a level, or else a target from which everything passes. -/
def ofWord (s : String) : Directive :=
  match Threshold.ofWord? s with
  | some t => .rule ⟨none, t⟩
  | none => .rule ⟨some s, some .trace⟩

def isOpening (c : Char) : Bool := c = '=' || c = '['

def isSpanEnd (c : Char) : Bool := c = ']' || c = '\x7b'

def closed? (r : SpanRule) : List Char → Option Directive
  | [] => some (.spanRule r)
  | '=' :: cs => (Threshold.ofAssigned? cs).map fun t => .spanRule { r with threshold := t }
  | _ => none

def spanRule? (target : Option String) (cs : List Char) : Option Directive :=
  let name := cs.takeWhile (!isSpanEnd ·)
  match cs.dropWhile (!isSpanEnd ·) with
  | '\x7b' :: rest =>
    let field := rest.takeWhile (· ≠ '\x7d')
    match rest.dropWhile (· ≠ '\x7d') with
    | '\x7d' :: ']' :: rest =>
      if field.isEmpty then none
      else
        closed? { target := target, span := nameOf? name,
                  fields := [String.ofList (field.takeWhile (· ≠ '='))] } rest
    | _ => none
  | ']' :: rest => closed? { target := target, span := some (String.ofList name) } rest
  | _ => none

def startsWell (c : Char) : Bool :=
  isAlphabetic c || c.isDigit || c = '-' || c = ':' || c = '_' || c = '['

/-- White space in front is no part of a directive, but spoils any that is more than one word. -/
def ofText? (s : String) : Option Directive :=
  let cs := s.toList
  match cs.dropWhile isBlank with
  | [] => none
  | c :: _ =>
    if !startsWell c then none
    else
      let target := cs.takeWhile (!isOpening ·)
      match cs.dropWhile (!isOpening ·) with
      | [] => some (ofWord s)
      | opening :: rest =>
        if cs.head?.any isBlank then none
        else if opening = '=' then
          (Threshold.ofAssigned? rest).map fun t => .rule ⟨nameOf? target, t⟩
        else spanRule? (nameOf? target) rest

end Directive

structure Cap where
  filter : Filter
  spanRules : List SpanRule := []
  deriving DecidableEq, Repr

namespace Cap

/-- Without any directive errors pass. -/
def ofDirectives (ds : List Directive) : Cap :=
  if ds.isEmpty then ⟨.ofRules [⟨none, some .error⟩], []⟩
  else
    ⟨.ofRules (ds.filterMap fun d => match d with | .rule r => some r | .spanRule _ => none),
      ds.filterMap fun d => match d with | .rule _ => none | .spanRule r => some r⟩

def ofText? (s : String) : Option Cap :=
  (((s.splitOn ",").filter (· ≠ "")).mapM Directive.ofText?).map ofDirectives

/-- The rules for targets let something pass, or a rule for one of the spans around it does. -/
def passes (c : Cap) (around : List Span) (target : String) (l : Level) : Bool :=
  c.filter.passes target l ||
    around.any fun s => c.spanRules.any fun r => r.covers s && r.threshold.passes l

/-- A span with a rule of its own is never hidden. -/
def passesSpan (c : Cap) (around : List Span) (s : Span) : Bool :=
  c.spanRules.any (·.covers s) || c.passes around s.target s.level

end Cap

end ModuleCompiler.Log
