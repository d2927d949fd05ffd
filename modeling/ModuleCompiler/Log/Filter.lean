import ModuleCompiler.Log.Level
import ModuleCompiler.Settings.Basic

/-!
Filters on log entries by the part of the program that they come from. Of all rules whose name the
part's name begins with, the longest decides.
-/

namespace ModuleCompiler.Log

/-- What passes from the targets that begin with a text, or from all targets. -/
structure Rule where
  target : Option String
  threshold : Threshold
  deriving DecidableEq, Repr

namespace Rule

def covers (r : Rule) (target : String) : Bool :=
  match r.target with
  | none => true
  | some start => start.toList.isPrefixOf target.toList

/-- A rule for all targets is the least specific; of others, the longer one is the more specific. -/
def specificity (r : Rule) : Nat :=
  match r.target with
  | none => 0
  | some start => start.length + 1

end Rule

/-- Rules with the most specific in front, at most one for a target. -/
abbrev Filter := List Rule

namespace Filter

def add (r : Rule) : Filter → Filter
  | [] => [r]
  | q :: qs =>
    if q.target = r.target then r :: qs
    else if q.specificity < r.specificity then r :: q :: qs
    else q :: add r qs

def ofRules (rs : List Rule) : Filter := rs.foldl (fun f r => f.add r) []

/-- The first rule that covers the target decides; without one nothing passes. -/
def threshold (f : Filter) (target : String) : Threshold :=
  match f.find? (·.covers target) with
  | none => none
  | some r => r.threshold

def passes (f : Filter) (target : String) (l : Level) : Bool := (f.threshold target).passes l

def fallback : Threshold := some .warn

/-- The rule of each section but the default one, which is for all other targets. -/
def ofSections (levelOf : LogSection → String) (sections : List (String × LogSection))
    (default : Threshold) : Filter :=
  (sections.filter (·.1 ≠ LogSections.defaultName)).foldl
    (fun f s => f.add ⟨some s.1, .ofText (levelOf s.2)⟩)
    (add ⟨none, default⟩ [])

def defaultThreshold (levelOf : LogSection → String) (sections : LogSections) : Threshold :=
  match sections.get? LogSections.defaultName with
  | none => fallback
  | some s => .ofText (levelOf s)

def ofSettings (levelOf : LogSection → String) (sections : LogSections) : Filter :=
  ofSections levelOf sections.toList (defaultThreshold levelOf sections)

def console (sections : LogSections) : Filter := ofSettings (·.consoleLevel) sections

def file (sections : LogSections) : Filter := ofSettings (·.fileLevel) sections

end Filter

end ModuleCompiler.Log
