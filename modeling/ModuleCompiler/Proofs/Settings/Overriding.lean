import Mathlib.Data.List.Induction
import ModuleCompiler.Settings.Basic

/-!
Flags that come more than once. Overrides one after another leave what a single one would leave that
asks for the last format and the last verbosity among them, and beside these two things they change
nothing.
-/

namespace ModuleCompiler

namespace Overrides

/-- The last format that is given and the last verbosity that asks for anything. -/
def collapse (os : List Overrides) : Overrides where
  format := (os.filterMap (·.format)).getLast?
  verbosity := ((os.map (·.verbosity)).filter (· ≠ 0)).getLast?.getD 0

def andThen (o o' : Overrides) : Overrides where
  format := o'.format.or o.format
  verbosity := if o'.verbosity = 0 then o.verbosity else o'.verbosity

theorem collapse_singleton (o : Overrides) : collapse [o] = o := by
  obtain ⟨format, verbosity⟩ := o
  by_cases hv : verbosity = 0
  · cases format <;> simp [collapse, hv]
  · cases format <;> simp [collapse, hv]

theorem collapse_append_singleton (os : List Overrides) (o : Overrides) :
    collapse (os ++ [o]) = (collapse os).andThen o := by
  obtain ⟨format, verbosity⟩ := o
  by_cases hv : verbosity = 0
  · cases format <;> simp [collapse, andThen, hv]
  · cases format <;> simp [collapse, andThen, hv]

theorem andThen_self (o : Overrides) : o.andThen o = o := by
  obtain ⟨format, verbosity⟩ := o
  simp [andThen]

end Overrides

namespace LogSection

/-- A section after flags have gone over it. -/
def raised (d : LogSection) (verbosity : Nat) : LogSection :=
  { d with consoleLevel := (Settings.verboseLevel? verbosity).getD d.consoleLevel }

theorem raised_raised (d : LogSection) (verbosity verbosity' : Nat) :
    (d.raised verbosity).raised verbosity' =
      d.raised (if verbosity' = 0 then verbosity else verbosity') := by
  by_cases hv : verbosity' = 0
  · subst hv
    rfl
  · have hasks : ∃ level, Settings.verboseLevel? verbosity' = some level := by
      unfold Settings.verboseLevel?
      split
      · contradiction
      · exact ⟨_, rfl⟩
      · exact ⟨_, rfl⟩
    obtain ⟨level, hlevel⟩ := hasks
    simp only [raised, if_neg hv, hlevel, Option.getD_some]

end LogSection

namespace Settings

variable (s : Settings) (sections : LogSections) (verbosity verbosity' : Nat)

theorem get?_raiseVerbosity (name : String) :
    (raiseVerbosity sections verbosity).get? name =
      if name = LogSections.defaultName then (sections.get? name).map (·.raised verbosity)
      else sections.get? name := by
  cases hlevel : verboseLevel? verbosity with
  | none =>
    have hkept : ∀ d : LogSection, d.raised verbosity = d := by
      intro d
      simp only [LogSection.raised, hlevel, Option.getD_none]
    simp only [raiseVerbosity, hlevel, hkept, Option.map_id', ite_self]
  | some level =>
    cases hd : sections.get? LogSections.defaultName with
    | none =>
      by_cases hname : name = LogSections.defaultName
      · simp [raiseVerbosity, hlevel, hd, hname]
      · simp [raiseVerbosity, hlevel, hd, hname]
    | some d =>
      by_cases hname : name = LogSections.defaultName
      · simp [raiseVerbosity, hlevel, hd, hname, SortedMap.get?_insert, LogSection.raised]
      · simp [raiseVerbosity, hlevel, hd, hname, SortedMap.get?_insert]

theorem raiseVerbosity_raiseVerbosity :
    raiseVerbosity (raiseVerbosity sections verbosity) verbosity' =
      raiseVerbosity sections (if verbosity' = 0 then verbosity else verbosity') := by
  apply SortedMap.ext_get?
  intro name
  by_cases hname : name = LogSections.defaultName
  · simp only [get?_raiseVerbosity, if_pos hname, Option.map_map]
    congr 1
    funext d
    exact d.raised_raised verbosity verbosity'
  · simp only [get?_raiseVerbosity, if_neg hname]

theorem override_override_eq (o o' : Overrides) :
    (s.override o).override o' = s.override (o.andThen o') := by
  have hlogging := raiseVerbosity_raiseVerbosity (s.logging.getD .standard) o.verbosity o'.verbosity
  have hformat : o'.format.getD (o.format.getD s.output.format) =
      (o'.format.or o.format).getD s.output.format := by
    cases o'.format <;> rfl
  simp only [override, Overrides.andThen, Option.getD_some, hlogging, hformat]

/-- Flags that come again change nothing. -/
theorem override_override (o : Overrides) : (s.override o).override o = s.override o := by
  rw [override_override_eq, o.andThen_self]

/-- Settings that differ in the output format and in the console level of the default section at
most, once standard sections stand in where there is no logging. -/
structure DiffersInFlags (s s' : Settings) : Prop where
  output : ∃ format, s'.output = { s.output with format := format }
  logging : ∃ level, s'.logging = some ((s.logging.getD .standard).map fun name d =>
    if name = LogSections.defaultName then { d with consoleLevel := level } else d)

theorem differsInFlags_override (o : Overrides) : s.DiffersInFlags (s.override o) := by
  refine ⟨⟨_, rfl⟩, ?_⟩
  let sections := s.logging.getD .standard
  have hlevel : ∃ level, (sections.get? LogSections.defaultName).map (·.raised o.verbosity) =
      (sections.get? LogSections.defaultName).map ({ · with consoleLevel := level }) := by
    cases sections.get? LogSections.defaultName with
    | none => exact ⟨"", rfl⟩
    | some d => exact ⟨_, rfl⟩
  obtain ⟨level, hlevel⟩ := hlevel
  refine ⟨level, congrArg some (SortedMap.ext_get? fun name => ?_)⟩
  rw [get?_raiseVerbosity, SortedMap.get?_map]
  by_cases hname : name = LogSections.defaultName
  · subst hname
    simpa only [if_true] using hlevel
  · simp only [if_neg hname, Option.map_id']

/-- The first override brings logging into being, so there has to be one. -/
theorem foldl_override_cons (o : Overrides) (os : List Overrides) :
    (o :: os).foldl override s = s.override (.collapse (o :: os)) := by
  induction os using List.reverseRecOn with
  | nil =>
    rw [Overrides.collapse_singleton]
    rfl
  | append_singleton os o' ih =>
    rw [← List.cons_append, List.foldl_append, ih, Overrides.collapse_append_singleton]
    exact override_override_eq s (.collapse (o :: os)) o'

theorem foldl_override_replicate (o : Overrides) (n : Nat) :
    (List.replicate n o).foldl override (s.override o) = s.override o := by
  induction n with
  | zero => rfl
  | succ n ih => rw [List.replicate_succ, List.foldl_cons, override_override, ih]

/-- Any number of overrides, but at least one, are one override by the last format and the last
verbosity. They touch nothing else, and an override that is made again changes nothing. -/
theorem foldl_override_collapse (o : Overrides) (os : List Overrides) :
    (o :: os).foldl override s = s.override (.collapse (o :: os)) ∧
      s.DiffersInFlags ((o :: os).foldl override s) ∧
      ∀ o' n, (List.replicate n o').foldl override (s.override o') = s.override o' := by
  have hcollapse := foldl_override_cons s o os
  refine ⟨hcollapse, ?_, foldl_override_replicate s⟩
  rw [hcollapse]
  exact differsInFlags_override s (.collapse (o :: os))

end Settings

end ModuleCompiler
