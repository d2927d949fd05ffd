import ModuleCompiler.Proofs.Log.LongestSection
import ModuleCompiler.Proofs.Settings.Overriding

/-!
Flags that ask for a more detailed log. They change the default section, so where there is logging
without one they change nothing, and what is for no section by name is logged as before.
-/

namespace ModuleCompiler

namespace Settings

open Log

/-- If there is logging at all, it has a default section. -/
def HasDefaultSection (s : Settings) : Prop :=
  ∀ sections, s.logging = some sections → sections.contains LogSections.defaultName = true

/-- The level that flags ask for. -/
def askedLevel (verbosity : Nat) : Level := if verbosity = 1 then .debug else .trace

variable {s : Settings} {verbosity : Nat} {sections : LogSections}

theorem exists_verboseLevel (h : 1 ≤ verbosity) :
    ∃ word, verboseLevel? verbosity = some word ∧
      Threshold.Means word (some (askedLevel verbosity)) := by
  cases verbosity with
  | zero => cases h
  | succ n =>
    cases n with
    | zero => exact ⟨"debug", rfl, Threshold.means_debug⟩
    | succ n =>
      have hasked : askedLevel (n + 2) = .trace := if_neg (by omega)
      rw [hasked]
      exact ⟨"trace", rfl, Threshold.means_trace⟩

theorem raiseVerbosity_of_get? (h : 1 ≤ verbosity) {d : LogSection}
    (hd : sections.get? LogSections.defaultName = some d) :
    ∃ word, Threshold.Means word (some (askedLevel verbosity)) ∧
      (raiseVerbosity sections verbosity).get? LogSections.defaultName =
        some { d with consoleLevel := word } := by
  obtain ⟨word, hword, hmeans⟩ := exists_verboseLevel h
  refine ⟨word, hmeans, ?_⟩
  rw [get?_raiseVerbosity, if_pos rfl, hd]
  simp only [Option.map_some, LogSection.raised, hword, Option.getD_some]

theorem raiseVerbosity_of_none (h : sections.get? LogSections.defaultName = none)
    (verbosity : Nat) : raiseVerbosity sections verbosity = sections := by
  unfold raiseVerbosity
  split
  · rename_i hd
    cases h.symm.trans hd
  · rfl

theorem HasDefaultSection.exists_get? (h : s.HasDefaultSection) :
    ∃ d, (s.logging.getD .standard).get? LogSections.defaultName = some d := by
  cases hlogging : s.logging with
  | none => exact ⟨_, rfl⟩
  | some sections => exact SortedMap.contains_iff.1 (h sections hlogging)

theorem exists_logging_of_not_hasDefaultSection (h : ¬ s.HasDefaultSection) :
    ∃ sections, s.logging = some sections ∧ sections.get? LogSections.defaultName = none := by
  obtain ⟨sections, hsections⟩ := Classical.not_forall.1 h
  obtain ⟨hlogging, hcontains⟩ := Classical.not_imp.1 hsections
  exact ⟨sections, hlogging, Option.not_isSome_iff_eq_none.1 hcontains⟩

end Settings

namespace Log.Filter

variable {sections : LogSections} {target : String} {t : Threshold}

theorem threshold_console (h : Decides (·.consoleLevel) sections target t) :
    (console sections).threshold target = t :=
  (decides_threshold _ (List.Perm.refl _) target).unique h

end Log.Filter

namespace Settings

open Log Filter

/-- Flags set the level of all targets without a section of their own, if there is a default section
for them or no logging at all. Otherwise nothing changes, and warnings pass from these targets. -/
theorem console_override (s : Settings) (o : Overrides) (ho : 1 ≤ o.verbosity) :
    ∃ sections, (s.override o).logging = some sections ∧
      ∀ target, (∀ name, ¬ LiesIn sections target name) →
        (s.HasDefaultSection → ∀ l, (console sections).passes target l = true ↔
          l.detail ≤ (askedLevel o.verbosity).detail) ∧
        (¬ s.HasDefaultSection → s.logging = some sections ∧
          ∀ l, (console sections).passes target l = true ↔ l.detail ≤ Level.warn.detail) := by
  refine ⟨_, rfl, fun target hnone => ⟨fun hdefault l => ?_, fun hmissing => ?_⟩⟩
  · obtain ⟨d, hd⟩ := hdefault.exists_get?
    obtain ⟨word, hmeans, hraised⟩ := raiseVerbosity_of_get? ho hd
    have hasked := threshold_console (.default hnone hraised hmeans)
    rw [passes, hasked, Threshold.passes_iff]
    simp
  · obtain ⟨sections, hlogging, hget⟩ := exists_logging_of_not_hasDefaultSection hmissing
    have hkept : raiseVerbosity (s.logging.getD .standard) o.verbosity = sections := by
      rw [hlogging]
      exact raiseVerbosity_of_none hget o.verbosity
    simp only [hkept] at hnone ⊢
    refine ⟨hlogging, fun l => ?_⟩
    rw [passes, threshold_console (.fallback hnone hget), Threshold.passes_iff]
    simp

theorem console_override_plain :
    1 ≤ ({ verbosity := 2 } : Overrides).verbosity ∧
      ∃ sections, (Settings.override {} { verbosity := 2 }).logging = some sections ∧
        (console sections).passes "modfile" .trace = true := by
  have hasked : 1 ≤ ({ verbosity := 2 } : Overrides).verbosity := by decide
  obtain ⟨sections, hlogging, hlevels⟩ := console_override {} { verbosity := 2 } hasked
  have hstandard : sections.keys = [LogSections.defaultName] := by
    cases hlogging
    decide +kernel
  have hnone : ∀ name, ¬ LiesIn sections "modfile" name := by
    rintro name ⟨hdeclared, hnamed, -⟩
    exact hnamed (by simpa [hstandard] using hdeclared)
  exact ⟨hasked, sections, hlogging, ((hlevels "modfile" hnone).1 nofun .trace).2 (by decide)⟩

/-- Logging for one part only, and nothing said about the rest. -/
def partSettings : Settings :=
  { logging := some (.ofList [("other", { consoleLevel := "error" })]) }

theorem exists_idle_verbosity :
    ∃ sections, (partSettings.override { verbosity := 1 }).logging = some sections ∧
      (∀ name, ¬ LiesIn sections "modfile" name) ∧
      (console sections).passes "modfile" .debug = false := by
  refine ⟨_, rfl, ?_, by decide +kernel⟩
  rintro name ⟨hdeclared, -, hbegins⟩
  have hkeys : ∀ name ∈ (raiseVerbosity (partSettings.logging.getD .standard) 1).keys,
      ¬ name.toList <+: "modfile".toList := by decide +kernel
  exact hkeys name hdeclared hbegins

end Settings

end ModuleCompiler
