import Mathlib.Data.List.Induction
import Mathlib.Tactic.ByContra
import ModuleCompiler.Proofs.Binding.Order
import ModuleCompiler.Proofs.Binding.Resolution

/-!
Which error a resolution tells. It is that of the first step, in the order of processing, whose
target is not declared or whose slot was given another binding by an earlier step.
-/

namespace ModuleCompiler.Module

/-- A step cannot be taken after others: its target is not declared, or one of them bound another
thing in its slot. -/
def Step.FailsAfter (d : Descriptor) (earlier : List Step) (s : Step) : Prop :=
  d.declares s.kind s.target = false ∨ ∃ r ∈ earlier, r.slot = s.slot ∧ r.binding ≠ s.binding

/-- The first step of a list that cannot be taken after those before it. -/
structure IsFirstFault (d : Descriptor) (ss earlier : List Step) (s : Step) : Prop where
  split : ∃ later, ss = earlier ++ s :: later
  fails : s.FailsAfter d earlier
  first : ∀ before r between, earlier = before ++ r :: between → ¬ r.FailsAfter d before

namespace ServiceTables

variable {d : Descriptor} {t : ServiceTables}
  (hd : ∀ kind id, t.declares kind id = d.declares kind id)

include hd

theorem no_fault_of_admits {ss : List Step} (h : t.Admits ss)
    (before : List Step) (r : Step) (between : List Step) (he : ss = before ++ r :: between) :
    ¬ r.FailsAfter d before := by
  subst he
  rintro (hn | ⟨r', hr', hs, hne⟩)
  · have := h.declared r (by simp)
    rw [hd, hn] at this
    exact Bool.false_ne_true this
  · exact hne (h.agree r' (by simp [hr']) r (by simp) hs)

theorem not_admits_of_firstFault {ss earlier : List Step} {s : Step}
    (h : IsFirstFault d ss earlier s) : ¬ t.Admits ss := by
  obtain ⟨later, rfl⟩ := h.split
  exact fun ha => no_fault_of_admits hd ha earlier s later rfl h.fails

variable (hb : t.bare = t)

include hb

theorem admits_append_singleton (ss : List Step) (s : Step) :
    t.Admits (ss ++ [s]) ↔ t.Admits ss ∧ ¬ s.FailsAfter d ss := by
  simp only [admits_iff_of_bare hb, hd, List.mem_append, List.mem_singleton, Step.FailsAfter,
    not_or, not_exists, not_and, not_not, Bool.not_eq_false]
  constructor
  · rintro ⟨hdecl, hagree⟩
    exact ⟨⟨fun r hr => hdecl r (.inl hr), fun r hr r' hr' => hagree r (.inl hr) r' (.inl hr')⟩,
      hdecl s (.inr rfl), fun r hr he => hagree r (.inl hr) s (.inr rfl) he⟩
  · rintro ⟨⟨hdecl, hagree⟩, hs, hlast⟩
    constructor
    · rintro r (hr | rfl)
      · exact hdecl r hr
      · exact hs
    · rintro r (hr | rfl) r' (hr' | rfl) he
      · exact hagree r hr r' hr' he
      · exact hlast r hr he
      · exact (hlast r' hr' he.symm).symm
      · rfl

theorem admits_of_no_fault {ss : List Step}
    (h : ∀ before r between, ss = before ++ r :: between → ¬ r.FailsAfter d before) :
    t.Admits ss := by
  induction ss using List.reverseRecOn with
  | nil => exact ⟨by simp, by simp, by simp⟩
  | append_singleton ss s ih =>
    refine (admits_append_singleton hd hb ss s).2 ⟨ih fun before r between he => ?_, h ss s [] rfl⟩
    exact h before r (between ++ [s]) (by simp [he])

/-- A list that is not admitted has a first fault: it lies in the list without its last step, or it
is the last step. -/
theorem exists_firstFault {ss : List Step}
    (h : ¬ t.Admits ss) : ∃ earlier s, IsFirstFault d ss earlier s := by
  induction ss using List.reverseRecOn with
  | nil => exact absurd ⟨by simp, by simp, by simp⟩ h
  | append_singleton ss s ih =>
    by_cases ha : t.Admits ss
    · have hf : s.FailsAfter d ss := by
        by_contra hn
        exact h ((admits_append_singleton hd hb ss s).2 ⟨ha, hn⟩)
      exact ⟨ss, s, ⟨[], rfl⟩, hf, no_fault_of_admits hd ha⟩
    · obtain ⟨earlier, r, ⟨later, he⟩, hf, hfirst⟩ := ih ha
      exact ⟨earlier, r, ⟨later ++ [s], by simp [he]⟩, hf, hfirst⟩

/-- The steps before the first fault are taken, and the fault is told against what they bound. -/
theorem run_of_firstFault {ss earlier : List Step} {s : Step}
    (h : IsFirstFault d ss earlier s) :
    ∃ t', (d.declares s.kind s.target = false ∧
        t.run ss = (t', some (.undefinedTarget s.family s.kind s.target))) ∨
      (d.declares s.kind s.target = true ∧
        ∃ first, earlier.find? (·.slot = s.slot) = some first ∧
          t.run ss = (t', some (.conflict s.family s.target s.key first.origin s.origin))) := by
  obtain ⟨later, rfl⟩ := h.split
  have ha : t.Admits earlier := admits_of_no_fault hd hb h.first
  obtain ⟨t', hrun⟩ := exists_run_iff.2 ha
  have hres := (run_eq_ok_iff.1 hrun).2
  have hdecl : t'.declares s.kind s.target = d.declares s.kind s.target :=
    (declares_congr hres.bare _ _).trans (hd _ _)
  have hnone : t.binding? s.slot = none := hb ▸ t.binding?_bare s.slot
  refine ⟨t', ?_⟩
  rw [run_append_of_ok hrun]
  rcases t'.apply_cases s with ⟨hn, he⟩ | ⟨old, ho, hne, he⟩ | ⟨hy, hk, _⟩
  · exact .inl ⟨hdecl.symm.trans hn, run_cons_of_error he later⟩
  · refine .inr ⟨hdecl.symm.trans (declares_of_binding? ho), ?_⟩
    rw [hres.binding?, hnone] at ho
    obtain ⟨r, hr, hslot, rfl⟩ := ho.resolve_left (by simp)
    -- all earlier steps in the slot agree, so the earliest has the binding that is found there
    cases hf : earlier.find? (·.slot = s.slot) with
    | none => simpa [hslot] using List.find?_eq_none.1 hf r hr
    | some first =>
      have hfs : first.slot = s.slot := by simpa using List.find?_some hf
      have hfb := ha.agree first (List.mem_of_find?_eq_some hf) r hr (hfs.trans hslot.symm)
      refine ⟨first, rfl, ?_⟩
      rw [Step.origin, hfb]
      exact run_cons_of_error he later
  · rcases h.fails with hn | ⟨r, hr, hslot, hne⟩
    · rw [hdecl, hn] at hy
      exact absurd hy Bool.false_ne_true
    · exact absurd (hk r.binding ((hres.binding? _ _).2 (.inr ⟨r, hr, hslot, rfl⟩))) hne

end ServiceTables

/-- References are bound in order, and a resolution fails if and only if some step cannot be taken.
It then tells the first such step: the target that is not declared, or else the slot with the
origin of the earliest step there and the origin of the step itself. -/
theorem resolve_first_fault {d : Descriptor} {t : ServiceTables}
    (h : ServiceTables.ofDescriptor d = .ok t) :
    Step.InOrder d (Step.ofDescriptor d) ∧
    ((∃ t', resolve t d = .ok t') ↔
      ¬ ∃ earlier s, IsFirstFault d (Step.ofDescriptor d) earlier s) ∧
    ∀ earlier s, IsFirstFault d (Step.ofDescriptor d) earlier s →
      (d.declares s.kind s.target = false →
        resolve t d = .error (.undefinedTarget s.family s.kind s.target)) ∧
      (d.declares s.kind s.target = true →
        ∃ first, earlier.find? (·.slot = s.slot) = some first ∧
          resolve t d = .error (.conflict s.family s.target s.key first.origin s.origin)) := by
  have hb := ServiceTables.bare_ofDescriptor h
  have hd := ServiceTables.declares_ofDescriptor h
  refine ⟨Step.inOrder_ofDescriptor d, ?_, fun earlier s hf => ?_⟩
  · simp only [resolve_eq_ok_iff, ServiceTables.exists_run_iff]
    constructor
    · rintro ha ⟨earlier, s, hf⟩
      exact ServiceTables.not_admits_of_firstFault hd hf ha
    · intro hn
      by_contra ha
      exact hn (ServiceTables.exists_firstFault hd hb ha)
  · obtain ⟨t', ⟨hn, hr⟩ | ⟨hy, first, hfirst, hr⟩⟩ := ServiceTables.run_of_firstFault hd hb hf
    · refine ⟨fun _ => resolve_eq_error_of_run hr, fun hy => ?_⟩
      exact absurd (hn.symm.trans hy) Bool.false_ne_true
    · refine ⟨fun hn => ?_, fun _ => ⟨first, hfirst, resolve_eq_error_of_run hr⟩⟩
      exact absurd (hn.symm.trans hy) Bool.false_ne_true

/-- Two settings for one variable of a service. The second names a service that does not exist, too,
which is not told. -/
def modeTwice : Descriptor where
  services := .ofList [("web", {})]
  configs := .ofList
    [("mode", { targets := [⟨"MODE", ["web", "web"], []⟩] }),
      ("stage", { targets := [⟨"MODE", ["web"], []⟩, ⟨"STAGE", ["api"], []⟩] })]

theorem resolve_first_fault_clash :
    ∃ t, ServiceTables.ofDescriptor modeTwice = .ok t ∧
      resolve t modeTwice = .error (.conflict .config "web" "MODE" "mode" "stage") := by
  obtain ⟨t, ht⟩ : ∃ t, ServiceTables.ofDescriptor modeTwice = .ok t := ⟨_, rfl⟩
  have hadmits : t.Admits ((Step.ofDescriptor modeTwice).take 2) := by
    cases ht
    exact ServiceTables.exists_run_iff.1 ⟨_, rfl⟩
  have hfault : IsFirstFault modeTwice (Step.ofDescriptor modeTwice)
      ((Step.ofDescriptor modeTwice).take 2)
      (.service "web" "MODE" (.shared (.config "stage"))) := by
    refine ⟨⟨_, rfl⟩, .inr ⟨.service "web" "MODE" (.shared (.config "mode")), ?_⟩, ?_⟩
    · decide
    · exact ServiceTables.no_fault_of_admits (ServiceTables.declares_ofDescriptor ht) hadmits
  obtain ⟨first, hfirst, hr⟩ := ((resolve_first_fault ht).2.2 _ _ hfault).2 (by decide)
  cases hfirst
  exact ⟨t, ht, hr⟩

end ModuleCompiler.Module
