import ModuleCompiler.Proofs.Binding.Slot

/-!
Runs of steps. A run succeeds if and only if all targets are declared and no slot is asked for two
different bindings, and its result is told by the set of its steps. So the order of the steps and
their repetition have no part in a run that succeeds.
-/

namespace ModuleCompiler.Module.ServiceTables

/-- Nothing stands against a list of steps. -/
structure Admits (t : ServiceTables) (ss : List Step) : Prop where
  declared : ∀ s ∈ ss, t.declares s.kind s.target = true
  kept : ∀ s ∈ ss, ∀ old, t.binding? s.slot = some old → old = s.binding
  agree : ∀ s ∈ ss, ∀ s' ∈ ss, s.slot = s'.slot → s.binding = s'.binding

/-- Tables hold what others held before and what the steps bind, and are like them in all else. -/
structure IsResult (t : ServiceTables) (ss : List Step) (t' : ServiceTables) : Prop where
  bare : t'.bare = t.bare
  binding? : ∀ slot b, t'.binding? slot = some b ↔
    t.binding? slot = some b ∨ ∃ s ∈ ss, s.slot = slot ∧ s.binding = b

theorem Admits.congr {t : ServiceTables} {ss ss' : List Step} (h : ∀ s, s ∈ ss ↔ s ∈ ss')
    (ha : t.Admits ss) : t.Admits ss' where
  declared := fun s hs => ha.declared s ((h s).2 hs)
  kept := fun s hs => ha.kept s ((h s).2 hs)
  agree := fun s hs s' hs' => ha.agree s ((h s).2 hs) s' ((h s').2 hs')

theorem IsResult.congr {t t' : ServiceTables} {ss ss' : List Step} (h : ∀ s, s ∈ ss ↔ s ∈ ss')
    (hr : t.IsResult ss t') : t.IsResult ss' t' := by
  refine ⟨hr.bare, fun slot b => ?_⟩
  simp only [hr.binding? slot b, h]

theorem IsResult.unique {t t' t'' : ServiceTables} {ss : List Step} (h' : t.IsResult ss t')
    (h'' : t.IsResult ss t'') : t' = t'' := by
  apply ext_binding? (h'.bare.trans h''.bare.symm)
  intro slot
  ext b
  exact (h'.binding? slot b).trans (h''.binding? slot b).symm

theorem IsAfter.admits_iff {t t' : ServiceTables} {s : Step} (h : t.IsAfter s t')
    (hd : t.declares s.kind s.target = true)
    (hk : ∀ old, t.binding? s.slot = some old → old = s.binding) (ss : List Step) :
    t'.Admits ss ↔ t.Admits (s :: ss) := by
  constructor
  · intro ha
    have hagree : ∀ r ∈ ss, r.slot = s.slot → s.binding = r.binding := by
      intro r hr he
      exact ha.kept r hr s.binding (by rw [h.binding?, if_pos he])
    refine ⟨?_, ?_, ?_⟩
    · intro r hr
      rcases List.mem_cons.1 hr with rfl | hr
      · exact hd
      · rw [← declares_congr h.bare]
        exact ha.declared r hr
    · intro r hr old ho
      rcases List.mem_cons.1 hr with rfl | hr
      · exact hk old ho
      · by_cases he : r.slot = s.slot
        · rw [he] at ho
          rw [hk old ho, hagree r hr he]
        · exact ha.kept r hr old (by rw [h.binding?, if_neg he, ho])
    · intro r hr r' hr' he
      rcases List.mem_cons.1 hr with rfl | h₁ <;> rcases List.mem_cons.1 hr' with rfl | h₂
      · rfl
      · exact hagree r' h₂ he.symm
      · exact (hagree r h₁ he).symm
      · exact ha.agree r h₁ r' h₂ he
  · intro ha
    refine ⟨?_, ?_, ?_⟩
    · intro r hr
      rw [declares_congr h.bare]
      exact ha.declared r (List.mem_cons_of_mem _ hr)
    · intro r hr old ho
      rw [h.binding?] at ho
      split at ho
      · rename_i he
        rw [← Option.some.inj ho]
        exact ha.agree s (by simp) r (List.mem_cons_of_mem _ hr) he.symm
      · exact ha.kept r (List.mem_cons_of_mem _ hr) old ho
    · intro r hr r' hr'
      exact ha.agree r (List.mem_cons_of_mem _ hr) r' (List.mem_cons_of_mem _ hr')

theorem IsAfter.isResult_cons {t t₁ t' : ServiceTables} {s : Step} {ss : List Step}
    (h : t.IsAfter s t₁) (hk : ∀ old, t.binding? s.slot = some old → old = s.binding)
    (hr : t₁.IsResult ss t') : t.IsResult (s :: ss) t' := by
  refine ⟨hr.bare.trans h.bare, fun slot b => ?_⟩
  rw [hr.binding?, h.binding?]
  by_cases he : slot = s.slot
  · subst he
    simp only [if_true, Option.some.injEq, List.mem_cons, exists_eq_or_imp,
      true_and]
    constructor
    · rintro (hb | hb)
      · exact .inr (.inl hb)
      · exact .inr (.inr hb)
    · rintro (hb | hb | hb)
      · exact .inl (hk b hb).symm
      · exact .inl hb
      · exact .inr hb
  · simp [he, Ne.symm he]

theorem run_cons_of_ok {t t' : ServiceTables} {s : Step} (h : t.apply s = .ok t')
    (ss : List Step) : t.run (s :: ss) = t'.run ss := by
  simp only [run, h]

theorem run_cons_of_error {t : ServiceTables} {s : Step} {e : GenerateError}
    (h : t.apply s = .error e) (ss : List Step) : t.run (s :: ss) = (t, some e) := by
  simp only [run, h]

/-- The outcome of a run, by induction on its steps: what is admitted after the first step is what
is admitted together with it. -/
theorem run_cases (t : ServiceTables) (ss : List Step) :
    (t.Admits ss ∧ ∃ t', t.run ss = (t', none) ∧ t.IsResult ss t') ∨
    (¬ t.Admits ss ∧ ∃ t' e, t.run ss = (t', some e)) := by
  induction ss generalizing t with
  | nil => exact .inl ⟨⟨by simp, by simp, by simp⟩, t, rfl, rfl, by simp⟩
  | cons s ss ih =>
    rcases t.apply_cases s with ⟨hd, he⟩ | ⟨old, ho, hne, he⟩ | ⟨hd, hk, t₁, ht₁, h⟩
    · refine .inr ⟨fun ha => ?_, t, _, run_cons_of_error he ss⟩
      simp [ha.declared s (by simp)] at hd
    · exact .inr ⟨fun ha => hne (ha.kept s (by simp) old ho), t, _, run_cons_of_error he ss⟩
    · rw [run_cons_of_ok ht₁, ← h.admits_iff hd hk]
      rcases ih t₁ with ⟨ha, t', ht', hr⟩ | hn
      · exact .inl ⟨ha, t', ht', h.isResult_cons hk hr⟩
      · exact .inr hn

theorem run_eq_ok_iff {t t' : ServiceTables} {ss : List Step} :
    t.run ss = (t', none) ↔ t.Admits ss ∧ t.IsResult ss t' := by
  rcases t.run_cases ss with ⟨ha, t₁, ht₁, hr⟩ | ⟨hn, t₁, e, he⟩
  · rw [ht₁]
    constructor
    · intro h
      cases h
      exact ⟨ha, hr⟩
    · rintro ⟨_, hr'⟩
      rw [hr.unique hr']
  · simp [he, hn]

theorem exists_run_iff {t : ServiceTables} {ss : List Step} :
    (∃ t', t.run ss = (t', none)) ↔ t.Admits ss := by
  rcases t.run_cases ss with ⟨ha, t₁, ht₁, _⟩ | ⟨hn, t₁, e, he⟩
  · exact ⟨fun _ => ha, fun _ => ⟨t₁, ht₁⟩⟩
  · simp [he, hn]

theorem run_eq_ok_congr {ss ss' : List Step} (h : ∀ s, s ∈ ss ↔ s ∈ ss') (t t' : ServiceTables) :
    t.run ss = (t', none) ↔ t.run ss' = (t', none) := by
  rw [run_eq_ok_iff, run_eq_ok_iff]
  constructor
  · rintro ⟨ha, hr⟩
    exact ⟨ha.congr h, hr.congr h⟩
  · rintro ⟨ha, hr⟩
    exact ⟨ha.congr fun s => (h s).symm, hr.congr fun s => (h s).symm⟩

theorem run_append_of_ok {t t' : ServiceTables} {ss : List Step} (h : t.run ss = (t', none))
    (ss' : List Step) : t.run (ss ++ ss') = t'.run ss' := by
  rw [run_append, h]

end ModuleCompiler.Module.ServiceTables
