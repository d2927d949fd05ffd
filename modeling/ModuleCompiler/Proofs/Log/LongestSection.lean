import ModuleCompiler.Log.Filter

/-!
The rule of a filter that decides. The rules of the more specific sections come first, in whatever
order the sections come, so it is the longest section that a target lies in.
-/

namespace ModuleCompiler.Log

namespace Threshold

/-- What a word for a level means, in any case of its letters. -/
inductive Means (word : String) : Threshold → Prop
  | named {t : Threshold} : word.toLower = t.name → Means word t
  | nothing : word.toLower = "none" → Means word none
  | unknown : (∀ t : Threshold, word.toLower ≠ t.name) → word.toLower ≠ "none" →
      Means word (some .info)

variable {word : String} {t : Threshold}

theorem name_off : name none = "off" := rfl

theorem name_error : name (some .error) = "error" := by decide +kernel

theorem name_warn : name (some .warn) = "warn" := by decide +kernel

theorem name_info : name (some .info) = "info" := by decide +kernel

theorem name_debug : name (some .debug) = "debug" := by decide +kernel

theorem name_trace : name (some .trace) = "trace" := by decide +kernel

theorem means_ofText (word : String) : Means word (ofText word) := by
  unfold ofText
  split
  · rename_i h
    exact .named (h.trans name_trace.symm)
  · rename_i h
    exact .named (h.trans name_debug.symm)
  · rename_i h
    exact .named (h.trans name_info.symm)
  · rename_i h
    exact .named (h.trans name_warn.symm)
  · rename_i h
    exact .named (h.trans name_error.symm)
  · rename_i h
    exact .named (h.trans name_off.symm)
  · rename_i h
    exact .nothing h
  · rename_i htrace hdebug hinfo hwarn herror hoff hnone
    refine .unknown (fun t ht => ?_) hnone
    cases t with
    | none => exact hoff (ht.trans name_off)
    | some l =>
      cases l with
      | error => exact herror (ht.trans name_error)
      | warn => exact hwarn (ht.trans name_warn)
      | info => exact hinfo (ht.trans name_info)
      | debug => exact hdebug (ht.trans name_debug)
      | trace => exact htrace (ht.trans name_trace)

theorem ofText_name (t : Threshold) : ofText t.name = t := by
  cases t with
  | none => decide +kernel
  | some l => cases l <;> decide +kernel

theorem name_injective : Function.Injective name :=
  Function.LeftInverse.injective ofText_name

theorem name_ne_none (t : Threshold) : t.name ≠ "none" := by
  cases t with
  | none => decide +kernel
  | some l => cases l <;> decide +kernel

theorem Means.unique {t' : Threshold} (h : Means word t) (h' : Means word t') : t = t' := by
  cases h with
  | named ht =>
    cases h' with
    | named ht' => exact name_injective (ht.symm.trans ht')
    | nothing hnone => exact absurd (ht.symm.trans hnone) t.name_ne_none
    | unknown hall _ => exact absurd ht (hall t)
  | nothing hnone =>
    cases h' with
    | named ht' => exact absurd (ht'.symm.trans hnone) t'.name_ne_none
    | nothing _ => rfl
    | unknown _ hne => exact absurd hnone hne
  | unknown hall hne =>
    cases h' with
    | named ht' => exact absurd ht' (hall t')
    | nothing hnone => exact absurd hnone hne
    | unknown _ _ => rfl

theorem means_debug : Means "debug" (some .debug) :=
  .named ((by decide +kernel : "debug".toLower = "debug").trans name_debug.symm)

theorem means_trace : Means "trace" (some .trace) :=
  .named ((by decide +kernel : "trace".toLower = "trace").trans name_trace.symm)

theorem passes_iff {l : Level} :
    t.passes l = true ↔ ∃ least, t = some least ∧ l.detail ≤ least.detail := by
  cases t with
  | none => cases l <;> simp [passes, detail, Level.detail]
  | some least =>
    have hpasses : passes (some least) l = true ↔ l.detail ≤ least.detail := decide_eq_true_iff
    simp [hpasses]

end Threshold

namespace Rule

variable {q r : Rule} {target name : String} {t : Threshold}

theorem covers_named :
    (Rule.mk (some name) t).covers target = true ↔ name.toList <+: target.toList :=
  List.isPrefixOf_iff_prefix

/-- Rules for one target are equally specific. -/
theorem specificity_congr (h : q.target = r.target) : q.specificity = r.specificity := by
  rw [specificity, specificity, h]

theorem target_ne_of_lt (h : q.specificity < r.specificity) : q.target ≠ r.target := fun htarget =>
  Nat.ne_of_lt h (specificity_congr htarget)

end Rule

namespace Filter

/-- The more specific rules stand in front, and no two rules are for one target. -/
structure IsRanked (f : Filter) : Prop where
  descending : f.Pairwise fun q r => r.specificity ≤ q.specificity
  distinct : f.Pairwise fun q r => q.target ≠ r.target

section Ranked

variable {f : Filter} {q r : Rule} {target : String}

theorem isRanked_cons_iff : IsRanked (q :: f) ↔
    (∀ r ∈ f, r.specificity ≤ q.specificity ∧ q.target ≠ r.target) ∧ f.IsRanked := by
  constructor
  · rintro ⟨hdescending, hdistinct⟩
    rw [List.pairwise_cons] at hdescending hdistinct
    exact ⟨fun r hr => ⟨hdescending.1 r hr, hdistinct.1 r hr⟩, hdescending.2, hdistinct.2⟩
  · rintro ⟨hq, hdescending, hdistinct⟩
    exact ⟨List.pairwise_cons.2 ⟨fun r hr => (hq r hr).1, hdescending⟩,
      List.pairwise_cons.2 ⟨fun r hr => (hq r hr).2, hdistinct⟩⟩

theorem isRanked_singleton (r : Rule) : IsRanked [r] :=
  ⟨List.pairwise_singleton _ _, List.pairwise_singleton _ _⟩

/-- Whatever a rule is more specific than, and all behind it, is for other targets. -/
theorem IsRanked.target_ne (hf : IsRanked (q :: f)) (h : q.specificity < r.specificity) :
    ∀ p ∈ q :: f, p.specificity < r.specificity ∧ p.target ≠ r.target := by
  intro p hp
  have hless : p.specificity < r.specificity := by
    rcases List.mem_cons.1 hp with rfl | hp
    · exact h
    · exact Nat.lt_of_le_of_lt ((isRanked_cons_iff.1 hf).1 p hp).1 h
  exact ⟨hless, Rule.target_ne_of_lt hless⟩

/-- A rule takes the place of the one for its target, and all others stay. -/
theorem mem_add (hf : f.IsRanked) (r : Rule) :
    q ∈ f.add r ↔ q = r ∨ q ∈ f ∧ q.target ≠ r.target := by
  induction f with
  | nil => simp [add]
  | cons p f ih =>
    obtain ⟨hp, hrest⟩ := isRanked_cons_iff.1 hf
    simp only [add]
    split
    · rename_i hsame
      have hothers : ∀ q ∈ f, q.target ≠ r.target := fun q hq => hsame ▸ (hp q hq).2.symm
      simp only [List.mem_cons]
      grind
    · rename_i hother
      split
      · rename_i hless
        have hothers := hf.target_ne hless
        rw [List.mem_cons]
        grind
      · rw [List.mem_cons, ih hrest, List.mem_cons]
        grind

theorem IsRanked.add (hf : f.IsRanked) (r : Rule) : (f.add r).IsRanked := by
  induction f with
  | nil => exact isRanked_singleton r
  | cons p f ih =>
    obtain ⟨hp, hrest⟩ := isRanked_cons_iff.1 hf
    simp only [Filter.add]
    split
    · rename_i hsame
      refine isRanked_cons_iff.2 ⟨fun q hq => ?_, hrest⟩
      rw [← Rule.specificity_congr hsame, ← hsame]
      exact hp q hq
    · rename_i hother
      split
      · rename_i hless
        refine isRanked_cons_iff.2 ⟨fun q hq => ?_, hf⟩
        obtain ⟨hle, hne⟩ := hf.target_ne hless q hq
        exact ⟨Nat.le_of_lt hle, hne.symm⟩
      · rename_i hless
        refine isRanked_cons_iff.2 ⟨fun q hq => ?_, ih hrest⟩
        rcases (mem_add hrest r).1 hq with rfl | ⟨hq, -⟩
        · exact ⟨Nat.not_lt.1 hless, hother⟩
        · exact hp q hq

/-- The rule that decides is the most specific of those that cover the target. -/
theorem IsRanked.exists_deciding (hf : f.IsRanked) (hr : r ∈ f) (hcovers : r.covers target = true) :
    ∃ q ∈ f, q.covers target = true ∧ f.threshold target = q.threshold ∧
      ∀ p ∈ f, p.covers target = true → p.specificity ≤ q.specificity := by
  cases hfind : f.find? (·.covers target) with
  | none => exact absurd hcovers (List.find?_eq_none.1 hfind r hr)
  | some q =>
    obtain ⟨hq, before, after, rfl, hbefore⟩ := List.find?_eq_some_iff_append.1 hfind
    refine ⟨q, by simp, hq, by rw [threshold, hfind], fun p hp hcovers => ?_⟩
    obtain ⟨-, hrest, -⟩ := List.pairwise_append.1 hf.descending
    rcases List.mem_append.1 hp with hp | hp
    · exact absurd hcovers (by simpa using hbefore p hp)
    · rcases List.mem_cons.1 hp with rfl | hp
      · exact Nat.le_refl _
      · exact (List.pairwise_cons.1 hrest).1 p hp

end Ranked

section Sections

variable {levelOf : LogSection → String} {sections : LogSections} {es : List (String × LogSection)}
  {f : Filter} {r : Rule} {target name : String} {t : Threshold}

def sectionRule (levelOf : LogSection → String) (e : String × LogSection) : Rule :=
  ⟨some e.1, .ofText (levelOf e.2)⟩

/-- One section after the other gets a rule; none of them has one before. -/
theorem foldl_add (levelOf : LogSection → String) (hf : f.IsRanked)
    (hnames : (es.map Prod.fst).Nodup)
    (hnew : ∀ e ∈ es, ∀ r ∈ f, r.target ≠ some e.1) :
    (es.foldl (fun f e => f.add (sectionRule levelOf e)) f).IsRanked ∧
      ∀ r, r ∈ es.foldl (fun f e => f.add (sectionRule levelOf e)) f ↔
        r ∈ f ∨ ∃ e ∈ es, r = sectionRule levelOf e := by
  induction es generalizing f with
  | nil => simp [hf]
  | cons e es ih =>
    obtain ⟨hname, hnames⟩ := List.nodup_cons.1 hnames
    obtain ⟨hfirst, hothers⟩ := List.forall_mem_cons.1 hnew
    have hmem : ∀ r, r ∈ f.add (sectionRule levelOf e) ↔ r = sectionRule levelOf e ∨ r ∈ f := by
      intro r
      rw [mem_add hf]
      exact or_congr_right ⟨And.left, fun hr => ⟨hr, hfirst r hr⟩⟩
    have hrest : ∀ e' ∈ es, ∀ r ∈ f.add (sectionRule levelOf e), r.target ≠ some e'.1 := by
      intro e' he' r hr
      rcases (hmem r).1 hr with rfl | hr
      · intro htarget
        exact hname (Option.some.inj htarget ▸ List.mem_map_of_mem he')
      · exact hothers e' he' r hr
    obtain ⟨hranked, hin⟩ := ih (hf.add _) hnames hrest
    refine ⟨hranked, fun r => (hin r).trans ?_⟩
    rw [hmem]
    simp only [List.mem_cons]
    grind

theorem mem_ofSections (levelOf : LogSection → String) (hnames : (es.map Prod.fst).Nodup)
    (fallback : Threshold) :
    (ofSections levelOf es fallback).IsRanked ∧ ∀ r, r ∈ ofSections levelOf es fallback ↔
      r = ⟨none, fallback⟩ ∨
        ∃ e ∈ es, e.1 ≠ LogSections.defaultName ∧ r = sectionRule levelOf e := by
  have hnamed : ((es.filter (·.1 ≠ LogSections.defaultName)).map Prod.fst).Nodup :=
    hnames.sublist (List.filter_sublist.map _)
  obtain ⟨hranked, hin⟩ :=
    foldl_add levelOf (isRanked_singleton ⟨none, fallback⟩) hnamed (by simp)
  refine ⟨hranked, fun r => (hin r).trans ?_⟩
  simp [and_assoc]

/-- A target lies in a section if its name begins with that of the section; the default section is
for no target by name. -/
structure LiesIn (sections : LogSections) (target name : String) : Prop where
  declared : name ∈ sections.keys
  named : name ≠ LogSections.defaultName
  begins : name.toList <+: target.toList

/-- What is to pass from a target. -/
inductive Decides (levelOf : LogSection → String) (sections : LogSections) (target : String) :
    Threshold → Prop
  | longest {name : String} {s : LogSection} {t : Threshold} :
      LiesIn sections target name →
      (∀ other, LiesIn sections target other → other.length ≤ name.length) →
      sections.get? name = some s → Threshold.Means (levelOf s) t →
      Decides levelOf sections target t
  | default {s : LogSection} {t : Threshold} : (∀ name, ¬ LiesIn sections target name) →
      sections.get? LogSections.defaultName = some s → Threshold.Means (levelOf s) t →
      Decides levelOf sections target t
  | fallback : (∀ name, ¬ LiesIn sections target name) →
      sections.get? LogSections.defaultName = none →
      Decides levelOf sections target (some .warn)

theorem LiesIn.eq_of_length {name' : String} (h : LiesIn sections target name)
    (h' : LiesIn sections target name') (hlength : name.length = name'.length) : name = name' := by
  have hbegins := List.prefix_of_prefix_length_le h.begins h'.begins (Nat.le_of_eq hlength)
  exact String.toList_inj.1 (hbegins.eq_of_length hlength)

theorem Decides.unique {t' : Threshold} (h : Decides levelOf sections target t)
    (h' : Decides levelOf sections target t') : t = t' := by
  cases h with
  | longest hname hlongest hs ht =>
    cases h' with
    | longest hname' hlongest' hs' ht' =>
      obtain rfl := hname.eq_of_length hname'
        (Nat.le_antisymm (hlongest' _ hname) (hlongest _ hname'))
      cases hs.symm.trans hs'
      exact ht.unique ht'
    | default hnone _ _ => exact absurd hname (hnone _)
    | fallback hnone _ => exact absurd hname (hnone _)
  | default hnone hs ht =>
    cases h' with
    | longest hname _ _ _ => exact absurd hname (hnone _)
    | default _ hs' ht' =>
      cases hs.symm.trans hs'
      exact ht.unique ht'
    | fallback _ hs' => cases hs.symm.trans hs'
  | fallback hnone hs =>
    cases h' with
    | longest hname _ _ _ => exact absurd hname (hnone _)
    | default _ hs' _ => cases hs.symm.trans hs'
    | fallback _ _ => rfl

theorem decides_defaultThreshold (hnone : ∀ name, ¬ LiesIn sections target name) :
    Decides levelOf sections target (defaultThreshold levelOf sections) := by
  cases hs : sections.get? LogSections.defaultName with
  | none =>
    rw [defaultThreshold, hs]
    exact .fallback hnone hs
  | some s =>
    rw [defaultThreshold, hs]
    exact .default hnone hs (Threshold.means_ofText _)

theorem liesIn_of_mem (hes : es.Perm sections.toList) {e : String × LogSection} (he : e ∈ es)
    (hnamed : e.1 ≠ LogSections.defaultName)
    (hcovers : (sectionRule levelOf e).covers target = true) : LiesIn sections target e.1 where
  declared := List.mem_map_of_mem (hes.mem_iff.1 he)
  named := hnamed
  begins := Rule.covers_named.1 hcovers

theorem LiesIn.exists_mem (h : LiesIn sections target name) (levelOf : LogSection → String)
    (hes : es.Perm sections.toList) :
    ∃ e ∈ es, e.1 = name ∧ (sectionRule levelOf e).covers target = true := by
  obtain ⟨e, he, rfl⟩ := List.mem_map.1 h.declared
  exact ⟨e, hes.mem_iff.2 he, rfl, Rule.covers_named.2 h.begins⟩

theorem nodup_names (sections : LogSections) (hes : es.Perm sections.toList) :
    (es.map Prod.fst).Nodup := by
  have hsorted : (sections.toList.map Prod.fst).Nodup :=
    List.pairwise_map.2 (sections.ascending.imp String.ne_of_lt)
  exact (hes.map Prod.fst).nodup_iff.2 hsorted

theorem decides_threshold (levelOf : LogSection → String) (hes : es.Perm sections.toList)
    (target : String) :
    Decides levelOf sections target
      ((ofSections levelOf es (defaultThreshold levelOf sections)).threshold target) := by
  obtain ⟨hranked, hmem⟩ := mem_ofSections levelOf (nodup_names sections hes)
    (defaultThreshold levelOf sections)
  have hdefault : (⟨none, defaultThreshold levelOf sections⟩ : Rule).covers target = true := rfl
  obtain ⟨q, hq, hcovers, hthreshold, hmost⟩ :=
    hranked.exists_deciding ((hmem _).2 (.inl rfl)) hdefault
  rw [hthreshold]
  -- every section that the target lies in has a rule, which is no more specific than this one
  have hlies : ∀ other, LiesIn sections target other → other.length + 1 ≤ q.specificity := by
    intro other hother
    obtain ⟨e, he, rfl, hcovers⟩ := hother.exists_mem levelOf hes
    exact hmost _ ((hmem _).2 (.inr ⟨e, he, hother.named, rfl⟩)) hcovers
  rcases (hmem q).1 hq with rfl | ⟨e, he, hnamed, rfl⟩
  · exact decides_defaultThreshold fun name hname => Nat.not_succ_le_zero _ (hlies name hname)
  · refine .longest (liesIn_of_mem hes he hnamed hcovers) (fun other hother => ?_)
      (SortedMap.get?_eq_some_iff.2 (hes.mem_iff.1 he)) (Threshold.means_ofText _)
    exact Nat.le_of_succ_le_succ (hlies other hother)

end Sections

/-- In whatever order the sections come, one threshold decides for a target: that of the longest
section that it lies in, else that of the default section, else `warn`. -/
theorem ofSections_longest (levelOf : LogSection → String) (sections : LogSections)
    {es : List (String × LogSection)} (hes : es.Perm sections.toList) (target : String) :
    ∃ t, Decides levelOf sections target t ∧ (∀ t', Decides levelOf sections target t' → t' = t) ∧
      ∀ l, (ofSections levelOf es (defaultThreshold levelOf sections)).passes target l = true ↔
        ∃ least, t = some least ∧ l.detail ≤ least.detail := by
  have hdecides := decides_threshold levelOf hes target
  refine ⟨_, hdecides, fun t' ht' => ht'.unique hdecides, fun l => ?_⟩
  exact Threshold.passes_iff

/-- A quiet part inside a talkative one. -/
def nestedSections : LogSections :=
  .ofList [("default", { consoleLevel := "error" }), ("modfile", { consoleLevel := "DEBUG" }),
    ("modfile::v1", { consoleLevel := "None" })]

theorem decides_nested :
    Decides (·.consoleLevel) nestedSections "modfile::v1::resolver" none := by
  have hkeys : nestedSections.keys = ["default", "modfile", "modfile::v1"] := by decide +kernel
  have hlies : LiesIn nestedSections "modfile::v1::resolver" "modfile::v1" :=
    ⟨by simp [hkeys], by decide, by decide⟩
  have hsection : nestedSections.get? "modfile::v1" = some { consoleLevel := "None" } := by
    decide +kernel
  refine .longest hlies (fun other hother => ?_) hsection (.nothing (by decide +kernel))
  have hlengths : ∀ name ∈ nestedSections.keys, name.length ≤ "modfile::v1".length := by
    rw [hkeys]
    decide
  exact hlengths other hother.declared

theorem ofSections_longest_nested :
    nestedSections.toList.reverse.Perm nestedSections.toList ∧
      ∀ l, (ofSections (·.consoleLevel) nestedSections.toList.reverse
        (defaultThreshold (·.consoleLevel) nestedSections)).passes
          "modfile::v1::resolver" l = false := by
  have hperm := List.reverse_perm nestedSections.toList
  refine ⟨hperm, fun l => ?_⟩
  obtain ⟨t, -, hunique, hpasses⟩ :=
    ofSections_longest (·.consoleLevel) nestedSections hperm "modfile::v1::resolver"
  obtain rfl := hunique none decides_nested
  rw [Bool.eq_false_iff, Ne, hpasses]
  rintro ⟨_, ⟨⟩, _⟩

end Filter

end ModuleCompiler.Log
