import ModuleCompiler.Module.Mounts
import ModuleCompiler.Proofs.Outcome

/-!
Tables that are made entry by entry. The first entry of a key is kept and the others are held against
it, so a table is made unless some entry does not agree with the first one of its key.
-/

namespace ModuleCompiler.Module

/-- The first entry of a list that has the key. -/
def IsFirst (key : α → String) (as : List α) (k : String) (f : α) : Prop :=
  ∃ before after, as = before ++ f :: after ∧ key f = k ∧ ∀ b ∈ before, key b ≠ k

section First

variable {key : α → String} {as bs : List α} {k : String} {f g : α}

theorem isFirst_iff_find? : IsFirst key as k f ↔ as.find? (key · = k) = some f := by
  simp only [IsFirst, List.find?_eq_some_iff_append, decide_eq_true_eq, Bool.not_eq_true',
    decide_eq_false_iff_not]
  constructor
  · rintro ⟨before, after, has, hk, hbefore⟩
    exact ⟨hk, before, after, has, hbefore⟩
  · rintro ⟨hk, before, after, has, hbefore⟩
    exact ⟨before, after, has, hk, hbefore⟩

theorem IsFirst.mem (h : IsFirst key as k f) : f ∈ as := by
  obtain ⟨before, after, rfl, _⟩ := h
  simp

theorem IsFirst.key_eq (h : IsFirst key as k f) : key f = k := by
  obtain ⟨_, _, _, hk, _⟩ := h
  exact hk

theorem IsFirst.unique (h : IsFirst key as k f) (h' : IsFirst key as k g) : f = g :=
  Option.some.inj ((isFirst_iff_find?.1 h).symm.trans (isFirst_iff_find?.1 h'))

theorem exists_isFirst (key : α → String) {a : α} (ha : a ∈ as) :
    ∃ f, IsFirst key as (key a) f := by
  simp only [isFirst_iff_find?, ← Option.isSome_iff_exists, List.find?_isSome]
  exact ⟨a, ha, decide_eq_true rfl⟩

end First

section Merge

variable {key : α → String} {value : α → β} {clash : String → β → α → Option ε}
  {acc out : SortedMap β} {as bs : List α} {k : String} {e : ε}

/-- What is under a key once all entries are in: what has been there, or the first entry. -/
def kept? (key : α → String) (value : α → β) (acc : SortedMap β) (as : List α) (k : String) :
    Option β :=
  (acc.get? k).or ((as.find? (key · = k)).map value)

theorem kept?_insert {a : α} (h : acc.get? (key a) = none) :
    kept? key value (acc.insert (key a) (value a)) as = kept? key value acc (a :: as) := by
  funext k
  simp only [kept?, SortedMap.get?_insert, List.find?_cons]
  by_cases hk : key a = k
  · subst hk
    simp [h]
  · simp [hk, Ne.symm hk]

theorem kept?_cons {a : α} {stored : β} (h : acc.get? (key a) = some stored) :
    kept? key value acc (a :: as) = kept? key value acc as := by
  funext k
  simp only [kept?, List.find?_cons]
  by_cases hk : key a = k
  · subst hk
    simp [h]
  · simp [hk]

/-- What an entry does to a table: it is put in, it agrees with what is kept, or it is told. -/
theorem merge_cases (key : α → String) (value : α → β) (clash : String → β → α → Option ε)
    (acc : SortedMap β) (a : α) :
    (acc.get? (key a) = none ∧ ∀ as, merge key value clash acc (a :: as) =
      merge key value clash (acc.insert (key a) (value a)) as) ∨
    ∃ stored, acc.get? (key a) = some stored ∧
      ((clash (key a) stored a = none ∧
          ∀ as, merge key value clash acc (a :: as) = merge key value clash acc as) ∨
        ∃ e, clash (key a) stored a = some e ∧
          ∀ as, merge key value clash acc (a :: as) = .error e) := by
  cases hacc : acc.get? (key a) with
  | none => exact .inl ⟨rfl, fun as => by simp only [merge, hacc]⟩
  | some stored =>
    refine .inr ⟨stored, rfl, ?_⟩
    cases hclash : clash (key a) stored a with
    | none => exact .inl ⟨rfl, fun as => by simp only [merge, hacc, hclash]⟩
    | some e => exact .inr ⟨e, rfl, fun as => by simp only [merge, hacc, hclash]⟩

theorem get?_merge (h : merge key value clash acc as = .ok out) (k : String) :
    out.get? k = (acc.get? k).or ((as.find? (key · = k)).map value) := by
  induction as generalizing acc with
  | nil =>
    cases h
    simp
  | cons a as ih =>
    change out.get? k = kept? key value acc (a :: as) k
    rcases merge_cases key value clash acc a with
      ⟨hacc, hstep⟩ | ⟨stored, hacc, ⟨_, hstep⟩ | ⟨e, _, hstep⟩⟩
    · rw [← kept?_insert hacc]
      exact ih ((hstep as).symm.trans h)
    · rw [kept?_cons hacc]
      exact ih ((hstep as).symm.trans h)
    · cases (hstep as).symm.trans h

/-- Every entry has been taken as it is or held against what is kept in its place. -/
theorem agrees_of_merge (h : merge key value clash acc as = .ok out) {a : α} (ha : a ∈ as) :
    ∃ stored, out.get? (key a) = some stored ∧
      (stored = value a ∨ clash (key a) stored a = none) := by
  induction as generalizing acc with
  | nil => cases ha
  | cons b as ih =>
    rcases merge_cases key value clash acc b with
      ⟨_, hstep⟩ | ⟨stored, hacc, ⟨hclash, hstep⟩ | ⟨e, _, hstep⟩⟩
    · have hrest := (hstep as).symm.trans h
      rcases List.mem_cons.1 ha with rfl | ha
      · refine ⟨value a, ?_, .inl rfl⟩
        rw [get?_merge hrest, SortedMap.get?_insert]
        simp
      · exact ih hrest ha
    · -- nothing is stored, so the rest starts from the same table
      have hrest := (hstep as).symm.trans h
      rcases List.mem_cons.1 ha with rfl | ha
      · refine ⟨stored, ?_, .inr hclash⟩
        rw [get?_merge hrest, hacc]
        rfl
      · exact ih hrest ha
    · cases (hstep as).symm.trans h

/-- What is wrong with an entry beside what is kept. -/
def clashWith? (key : α → String) (clash : String → β → α → Option ε) (kept : String → Option β)
    (a : α) : Option ε :=
  (kept (key a)).bind fun stored => clash (key a) stored a

/-- Entries are merged in as if all that is kept were there from the start: taking in the entry at
the head leaves `kept?` as it is. -/
theorem merge_eq_error_iff (hself : ∀ a, clash (key a) (value a) a = none) :
    merge key value clash acc as = .error e ↔
      as.findSome? (clashWith? key clash (kept? key value acc as)) = some e := by
  induction as generalizing acc with
  | nil => simp [merge]
  | cons a as ih =>
    rw [List.findSome?_cons]
    rcases merge_cases key value clash acc a with
      ⟨hacc, hstep⟩ | ⟨stored, hacc, ⟨hclash, hstep⟩ | ⟨e', hclash, hstep⟩⟩
    · have hkept : kept? key value acc (a :: as) (key a) = some (value a) := by simp [kept?, hacc]
      rw [hstep, ih, kept?_insert hacc]
      simp only [clashWith?, hkept, Option.bind_some, hself]
    · have hkept : kept? key value acc (a :: as) (key a) = some stored := by simp [kept?, hacc]
      rw [hstep, ih, ← kept?_cons hacc]
      simp only [clashWith?, hkept, Option.bind_some, hclash]
    · have hkept : kept? key value acc (a :: as) (key a) = some stored := by simp [kept?, hacc]
      rw [hstep]
      simp only [clashWith?, hkept, Option.bind_some, hclash, Except.error.injEq,
        Option.some.injEq]

theorem merge_append (h : merge key value clash acc as = .ok out) :
    merge key value clash acc (as ++ bs) = merge key value clash out bs := by
  induction as generalizing acc with
  | nil =>
    cases h
    rfl
  | cons a as ih =>
    rcases merge_cases key value clash acc a with
      ⟨_, hstep⟩ | ⟨stored, _, ⟨_, hstep⟩ | ⟨e, _, hstep⟩⟩
    · rw [List.cons_append, hstep]
      exact ih ((hstep as).symm.trans h)
    · rw [List.cons_append, hstep]
      exact ih ((hstep as).symm.trans h)
    · cases (hstep as).symm.trans h

/-- Entries that agree with what is there leave the table as it is. -/
theorem merge_of_agree
    (h : ∀ b ∈ bs, ∃ stored, acc.get? (key b) = some stored ∧ clash (key b) stored b = none) :
    merge key value clash acc bs = .ok acc := by
  induction bs with
  | nil => rfl
  | cons b bs ih =>
    obtain ⟨⟨stored, hstored, hclash⟩, hbs⟩ := List.forall_mem_cons.1 h
    simp only [merge, hstored, hclash]
    exact ih hbs

end Merge

section FromNothing

variable {key : α → String} {value : α → β} {clash : String → β → α → Option ε}
  {out : SortedMap β} {as : List α} {k : String} {e : ε}

/-- A table with the keys of a list, and under each what its first entry stands for. -/
structure HoldsFirst (key : α → String) (StandsFor : α → β → Prop) (out : SortedMap β)
    (as : List α) : Prop where
  keys : ∀ k, k ∈ out.keys ↔ ∃ a ∈ as, key a = k
  first : ∀ k f, IsFirst key as k f → ∃ b, out.get? k = some b ∧ StandsFor f b

/-- An entry agrees with the first one of its key. -/
def Agrees (key : α → String) (value : α → β) (clash : String → β → α → Option ε) (as : List α)
    (a : α) : Prop :=
  ∀ f, IsFirst key as (key a) f → clash (key a) (value f) a = none

theorem clashWith?_eq {a f : α} (h : IsFirst key as (key a) f) :
    clashWith? key clash (kept? key value ∅ as) a = clash (key a) (value f) a := by
  have hkept : kept? key value ∅ as (key a) = some (value f) :=
    congrArg (Option.map value) (isFirst_iff_find?.1 h)
  rw [clashWith?, hkept]
  rfl

theorem clashWith?_eq_none_iff {a : α} (ha : a ∈ as) :
    clashWith? key clash (kept? key value ∅ as) a = none ↔ Agrees key value clash as a := by
  obtain ⟨f, hf⟩ := exists_isFirst key ha
  rw [clashWith?_eq hf]
  constructor
  · intro h g hg
    rwa [hg.unique hf]
  · exact fun h => h f hf

theorem merge_empty_eq_error_iff (hself : ∀ a, clash (key a) (value a) a = none) :
    merge key value clash ∅ as = .error e ↔
      ∃ before a after f, as = before ++ a :: after ∧
        (∀ b ∈ before, Agrees key value clash as b) ∧ IsFirst key as (key a) f ∧
        clash (key a) (value f) a = some e := by
  rw [merge_eq_error_iff hself, List.findSome?_eq_some_iff]
  constructor
  · rintro ⟨before, a, after, has, ha, hbefore⟩
    have hmem : ∀ b ∈ before, b ∈ as := fun b hb => has ▸ List.mem_append_left _ hb
    obtain ⟨f, hf⟩ := exists_isFirst key (show a ∈ as by simp [has])
    rw [clashWith?_eq hf] at ha
    exact ⟨before, a, after, f, has,
      fun b hb => (clashWith?_eq_none_iff (hmem b hb)).1 (hbefore b hb), hf, ha⟩
  · rintro ⟨before, a, after, f, has, hbefore, hf, ha⟩
    have hmem : ∀ b ∈ before, b ∈ as := fun b hb => has ▸ List.mem_append_left _ hb
    exact ⟨before, a, after, has, (clashWith?_eq hf).trans ha,
      fun b hb => (clashWith?_eq_none_iff (hmem b hb)).2 (hbefore b hb)⟩

theorem exists_merge_iff (hself : ∀ a, clash (key a) (value a) a = none) :
    (∃ out, merge key value clash ∅ as = .ok out) ↔ ∀ a ∈ as, Agrees key value clash as a := by
  have hnone : (∀ a ∈ as, Agrees key value clash as a) ↔
      as.findSome? (clashWith? key clash (kept? key value ∅ as)) = none := by
    rw [List.findSome?_eq_none_iff]
    exact forall₂_congr fun a ha => (clashWith?_eq_none_iff ha).symm
  rw [hnone]
  cases hm : merge key value clash ∅ as with
  | ok out =>
    refine iff_of_true ⟨out, rfl⟩ (Option.eq_none_iff_forall_ne_some.2 fun e he => ?_)
    cases hm.symm.trans ((merge_eq_error_iff hself).2 he)
  | error e =>
    rw [(merge_eq_error_iff hself).1 hm]
    exact iff_of_false nofun nofun

/-- Where every entry is held against the first one of its key by an equivalence, all entries of a
key agree with each other. -/
theorem forall_agrees_iff {Same : α → α → Prop} (hsame : Equivalence Same)
    (hnone : ∀ k f a, clash k (value f) a = none ↔ Same f a) :
    (∀ a ∈ as, Agrees key value clash as a) ↔
      ∀ a ∈ as, ∀ b ∈ as, key a = key b → Same a b := by
  constructor
  · intro h a ha b hb hab
    obtain ⟨f, hf⟩ := exists_isFirst key ha
    have hfa := (hnone _ f a).1 (h a ha f hf)
    have hfb := (hnone _ f b).1 (h b hb f (hab ▸ hf))
    exact hsame.trans (hsame.symm hfa) hfb
  · intro h a ha f hf
    exact (hnone _ f a).2 (h f hf.mem a ha hf.key_eq)

/-- Where only the key is told of an entry that does not fit, it is that of the earliest one. -/
theorem merge_empty_eq_keyed_iff {Fit : α → α → Prop} {error : String → ε}
    (hself : ∀ a, clash (key a) (value a) a = none)
    (hnone : ∀ k f a, clash k (value f) a = none ↔ Fit f a)
    (hsome : ∀ k f a e, clash k (value f) a = some e ↔ ¬ Fit f a ∧ e = error k) :
    merge key value clash ∅ as = .error e ↔
      ∃ before a after, as = before ++ a :: after ∧
        (∀ b ∈ before, ∀ f, IsFirst key as (key b) f → Fit f b) ∧
        (¬ ∀ f, IsFirst key as (key a) f → Fit f a) ∧ e = error (key a) := by
  rw [merge_empty_eq_error_iff hself]
  simp only [Agrees, hnone, hsome]
  constructor
  · rintro ⟨before, a, after, f, has, hbefore, hf, ha, he⟩
    exact ⟨before, a, after, has, hbefore, fun h => ha (h f hf), he⟩
  · rintro ⟨before, a, after, has, hbefore, ha, he⟩
    obtain ⟨f, hf⟩ := exists_isFirst key (show a ∈ as by simp [has])
    refine ⟨before, a, after, f, has, hbefore, hf, fun h => ha fun g hg => ?_, he⟩
    rwa [hg.unique hf]

variable {StandsFor : α → β → Prop}

theorem holdsFirst_of_merge (hvalue : ∀ a b, StandsFor a b ↔ value a = b)
    (h : merge key value clash ∅ as = .ok out) : HoldsFirst key StandsFor out as := by
  have hfirst : ∀ k f, IsFirst key as k f → out.get? k = some (value f) := by
    intro k f hf
    rw [get?_merge h, isFirst_iff_find?.1 hf]
    rfl
  refine ⟨fun k => ?_, fun k f hf => ⟨_, hfirst k f hf, (hvalue f _).2 rfl⟩⟩
  rw [SortedMap.mem_keys]
  constructor
  · rintro ⟨b, hb⟩
    rw [get?_merge h] at hb
    obtain ⟨a, ha, _⟩ := Option.map_eq_some_iff.1 hb
    exact ⟨a, List.mem_of_find?_eq_some ha, by simpa using List.find?_some ha⟩
  · rintro ⟨a, ha, rfl⟩
    obtain ⟨f, hf⟩ := exists_isFirst key ha
    exact ⟨_, hfirst _ f hf⟩

theorem HoldsFirst.unique (hvalue : ∀ a b, StandsFor a b ↔ value a = b) {out' : SortedMap β}
    (h : HoldsFirst key StandsFor out as) (h' : HoldsFirst key StandsFor out' as) : out = out' := by
  have hmissing : ∀ {m : SortedMap β} {k : String}, HoldsFirst key StandsFor m as →
      (¬ ∃ a ∈ as, key a = k) → m.get? k = none := by
    intro m k hm hk
    rw [← hm.keys, SortedMap.mem_keys] at hk
    exact Option.eq_none_iff_forall_ne_some.2 fun b hb => hk ⟨b, hb⟩
  apply SortedMap.ext_get?
  intro k
  by_cases hk : ∃ a ∈ as, key a = k
  · obtain ⟨a, ha, rfl⟩ := hk
    obtain ⟨f, hf⟩ := exists_isFirst key ha
    obtain ⟨b, hb, hfb⟩ := h.first _ f hf
    obtain ⟨b', hb', hfb'⟩ := h'.first _ f hf
    rw [hb, hb', ← (hvalue f b).1 hfb, ← (hvalue f b').1 hfb']
  · rw [hmissing h hk, hmissing h' hk]

theorem merge_empty_eq_ok_iff (hself : ∀ a, clash (key a) (value a) a = none)
    (hvalue : ∀ a b, StandsFor a b ↔ value a = b) :
    merge key value clash ∅ as = .ok out ↔
      (∀ a ∈ as, Agrees key value clash as a) ∧ HoldsFirst key StandsFor out as := by
  constructor
  · intro h
    exact ⟨(exists_merge_iff hself).1 ⟨out, h⟩, holdsFirst_of_merge hvalue h⟩
  · rintro ⟨hagree, hholds⟩
    obtain ⟨out', hout'⟩ := (exists_merge_iff hself).2 hagree
    rw [hout', (holdsFirst_of_merge hvalue hout').unique hvalue hholds]

end FromNothing

end ModuleCompiler.Module
