import ModuleCompiler.Proofs.Decode.Records
import ModuleCompiler.Proofs.Outcome

/-!
What a value that was read says of the node it was read from. Nodes may hold aliases here, so how
many of them have been followed is left open.
-/

namespace ModuleCompiler

open Yaml

namespace Decode

def Reads (anchors : Anchors) (x : Decode α) (a : α) : Prop :=
  ∃ count count', (x.run anchors).run count = .ok (a, count')

/-- The node that is read in place of a node. -/
def target? (anchors : Anchors) : Node → Option Node
  | .alias anchor _ => anchors.nodes.lookup anchor
  | .broken _ => none
  | n => some n

/-- Nodes that an option takes for no value. -/
inductive IsLeftOut : Node → Prop
  | absent (mark : Mark) : IsLeftOut (.absent mark)
  | scalar {s : Scalar} : s.style = .plain → (s.text = "" ∨ ScalarText.isNull s.text = true) →
      IsLeftOut (.scalar s)

section Reads

variable {anchors : Anchors} {x : Decode α} {a : α} {b : β}

theorem Fails.not_reads (h : Fails x) : ¬ Reads anchors x a := by
  rintro ⟨count, count', hx⟩
  obtain ⟨e, he⟩ := h anchors count
  cases he.symm.trans hx

theorem Reads.eq_of_pure {a' : α} (h : Reads anchors (pure a) a') : a = a' := by
  obtain ⟨count, count', hx⟩ := h
  exact congrArg Prod.fst (Except.ok.inj hx)

theorem Reads.bind {f : α → Decode β} (h : Reads anchors (x >>= f) b) :
    ∃ a, Reads anchors x a ∧ Reads anchors (f a) b := by
  obtain ⟨count, count', hx⟩ := h
  simp only [ReaderT.run_bind, StateT.run_bind] at hx
  obtain ⟨⟨a, next⟩, ha, hb⟩ := bind_eq_ok_iff.1 hx
  exact ⟨a, ⟨count, next, ha⟩, next, count', hb⟩

theorem Reads.eq_of_read {found : Anchors} (h : Reads anchors read found) : found = anchors := by
  obtain ⟨count, count', hx⟩ := h
  exact (congrArg Prod.fst (Except.ok.inj hx)).symm

theorem Reads.map {f : α → β} (h : Reads anchors (f <$> x) b) :
    ∃ a, Reads anchors x a ∧ f a = b := by
  rw [map_eq_pure_bind] at h
  obtain ⟨a, ha, hb⟩ := h.bind
  exact ⟨a, ha, hb.eq_of_pure⟩

theorem reads_of_run {decoder : Decoder α} {doc : Yaml.Document} (h : decoder.run doc = .ok a) :
    Reads ⟨doc.anchored, 100 * doc.eventCount⟩ (decoder .root doc.root) a := by
  simp only [Decoder.run] at h
  split at h
  · cases h
  · rename_i r hr
    split at h
    · cases h
    · split at h
      · cases h
      · cases h
        exact ⟨0, _, hr⟩

end Reads

section Nodes

variable {anchors : Anchors} {p : Place} {n m : Node}

theorem target?_of_isEmptyCollection (h : isEmptyCollection n = true) :
    target? anchors n = some n := by
  cases n with
  | scalar s => rfl
  | absent _ => rfl
  | _ => cases h

theorem Reads.target (h : Reads anchors (resolve n) m) : target? anchors n = some m := by
  cases n with
  | «alias» anchor mark =>
    dsimp only [resolve] at h
    obtain ⟨count, _, h⟩ := h.bind
    obtain ⟨_, _, h⟩ := h.bind
    obtain ⟨found, _, h⟩ := h.bind
    split at h
    · exact absurd h (fails_fail _).not_reads
    · obtain ⟨found', hfound', h⟩ := h.bind
      rw [hfound'.eq_of_read] at h
      split at h
      · rename_i target htarget
        exact htarget.trans (congrArg some h.eq_of_pure)
      · exact absurd h (fails_fail _).not_reads
  | broken f => exact absurd h (fails_fail _).not_reads
  | _ => exact congrArg some h.eq_of_pure

theorem Reads.textAs {expected t : String} (h : Reads anchors (textAs expected p n) t) :
    ∃ s, target? anchors n = some (.scalar s) ∧ t = s.text := by
  obtain ⟨m, hm, h⟩ := h.bind
  cases m with
  | scalar s => exact ⟨s, hm.target, h.eq_of_pure.symm⟩
  | _ => exact absurd h (fails_refuse _ _ _).not_reads

/-- An option has a value unless the node stands for none. -/
theorem Reads.option {decoder : Decoder α} {o : Option α}
    (h : Reads anchors (option decoder p n) o) :
    ∃ m, target? anchors n = some m ∧
      (o = none ∧ IsLeftOut m ∨ ∃ a, o = some a ∧ Reads anchors (decoder p m) a) := by
  obtain ⟨m, hm, h⟩ := Reads.bind h
  refine ⟨m, hm.target, ?_⟩
  have hsome : Reads anchors (some <$> decoder p m) o →
      ∃ a, o = some a ∧ Reads anchors (decoder p m) a := by
    intro hread
    obtain ⟨a, ha, rfl⟩ := hread.map
    exact ⟨a, rfl, ha⟩
  cases m with
  | scalar s =>
    dsimp only at h
    split at h
    · simp only [pure_bind, Bool.false_eq_true, if_false] at h
      exact .inr (hsome h)
    · rename_i hstyle
      have hplain := Decidable.not_not.1 hstyle
      split at h
      · simp only [pure_bind, Bool.or_eq_true, String.isEmpty_iff] at h
        split at h
        · rename_i hnull
          exact .inl ⟨h.eq_of_pure.symm, .scalar hplain hnull⟩
        · exact .inr (hsome h)
      · split at h
        · simp only [pure_bind, Bool.false_eq_true, if_false] at h
          exact .inr (hsome h)
        · split at h
          · rename_i hnull
            simp only [pure_bind, if_true] at h
            exact .inl ⟨h.eq_of_pure.symm, .scalar hplain (.inr hnull)⟩
          · exact absurd h ((fails_fail _).bind _).not_reads
  | absent mark => exact .inl ⟨h.eq_of_pure.symm, .absent mark⟩
  | _ =>
    simp only [pure_bind, Bool.false_eq_true, if_false] at h
    exact .inr (hsome h)

theorem Reads.ofEmpty {expected : String} {initial a : α}
    (h : Reads anchors (if isEmptyCollection n then pure initial else refuse p expected n) a) :
    isEmptyCollection n = true ∧ a = initial := by
  split at h
  · rename_i hempty
    exact ⟨hempty, h.eq_of_pure.symm⟩
  · exact absurd h (fails_refuse _ _ _).not_reads

/-- A record is read from the entries of a map, or it is as it starts. -/
theorem Reads.record {name : String} {known : List (FieldDecoder ρ)} {initial r : ρ}
    (h : Reads anchors (record name known initial p n) r) :
    ∃ m, target? anchors n = some m ∧
      ((∃ o es depth, m = .map o es ∧
          Reads anchors (fields (p.enter m) depth known [] initial es) r) ∨
        isEmptyCollection m = true ∧ r = initial) := by
  obtain ⟨m, hm, h⟩ := h.bind
  refine ⟨m, hm.target, ?_⟩
  cases m with
  | map o es =>
    dsimp only [descend] at h
    split at h
    · exact absurd h (fails_fail _).not_reads
    · exact .inl ⟨o, es, _, rfl, h⟩
  | _ => exact .inr (Reads.ofEmpty h)

end Nodes

section Entries

variable {anchors : Anchors} {p : Place} {depth : Nat} {known : List (FieldDecoder ρ)}

/-- An entry of a record is passed over, or it is of a field that is new. -/
theorem Reads.takeField {acc acc' : List String × ρ} {e : Node × Node}
    (h : Reads anchors (takeField p depth known acc e) acc') :
    ∃ s, target? anchors e.1 = some (.scalar s) ∧
      (known.find? (·.isNamed s.text) = none ∧ acc' = acc ∨
        ∃ f q store, known.find? (·.isNamed s.text) = some f ∧ acc.1.contains f.name = false ∧
          Reads anchors (f.read q e.2) store ∧ acc' = (f.name :: acc.1, store acc.2)) := by
  obtain ⟨key, hkey, h⟩ := h.bind
  obtain ⟨s, hs, rfl⟩ := hkey.textAs
  refine ⟨s, hs, ?_⟩
  cases hfind : known.find? (·.isNamed s.text) with
  | none =>
    simp only [hfind] at h
    obtain ⟨_, _, h⟩ := h.bind
    exact .inl ⟨rfl, h.eq_of_pure.symm⟩
  | some f =>
    simp only [hfind] at h
    split at h
    · exact absurd h (Place.fails_fail _ _).not_reads
    · rename_i hnew
      obtain ⟨store, hstore, h⟩ := h.bind
      exact .inr ⟨f, _, store, rfl, Bool.eq_false_iff.2 hnew, hstore, h.eq_of_pure.symm⟩

/-- Two readings of the same entries, in step with each other. -/
theorem Reads.foldlM_related {R : σ → τ → Prop} {f : σ → α → Decode σ} {g : τ → α → Decode τ}
    (hstep : ∀ s t a s' t', R s t → Reads anchors (f s a) s' → Reads anchors (g t a) t' → R s' t')
    {as : List α} {s s' : σ} {t t' : τ} (hst : R s t) (hs : Reads anchors (as.foldlM f s) s')
    (ht : Reads anchors (as.foldlM g t) t') : R s' t' := by
  induction as generalizing s t with
  | nil => exact hs.eq_of_pure ▸ ht.eq_of_pure ▸ hst
  | cons a as ih =>
    rw [List.foldlM_cons] at hs ht
    obtain ⟨s₁, hs₁, hs⟩ := hs.bind
    obtain ⟨t₁, ht₁, ht⟩ := ht.bind
    exact ih (hstep s t a s₁ t₁ hst hs₁ ht₁) hs ht

/-- Entries of the field leave a view of the record as it is. -/
def FieldDecoder.Keeps (view : ρ → α) (f : FieldDecoder ρ) : Prop :=
  ∀ anchors p n store, Reads anchors (f.read p n) store → ∀ r, view (store r) = view r

@[simp] theorem keeps_field {view : ρ → α} {name : String} {decoder : Decoder β}
    {store : β → ρ → ρ} (h : ∀ v r, view (store v r) = view r) :
    (field name decoder store).Keeps view := by
  intro anchors p n s hs r
  obtain ⟨v, _, rfl⟩ := hs.map
  exact h v r

@[simp] theorem keeps_orNamed {view : ρ → α} {f : FieldDecoder ρ} {name : String} :
    (f.orNamed name).Keeps view ↔ f.Keeps view := Iff.rfl

end Entries

end Decode

end ModuleCompiler
