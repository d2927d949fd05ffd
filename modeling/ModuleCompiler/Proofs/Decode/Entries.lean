import ModuleCompiler.Proofs.Decode.Stable

/-!
Maps and records read entry by entry. Entries with distinct keys can be read in any order: each goes
to a place of its own, or the whole fails.
-/

namespace ModuleCompiler

open Yaml

namespace Decode

/-- Values of different keys are put in places of their own. What it takes for two states to be the
same is up to the relation, and it holds of states that are sound in themselves. -/
structure PutsApart (put : String → α → σ → σ) (S : σ → σ → Prop) : Prop where
  symm : ∀ s s', S s s' → S s' s
  trans : ∀ s s' s'', S s s' → S s' s'' → S s s''
  congr : ∀ k v s s', S s s' → S (put k v s) (put k v s')
  comm : ∀ k k' v v' s, k ≠ k' → S s s → S (put k v (put k' v' s)) (put k' v' (put k v s))

theorem putsApart_insert :
    PutsApart (fun k (v : α) (m : SortedMap α) => m.insert k v) Eq where
  symm := fun _ _ => Eq.symm
  trans := fun _ _ _ => Eq.trans
  congr := by
    rintro k v m _ rfl
    rfl
  comm := fun _ _ v v' m hk _ => SortedMap.insert_comm hk v v' m

/-- A key is a scalar or no key at all. -/
theorem key_cases {n n' : Node} (h : n.Reordered n') :
    (∃ t, n = .scalar t) ∨ ∀ expected p, Fails (textAs expected p n) := by
  cases h with
  | scalar t => exact .inl ⟨t, rfl⟩
  | @seq o ns _ _ => exact .inr fun expected p => fails_refuse p expected (.seq o ns)
  | @map o es _ _ _ _ _ => exact .inr fun expected p => fails_refuse p expected (.map o es)
  | absent mark => exact .inr fun expected p => fails_refuse p expected (.absent mark)

theorem entryStep_of_reordered {n n' : Node} (h : n.Reordered n') : entryStep n = entryStep n' := by
  cases h <;> rfl

section Entries

variable {p : Place} {depth : Nat} {decoder : String → Decoder α} {put : String → α → σ → σ}
  {S : σ → σ → Prop} {e e' f f' : Node × Node}

def takeEntry (p : Place) (depth : Nat) (decoder : String → Decoder α) (put : String → α → σ → σ)
    (acc : σ) (e : Node × Node) : Decode σ := do
  let key ← text { p with depth := depth } e.1
  let value ← decoder key (p.child (entryStep e.1) depth) e.2
  return put key value acc

theorem entries_eq_foldlM (acc : σ) (es : List (Node × Node)) :
    entries p depth decoder put acc es = es.foldlM (takeEntry p depth decoder put) acc := by
  induction es generalizing acc with
  | nil => rfl
  | cons e es ih =>
    obtain ⟨k, v⟩ := e
    simp only [entries, List.foldlM_cons, takeEntry, bind_assoc, pure_bind, ih]

/-- What the reading of an entry comes to does not hang on what was read before. -/
theorem takeEntry_cases (hd : ∀ key, Stable (decoder key)) (he : Node.EntryReordered e e') :
    (∀ s, Fails (takeEntry p depth decoder put s e)) ∨
      ∃ t value, e.1 = .scalar t ∧ ∀ s, takeEntry p depth decoder put s e =
        pure (put t.text value s) := by
  cases he with
  | @mk k v k' v' hk hv =>
    rcases key_cases hk with ⟨t, rfl⟩ | hfails
    · have hread : ∀ s, takeEntry p depth decoder put s (.scalar t, v) =
          decoder t.text (p.child (.key t.text) depth) v >>= fun value =>
            pure (put t.text value s) := fun _ => rfl
      rcases (hd t.text (p.child (.key t.text) depth) v v' hv).settled with ⟨value, hvalue⟩ | hvalue
      · refine .inr ⟨t, value, rfl, fun s => ?_⟩
        rw [hread, hvalue, pure_bind]
      · refine .inl fun s => ?_
        rw [hread]
        exact hvalue.bind _
    · exact .inl fun s => (hfails _ _).bind _

theorem agree_takeEntry (hd : ∀ key, Stable (decoder key)) (hput : PutsApart put S) {s s' : σ}
    (hs : S s s') (he : Node.EntryReordered e e') :
    Agree S (takeEntry p depth decoder put s e) (takeEntry p depth decoder put s' e') := by
  cases he with
  | mk hk hv =>
    refine (stable_textAs _ _ _ _ hk).bind ?_
    rintro key _ rfl
    simp only [entryStep_of_reordered hk]
    refine (hd key _ _ _ hv).bind ?_
    rintro value _ rfl
    exact .yield (hput.congr key value s s' hs) rfl rfl

theorem takeEntry_comm (hd : ∀ key, Stable (decoder key)) (hput : PutsApart put S)
    (he : Node.EntryReordered e e') (hf : Node.EntryReordered f f')
    (hkeys : ∀ t u, e.1 = .scalar t → f.1 = .scalar u → t.text ≠ u.text) {s : σ} (hs : S s s) :
    Agree S (takeEntry p depth decoder put s e >>= (takeEntry p depth decoder put · f))
      (takeEntry p depth decoder put s f >>= (takeEntry p depth decoder put · e)) := by
  have hce : (∀ s, Fails (takeEntry p depth decoder put s e)) ∨ _ := takeEntry_cases hd he
  have hcf : (∀ s, Fails (takeEntry p depth decoder put s f)) ∨ _ := takeEntry_cases hd hf
  rcases hce with he | ⟨t, v, ht, he⟩
  · rcases hcf with hf | ⟨u, w, hu, hf⟩
    · exact .fail ((he s).bind _) ((hf s).bind _)
    · exact .fail ((he s).bind _) (Settled.bind_fails (.inl ⟨_, hf s⟩) he)
  · rcases hcf with hf | ⟨u, w, hu, hf⟩
    · exact .fail (Settled.bind_fails (.inl ⟨_, he s⟩) hf) ((hf s).bind _)
    · rw [he, hf, pure_bind, pure_bind]
      exact .yield (hput.comm _ _ _ _ _ (hkeys t u ht hu).symm hs) (hf _) (he _)

/-- The entries of a map are read to the same end in both orders. -/
theorem agree_entries (hd : ∀ key, Stable (decoder key)) (hput : PutsApart put S)
    {es fs es' : List (Node × Node)} (hkeys : Node.DistinctKeys es) (hp : es.Perm fs)
    (he : List.Forall₂ Node.EntryReordered fs es') {s : σ} (hs : S s s) :
    Agree S (entries p depth decoder put s es) (entries p depth decoder put s es') := by
  rw [entries_eq_foldlM, entries_eq_foldlM]
  refine Agree.foldlM_reordered hput.symm hput.trans ?_ ?_ hp he hs
  · intro u u' e e' hu he
    exact agree_takeEntry hd hput hu he
  · refine hkeys.pairwise.imp_of_mem fun {e f} hem hfm hne u hu => ?_
    obtain ⟨e', he'⟩ := forall₂_exists_left he e (hp.mem_iff.1 hem)
    obtain ⟨f', hf'⟩ := forall₂_exists_left he f (hp.mem_iff.1 hfm)
    exact takeEntry_comm hd hput he' hf' hne hu

end Entries

theorem Stable.table {decoder : Decoder α} (h : Stable decoder) :
    Stable (table decoder) := by
  intro p n n' hn
  cases hn with
  | scalar s => exact (settled_empty ∅ p "a map" (.scalar s)).agree
  | @seq o ns ns' _ =>
    exact .fail (fails_refuse p "a map" (.seq o ns)) (fails_refuse p "a map" (.seq o ns'))
  | map hkeys hp he =>
    exact agree_descend _ fun depth => agree_entries (fun _ => h) putsApart_insert hkeys hp he rfl
  | absent mark => exact (settled_empty ∅ p "a map" (.absent mark)).agree

section Any

theorem putsApart_entries : PutsApart
    (fun k (v : Option α) (vs : Entries α) =>
      match v with
      | some v => Entries.insert k v vs
      | none => vs)
    fun vs vs' => vs = vs' ∧ vs.Ascending where
  symm := by
    rintro s _ ⟨rfl, h⟩
    exact ⟨rfl, h⟩
  trans := by
    rintro s _ _ ⟨rfl, h⟩ ⟨rfl, _⟩
    exact ⟨rfl, h⟩
  congr := by
    rintro k v s _ ⟨rfl, h⟩
    cases v with
    | none => exact ⟨rfl, h⟩
    | some v => exact ⟨rfl, h.insert k v⟩
  comm := by
    rintro k k' v v' s hk ⟨_, h⟩
    cases v with
    | none =>
      cases v' with
      | none => exact ⟨rfl, h⟩
      | some v' => exact ⟨rfl, h.insert k' v'⟩
    | some v =>
      cases v' with
      | none => exact ⟨rfl, h.insert k v⟩
      | some v' => exact ⟨Entries.insert_comm hk v v' h, (h.insert k' v').insert k v⟩

variable {r : Assembly α}

theorem settled_variantOf (p : Place) (n : Node) : Settled (variantOf r p n) := by
  unfold variantOf
  split
  · exact settled_pure _
  · split
    · exact (Place.fails_fail _ _).settled
    · exact settled_pure _

theorem variantOf_of_reordered {n n' : Node} (h : n.Reordered n') (p : Place) :
    variantOf r p n = variantOf r p n' := by
  unfold variantOf
  rw [tagOf?_of_reordered h]

/-- Nodes of any type, level by level. -/
theorem stable_any (hscalar : ∀ p v, Settled (r.scalar p v))
    (hlook : ∀ key look, r.dropped key = some look → Stable look) (depth : Nat) :
    Stable fun p n => any r depth p.path n := by
  induction depth with
  | zero =>
    intro p n n' hn
    simp only [any]
    rw [(resolve_of_reordered hn).1, (resolve_of_reordered hn).2, pure_bind, pure_bind,
      variantOf_of_reordered hn, mark_of_reordered hn]
    refine (settled_variantOf _ _).agree.bind ?_
    rintro wrap _ rfl
    refine (agree_content hn _ _).bind fun u u' hu => ?_
    cases hu with
    | scalar v => exact ((hscalar _ v).map wrap).agree
    | seq _ => exact .fail (fails_fail _) (fails_fail _)
    | map _ _ _ => exact .fail (fails_fail _) (fails_fail _)
    | nothing => exact (settled_pure _).agree
  | succ depth ih =>
    intro p n n' hn
    simp only [any]
    rw [(resolve_of_reordered hn).1, (resolve_of_reordered hn).2, pure_bind, pure_bind,
      variantOf_of_reordered hn, mark_of_reordered hn]
    refine (settled_variantOf _ _).agree.bind ?_
    rintro wrap _ rfl
    refine (agree_content hn _ _).bind fun u u' hu => ?_
    cases hu with
    | scalar v => exact ((hscalar _ v).map wrap).agree
    | seq hn => exact (ih.items _ depth 0 hn).map fun _ _ => congrArg _
    | map hkeys hp he =>
      -- values under a dropped key are looked at as well, so a fault in one of them is a fault
      refine (agree_entries (fun key => ?_) putsApart_entries hkeys hp he ⟨rfl, .nil⟩).map ?_
      · cases hdropped : r.dropped key with
        | none => exact ih.map some
        | some look =>
          exact (hlook key look hdropped).bind fun _ => settled_pure none
      · rintro vs _ ⟨rfl, _⟩
        rfl
    | nothing => exact (settled_pure _).agree

end Any

end Decode

open Decode

theorem RawValue.stable_decoder : Stable RawValue.decoder := by
  have hscalar : ∀ p v, Settled (RawValue.assembly.scalar p v) := by
    intro p v
    cases v with
    | integer n _ =>
      simp only [RawValue.assembly, RawValue.ofScalarValue]
      split
      · exact settled_pure _
      · exact (Place.fails_fail _ _).settled
    | _ => exact settled_pure _
  exact fun p => stable_any hscalar nofun p.depth p

end ModuleCompiler
