import Mathlib.Data.List.Pairwise
import ModuleCompiler.Proofs.Decode.Entries

/-!
Records read entry by entry. Each field has a place of its own in the record, so its entries can
stand in any order; a field that comes twice is refused in both.
-/

namespace ModuleCompiler

open Yaml

namespace Decode

/-- What two fields store can be stored in either order. -/
def FieldDecoder.Commutes (f g : FieldDecoder ρ) : Prop :=
  ∀ p q n m s t, f.read p n = pure s → g.read q m = pure t → ∀ r, s (t r) = t (s r)

instance : Std.Symm (@FieldDecoder.Commutes ρ) where
  symm := fun _ _ h p q n m s t hs ht r => (h q p m n t s ht hs r).symm

theorem exists_of_map_eq_pure {x : Decode α} {f : α → β} {b : β} (h : f <$> x = pure b) :
    ∃ a, f a = b := by
  have hrun := congrArg (fun y : Decode β => (y.run ⟨[], 0⟩).run 0) h
  cases hx : (x.run ⟨[], 0⟩).run 0 with
  | error e =>
    simp only [ReaderT.run_map, StateT.run_map, hx] at hrun
    cases hrun
  | ok r =>
    simp only [ReaderT.run_map, StateT.run_map, hx] at hrun
    exact ⟨r.1, congrArg Prod.fst (Except.ok.inj hrun)⟩

@[simp] theorem field_commutes {name name' : String} {decoder : Decoder α} {decoder' : Decoder β}
    {store : α → ρ → ρ} {store' : β → ρ → ρ}
    (h : ∀ v w r, store v (store' w r) = store' w (store v r)) :
    (field name decoder store).Commutes (field name' decoder' store') := by
  intro p q n m s t hs ht r
  obtain ⟨v, rfl⟩ := exists_of_map_eq_pure hs
  obtain ⟨w, rfl⟩ := exists_of_map_eq_pure ht
  exact h v w r

theorem find?_field (name : String) (decoder : Decoder α) (store : α → ρ → ρ)
    (known : List (FieldDecoder ρ)) (key : String) :
    (field name decoder store :: known).find? (·.isNamed key) =
      if key = name then some (field name decoder store) else known.find? (·.isNamed key) := by
  have hnamed : (field name decoder store).isNamed key = decide (key = name) := by
    simp [field, FieldDecoder.isNamed, beq_eq_decide, eq_comm]
  rw [List.find?_cons, hnamed]
  by_cases hkey : key = name
  · simp [hkey]
  · simp [hkey]

@[simp] theorem read_orNamed (f : FieldDecoder ρ) (name : String) :
    (f.orNamed name).read = f.read := rfl

@[simp] theorem orNamed_commutes {f g : FieldDecoder ρ} {name : String} :
    (f.orNamed name).Commutes g ↔ f.Commutes g := Iff.rfl

@[simp] theorem commutes_orNamed {f g : FieldDecoder ρ} {name : String} :
    f.Commutes (g.orNamed name) ↔ f.Commutes g := Iff.rfl

/-- Fields have been read, whatever the order, and the record is as it is. -/
def SameRecord (s s' : List String × ρ) : Prop :=
  (∀ name, s.1.contains name = s'.1.contains name) ∧ s.2 = s'.2

theorem SameRecord.refl (s : List String × ρ) : SameRecord s s :=
  ⟨fun _ => rfl, rfl⟩

theorem SameRecord.symm (s s' : List String × ρ) (h : SameRecord s s') : SameRecord s' s :=
  ⟨fun name => (h.1 name).symm, h.2.symm⟩

theorem SameRecord.trans (s s' s'' : List String × ρ) (h : SameRecord s s')
    (h' : SameRecord s' s'') : SameRecord s s'' :=
  ⟨fun name => (h.1 name).trans (h'.1 name), h.2.trans h'.2⟩

/-- What an entry does to a record does not hang on the entries before it, but for a field that is
there already. -/
inductive Effect (known : List (FieldDecoder ρ))
    (step : List String × ρ → Decode (List String × ρ)) : Prop
  | fails : (∀ s, Fails (step s)) → Effect known step
  | passes : (∀ s, step s = pure s) → Effect known step
  | stores {f : FieldDecoder ρ} {p : Place} {n : Node} {store : ρ → ρ} :
      f ∈ known → f.read p n = pure store →
      (∀ s, s.1.contains f.name = true → Fails (step s)) →
      (∀ s, s.1.contains f.name = false → step s = pure (f.name :: s.1, store s.2)) →
      Effect known step

section Effect

variable {known : List (FieldDecoder ρ)}
  {step step' : List String × ρ → Decode (List String × ρ)}

theorem Effect.agree (h : Effect known step) {s s' : List String × ρ} (hs : SameRecord s s') :
    Agree SameRecord (step s) (step s') := by
  cases h with
  | fails h => exact .fail (h s) (h s')
  | passes h => exact .yield hs (h s) (h s')
  | @stores f _ _ store _ _ hseen hnew =>
    cases hc : s.1.contains f.name with
    | true => exact .fail (hseen s hc) (hseen s' (hs.1 _ ▸ hc))
    | false =>
      refine .yield ⟨fun name => ?_, congrArg store hs.2⟩ (hnew s hc) (hnew s' (hs.1 _ ▸ hc))
      simp only [List.contains_cons, hs.1]

theorem Effect.settled (h : Effect known step) (s : List String × ρ) : Settled (step s) :=
  (h.agree (SameRecord.refl s)).settled

/-- Fields that are there stay. -/
theorem Effect.contains (h : Effect known step) {s t : List String × ρ} (ht : step s = pure t)
    {name : String} (hs : s.1.contains name = true) : t.1.contains name = true := by
  cases h with
  | fails h => exact absurd (ht ▸ h s) (not_fails_pure t)
  | passes h => exact pure_injective ((h s).symm.trans ht) ▸ hs
  | @stores f _ _ store _ _ hseen hnew =>
    cases hc : s.1.contains f.name with
    | true => exact absurd (ht ▸ hseen s hc) (not_fails_pure t)
    | false =>
      rw [← pure_injective ((hnew s hc).symm.trans ht), List.contains_cons, hs, Bool.or_true]

/-- A field that is there already is refused later on, too. -/
theorem Effect.bind_fails (h : Effect known step) {name : String}
    (hseen : ∀ s, s.1.contains name = true → Fails (step' s)) {s : List String × ρ}
    (hs : s.1.contains name = true) : Fails (step s >>= step') := by
  rcases h.settled s with ⟨t, ht⟩ | hf
  · rw [ht, pure_bind]
    exact hseen t (h.contains ht hs)
  · exact hf.bind _

theorem Effect.comm (hk : known.Pairwise FieldDecoder.Commutes) (h : Effect known step)
    (h' : Effect known step') (s : List String × ρ) :
    Agree SameRecord (step s >>= step') (step' s >>= step) := by
  cases h with
  | fails hf => exact .fail ((hf s).bind _) ((h'.settled s).bind_fails hf)
  | passes hp =>
    have heq : step = pure := funext hp
    rw [heq, pure_bind, bind_pure]
    exact h'.agree (.refl s)
  | @stores f p n store hf hread hseen hnew =>
    have h := Effect.stores hf hread hseen hnew
    cases h' with
    | fails hf' => exact .fail ((h.settled s).bind_fails hf') ((hf' s).bind _)
    | passes hp =>
      have heq : step' = pure := funext hp
      rw [heq, pure_bind, bind_pure]
      exact h.agree (.refl s)
    | @stores g q m store' hg hread' hseen' hnew' =>
      have h' := Effect.stores hg hread' hseen' hnew'
      -- a field that is there fails its entry wherever that stands, so both have to be new
      cases hcf : s.1.contains f.name with
      | true => exact .fail ((hseen s hcf).bind _) (h'.bind_fails hseen hcf)
      | false =>
        cases hcg : s.1.contains g.name with
        | true => exact .fail (h.bind_fails hseen' hcg) ((hseen' s hcg).bind _)
        | false =>
          rw [hnew s hcf, hnew' s hcg, pure_bind, pure_bind]
          by_cases hname : f.name = g.name
          · exact .fail (hseen' _ (by simp [hname])) (hseen _ (by simp [hname]))
          · have hcomm := hk.forall hf hg fun he => hname (congrArg FieldDecoder.name he)
            refine .yield ?_ (hnew' _ (by simp_all [eq_comm])) (hnew _ (by simp_all))
            exact ⟨fun name => by simp [Bool.or_left_comm],
              (hcomm p q n m store store' hread hread' s.2).symm⟩

end Effect

section Fields

variable {p : Place} {depth : Nat} {known : List (FieldDecoder ρ)}

def takeField (p : Place) (depth : Nat) (known : List (FieldDecoder ρ)) (acc : List String × ρ)
    (e : Node × Node) : Decode (List String × ρ) := do
  let key ← textAs "field identifier" { p with depth := depth } e.1
  match known.find? (·.isNamed key) with
  | none =>
    ignore e.2
    return acc
  | some f =>
    if acc.1.contains f.name then p.fail (.repeatedField f.name)
    else
      let store ← f.read (p.child (entryStep e.1) depth) e.2
      return (f.name :: acc.1, store acc.2)

theorem fields_eq_foldlM (seen : List String) (r : ρ) (es : List (Node × Node)) :
    fields p depth known seen r es =
      Prod.snd <$> es.foldlM (takeField p depth known) (seen, r) := by
  induction es generalizing seen r with
  | nil => rfl
  | cons e es ih =>
    obtain ⟨k, v⟩ := e
    rw [fields, List.foldlM_cons, takeField, map_eq_pure_bind]
    simp only [bind_assoc]
    refine bind_congr fun key => ?_
    cases known.find? (·.isNamed key) with
    | none => simp only [bind_assoc, pure_bind, ih, map_eq_pure_bind]
    | some f =>
      dsimp only
      split
      · rfl
      · simp only [bind_assoc, pure_bind, ih, map_eq_pure_bind]

theorem ignore_of_reordered {n n' : Node} (h : n.Reordered n') :
    ignore n = pure () ∧ ignore n' = pure () := by
  have hn := Node.IsOrdered.fault?_eq n ⟨n', .inl h⟩
  have hn' := Node.IsOrdered.fault?_eq n' ⟨n, .inr h⟩
  simp only [ignore, hn, hn', and_self]

theorem effect_takeField (hstable : ∀ f ∈ known, Stable f.read) {e e' : Node × Node}
    (he : Node.EntryReordered e e') :
    Effect known (takeField p depth known · e) := by
  cases he with
  | @mk k v k' v' hkey hv =>
    rcases key_cases hkey with ⟨t, rfl⟩ | hfails
    · cases hfind : known.find? (·.isNamed t.text) with
      | none =>
        refine .passes fun s => ?_
        simp only [takeField, textAs_scalar, pure_bind, hfind, (ignore_of_reordered hv).1]
      | some f =>
        have hf := List.mem_of_find?_eq_some hfind
        have hread : ∀ s, takeField p depth known s (.scalar t, v) =
            if s.1.contains f.name then p.fail (.repeatedField f.name)
            else f.read (p.child (.key t.text) depth) v >>= fun store =>
              pure (f.name :: s.1, store s.2) := by
          intro s
          simp only [takeField, textAs_scalar, pure_bind, hfind, entryStep]
        rcases (hstable f hf (p.child (.key t.text) depth) v v' hv).settled with
          ⟨store, hstore⟩ | hstore
        · refine .stores hf hstore (fun s hs => ?_) fun s hs => ?_
          · rw [hread, if_pos hs]
            exact Place.fails_fail _ _
          · rw [hread, if_neg (Bool.eq_false_iff.1 hs), hstore, pure_bind]
        · refine .fails fun s => ?_
          rw [hread]
          split
          · exact Place.fails_fail _ _
          · exact hstore.bind _
    · exact .fails fun s => (hfails _ _).bind _

theorem agree_takeField (hstable : ∀ f ∈ known, Stable f.read) {s s' : List String × ρ}
    (hs : SameRecord s s') {e e' : Node × Node} (he : Node.EntryReordered e e') :
    Agree SameRecord (takeField p depth known s e) (takeField p depth known s' e') := by
  cases he with
  | @mk k v k' v' hkey hv =>
    refine (stable_textAs _ _ _ _ hkey).bind ?_
    rintro key _ rfl
    dsimp only
    cases hfind : known.find? (·.isNamed key) with
    | none =>
      rw [(ignore_of_reordered hv).1, (ignore_of_reordered hv).2]
      exact .yield hs rfl rfl
    | some f =>
      dsimp only
      rw [hs.1, entryStep_of_reordered hkey]
      split
      · exact .fail (Place.fails_fail _ _) (Place.fails_fail _ _)
      · refine (hstable f (List.mem_of_find?_eq_some hfind) _ _ _ hv).bind ?_
        rintro store _ rfl
        refine .yield ⟨fun name => ?_, congrArg store hs.2⟩ rfl rfl
        simp only [List.contains_cons, hs.1]

/-- The entries of a record are read to the same end in both orders. -/
theorem agree_fields (hstable : ∀ f ∈ known, Stable f.read)
    (hcommute : known.Pairwise FieldDecoder.Commutes) {es fs es' : List (Node × Node)}
    (hp : es.Perm fs) (he : List.Forall₂ Node.EntryReordered fs es') (r : ρ) :
    Agree Eq (fields p depth known [] r es) (fields p depth known [] r es') := by
  have heffect : ∀ e ∈ es, Effect known (takeField p depth known · e) := by
    intro e hm
    obtain ⟨e', he'⟩ := forall₂_exists_left he e (hp.mem_iff.1 hm)
    exact effect_takeField hstable he'
  have hfold : Agree SameRecord (es.foldlM (takeField p depth known) ([], r))
      (es'.foldlM (takeField p depth known) ([], r)) := by
    refine Agree.foldlM_reordered SameRecord.symm SameRecord.trans ?_ ?_ hp he (.refl _)
    · intro s s' e e' hs he
      exact agree_takeField hstable hs he
    · refine List.pairwise_of_forall_mem_list fun e hem f hfm s _ => ?_
      exact (heffect e hem).comm hcommute (heffect f hfm) s
  rw [fields_eq_foldlM, fields_eq_foldlM]
  exact hfold.map fun _ _ h => h.2

end Fields

theorem stable_record {known : List (FieldDecoder ρ)} (hstable : ∀ f ∈ known, Stable f.read)
    (hcommute : known.Pairwise FieldDecoder.Commutes) (name : String) (initial : ρ) :
    Stable (record name known initial) := by
  intro p n n' hn
  cases hn with
  | scalar s => exact (settled_empty initial p ("struct " ++ name) (.scalar s)).agree
  | @seq o ns ns' _ =>
    exact .fail (fails_refuse p ("struct " ++ name) (.seq o ns))
      (fails_refuse p ("struct " ++ name) (.seq o ns'))
  | map _ hp he => exact agree_descend _ fun depth => agree_fields hstable hcommute hp he initial
  | absent mark => exact (settled_empty initial p ("struct " ++ name) (.absent mark)).agree

end Decode

end ModuleCompiler
