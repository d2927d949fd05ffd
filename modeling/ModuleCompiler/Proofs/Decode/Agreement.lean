import Mathlib.Data.List.Forall2
import ModuleCompiler.Decode.Basic

/-!
Computations of decoders that follow no alias. Such a computation yields one value or fails,
wherever it is started. Two of them agree if they yield related values or fail both, in whatever
way.
-/

namespace ModuleCompiler

theorem forall₂_exists_left {R : α → β → Prop} {as : List α} {bs : List β}
    (h : List.Forall₂ R as bs) : ∀ a ∈ as, ∃ b, R a b := by
  induction h with
  | nil => simp
  | cons hr _ ih =>
    intro a ha
    rcases List.mem_cons.1 ha with rfl | ha
    · exact ⟨_, hr⟩
    · exact ih a ha

theorem forall₂_exists_right {R : α → β → Prop} {as : List α} {bs : List β}
    (h : List.Forall₂ R as bs) : ∀ b ∈ bs, ∃ a, R a b :=
  forall₂_exists_left h.flip

namespace Decode

def Fails (x : Decode α) : Prop :=
  ∀ anchors count, ∃ e, (x.run anchors).run count = .error e

theorem fails_fail (e : DecodeError) : Fails (Decode.fail e : Decode α) :=
  fun _ _ => ⟨e, rfl⟩

theorem Place.fails_fail (p : Place) (problem : Problem) : Fails (p.fail problem : Decode α) :=
  Decode.fails_fail _

theorem not_fails_pure (a : α) : ¬ Fails (pure a : Decode α) := by
  intro h
  obtain ⟨e, he⟩ := h ⟨[], 0⟩ 0
  cases he

theorem pure_injective {a b : α} (h : (pure a : Decode α) = pure b) : a = b := by
  have hrun := congrArg (fun x : Decode α => (x.run ⟨[], 0⟩).run 0) h
  exact congrArg Prod.fst (Except.ok.inj hrun)

theorem Fails.bind {x : Decode α} (h : Fails x) (f : α → Decode β) : Fails (x >>= f) := by
  intro anchors count
  obtain ⟨e, he⟩ := h anchors count
  refine ⟨e, ?_⟩
  simp only [ReaderT.run_bind, StateT.run_bind, he]
  rfl

/-- Both yield values that are related, or both fail. -/
inductive Agree (R : α → α → Prop) (x y : Decode α) : Prop
  | yield {a b : α} : R a b → x = pure a → y = pure b → Agree R x y
  | fail : Fails x → Fails y → Agree R x y

def Settled (x : Decode α) : Prop := (∃ a, x = pure a) ∨ Fails x

theorem settled_pure (a : α) : Settled (pure a : Decode α) := .inl ⟨a, rfl⟩

theorem Fails.settled {x : Decode α} (h : Fails x) : Settled x := .inr h

theorem Settled.bind {x : Decode α} {f : α → Decode β} (hx : Settled x)
    (hf : ∀ a, Settled (f a)) : Settled (x >>= f) := by
  rcases hx with ⟨a, rfl⟩ | hx
  · rw [pure_bind]
    exact hf a
  · exact .inr (hx.bind f)

theorem Settled.bind_fails {x : Decode α} {f : α → Decode β} (hx : Settled x)
    (hf : ∀ a, Fails (f a)) : Fails (x >>= f) := by
  rcases hx with ⟨a, rfl⟩ | hx
  · rw [pure_bind]
    exact hf a
  · exact hx.bind f

theorem Settled.map {x : Decode α} (hx : Settled x) (f : α → β) : Settled (f <$> x) := by
  rw [map_eq_pure_bind]
  exact hx.bind fun _ => settled_pure _

theorem Settled.ite {c : Prop} [Decidable c] {x y : Decode α} (hx : Settled x)
    (hy : Settled y) : Settled (if c then x else y) := by
  split
  · exact hx
  · exact hy

theorem Settled.agree {x : Decode α} (h : Settled x) : Agree Eq x x := by
  rcases h with ⟨a, ha⟩ | h
  · exact .yield rfl ha ha
  · exact .fail h h

section Agree

variable {R : α → α → Prop} {S : β → β → Prop} {x y z : Decode α}

theorem Agree.settled (h : Agree R x y) : Settled x := by
  cases h with
  | yield _ hx _ => exact .inl ⟨_, hx⟩
  | fail hx _ => exact .inr hx

theorem Agree.bind {f g : α → Decode β} (h : Agree R x y)
    (hfg : ∀ a b, R a b → Agree S (f a) (g b)) : Agree S (x >>= f) (y >>= g) := by
  cases h with
  | yield hab hx hy =>
    rw [hx, hy, pure_bind, pure_bind]
    exact hfg _ _ hab
  | fail hx hy => exact .fail (hx.bind f) (hy.bind g)

theorem Agree.map {f g : α → β} (h : Agree R x y) (hfg : ∀ a b, R a b → S (f a) (g b)) :
    Agree S (f <$> x) (g <$> y) := by
  rw [map_eq_pure_bind, map_eq_pure_bind]
  exact h.bind fun a b hab => .yield (hfg a b hab) rfl rfl

theorem Agree.symm (hsymm : ∀ a b, R a b → R b a) (h : Agree R x y) : Agree R y x := by
  cases h with
  | yield hab hx hy => exact .yield (hsymm _ _ hab) hy hx
  | fail hx hy => exact .fail hy hx

theorem Agree.trans (htrans : ∀ a b c, R a b → R b c → R a c) (h : Agree R x y)
    (h' : Agree R y z) : Agree R x z := by
  cases h with
  | yield hab hx hy =>
    cases h' with
    | yield hbc hy' hz =>
      cases pure_injective (hy.symm.trans hy')
      exact .yield (htrans _ _ _ hab hbc) hx hz
    | fail hy' _ => exact absurd (hy ▸ hy') (not_fails_pure _)
  | fail hx hy =>
    cases h' with
    | yield _ hy' _ => exact absurd (hy' ▸ hy) (not_fails_pure _)
    | fail _ hz => exact .fail hx hz

end Agree

section Fold

variable {S : σ → σ → Prop} {f : σ → α → Decode σ}

theorem Agree.foldlM_congr {g : σ → α → Decode σ} {R : α → α → Prop} {as bs : List α}
    (hfg : ∀ s s' a b, S s s' → R a b → Agree S (f s a) (g s' b)) (h : List.Forall₂ R as bs)
    {s s' : σ} (hs : S s s') : Agree S (as.foldlM f s) (bs.foldlM g s') := by
  induction h generalizing s s' with
  | nil => exact .yield hs rfl rfl
  | cons hab _ ih =>
    rw [List.foldlM_cons, List.foldlM_cons]
    exact (hfg _ _ _ _ hs hab).bind fun _ _ hs' => ih hs'

/-- Steps that commute up to a relation of states may be taken in any order. -/
theorem Agree.foldlM_perm (hsymm : ∀ s s', S s s' → S s' s)
    (htrans : ∀ s s' s'', S s s' → S s' s'' → S s s'') {as bs : List α} (h : as.Perm bs)
    (hf : ∀ a ∈ as, ∀ s s', S s s' → Agree S (f s a) (f s' a))
    (hc : as.Pairwise fun a b => ∀ s, S s s →
      Agree S (f s a >>= (f · b)) (f s b >>= (f · a))) {s s' : σ} (hs : S s s') :
    Agree S (as.foldlM f s) (bs.foldlM f s') := by
  -- the two runs are in related states, not in the same one, once an exchange has been made
  induction h generalizing s s' with
  | nil => exact .yield hs rfl rfl
  | cons a _ ih =>
    rw [List.foldlM_cons, List.foldlM_cons]
    refine (hf a (by simp) s s' hs).bind fun _ _ hs' => ?_
    exact ih (fun b hb => hf b (List.mem_cons_of_mem _ hb)) (List.pairwise_cons.1 hc).2 hs'
  | swap a b l =>
    have hswap := (List.pairwise_cons.1 hc).1 a (by simp) s (htrans _ _ _ hs (hsymm _ _ hs))
    have hmove : Agree S (f s a >>= (f · b)) (f s' a >>= (f · b)) :=
      (hf a (by simp) s s' hs).bind fun t t' ht => hf b (by simp) t t' ht
    have hrest : List.Forall₂ (fun c c' => c = c' ∧ c ∈ l) l l :=
      List.forall₂_same.2 fun c hm => ⟨rfl, hm⟩
    simp only [List.foldlM_cons, ← bind_assoc]
    refine (hswap.trans htrans hmove).bind fun t t' ht => foldlM_congr ?_ hrest ht
    rintro u u' c _ hu ⟨rfl, hm⟩
    exact hf c (by simp [hm]) u u' hu
  | trans h₁ h₂ ih₁ ih₂ =>
    have hc' := (h₁.pairwise_iff fun hab s hself => (hab s hself).symm hsymm).1 hc
    have hf' := fun a ha => hf a (h₁.mem_iff.2 ha)
    exact (ih₁ hf hc (htrans _ _ _ hs (hsymm _ _ hs))).trans htrans (ih₂ hf' hc' hs)

/-- Steps on related things that are listed in another order come to the same. -/
theorem Agree.foldlM_reordered {R : α → α → Prop} (hsymm : ∀ s s', S s s' → S s' s)
    (htrans : ∀ s s' s'', S s s' → S s' s'' → S s s'')
    (hf : ∀ s s' a b, S s s' → R a b → Agree S (f s a) (f s' b)) {as bs cs : List α}
    (hc : as.Pairwise fun a b => ∀ s, S s s →
      Agree S (f s a >>= (f · b)) (f s b >>= (f · a)))
    (hp : as.Perm bs) (h : List.Forall₂ R bs cs) {s : σ} (hs : S s s) :
    Agree S (as.foldlM f s) (cs.foldlM f s) := by
  have hperm : Agree S (as.foldlM f s) (bs.foldlM f s) := by
    refine foldlM_perm hsymm htrans hp (fun a ha t t' ht => ?_) hc hs
    obtain ⟨b, hab⟩ := forall₂_exists_left h a (hp.mem_iff.1 ha)
    have hself := htrans _ _ _ (hsymm _ _ ht) ht
    exact (hf t t' a b ht hab).trans htrans ((hf t' t' a b hself hab).symm hsymm)
  exact hperm.trans htrans (foldlM_congr hf h hs)

end Fold

end Decode

end ModuleCompiler
