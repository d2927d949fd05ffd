import Mathlib.Data.List.Perm.Basic
import ModuleCompiler.Proofs.Decode.Agreement

/-!
Trees that differ by the order in which the entries of their maps are written.
-/

namespace ModuleCompiler

namespace Yaml.Node

def keyText? (e : Node × Node) : Option String :=
  match e.1 with
  | .scalar s => some s.text
  | _ => none

/-- No text is the key of two entries. -/
def DistinctKeys (es : List (Node × Node)) : Prop := (es.filterMap keyText?).Nodup

instance (es : List (Node × Node)) : Decidable (DistinctKeys es) :=
  inferInstanceAs (Decidable (es.filterMap keyText?).Nodup)

theorem DistinctKeys.pairwise {es : List (Node × Node)} (h : DistinctKeys es) :
    es.Pairwise fun e f => ∀ s t, e.1 = .scalar s → f.1 = .scalar t → s.text ≠ t.text := by
  refine (List.pairwise_filterMap.1 h).imp fun {e f} hne s t hs ht => ?_
  exact hne _ (by rw [keyText?, hs]) _ (by rw [keyText?, ht])

mutual

/-- The same tree with the entries of its maps in another order, at any depth. It is whole, holds no
alias, and the keys of each of its maps are distinct. -/
inductive Reordered : Node → Node → Prop
  | scalar (s : Scalar) : Reordered (.scalar s) (.scalar s)
  | seq {o : Opening} {ns ns' : List Node} :
      List.Forall₂ Reordered ns ns' → Reordered (.seq o ns) (.seq o ns')
  | map {o : Opening} {es fs es' : List (Node × Node)} :
      DistinctKeys es → es.Perm fs → List.Forall₂ EntryReordered fs es' →
      Reordered (.map o es) (.map o es')
  | absent (mark : Mark) : Reordered (.absent mark) (.absent mark)

inductive EntryReordered : Node × Node → Node × Node → Prop
  | mk {k v k' v' : Node} :
      Reordered k k' → Reordered v v' → EntryReordered (k, v) (k', v')

end

/-- A tree in one of two orders. -/
def IsOrdered (n : Node) : Prop := ∃ n', n.Reordered n' ∨ n'.Reordered n

theorem IsOrdered.of_seq {o : Opening} {ns : List Node} (h : IsOrdered (.seq o ns)) :
    ∀ n ∈ ns, n.IsOrdered := by
  intro n hn
  obtain ⟨_, h | h⟩ := h
  · cases h with
    | seq hs =>
      obtain ⟨n', hn'⟩ := forall₂_exists_left hs n hn
      exact ⟨n', .inl hn'⟩
  · cases h with
    | seq hs =>
      obtain ⟨n', hn'⟩ := forall₂_exists_right hs n hn
      exact ⟨n', .inr hn'⟩

theorem IsOrdered.of_map {o : Opening} {es : List (Node × Node)}
    (h : IsOrdered (.map o es)) : ∀ e ∈ es, e.1.IsOrdered ∧ e.2.IsOrdered := by
  intro e he
  obtain ⟨_, h | h⟩ := h
  · cases h with
    | map _ hp hs =>
      obtain ⟨e', he'⟩ := forall₂_exists_left hs e (hp.mem_iff.1 he)
      cases he' with
      | mk hk hv => exact ⟨⟨_, .inl hk⟩, ⟨_, .inl hv⟩⟩
  · cases h with
    | map _ _ hs =>
      obtain ⟨e', he'⟩ := forall₂_exists_right hs e he
      cases he' with
      | mk hk hv => exact ⟨⟨_, .inr hk⟩, ⟨_, .inr hv⟩⟩

mutual

theorem IsOrdered.fault?_eq : ∀ n : Node, n.IsOrdered → n.fault? = none
  | .scalar _, _ => rfl
  | .seq _ ns, h => itemsFault?_eq ns h.of_seq
  | .map _ es, h => entriesFault?_eq es h.of_map
  | .alias .., _ => rfl
  | .absent _, _ => rfl
  | .broken _, ⟨_, h⟩ => by rcases h with h | h <;> cases h

theorem itemsFault?_eq : ∀ ns : List Node, (∀ n ∈ ns, n.IsOrdered) → itemsFault? ns = none
  | [], _ => rfl
  | n :: ns, h => by
    have hn := IsOrdered.fault?_eq n (h n (by simp))
    have hns := itemsFault?_eq ns fun m hm => h m (by simp [hm])
    simp [itemsFault?, hn, hns]

theorem entriesFault?_eq : ∀ es : List (Node × Node),
    (∀ e ∈ es, e.1.IsOrdered ∧ e.2.IsOrdered) → entriesFault? es = none
  | [], _ => rfl
  | (k, v) :: es, h => by
    have hk := IsOrdered.fault?_eq k (h (k, v) (by simp)).1
    have hv := IsOrdered.fault?_eq v (h (k, v) (by simp)).2
    have hes := entriesFault?_eq es fun e he => h e (by simp [he])
    simp [entriesFault?, hk, hv, hes]

end

mutual

/-- Is one tree the other in another order? Entries are matched greedily. -/
def reorders : Node → Node → Bool
  | .scalar s, .scalar t => s = t
  | .seq o ns, .seq o' ns' => o = o' && reordersItems ns ns'
  | .map o es, .map o' es' => o = o' && DistinctKeys es && reordersEntries es es'
  | .absent mark, .absent mark' => mark = mark'
  | _, _ => false

def reordersItems : List Node → List Node → Bool
  | [], [] => true
  | n :: ns, n' :: ns' => n.reorders n' && reordersItems ns ns'
  | _, _ => false

def reordersEntries : List (Node × Node) → List (Node × Node) → Bool
  | [], es' => es'.isEmpty
  | (k, v) :: es, es' =>
    es'.any (fun e => k.reorders e.1 && v.reorders e.2) &&
      reordersEntries es (es'.eraseP fun e => k.reorders e.1 && v.reorders e.2)

end

mutual

theorem Reordered.of_reorders : ∀ {n n' : Node}, n.reorders n' = true → n.Reordered n'
  | .scalar s, n', h => by
    cases n' with
    | scalar t =>
      simp only [reorders, decide_eq_true_eq] at h
      exact h ▸ .scalar s
    | _ => simp [reorders] at h
  | .seq o ns, n', h => by
    cases n' with
    | seq o' ns' =>
      simp only [reorders, Bool.and_eq_true, decide_eq_true_eq] at h
      exact h.1 ▸ .seq (forall₂_of_reordersItems h.2)
    | _ => simp [reorders] at h
  | .map o es, n', h => by
    cases n' with
    | map o' es' =>
      simp only [reorders, Bool.and_eq_true, decide_eq_true_eq] at h
      obtain ⟨⟨rfl, hkeys⟩, hes⟩ := h
      obtain ⟨fs, hp, he⟩ := List.forall₂_comp_perm_eq_perm_comp_forall₂ ▸
        forall₂_of_reordersEntries hes
      exact .map hkeys hp he
    | _ => simp [reorders] at h
  | .absent mark, n', h => by
    cases n' with
    | absent mark' =>
      simp only [reorders, decide_eq_true_eq] at h
      exact h ▸ .absent mark
    | _ => simp [reorders] at h
  | .alias .., n', h => by simp [reorders] at h
  | .broken _, n', h => by simp [reorders] at h

theorem forall₂_of_reordersItems : ∀ {ns ns' : List Node}, reordersItems ns ns' = true →
    List.Forall₂ Reordered ns ns'
  | [], ns', h => by
    cases ns' with
    | nil => exact .nil
    | cons => simp [reordersItems] at h
  | n :: ns, ns', h => by
    cases ns' with
    | nil => simp [reordersItems] at h
    | cons n' ns' =>
      simp only [reordersItems, Bool.and_eq_true] at h
      exact .cons (.of_reorders h.1) (forall₂_of_reordersItems h.2)

theorem forall₂_of_reordersEntries : ∀ {es es' : List (Node × Node)},
    reordersEntries es es' = true → Relation.Comp (List.Forall₂ EntryReordered) List.Perm es es'
  | [], es', h => by
    simp only [reordersEntries, List.isEmpty_iff] at h
    exact ⟨[], .nil, h ▸ .nil⟩
  | (k, v) :: es, es', h => by
    simp only [reordersEntries, Bool.and_eq_true, List.any_eq_true] at h
    obtain ⟨⟨e, he, hkv⟩, hrest⟩ := h
    obtain ⟨⟨k', v'⟩, before, after, _, hkv', rfl, herase⟩ := List.exists_of_eraseP
      (p := fun e => k.reorders e.1 && v.reorders e.2) he (by simpa using hkv)
    rw [herase] at hrest
    -- the entry that was found goes to the front of the others' order
    obtain ⟨fs, hes, hp⟩ := forall₂_of_reordersEntries hrest
    simp only [Bool.and_eq_true] at hkv'
    refine ⟨(k', v') :: fs, .cons (.mk (.of_reorders hkv'.1) (.of_reorders hkv'.2)) hes, ?_⟩
    exact (hp.cons _).trans List.perm_middle.symm

end

end Yaml.Node

end ModuleCompiler
