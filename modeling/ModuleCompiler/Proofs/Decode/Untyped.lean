import ModuleCompiler.Proofs.Decode.Parts

/-!
Values of no fixed type. Whatever lies in one of them was read as such a value, too, from the node
in the same place.
-/

namespace ModuleCompiler

open Yaml Decode

namespace Decode

variable {anchors : Anchors}

/-- What a node holds when no type is asked for. -/
inductive Holds : Node → Untyped → Prop
  | scalar {s : Scalar} {v : ScalarValue} : s.value = .ok v → Holds (.scalar s) (.scalar v)
  | seq {o : Opening} {ns : List Node} : Holds (.seq o ns) (.seq ns)
  | map {o : Opening} {es : List (Node × Node)} : Holds (.map o es) (.map es)
  | absent {mark : Mark} : Holds (.absent mark) .nothing

theorem untyped_scalar {p : Place} {s : Scalar} {v : ScalarValue}
    (htag : s.tag.bind Tag.variant? = none) (hs : s.value = .ok v) {expected : String}
    {make : Place → Untyped → Decode α} :
    untyped expected make p (.scalar s) = make (p.enter (.scalar s)) (.scalar v) := by
  simp only [untyped, resolve, pure_bind, tagOf?, htag, Option.isSome_none, Bool.false_eq_true,
    if_false, content, hs]

theorem Reads.content {p : Place} {expected : String} {n : Node} {u : Untyped}
    (h : Reads anchors (content p expected n) u) : Holds n u := by
  cases n with
  | scalar s =>
    unfold Decode.content at h
    dsimp only at h
    split at h
    · rename_i v hv
      exact h.eq_of_pure ▸ .scalar hv
    · exact absurd h (Place.fails_fail _ _).not_reads
  | seq o ns => exact h.eq_of_pure ▸ .seq
  | map o es => exact h.eq_of_pure ▸ .map
  | absent mark => exact h.eq_of_pure ▸ .absent
  | «alias» anchor mark => exact absurd h (fails_refuse p expected (.alias anchor mark)).not_reads
  | broken f => exact absurd h (fails_refuse p expected (.broken f)).not_reads

/-- What is read from an untyped node is made of what the node holds. -/
theorem Reads.untyped {p : Place} {n : Node} {expected : String} {make : Place → Untyped → Decode α}
    {a : α} (h : Reads anchors (untyped expected make p n) a) :
    ∃ m u, target? anchors n = some m ∧ Holds m u ∧ Reads anchors (make (p.enter m) u) a := by
  obtain ⟨m, hm, h⟩ := h.bind
  dsimp only at h
  split at h
  · exact absurd h (Place.fails_fail _ _).not_reads
  · obtain ⟨u, hu, h⟩ := h.bind
    exact ⟨m, u, hm.target, hu.content, h⟩

end Decode

namespace RawValue

variable {anchors : Anchors}

def child? : RawValue → Step → Option RawValue
  | .list vs, .index i => vs[i]?
  | .map es, .key name => Entries.get? name es
  | _, _ => none

/-- The value so many steps inside a value. -/
def at? : RawValue → List Step → Option RawValue
  | v, [] => some v
  | v, step :: steps => (v.child? step).bind (at? · steps)

/-- What is made of what a node holds. -/
inductive Makes (anchors : Anchors) : Untyped → RawValue → Prop
  | scalar {p : Place} {s : ScalarValue} {v : RawValue} : Reads anchors (ofScalarValue p s) v →
      Makes anchors (.scalar s) v
  | nothing : Makes anchors .nothing .absent
  | list {ns : List Node} {vs : List RawValue} : List.Forall₂ (ReadAs anchors decoder) ns vs →
      Makes anchors (.seq ns) (.list vs)
  | map {es : List (Node × Node)} {vs : Entries RawValue} :
      (∀ key, Option.Rel (ReadAs anchors decoder) (valueOf? anchors es key) (vs.get? key)) →
      Makes anchors (.map es) (.map vs)

theorem eq_id_of_reads {p : Place} {n : Node} {wrap : RawValue → RawValue}
    (h : Reads anchors (variantOf assembly p n) wrap) : wrap = id := by
  unfold variantOf at h
  split at h
  · exact h.eq_of_pure.symm
  · exact absurd h (Place.fails_fail _ _).not_reads

theorem readAs_of_any {depth : Nat} {n : Node} {v : RawValue}
    (h : ReadAs anchors (fun p => any assembly depth p.path) n v) : ReadAs anchors decoder n v := by
  obtain ⟨p, h⟩ := h
  exact ⟨⟨p.path, depth, p.mark⟩, h⟩

/-- Before anything is made of a node, an alias is followed and its tag is looked at. -/
theorem exists_holds {path : Path} {depth : Nat} {n : Node} {v : RawValue}
    {make : Node → (RawValue → RawValue) → Untyped → Decode RawValue}
    (h : Reads anchors (do
      let n ← resolve n
      let wrap ← variantOf assembly ⟨path, depth, n.mark⟩ n
      let u ← content ⟨path, depth, n.mark⟩ assembly.expected n
      make n wrap u) v) :
    ∃ m u, target? anchors n = some m ∧ Holds m u ∧ Reads anchors (make m id u) v := by
  obtain ⟨m, hm, h⟩ := h.bind
  obtain ⟨wrap, hwrap, h⟩ := h.bind
  obtain ⟨u, hu, h⟩ := h.bind
  obtain rfl := eq_id_of_reads hwrap
  exact ⟨m, u, hm.target, hu.content, h⟩

theorem makes_of_reads {depth : Nat} {path : Path} {n : Node} {v : RawValue}
    (h : Reads anchors (any assembly depth path n) v) :
    ∃ m u, target? anchors n = some m ∧ Holds m u ∧ Makes anchors u v := by
  cases depth with
  | zero =>
    obtain ⟨m, u, hm, hu, h⟩ := exists_holds h
    refine ⟨m, u, hm, hu, ?_⟩
    cases u with
    | scalar s =>
      obtain ⟨_, hv, rfl⟩ := Reads.map h
      exact .scalar hv
    | nothing => exact h.eq_of_pure ▸ .nothing
    -- no list or map opens on the last level
    | _ => exact absurd h (fails_fail _).not_reads
  | succ depth =>
    obtain ⟨m, u, hm, hu, h⟩ := exists_holds h
    refine ⟨m, u, hm, hu, ?_⟩
    cases u with
    | scalar s =>
      obtain ⟨_, hv, rfl⟩ := Reads.map h
      exact .scalar hv
    | nothing => exact h.eq_of_pure ▸ .nothing
    | seq ns =>
      obtain ⟨vs, hvs, rfl⟩ := Reads.map h
      exact .list (hvs.items.imp fun _ _ => readAs_of_any)
    | map es =>
      obtain ⟨vs, hvs, rfl⟩ := Reads.map h
      rw [entries_eq_foldlM] at hvs
      refine .map fun key => ?_
      refine Reads.foldlM_valueOf (P := fun o (vs : Entries RawValue) =>
        Option.Rel (ReadAs anchors decoder) o (vs.get? key)) ?_ .none hvs
      intro o s e s' hs he
      obtain ⟨k, w, hk, ⟨q, hw⟩, rfl⟩ := he.takeEntry
      change Reads anchors (some <$> any assembly depth q.path e.2) w at hw
      obtain ⟨w', hw', rfl⟩ := hw.map
      dsimp only
      rw [hk, Entries.get?_insert]
      exact rel_put (readAs_of_any ⟨q, hw'⟩) hs

theorem ofInt?_eq_some_iff {n : Int} {v : RawValue} :
    ofInt? n = some v ↔ ∃ i : Int64, i.toInt = n ∧ v = .int i := by
  have hword : isSignedWord 64 n = true ↔ -2 ^ 63 ≤ n ∧ n < 2 ^ 63 := by
    simp only [isSignedWord, Bool.and_eq_true, decide_eq_true_eq]
    rfl
  rw [ofInt?, Option.ite_none_right_eq_some, hword, Option.some.injEq]
  constructor
  · rintro ⟨⟨hle, hlt⟩, rfl⟩
    exact ⟨_, Int64.toInt_ofInt_of_le hle hlt, rfl⟩
  · rintro ⟨i, rfl, rfl⟩
    exact ⟨⟨i.le_toInt, i.toInt_lt⟩, congrArg _ i.ofInt_toInt⟩

/-- Scalars hold no values. -/
theorem child?_of_scalar {p : Place} {s : ScalarValue} {v : RawValue}
    (h : Reads anchors (ofScalarValue p s) v) (step : Step) : v.child? step = none := by
  cases s with
  | integer n minus =>
    unfold ofScalarValue at h
    dsimp only at h
    split at h
    · rename_i w hw
      obtain ⟨i, _, rfl⟩ := ofInt?_eq_some_iff.1 hw
      exact h.eq_of_pure ▸ rfl
    · exact absurd h (Place.fails_fail _ _).not_reads
  | _ => exact h.eq_of_pure ▸ rfl

theorem reads_child {n : Node} {v : RawValue} (h : ReadAs anchors decoder n v) (step : Step) :
    Option.Rel (ReadAs anchors decoder) (Decode.child? anchors n step) (v.child? step) := by
  obtain ⟨p, h⟩ := h
  obtain ⟨m, u, hm, hu, hv⟩ := makes_of_reads h
  cases hv with
  | scalar hv =>
    cases hu
    simp only [Decode.child?, hm, child?_of_scalar hv]
    exact .none
  | nothing =>
    cases hu
    simp only [Decode.child?, hm]
    exact .none
  | list hvs =>
    cases hu with
    | seq =>
      cases step with
      | index i =>
        simp only [Decode.child?, hm]
        exact rel_getElem? hvs i
      | _ =>
        simp only [Decode.child?, hm]
        exact .none
  | map hvs =>
    cases hu with
    | map =>
      cases step with
      | key name =>
        simp only [Decode.child?, hm]
        exact hvs name
      | _ =>
        simp only [Decode.child?, hm]
        exact .none

/-- A value lies in a value where its node lies in the node. -/
theorem reads_at {n : Node} {v : RawValue} (h : ReadAs anchors decoder n v) (steps : List Step) :
    Option.Rel (ReadAs anchors decoder) (Decode.at? anchors n steps) (v.at? steps) := by
  induction steps generalizing n v with
  | nil => exact .some h
  | cons step steps ih =>
    exact rel_bind (reads_child h step) fun _ _ => ih

end RawValue

end ModuleCompiler
