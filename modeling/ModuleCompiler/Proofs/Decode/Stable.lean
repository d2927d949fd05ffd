import ModuleCompiler.Decode.Value
import ModuleCompiler.Proofs.Decode.Agreement
import ModuleCompiler.Proofs.Decode.Reordered

/-!
Decoders that do not see the order of entries: of the two orders of a tree, they read the same value
or none.
-/

namespace ModuleCompiler

open Yaml

namespace Decode

def Stable (decoder : Decoder α) : Prop :=
  ∀ (p : Place) (n n' : Node), n.Reordered n' → Agree Eq (decoder p n) (decoder p n')

theorem resolve_of_reordered {n n' : Node} (h : n.Reordered n') :
    resolve n = pure n ∧ resolve n' = pure n' := by
  cases h <;> exact ⟨rfl, rfl⟩

theorem Stable.map {decoder : Decoder α} (h : Stable decoder) (f : α → β) :
    Stable fun p n => f <$> decoder p n :=
  fun p n n' hn => (h p n n' hn).map fun _ _ => congrArg f

theorem Stable.bind {decoder : Decoder α} (h : Stable decoder) {f : α → Decode β}
    (hf : ∀ a, Settled (f a)) : Stable fun p n => decoder p n >>= f := by
  intro p n n' hn
  refine (h p n n' hn).bind ?_
  rintro a _ rfl
  exact (hf a).agree

theorem fails_refuse (p : Place) (expected : String) (n : Node) :
    Fails (refuse p expected n : Decode α) := by
  cases n with
  | scalar s =>
    simp only [refuse]
    split <;> exact Decode.fails_fail _
  | _ => exact Decode.fails_fail _

/-- Decoders that take scalars only. -/
theorem Stable.of_scalar {decoder : Decoder α} {expected : String}
    (hs : ∀ p s, Settled (decoder p (.scalar s)))
    (hseq : ∀ p o ns, decoder p (.seq o ns) = refuse p expected (.seq o ns))
    (hmap : ∀ p o es, decoder p (.map o es) = refuse p expected (.map o es))
    (habsent : ∀ p mark, decoder p (.absent mark) = refuse p expected (.absent mark)) :
    Stable decoder := by
  intro p n n' hn
  cases hn with
  | scalar s => exact (hs p s).agree
  | seq _ =>
    rw [hseq, hseq]
    exact .fail (fails_refuse _ _ _) (fails_refuse _ _ _)
  | map _ _ _ =>
    rw [hmap, hmap]
    exact .fail (fails_refuse _ _ _) (fails_refuse _ _ _)
  | absent =>
    rw [habsent]
    exact .fail (fails_refuse _ _ _) (fails_refuse _ _ _)

theorem stable_textTo (expected : String) {make : Place → String → Decode α}
    (hmake : ∀ p s, Settled (make p s)) : Stable (textTo expected make) :=
  .of_scalar (fun _ _ => hmake _ _) (fun _ _ _ => rfl) (fun _ _ _ => rfl) fun _ _ => rfl

theorem stable_textAs (expected : String) : Stable (textAs expected) :=
  stable_textTo expected fun _ s => settled_pure s

theorem stable_text : Stable text := stable_textAs _

theorem stable_bool : Stable bool := by
  refine .of_scalar (fun p s => ?_) (fun _ _ _ => rfl) (fun _ _ _ => rfl) fun _ _ => rfl
  simp only [bool, resolve, pure_bind]
  split
  · exact settled_pure _
  · exact (fails_refuse _ _ _).settled

theorem stable_unsigned (bits : Nat) : Stable (unsigned bits) := by
  refine .of_scalar (fun p s => ?_) (fun _ _ _ => rfl) (fun _ _ _ => rfl) fun _ _ => rfl
  simp only [unsigned, resolve, pure_bind]
  split
  · exact (settled_pure _).ite ((Place.fails_fail _ _).settled.ite (fails_refuse _ _ _).settled)
  · exact (fails_refuse _ _ _).settled

theorem stable_uint16 : Stable uint16 := (stable_unsigned 16).map _

theorem stable_uint32 : Stable uint32 := (stable_unsigned 32).map _

theorem Stable.option {decoder : Decoder α} (h : Stable decoder) :
    Stable (option decoder) := by
  intro p n n' hn
  have hsome := h p n n' hn
  -- only a scalar can be null, and it is the same in both orders
  cases hn with
  | scalar s =>
    have hread : ∀ absent : Bool, Settled (if absent then pure none
        else some <$> decoder p (.scalar s)) :=
      fun _ => (settled_pure _).ite (hsome.settled.map some)
    refine Settled.agree ?_
    unfold Decode.option
    rw [(resolve_of_reordered (.scalar s)).1, pure_bind]
    dsimp only
    split
    · exact (settled_pure _).bind hread
    · split
      · exact (settled_pure _).bind hread
      · split
        · exact (settled_pure _).bind hread
        · split
          · exact (settled_pure _).bind hread
          · exact (fails_fail _).settled.bind hread
  | seq _ => exact hsome.map fun _ _ => congrArg some
  | map _ _ _ => exact hsome.map fun _ _ => congrArg some
  | absent => exact .yield rfl rfl rfl

theorem agree_descend {R : α → α → Prop} {f g : Nat → Decode α} (p : Place)
    (h : ∀ depth, Agree R (f depth) (g depth)) : Agree R (descend p f) (descend p g) := by
  unfold descend
  split
  · exact .fail (fails_fail _) (fails_fail _)
  · exact h _

theorem Stable.items {decoder : Decoder α} (h : Stable decoder) (p : Place) (depth i : Nat)
    {ns ns' : List Node} (hn : List.Forall₂ Node.Reordered ns ns') :
    Agree Eq (items p depth decoder i ns) (items p depth decoder i ns') := by
  induction hn generalizing i with
  | nil => exact .yield rfl rfl rfl
  | cons hn _ ih =>
    refine (h _ _ _ hn).bind ?_
    rintro a _ rfl
    refine (ih (i + 1)).bind ?_
    rintro as _ rfl
    exact (settled_pure _).agree

theorem settled_empty (a : α) (p : Place) (expected : String) (n : Node) :
    Settled (if isEmptyCollection n then pure a else refuse p expected n) :=
  (settled_pure a).ite (fails_refuse p expected n).settled

theorem Stable.list {decoder : Decoder α} (h : Stable decoder) : Stable (list decoder) := by
  intro p n n' hn
  cases hn with
  | scalar s => exact (settled_empty [] p "a sequence" (.scalar s)).agree
  | seq hn => exact agree_descend _ fun depth => h.items _ depth 0 hn
  | @map o es fs es' _ _ _ =>
    exact .fail (fails_refuse p "a sequence" (.map o es))
      (fails_refuse p "a sequence" (.map o es'))
  | absent mark => exact (settled_empty [] p "a sequence" (.absent mark)).agree

/-- What an untyped node holds, up to the order of entries. -/
inductive Untyped.Reordered : Untyped → Untyped → Prop
  | scalar (v : ScalarValue) : Reordered (.scalar v) (.scalar v)
  | seq {ns ns' : List Node} :
      List.Forall₂ Node.Reordered ns ns' → Reordered (.seq ns) (.seq ns')
  | map {es fs es' : List (Node × Node)} :
      Node.DistinctKeys es → es.Perm fs → List.Forall₂ Node.EntryReordered fs es' →
      Reordered (.map es) (.map es')
  | nothing : Reordered .nothing .nothing

theorem mark_of_reordered {n n' : Node} (h : n.Reordered n') : n.mark = n'.mark := by
  cases h <;> rfl

theorem tagOf?_of_reordered {n n' : Node} (h : n.Reordered n') : tagOf? n = tagOf? n' := by
  cases h <;> rfl

theorem agree_content {n n' : Node} (h : n.Reordered n') (p : Place) (expected : String) :
    Agree Untyped.Reordered (content p expected n) (content p expected n') := by
  cases h with
  | scalar s =>
    simp only [content]
    split
    · exact .yield (.scalar _) rfl rfl
    · exact .fail (Place.fails_fail _ _) (Place.fails_fail _ _)
  | seq hn => exact .yield (.seq hn) rfl rfl
  | map hd hp he => exact .yield (.map hd hp he) rfl rfl
  | absent => exact .yield .nothing rfl rfl

/-- It is enough that the same is made of both orders of what a node holds. -/
theorem stable_untyped {expected : String} {make : Place → Untyped → Decode α}
    (h : ∀ p u u', Untyped.Reordered u u' → Agree Eq (make p u) (make p u')) :
    Stable (untyped expected make) := by
  intro p n n' hn
  unfold untyped
  rw [(resolve_of_reordered hn).1, (resolve_of_reordered hn).2, pure_bind, pure_bind,
    tagOf?_of_reordered hn, Place.enter, Place.enter, mark_of_reordered hn]
  dsimp only
  split
  · exact .fail (Place.fails_fail _ _) (Place.fails_fail _ _)
  · exact (agree_content hn _ expected).bind fun u u' hu => h _ u u' hu

theorem fails_refuseUntyped (p : Place) (expected : String) (u : Untyped) :
    Fails (refuseUntyped p expected u : Decode α) := by
  cases u <;> exact Place.fails_fail _ _

/-- Decoders of scalars of any type. -/
theorem Stable.of_untyped {expected : String} {make : Place → Untyped → Decode α}
    (hs : ∀ p v, Settled (make p (.scalar v)))
    (hseq : ∀ p ns, make p (.seq ns) = refuseUntyped p expected (.seq ns))
    (hmap : ∀ p es, make p (.map es) = refuseUntyped p expected (.map es))
    (hnothing : ∀ p, make p .nothing = refuseUntyped p expected .nothing) :
    Stable (untyped expected make) := by
  refine stable_untyped fun p u u' hu => ?_
  cases hu with
  | scalar v => exact (hs p v).agree
  | seq _ =>
    rw [hseq, hseq]
    exact .fail (fails_refuseUntyped _ _ _) (fails_refuseUntyped _ _ _)
  | map _ _ _ =>
    rw [hmap, hmap]
    exact .fail (fails_refuseUntyped _ _ _) (fails_refuseUntyped _ _ _)
  | nothing =>
    rw [hnothing]
    exact .fail (fails_refuseUntyped _ _ _) (fails_refuseUntyped _ _ _)

end Decode

open Decode

theorem PortSpec.stable_decoder : Stable PortSpec.decoder := by
  refine Stable.of_untyped (fun p v => ?_) (fun _ _ => rfl) (fun _ _ => rfl) fun _ => rfl
  cases v with
  | integer k minus =>
    exact (settled_pure _).ite
      ((Place.fails_fail _ _).settled.ite (fails_refuseUntyped _ _ _).settled)
  | text s =>
    dsimp only
    split
    · exact settled_pure _
    · exact (Place.fails_fail _ _).settled
  | _ => exact (fails_refuseUntyped p PortSpec.expected _).settled

theorem stable_byteSizeDecoder : Stable byteSizeDecoder := by
  refine Stable.of_untyped (fun p v => ?_) (fun _ _ => rfl) (fun _ _ => rfl) fun _ => rfl
  cases v with
  | integer k minus =>
    exact (settled_pure _).ite
      ((Place.fails_fail _ _).settled.ite (fails_refuseUntyped _ _ _).settled)
  | text s =>
    dsimp only
    split
    · exact settled_pure _
    · exact (Place.fails_fail _ _).settled
  | _ => exact (fails_refuseUntyped p byteSizeExpected _).settled

theorem stable_fileModeDecoder : Stable fileModeDecoder := by
  refine stable_textTo _ fun p s => ?_
  split
  · exact settled_pure _
  · exact (Place.fails_fail _ _).settled

theorem Duration.stable_decoder : Stable Duration.decoder := by
  refine stable_textTo _ fun p s => ?_
  split
  · exact settled_pure _
  · exact (Place.fails_fail _ _).settled

theorem stable_commandDecoder : Stable commandDecoder := by
  refine stable_untyped fun p u u' hu => ?_
  cases hu with
  | scalar v =>
    cases v with
    | text s => exact (settled_pure _).agree
    | null => exact (settled_pure _).agree
    | _ => exact (fails_refuseUntyped p commandExpected _).settled.agree
  | seq hn => exact agree_descend p fun depth => (stable_textAs _).items p depth 0 hn
  | @map es fs es' _ _ _ =>
    exact .fail (fails_refuseUntyped p commandExpected (.map es))
      (fails_refuseUntyped p commandExpected (.map es'))
  | nothing => exact (fails_refuseUntyped p commandExpected .nothing).settled.agree

end ModuleCompiler
