import ModuleCompiler.Decode.Value
import ModuleCompiler.Proofs.Decode.Agreement

/-!
Decoders of trees without aliases. They never ask what stands behind an alias or how many may be
followed, so the node alone decides what they read or how they fail.
-/

namespace ModuleCompiler

open Yaml

namespace Yaml.Node

mutual

def aliasFree : Node → Bool
  | .alias .. => false
  | .seq _ ns => itemsAliasFree ns
  | .map _ es => entriesAliasFree es
  | .scalar _ => true
  | .absent _ => true
  | .broken _ => true

def itemsAliasFree : List Node → Bool
  | [] => true
  | n :: ns => n.aliasFree && itemsAliasFree ns

def entriesAliasFree : List (Node × Node) → Bool
  | [] => true
  | (k, v) :: es => k.aliasFree && v.aliasFree && entriesAliasFree es

end

theorem aliasFree_seq {o : Opening} {ns : List Node} (h : (seq o ns).aliasFree = true) :
    ∀ n ∈ ns, n.aliasFree = true := by
  rw [aliasFree] at h
  induction ns with
  | nil => simp
  | cons n ns ih =>
    rw [itemsAliasFree, Bool.and_eq_true] at h
    intro m hm
    rcases List.mem_cons.1 hm with rfl | hm
    · exact h.1
    · exact ih h.2 m hm

theorem aliasFree_map {o : Opening} {es : List (Node × Node)}
    (h : (map o es).aliasFree = true) :
    ∀ e ∈ es, e.1.aliasFree = true ∧ e.2.aliasFree = true := by
  rw [aliasFree] at h
  induction es with
  | nil => simp
  | cons e es ih =>
    rw [entriesAliasFree, Bool.and_eq_true, Bool.and_eq_true] at h
    intro f hf
    rcases List.mem_cons.1 hf with rfl | hf
    · exact h.1
    · exact ih h.2 f hf

end Yaml.Node

namespace Decode

/-- A value or an error, whatever the rest of the document. -/
inductive Decided (x : Decode α) : Prop
  | yields (a : α) : x = pure a → Decided x
  | fails (e : DecodeError) : x = Decode.fail e → Decided x

section Decided

variable {x y : Decode α}

theorem decided_pure (a : α) : Decided (pure a : Decode α) := .yields a rfl

theorem decided_fail (e : DecodeError) : Decided (Decode.fail e : Decode α) := .fails e rfl

theorem fail_bind (e : DecodeError) (f : α → Decode β) :
    (Decode.fail e >>= f) = Decode.fail e := rfl

theorem Decided.bind {f : α → Decode β} (hx : Decided x) (hf : ∀ a, Decided (f a)) :
    Decided (x >>= f) := by
  cases hx with
  | yields a ha =>
    rw [ha, pure_bind]
    exact hf a
  | fails e he =>
    rw [he, fail_bind]
    exact decided_fail e

theorem Decided.map (hx : Decided x) (f : α → β) : Decided (f <$> x) := by
  rw [map_eq_pure_bind]
  exact hx.bind fun _ => decided_pure _

theorem Decided.ite {c : Prop} [Decidable c] (hx : Decided x) (hy : Decided y) :
    Decided (if c then x else y) := by
  split
  · exact hx
  · exact hy

theorem decided_descend {f : Nat → Decode α} (p : Place) (hf : ∀ depth, Decided (f depth)) :
    Decided (descend p f) := by
  unfold descend
  split
  · exact decided_fail _
  · exact hf _

theorem decided_refuse (p : Place) (expected : String) (n : Node) :
    Decided (refuse p expected n : Decode α) := by
  cases n with
  | scalar s =>
    simp only [refuse]
    split <;> exact decided_fail _
  | _ => exact decided_fail _

theorem decided_refuseUntyped (p : Place) (expected : String) (u : Untyped) :
    Decided (refuseUntyped p expected u : Decode α) := by
  cases u <;> exact decided_fail _

theorem decided_ignore (n : Node) : Decided (ignore n) := by
  unfold ignore
  split
  · exact decided_fail _
  · exact decided_pure _

end Decided

/-- Trees without aliases decide what is read from them. -/
def Steady (decoder : Decoder α) : Prop :=
  ∀ (p : Place) (n : Node), n.aliasFree = true → Decided (decoder p n)

section Scalars

/-- A node that is no alias stands for itself, or breaks off. -/
theorem resolve_cases {n : Node} (h : n.aliasFree = true) :
    resolve n = pure n ∨ ∃ f, resolve n = Decode.fail (.ofFault f) := by
  cases n with
  | scalar _ => exact .inl rfl
  | seq _ _ => exact .inl rfl
  | map _ _ => exact .inl rfl
  | absent _ => exact .inl rfl
  | broken f => exact .inr ⟨f, rfl⟩
  | _ => simp [Node.aliasFree] at h

/-- It is enough to look at the node itself. -/
theorem decided_resolve {n : Node} (h : n.aliasFree = true) {f : Node → Decode α}
    (hf : Decided (f n)) : Decided (resolve n >>= f) := by
  rcases resolve_cases h with hn | ⟨fault, hn⟩
  · rw [hn, pure_bind]
    exact hf
  · rw [hn, fail_bind]
    exact decided_fail _

theorem Steady.map {decoder : Decoder α} (h : Steady decoder) (f : α → β) :
    Steady fun p n => f <$> decoder p n :=
  fun p n hn => (h p n hn).map f

theorem Steady.bind {decoder : Decoder α} (h : Steady decoder) {f : α → Decode β}
    (hf : ∀ a, Decided (f a)) : Steady fun p n => decoder p n >>= f :=
  fun p n hn => (h p n hn).bind hf

theorem steady_textTo (expected : String) {make : Place → String → Decode α}
    (hmake : ∀ p s, Decided (make p s)) : Steady (textTo expected make) := by
  intro p n hn
  refine decided_resolve hn ?_
  cases n with
  | scalar s => exact hmake _ _
  | _ => exact decided_refuse _ _ _

theorem steady_textAs (expected : String) : Steady (textAs expected) :=
  steady_textTo expected fun _ _ => decided_pure _

theorem steady_text : Steady text := steady_textAs _

theorem steady_bool : Steady bool := by
  intro p n hn
  refine decided_resolve hn ?_
  cases n with
  | scalar s =>
    dsimp only
    split
    · exact decided_pure _
    · exact decided_refuse _ _ _
  | _ => exact decided_refuse _ _ _

theorem steady_unsigned (bits : Nat) : Steady (unsigned bits) := by
  intro p n hn
  refine decided_resolve hn ?_
  cases n with
  | scalar s =>
    dsimp only
    split
    · exact (decided_pure _).ite ((decided_fail _).ite (decided_refuse _ _ _))
    · exact decided_refuse _ _ _
  | _ => exact decided_refuse _ _ _

theorem steady_uint16 : Steady uint16 := (steady_unsigned 16).map _

theorem steady_uint32 : Steady uint32 := (steady_unsigned 32).map _

theorem Steady.option {decoder : Decoder α} (h : Steady decoder) :
    Steady (option decoder) := by
  intro p n hn
  have hread : ∀ absent : Bool, Decided (if absent then pure none else some <$> decoder p n) :=
    fun _ => (decided_pure _).ite ((h p n hn).map some)
  refine decided_resolve hn ?_
  cases n with
  | scalar s =>
    dsimp only
    split
    · exact (decided_pure _).bind hread
    · split
      · exact (decided_pure _).bind hread
      · split
        · exact (decided_pure _).bind hread
        · split
          · exact (decided_pure _).bind hread
          · exact (decided_fail _).bind hread
  | _ => exact (decided_pure _).bind hread

end Scalars

section Collections

theorem decided_empty (a : α) (p : Place) (expected : String) (n : Node) :
    Decided (if isEmptyCollection n then pure a else refuse p expected n) :=
  (decided_pure a).ite (decided_refuse p expected n)

theorem Steady.items {decoder : Decoder α} (h : Steady decoder) (p : Place) (depth i : Nat)
    {ns : List Node} (hn : ∀ n ∈ ns, n.aliasFree = true) :
    Decided (items p depth decoder i ns) := by
  induction ns generalizing i with
  | nil => exact decided_pure _
  | cons n ns ih =>
    refine (h _ _ (hn n (by simp))).bind fun a => ?_
    exact (ih (i + 1) fun m hm => hn m (by simp [hm])).bind fun as => decided_pure _

theorem Steady.list {decoder : Decoder α} (h : Steady decoder) : Steady (list decoder) := by
  intro p n hn
  refine decided_resolve hn ?_
  cases n with
  | seq o ns => exact decided_descend _ fun depth => h.items _ depth 0 (Node.aliasFree_seq hn)
  | _ => exact decided_empty [] p "a sequence" _

theorem decided_entries {decoder : String → Decoder α} (h : ∀ key, Steady (decoder key))
    (p : Place) (depth : Nat) (put : String → α → σ → σ) (acc : σ) {es : List (Node × Node)}
    (he : ∀ e ∈ es, e.1.aliasFree = true ∧ e.2.aliasFree = true) :
    Decided (entries p depth decoder put acc es) := by
  induction es generalizing acc with
  | nil => exact decided_pure _
  | cons e es ih =>
    have hentry := he e (by simp)
    refine (steady_text _ _ hentry.1).bind fun key => ?_
    refine (h key _ _ hentry.2).bind fun value => ?_
    exact ih _ fun f hf => he f (by simp [hf])

theorem Steady.table {decoder : Decoder α} (h : Steady decoder) :
    Steady (table decoder) := by
  intro p n hn
  refine decided_resolve hn ?_
  cases n with
  | map o es =>
    exact decided_descend _ fun depth =>
      decided_entries (fun _ => h) _ depth _ ∅ (Node.aliasFree_map hn)
  | _ => exact decided_empty ∅ p "a map" _

theorem decided_fields {known : List (FieldDecoder ρ)} (h : ∀ f ∈ known, Steady f.read)
    (p : Place) (depth : Nat) (seen : List String) (r : ρ) {es : List (Node × Node)}
    (he : ∀ e ∈ es, e.1.aliasFree = true ∧ e.2.aliasFree = true) :
    Decided (fields p depth known seen r es) := by
  induction es generalizing seen r with
  | nil => exact decided_pure _
  | cons e es ih =>
    have hentry := he e (by simp)
    have hrest := fun seen r => ih seen r fun f hf => he f (by simp [hf])
    refine (steady_textAs _ _ _ hentry.1).bind fun key => ?_
    cases hfind : known.find? (·.isNamed key) with
    | none => exact (decided_ignore e.2).bind fun _ => hrest seen r
    | some f =>
      have hf := h f (List.mem_of_find?_eq_some hfind)
      exact (decided_fail _).ite ((hf _ _ hentry.2).bind fun store => hrest _ (store r))

theorem steady_record {known : List (FieldDecoder ρ)} (h : ∀ f ∈ known, Steady f.read)
    (name : String) (initial : ρ) : Steady (record name known initial) := by
  intro p n hn
  refine decided_resolve hn ?_
  cases n with
  | map o es =>
    exact decided_descend _ fun depth =>
      decided_fields h _ depth [] initial (Node.aliasFree_map hn)
  | _ => exact decided_empty initial p ("struct " ++ name) _

end Collections

section Untyped

/-- What an untyped node holds has no alias in it. -/
inductive Untyped.AliasFree : Untyped → Prop
  | scalar (v : ScalarValue) : AliasFree (.scalar v)
  | seq {ns : List Node} : (∀ n ∈ ns, n.aliasFree = true) → AliasFree (.seq ns)
  | map {es : List (Node × Node)} :
      (∀ e ∈ es, e.1.aliasFree = true ∧ e.2.aliasFree = true) → AliasFree (.map es)
  | nothing : AliasFree .nothing

theorem decided_content {n : Node} (h : n.aliasFree = true) (p : Place) (expected : String)
    {f : Untyped → Decode α} (hf : ∀ u, u.AliasFree → Decided (f u)) :
    Decided (content p expected n >>= f) := by
  cases n with
  | scalar s =>
    simp only [content]
    split
    · exact hf _ (.scalar _)
    · exact decided_fail _
  | seq o ns => exact hf _ (.seq (Node.aliasFree_seq h))
  | map o es => exact hf _ (.map (Node.aliasFree_map h))
  | absent _ => exact hf _ .nothing
  | _ => exact decided_fail _

theorem steady_untyped {expected : String} {make : Place → Untyped → Decode α}
    (hmake : ∀ p u, u.AliasFree → Decided (make p u)) : Steady (untyped expected make) := by
  intro p n hn
  refine decided_resolve hn ?_
  dsimp only
  split
  · exact decided_fail _
  · exact decided_content hn _ expected (hmake _)

variable {r : Assembly α}

theorem decided_variantOf (p : Place) (n : Node) : Decided (variantOf r p n) := by
  unfold variantOf
  split
  · exact decided_pure _
  · split
    · exact decided_fail _
    · exact decided_pure _

/-- Nodes of any type, level by level. -/
theorem steady_any (hscalar : ∀ p v, Decided (r.scalar p v))
    (hlook : ∀ key look, r.dropped key = some look → Steady look) (depth : Nat) :
    Steady fun p n => any r depth p.path n := by
  induction depth with
  | zero =>
    intro p n hn
    simp only [any]
    refine decided_resolve hn ((decided_variantOf _ _).bind fun wrap => ?_)
    refine decided_content hn _ _ fun u hu => ?_
    cases hu with
    | scalar v => exact (hscalar _ v).map wrap
    | nothing => exact decided_pure _
    | _ => exact decided_fail _
  | succ depth ih =>
    intro p n hn
    simp only [any]
    refine decided_resolve hn ((decided_variantOf _ _).bind fun wrap => ?_)
    refine decided_content hn _ _ fun u hu => ?_
    cases hu with
    | scalar v => exact (hscalar _ v).map wrap
    | nothing => exact decided_pure _
    | seq hns => exact (ih.items _ depth 0 hns).map _
    | map hes =>
      refine (decided_entries (fun key => ?_) _ depth _ _ hes).map _
      cases hdropped : r.dropped key with
      | none => exact ih.map some
      | some look => exact (hlook key look hdropped).bind fun _ => decided_pure none

end Untyped

end Decode

open Decode

theorem RawValue.steady_decoder : Steady RawValue.decoder := by
  have hscalar : ∀ p v, Decided (RawValue.assembly.scalar p v) := by
    intro p v
    cases v with
    | integer n _ =>
      simp only [RawValue.assembly, RawValue.ofScalarValue]
      split
      · exact decided_pure _
      · exact decided_fail _
    | _ => exact decided_pure _
  exact fun p => steady_any hscalar nofun p.depth p

theorem PortSpec.steady_decoder : Steady PortSpec.decoder := by
  refine steady_untyped fun p u _ => ?_
  rcases u with v | _ | _ | _
  · cases v with
    | integer k minus =>
      exact (decided_pure _).ite ((decided_fail _).ite (decided_refuseUntyped _ _ _))
    | text s =>
      dsimp only
      split
      · exact decided_pure _
      · exact decided_fail _
    | _ => exact decided_refuseUntyped _ _ _
  all_goals exact decided_refuseUntyped _ _ _

theorem steady_byteSizeDecoder : Steady byteSizeDecoder := by
  refine steady_untyped fun p u _ => ?_
  rcases u with v | _ | _ | _
  · cases v with
    | integer k minus =>
      exact (decided_pure _).ite ((decided_fail _).ite (decided_refuseUntyped _ _ _))
    | text s =>
      dsimp only
      split
      · exact decided_pure _
      · exact decided_fail _
    | _ => exact decided_refuseUntyped _ _ _
  all_goals exact decided_refuseUntyped _ _ _

theorem steady_fileModeDecoder : Steady fileModeDecoder := by
  refine steady_textTo _ fun p s => ?_
  split
  · exact decided_pure _
  · exact decided_fail _

theorem Duration.steady_decoder : Steady Duration.decoder := by
  refine steady_textTo _ fun p s => ?_
  split
  · exact decided_pure _
  · exact decided_fail _

theorem steady_commandDecoder : Steady commandDecoder := by
  refine steady_untyped fun p u hu => ?_
  cases hu with
  | scalar v =>
    cases v with
    | text s => exact decided_pure _
    | null => exact decided_pure _
    | _ => exact decided_refuseUntyped _ _ _
  | seq hns => exact decided_descend p fun depth => steady_text.items p depth 0 hns
  | _ => exact decided_refuseUntyped _ _ _

end ModuleCompiler
