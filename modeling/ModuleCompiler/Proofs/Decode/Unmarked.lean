import ModuleCompiler.Decode.Value

/-!
Documents without their marks. Where a node stands in the text has no part in what is read from it:
a document that has lost its marks is read to the same end, and fails in the same way but for the
place that is told.
-/

namespace ModuleCompiler

namespace Yaml

def Scalar.unmarked (s : Scalar) : Scalar := { s with mark := .start }

def Opening.unmarked (o : Opening) : Opening := { o with mark := .start }

def Fault.unmarked : Fault → Fault
  | form e => form { e with mark := .start }
  | unknownAnchor _ => unknownAnchor .start

namespace Node

mutual

/-- The same tree with all marks at the start. -/
def unmarked : Node → Node
  | .scalar s => .scalar s.unmarked
  | .seq o ns => .seq o.unmarked (itemsUnmarked ns)
  | .map o es => .map o.unmarked (entriesUnmarked es)
  | .alias anchor _ => .alias anchor .start
  | .absent _ => .absent .start
  | .broken f => .broken f.unmarked

def itemsUnmarked : List Node → List Node
  | [] => []
  | n :: ns => n.unmarked :: itemsUnmarked ns

def entriesUnmarked : List (Node × Node) → List (Node × Node)
  | [] => []
  | (k, v) :: es => (k.unmarked, v.unmarked) :: entriesUnmarked es

end

theorem mark_unmarked (n : Node) : n.unmarked.mark = .start := by
  cases n with
  | broken f => cases f <;> rfl
  | _ => rfl

mutual

theorem fault?_unmarked : ∀ n : Node, n.unmarked.fault? = n.fault?.map Fault.unmarked
  | .scalar _ => rfl
  | .seq _ ns => itemsFault?_unmarked ns
  | .map _ es => entriesFault?_unmarked es
  | .alias .. => rfl
  | .absent _ => rfl
  | .broken _ => rfl

theorem itemsFault?_unmarked : ∀ ns : List Node,
    itemsFault? (itemsUnmarked ns) = (itemsFault? ns).map Fault.unmarked
  | [] => rfl
  | n :: ns => by
    rw [itemsUnmarked, itemsFault?, itemsFault?, fault?_unmarked n, itemsFault?_unmarked ns]
    cases n.fault? <;> rfl

theorem entriesFault?_unmarked : ∀ es : List (Node × Node),
    entriesFault? (entriesUnmarked es) = (entriesFault? es).map Fault.unmarked
  | [] => rfl
  | (k, v) :: es => by
    rw [entriesUnmarked, entriesFault?, entriesFault?, fault?_unmarked k, fault?_unmarked v,
      entriesFault?_unmarked es]
    cases k.fault? <;> cases v.fault? <;> rfl

end

end Node

def Document.unmarked (doc : Document) : Document :=
  { doc with
    root := doc.root.unmarked
    anchored := doc.anchored.map fun e => (e.1, e.2.unmarked)
    fault := doc.fault.map Fault.unmarked }

end Yaml

/-- The same error without its place in the text. -/
def DecodeError.unmarked : DecodeError → DecodeError
  | syntaxError e => syntaxError { e with mark := .start }
  | unknownAnchor _ => unknownAnchor .start
  | recursionLimit _ => recursionLimit .start
  | repetitionLimit => repetitionLimit
  | endOfDocument => endOfDocument
  | severalDocuments => severalDocuments
  | mismatch path _ problem => mismatch path .start problem

open Yaml

namespace Decode

def Anchors.unmarked (anchors : Anchors) : Anchors :=
  { anchors with nodes := anchors.nodes.map fun e => (e.1, e.2.unmarked) }

def Place.unmarked (p : Place) : Place := { p with mark := .start }

/-- The second computation is the first one on a document without marks: the function turns the
value of the one into that of the other, and an error is the same but for its place. -/
def Unmarks (f : α → β) (x : Decode α) (y : Decode β) : Prop :=
  ∀ anchors count, (y.run anchors.unmarked).run count =
    (((x.run anchors).run count).map fun r => (f r.1, r.2)).mapError DecodeError.unmarked

section Computations

variable {f : α → β} {x : Decode α} {y : Decode β}

theorem unmarks_pure (f : α → β) (a : α) : Unmarks f (pure a) (pure (f a)) :=
  fun _ _ => rfl

theorem unmarks_fail (f : α → β) (e : DecodeError) :
    Unmarks f (Decode.fail e) (Decode.fail e.unmarked) :=
  fun _ _ => rfl

theorem unmarks_fault (f : α → β) (fault : Fault) :
    Unmarks f (Decode.fail (.ofFault fault)) (Decode.fail (.ofFault fault.unmarked)) := by
  cases fault <;> exact unmarks_fail f _

theorem Place.unmarks_fail (f : α → β) (p : Place) (problem : Problem) :
    Unmarks f (p.fail problem) (p.unmarked.fail problem) :=
  Decode.unmarks_fail f _

theorem Unmarks.bind {g : γ → δ} {k : α → Decode γ} {k' : β → Decode δ} (hx : Unmarks f x y)
    (hk : ∀ a, Unmarks g (k a) (k' (f a))) : Unmarks g (x >>= k) (y >>= k') := by
  intro anchors count
  simp only [ReaderT.run_bind, StateT.run_bind, hx anchors count]
  cases (x.run anchors).run count with
  | error e => rfl
  | ok r => exact hk r.1 anchors r.2

theorem Unmarks.map {y : Decode α} (hx : Unmarks id x y) (g : α → γ) :
    Unmarks id (g <$> x) (g <$> y) := by
  rw [map_eq_pure_bind, map_eq_pure_bind]
  exact hx.bind fun a => unmarks_pure id (g a)

theorem Unmarks.ite {c : Prop} [Decidable c] {x' : Decode α} {y' : Decode β} (hx : Unmarks f x y)
    (hx' : Unmarks f x' y') : Unmarks f (if c then x else x') (if c then y else y') := by
  split
  · exact hx
  · exact hx'

end Computations

/-- What the decoder makes of a node without marks is what it makes of the node. -/
def MarkBlind (decoder : Decoder α) : Prop :=
  ∀ (p : Place) (n : Node), Unmarks id (decoder p n) (decoder p.unmarked n.unmarked)

section Nodes

variable {p : Place} {n : Node}

theorem lookup_unmarked (nodes : List (Nat × Node)) (anchor : Nat) :
    (nodes.map fun e => (e.1, e.2.unmarked)).lookup anchor =
      (nodes.lookup anchor).map Node.unmarked := by
  induction nodes with
  | nil => rfl
  | cons e nodes ih =>
    rw [List.map_cons, List.lookup_cons, List.lookup_cons, ih]
    split <;> rfl

theorem enter_unmarked (p : Place) (n : Node) :
    p.unmarked.enter n.unmarked = (p.enter n).unmarked := by
  rw [Place.enter, n.mark_unmarked]
  rfl

theorem unmarks_resolve (n : Node) : Unmarks Node.unmarked (resolve n) (resolve n.unmarked) := by
  cases n with
  | «alias» anchor mark =>
    have hget : Unmarks id (get : Decode Nat) get := fun _ _ => rfl
    have hset : ∀ count : Nat, Unmarks id (set count : Decode PUnit) (set count) :=
      fun _ _ _ => rfl
    have hread : Unmarks Anchors.unmarked (read : Decode Anchors) read := fun _ _ => rfl
    refine hget.bind fun count => (hset (count + 1)).bind fun _ => hread.bind fun found => ?_
    refine (unmarks_fail _ _).ite (hread.bind fun found => ?_)
    dsimp only [Anchors.unmarked]
    rw [lookup_unmarked]
    cases found.nodes.lookup anchor with
    | none => exact unmarks_fail _ _
    | some target => exact unmarks_pure _ target
  | broken f => exact unmarks_fault _ f
  | _ => exact unmarks_pure _ _

theorem unmarks_ignore (n : Node) : Unmarks id (ignore n) (ignore n.unmarked) := by
  rw [ignore, ignore, n.fault?_unmarked]
  cases n.fault? with
  | none => exact unmarks_pure id ()
  | some f => exact unmarks_fault id f

theorem unmarks_refuse (p : Place) (expected : String) (n : Node) :
    Unmarks (id : α → α) (refuse p expected n) (refuse p.unmarked expected n.unmarked) := by
  cases n with
  | scalar s =>
    have hvalue : s.unmarked.value = s.value := rfl
    simp only [refuse, Node.unmarked, hvalue]
    split
    · exact unmarks_fail id _
    · exact unmarks_fail id _
  | broken f => exact unmarks_fault id f
  | _ => exact unmarks_fail id _

theorem unmarks_descend {g : Nat → Decode α} {g' : Nat → Decode α}
    (h : ∀ depth, Unmarks id (g depth) (g' depth)) (p : Place) :
    Unmarks id (descend p g) (descend p.unmarked g') := by
  obtain ⟨path, depth, mark⟩ := p
  cases depth with
  | zero => exact unmarks_fail id _
  | succ depth => exact h depth

end Nodes

section Scalars

theorem markBlind_textTo (expected : String) {make : Place → String → Decode α}
    (h : ∀ p s, Unmarks id (make p s) (make p.unmarked s)) : MarkBlind (textTo expected make) := by
  intro p n
  refine (unmarks_resolve n).bind fun n => ?_
  cases n with
  | scalar s => exact h (p.enter (.scalar s)) s.text
  | _ => exact unmarks_refuse p expected _

theorem markBlind_textAs (expected : String) : MarkBlind (textAs expected) :=
  markBlind_textTo expected fun _ s => unmarks_pure id s

theorem markBlind_text : MarkBlind text := markBlind_textAs _

theorem markBlind_bool : MarkBlind bool := by
  intro p n
  refine (unmarks_resolve n).bind fun n => ?_
  have hrefuse : Unmarks (id : Bool → Bool) _ _ := unmarks_refuse p "a boolean" n
  cases n with
  | scalar s =>
    have hread : (if s.unmarked.admits "bool" then ScalarText.bool? s.unmarked.text else none) =
        if s.admits "bool" then ScalarText.bool? s.text else none := rfl
    dsimp only [Node.unmarked] at hrefuse ⊢
    rw [hread]
    split
    · exact unmarks_pure id _
    · exact hrefuse
  | _ => exact hrefuse

theorem markBlind_unsigned (bits : Nat) : MarkBlind (unsigned bits) := by
  intro p n
  refine (unmarks_resolve n).bind fun n => ?_
  have hrefuse : Unmarks (id : Nat → Nat) _ _ := unmarks_refuse p s!"u{bits}" n
  cases n with
  | scalar s =>
    have hread : (if s.unmarked.admits "int" then ScalarText.natural? s.unmarked.text else none) =
        if s.admits "int" then ScalarText.natural? s.text else none := rfl
    dsimp only [Node.unmarked] at hrefuse ⊢
    rw [hread]
    split
    · exact (unmarks_pure id _).ite ((unmarks_fail id _).ite hrefuse)
    · exact hrefuse
  | _ => exact hrefuse

theorem MarkBlind.map {decoder : Decoder α} (h : MarkBlind decoder) (f : α → β) :
    MarkBlind fun p n => f <$> decoder p n :=
  fun p n => (h p n).map f

theorem MarkBlind.option {decoder : Decoder α} (h : MarkBlind decoder) :
    MarkBlind (option decoder) := by
  intro p n
  refine (unmarks_resolve n).bind fun n => ?_
  have hread : ∀ {x y : Decode Bool}, Unmarks id x y →
      Unmarks id (x >>= fun absent => if absent then pure none else some <$> decoder p n)
        (y >>= fun absent =>
          if absent then pure none else some <$> decoder p.unmarked n.unmarked) :=
    fun hx => hx.bind fun _ => (unmarks_pure id none).ite ((h p n).map some)
  cases n with
  | scalar s =>
    dsimp only [Node.unmarked, Scalar.unmarked]
    split
    · exact hread (unmarks_pure id _)
    · split
      · exact hread (unmarks_pure id _)
      · split
        · exact hread (unmarks_pure id _)
        · split
          · exact hread (unmarks_pure id _)
          · exact hread (unmarks_fail id _)
  | _ => exact hread (unmarks_pure id _)

end Scalars

section Collections

variable {decoder : Decoder α}

theorem unmarks_empty (a : α) (p : Place) (expected : String) (n : Node) :
    Unmarks id (if isEmptyCollection n then pure a else refuse p expected n)
      (if isEmptyCollection n.unmarked then pure a else refuse p.unmarked expected n.unmarked) := by
  have hempty : isEmptyCollection n.unmarked = isEmptyCollection n := by cases n <;> rfl
  rw [hempty]
  exact (unmarks_pure id a).ite (unmarks_refuse p expected n)

theorem entryStep_unmarked (n : Node) : entryStep n.unmarked = entryStep n := by
  cases n <;> rfl

theorem MarkBlind.items (h : MarkBlind decoder) (p : Place) (depth i : Nat) (ns : List Node) :
    Unmarks id (items p depth decoder i ns)
      (items p.unmarked depth decoder i (Node.itemsUnmarked ns)) := by
  induction ns generalizing i with
  | nil => exact unmarks_pure id []
  | cons n ns ih =>
    refine (h (p.child (.index i) depth) n).bind fun a => ?_
    exact (ih (i + 1)).bind fun as => unmarks_pure id (a :: as)

theorem MarkBlind.list (h : MarkBlind decoder) : MarkBlind (list decoder) := by
  intro p n
  refine (unmarks_resolve n).bind fun n => ?_
  cases n with
  | seq o ns => exact unmarks_descend (fun depth => h.items (p.enter (.seq o ns)) depth 0 ns) _
  | _ => exact unmarks_empty [] p "a sequence" _

theorem unmarks_entries {value : String → Decoder α} (h : ∀ key, MarkBlind (value key)) (p : Place)
    (depth : Nat) (put : String → α → σ → σ) (acc : σ) (es : List (Node × Node)) :
    Unmarks id (entries p depth value put acc es)
      (entries p.unmarked depth value put acc (Node.entriesUnmarked es)) := by
  induction es generalizing acc with
  | nil => exact unmarks_pure id acc
  | cons e es ih =>
    obtain ⟨k, v⟩ := e
    refine (markBlind_text { p with depth := depth } k).bind fun key => ?_
    rw [entryStep_unmarked]
    exact (h key (p.child (entryStep k) depth) v).bind fun a => ih (put key a acc)

theorem MarkBlind.table (h : MarkBlind decoder) : MarkBlind (table decoder) := by
  intro p n
  refine (unmarks_resolve n).bind fun n => ?_
  cases n with
  | map o es =>
    exact unmarks_descend
      (fun depth => unmarks_entries (fun _ => h) (p.enter (.map o es)) depth _ ∅ es) _
  | _ => exact unmarks_empty ∅ p "a map" _

theorem unmarks_fields {known : List (FieldDecoder ρ)} (h : ∀ f ∈ known, MarkBlind f.read)
    (p : Place) (depth : Nat) (seen : List String) (r : ρ) (es : List (Node × Node)) :
    Unmarks id (fields p depth known seen r es)
      (fields p.unmarked depth known seen r (Node.entriesUnmarked es)) := by
  induction es generalizing seen r with
  | nil => exact unmarks_pure id r
  | cons e es ih =>
    obtain ⟨k, v⟩ := e
    refine (markBlind_textAs _ { p with depth := depth } k).bind fun key => ?_
    dsimp only [id]
    cases hfind : known.find? (·.isNamed key) with
    | none => exact (unmarks_ignore v).bind fun _ => ih seen r
    | some f =>
      have hf := h f (List.mem_of_find?_eq_some hfind)
      dsimp only
      rw [entryStep_unmarked]
      refine (Place.unmarks_fail id p _).ite ?_
      exact (hf (p.child (entryStep k) depth) v).bind fun store => ih (f.name :: seen) (store r)

theorem markBlind_record {known : List (FieldDecoder ρ)} (h : ∀ f ∈ known, MarkBlind f.read)
    (name : String) (initial : ρ) : MarkBlind (record name known initial) := by
  intro p n
  refine (unmarks_resolve n).bind fun n => ?_
  cases n with
  | map o es =>
    exact unmarks_descend
      (fun depth => unmarks_fields h (p.enter (.map o es)) depth [] initial es) _
  | _ => exact unmarks_empty initial p ("struct " ++ name) _

end Collections

section Untyped

def Untyped.unmarked : Untyped → Untyped
  | scalar v => scalar v
  | seq ns => seq (Node.itemsUnmarked ns)
  | map es => map (Node.entriesUnmarked es)
  | nothing => nothing

theorem tagOf?_unmarked (n : Node) : tagOf? n.unmarked = tagOf? n := by
  cases n <;> rfl

theorem unmarks_content (p : Place) (expected : String) (n : Node) :
    Unmarks Untyped.unmarked (content p expected n)
      (content p.unmarked expected n.unmarked) := by
  cases n with
  | scalar s =>
    have hvalue : s.unmarked.value = s.value := rfl
    simp only [content, Node.unmarked, hvalue]
    split
    · exact unmarks_pure _ _
    · exact unmarks_fail _ _
  | broken f => exact unmarks_fault _ f
  | «alias» anchor mark => exact unmarks_fail _ _
  | _ => exact unmarks_pure _ _

theorem markBlind_untyped {expected : String} {make : Place → Untyped → Decode α}
    (h : ∀ p u, Unmarks id (make p u) (make p.unmarked u.unmarked)) :
    MarkBlind (untyped expected make) := by
  intro p n
  refine (unmarks_resolve n).bind fun n => ?_
  dsimp only
  rw [tagOf?_unmarked, enter_unmarked]
  refine (unmarks_fail id _).ite ?_
  exact (unmarks_content _ expected n).bind fun u => h _ u

theorem unmarks_refuseUntyped (p : Place) (expected : String) (u : Untyped) :
    Unmarks (id : α → α) (refuseUntyped p expected u)
      (refuseUntyped p.unmarked expected u.unmarked) := by
  cases u <;> exact Place.unmarks_fail id p _

variable {r : Assembly α}

theorem unmarks_variantOf (p : Place) (n : Node) :
    Unmarks id (variantOf r p n) (variantOf r p.unmarked n.unmarked) := by
  rw [variantOf, variantOf, tagOf?_unmarked]
  cases (tagOf? n).bind Tag.variant? with
  | none => exact unmarks_pure id _
  | some name =>
    dsimp only
    split
    · exact Place.unmarks_fail id p _
    · exact unmarks_pure id _

/-- Nodes of any type, level by level. -/
theorem markBlind_any (hscalar : ∀ p v, Unmarks id (r.scalar p v) (r.scalar p.unmarked v))
    (hlook : ∀ key look, r.dropped key = some look → MarkBlind look) (depth : Nat) :
    MarkBlind fun p n => any r depth p.path n := by
  induction depth with
  | zero =>
    intro p n
    simp only [any]
    refine (unmarks_resolve n).bind fun n => ?_
    rw [n.mark_unmarked]
    refine (unmarks_variantOf ⟨p.path, 0, n.mark⟩ n).bind fun wrap => ?_
    refine (unmarks_content ⟨p.path, 0, n.mark⟩ r.expected n).bind fun u => ?_
    cases u with
    | scalar v => exact (hscalar ⟨p.path, 0, n.mark⟩ v).map wrap
    | nothing => exact unmarks_pure id _
    | _ => exact unmarks_fail id _
  | succ depth ih =>
    intro p n
    simp only [any]
    refine (unmarks_resolve n).bind fun n => ?_
    rw [n.mark_unmarked]
    refine (unmarks_variantOf ⟨p.path, depth + 1, n.mark⟩ n).bind fun wrap => ?_
    refine (unmarks_content ⟨p.path, depth + 1, n.mark⟩ r.expected n).bind fun u => ?_
    cases u with
    | scalar v => exact (hscalar ⟨p.path, depth + 1, n.mark⟩ v).map wrap
    | nothing => exact unmarks_pure id _
    | seq ns => exact (ih.items ⟨p.path, depth + 1, n.mark⟩ depth 0 ns).map _
    | map es =>
      refine (unmarks_entries (fun key => ?_) ⟨p.path, depth + 1, n.mark⟩ depth _ _ es).map _
      cases hdropped : r.dropped key with
      | none => exact ih.map some
      | some look =>
        exact fun q m => (hlook key look hdropped q m).bind fun _ => unmarks_pure id none

end Untyped

end Decode

open Decode

theorem RawValue.markBlind_decoder : MarkBlind RawValue.decoder := by
  have hscalar : ∀ p v,
      Unmarks id (RawValue.assembly.scalar p v) (RawValue.assembly.scalar p.unmarked v) := by
    intro p v
    cases v with
    | integer n _ =>
      simp only [RawValue.assembly, RawValue.ofScalarValue]
      split
      · exact unmarks_pure id _
      · exact Place.unmarks_fail id p _
    | _ => exact unmarks_pure id _
  exact fun p => markBlind_any hscalar nofun p.depth p

theorem PortSpec.markBlind_decoder : MarkBlind PortSpec.decoder := by
  refine markBlind_untyped fun p u => ?_
  have hrefuse : Unmarks (id : PortSpec → PortSpec) _ _ :=
    unmarks_refuseUntyped p PortSpec.expected u
  rcases u with v | _ | _ | _
  · cases v with
    | integer k minus => exact (unmarks_pure id _).ite ((Place.unmarks_fail id p _).ite hrefuse)
    | text s =>
      dsimp only [Untyped.unmarked]
      split
      · exact unmarks_pure id _
      · exact Place.unmarks_fail id p _
    | _ => exact hrefuse
  all_goals exact hrefuse

theorem markBlind_byteSizeDecoder : MarkBlind byteSizeDecoder := by
  refine markBlind_untyped fun p u => ?_
  have hrefuse : Unmarks (id : UInt64 → UInt64) _ _ := unmarks_refuseUntyped p byteSizeExpected u
  rcases u with v | _ | _ | _
  · cases v with
    | integer k minus => exact (unmarks_pure id _).ite ((Place.unmarks_fail id p _).ite hrefuse)
    | text s =>
      dsimp only [Untyped.unmarked]
      split
      · exact unmarks_pure id _
      · exact Place.unmarks_fail id p _
    | _ => exact hrefuse
  all_goals exact hrefuse

theorem markBlind_fileModeDecoder : MarkBlind fileModeDecoder := by
  refine markBlind_textTo _ fun p s => ?_
  split
  · exact unmarks_pure id _
  · exact Place.unmarks_fail id p _

theorem Duration.markBlind_decoder : MarkBlind Duration.decoder := by
  refine markBlind_textTo _ fun p s => ?_
  split
  · exact unmarks_pure id _
  · exact Place.unmarks_fail id p _

theorem markBlind_commandDecoder : MarkBlind commandDecoder := by
  refine markBlind_untyped fun p u => ?_
  have hrefuse : Unmarks (id : List String → List String) _ _ :=
    unmarks_refuseUntyped p commandExpected u
  rcases u with v | ns | _ | _
  · cases v with
    | text s => exact unmarks_pure id _
    | null => exact unmarks_pure id _
    | _ => exact hrefuse
  · exact unmarks_descend (fun depth => markBlind_text.items p depth 0 ns) p
  all_goals exact hrefuse

/-- A document without marks is read to the same end, or fails in the same way. -/
theorem Decode.MarkBlind.run_unmarked {decoder : Decoder α} (h : MarkBlind decoder)
    (doc : Document) :
    decoder.run doc.unmarked = (decoder.run doc).mapError DecodeError.unmarked := by
  have hroot := h .root doc.root ⟨doc.anchored, 100 * doc.eventCount⟩ 0
  have hrun : ((decoder .root doc.unmarked.root).run
      ⟨doc.unmarked.anchored, 100 * doc.unmarked.eventCount⟩).run 0 = _ := hroot
  rw [Decoder.run, hrun, Decoder.run]
  cases ((decoder .root doc.root).run ⟨doc.anchored, 100 * doc.eventCount⟩).run 0 with
  | error e => rfl
  | ok r =>
    have hfault : doc.unmarked.fault = doc.fault.map Fault.unmarked := rfl
    have hcontinues : doc.unmarked.continues = doc.continues := rfl
    dsimp only [Except.map, Except.mapError, id]
    rw [hfault, hcontinues]
    cases doc.fault with
    | some f => cases f <;> rfl
    | none =>
      dsimp only [Option.map_none]
      split <;> rfl

end ModuleCompiler
