import ModuleCompiler.Proofs.Decode.Records

/-!
Entries that a record does not know. A record with one more such entry is read to the same end, and
so is everything that the record is part of.
-/

namespace ModuleCompiler

open Yaml

namespace Decode

section Relations

/-- Where a decoder comes to a record with these fields. The record has the entries `es` in the one
node and `es'` in the other, and all around it is the same. -/
inductive Reaches {ρ : Type} (known : List (FieldDecoder ρ)) (es es' : List (Node × Node)) :
    {α : Type} → Decoder α → Node → Node → Prop
  | record (name : String) (initial : ρ) (o : Opening) :
      Reaches known es es' (record name known initial) (.map o es) (.map o es')
  | option {α : Type} {decoder : Decoder α} {n n' : Node} :
      Reaches known es es' decoder n n' → Reaches known es es' (option decoder) n n'
  | item {α : Type} {decoder : Decoder α} {n n' : Node} (o : Opening)
      (before after : List Node) :
      Reaches known es es' decoder n n' →
      Reaches known es es' (list decoder) (.seq o (before ++ n :: after))
        (.seq o (before ++ n' :: after))
  | value {α : Type} {decoder : Decoder α} {n n' : Node} (o : Opening) (key : Node)
      (before after : List (Node × Node)) :
      Reaches known es es' decoder n n' →
      Reaches known es es' (table decoder) (.map o (before ++ (key, n) :: after))
        (.map o (before ++ (key, n') :: after))
  | map {α β : Type} {decoder : Decoder α} {n n' : Node} (f : α → β) :
      Reaches known es es' decoder n n' →
      Reaches known es es' (fun p n => f <$> decoder p n) n n'

/-- Entries of a record with one more entry that its record does not know: among these entries, or
in a record further down that is the value of a known one. -/
inductive Inserted : {ρ : Type} → List (FieldDecoder ρ) → (es es' : List (Node × Node)) → Prop
  | here {ρ : Type} {known : List (FieldDecoder ρ)} (key : Scalar) (value : Node)
      (before after : List (Node × Node)) :
      (∀ f ∈ known, f.isNamed key.text = false) → value.fault? = none →
      Inserted known (before ++ after) (before ++ (.scalar key, value) :: after)
  | within {ρ σ : Type} {known : List (FieldDecoder ρ)} {inner : List (FieldDecoder σ)}
      {es es' : List (Node × Node)} {f : FieldDecoder ρ} {value value' : Node} (key : Scalar)
      (before after : List (Node × Node)) :
      known.find? (·.isNamed key.text) = some f → Reaches inner es es' f.read value value' →
      Inserted inner es es' →
      Inserted known (before ++ (.scalar key, value) :: after)
        (before ++ (.scalar key, value') :: after)

end Relations

section Faults

theorem entriesFault?_append (es fs : List (Node × Node)) :
    Node.entriesFault? (es ++ fs) = (Node.entriesFault? es <|> Node.entriesFault? fs) := by
  induction es with
  | nil => simp [Node.entriesFault?]
  | cons e es ih =>
    obtain ⟨k, v⟩ := e
    simp only [List.cons_append, Node.entriesFault?, ih, Option.orElse_eq_orElse,
      Option.orElse_eq_or, Option.or_assoc]

theorem itemsFault?_append (ns ms : List Node) :
    Node.itemsFault? (ns ++ ms) = (Node.itemsFault? ns <|> Node.itemsFault? ms) := by
  induction ns with
  | nil => simp [Node.itemsFault?]
  | cons n ns ih =>
    simp only [List.cons_append, Node.itemsFault?, ih, Option.orElse_eq_orElse,
      Option.orElse_eq_or, Option.or_assoc]

end Faults

/-- Nodes that open a list or open a map both, and say so. -/
inductive SameKind : Node → Node → Prop
  | seq (o : Opening) (ns ns' : List Node) : SameKind (.seq o ns) (.seq o ns')
  | map (o : Opening) (es es' : List (Node × Node)) : SameKind (.map o es) (.map o es')

/-- A decoder does not tell these nodes apart, and neither does a reader that passes over them. -/
structure SameReading (decoder : Decoder α) (n n' : Node) : Prop where
  reads : ∀ p, decoder p n = decoder p n'
  fault : n.fault? = n'.fault?
  kind : SameKind n n'

/-- Entries that are the same to a record, and to a reader that passes over them. -/
structure SameFields (known : List (FieldDecoder ρ)) (es es' : List (Node × Node)) : Prop where
  reads : ∀ p depth seen r, fields p depth known seen r es = fields p depth known seen r es'
  fault : Node.entriesFault? es = Node.entriesFault? es'

section Reading

variable {decoder : Decoder α} {n n' : Node}

theorem SameReading.option (h : SameReading decoder n n') : SameReading (option decoder) n n' := by
  refine ⟨fun p => ?_, h.fault, h.kind⟩
  have hreads := h.reads p
  cases h.kind with
  | seq o ns ns' => exact congrArg (some <$> ·) hreads
  | map o es es' => exact congrArg (some <$> ·) hreads

theorem SameReading.map (h : SameReading decoder n n') (f : α → β) :
    SameReading (fun p n => f <$> decoder p n) n n' :=
  ⟨fun p => congrArg (f <$> ·) (h.reads p), h.fault, h.kind⟩

theorem SameReading.items (h : SameReading decoder n n') (p : Place) (depth i : Nat)
    (before after : List Node) :
    items p depth decoder i (before ++ n :: after) =
      items p depth decoder i (before ++ n' :: after) := by
  induction before generalizing i with
  | nil => simp only [List.nil_append, Decode.items, h.reads]
  | cons m before ih => simp only [List.cons_append, Decode.items, ih]

theorem SameReading.item (h : SameReading decoder n n') (o : Opening)
    (before after : List Node) :
    SameReading (list decoder) (.seq o (before ++ n :: after))
      (.seq o (before ++ n' :: after)) := by
  refine ⟨fun p => ?_, ?_, .seq ..⟩
  · exact congrArg (descend _) (funext fun depth => h.items _ depth 0 before after)
  · simp only [Node.fault?, itemsFault?_append, Node.itemsFault?, h.fault]

theorem SameReading.entries (h : SameReading decoder n n') (p : Place) (depth : Nat)
    (acc : SortedMap α) (key : Node) (before after : List (Node × Node)) :
    entries p depth (fun _ => decoder) (fun k v m => m.insert k v) acc
        (before ++ (key, n) :: after) =
      entries p depth (fun _ => decoder) (fun k v m => m.insert k v) acc
        (before ++ (key, n') :: after) := by
  have hstep : ∀ acc : SortedMap α,
      takeEntry p depth (fun _ => decoder) (fun k v m => m.insert k v) acc (key, n) =
        takeEntry p depth (fun _ => decoder) (fun k v m => m.insert k v) acc (key, n') := by
    intro acc
    simp only [takeEntry, h.reads]
  simp only [entries_eq_foldlM, List.foldlM_append, List.foldlM_cons, hstep]

theorem SameReading.value (h : SameReading decoder n n') (o : Opening) (key : Node)
    (before after : List (Node × Node)) :
    SameReading (table decoder) (.map o (before ++ (key, n) :: after))
      (.map o (before ++ (key, n') :: after)) := by
  refine ⟨fun p => ?_, ?_, .map ..⟩
  · exact congrArg (descend _) (funext fun depth => h.entries _ depth ∅ key before after)
  · simp only [Node.fault?, entriesFault?_append, Node.entriesFault?, h.fault]

theorem SameFields.record {known : List (FieldDecoder ρ)} {es es' : List (Node × Node)}
    (h : SameFields known es es') (name : String) (initial : ρ) (o : Opening) :
    SameReading (record name known initial) (.map o es) (.map o es') := by
  refine ⟨fun p => ?_, h.fault, .map ..⟩
  exact congrArg (descend _) (funext fun depth => h.reads _ depth [] initial)

/-- By induction on the way from the decoder to the record. -/
theorem Reaches.sameReading {known : List (FieldDecoder ρ)} {es es' : List (Node × Node)}
    (h : Reaches known es es' decoder n n') (hs : SameFields known es es') :
    SameReading decoder n n' := by
  induction h with
  | record name initial o => exact hs.record name initial o
  | option _ ih => exact ih.option
  | item o before after _ ih => exact ih.item o before after
  | value o key before after _ ih => exact ih.value o key before after
  | map f _ ih => exact ih.map f

end Reading

section Fields

variable {p : Place} {depth : Nat} {known : List (FieldDecoder ρ)} {key : Scalar}
  {value value' : Node} {es es' : List (Node × Node)}

theorem takeField_of_unknown (hkey : ∀ f ∈ known, f.isNamed key.text = false)
    (hvalue : value.fault? = none) (acc : List String × ρ) :
    takeField p depth known acc (.scalar key, value) = pure acc := by
  have hfind : known.find? (·.isNamed key.text) = none := by simpa using hkey
  simp only [takeField, textAs_scalar, pure_bind, hfind, ignore, hvalue]

theorem takeField_congr {f : FieldDecoder ρ} (hfind : known.find? (·.isNamed key.text) = some f)
    (hread : ∀ p, f.read p value = f.read p value') (acc : List String × ρ) :
    takeField p depth known acc (.scalar key, value) =
      takeField p depth known acc (.scalar key, value') := by
  simp only [takeField, textAs_scalar, pure_bind, hfind, hread]

theorem takeField_of_passed (hkey : known.find? (·.isNamed key.text) = none)
    (hfault : value.fault? = value'.fault?) (acc : List String × ρ) :
    takeField p depth known acc (.scalar key, value) =
      takeField p depth known acc (.scalar key, value') := by
  simp only [takeField, textAs_scalar, pure_bind, hkey, ignore, hfault]

theorem sameFields_here (before after : List (Node × Node))
    (hkey : ∀ f ∈ known, f.isNamed key.text = false) (hvalue : value.fault? = none) :
    SameFields known (before ++ after) (before ++ (.scalar key, value) :: after) := by
  refine ⟨fun p depth seen r => ?_, ?_⟩
  · simp only [fields_eq_foldlM, List.foldlM_append, List.foldlM_cons,
      takeField_of_unknown hkey hvalue, pure_bind]
  · have hentry :
        Node.entriesFault? ((.scalar key, value) :: after) = Node.entriesFault? after := by
      simp [Node.entriesFault?, Node.fault?, hvalue]
    rw [entriesFault?_append, entriesFault?_append, hentry]

theorem sameFields_of_step (before after : List (Node × Node))
    (hstep : ∀ p depth acc, takeField p depth known acc (.scalar key, value) =
      takeField p depth known acc (.scalar key, value')) (hfault : value.fault? = value'.fault?) :
    SameFields known (before ++ (.scalar key, value) :: after)
      (before ++ (.scalar key, value') :: after) := by
  refine ⟨fun p depth seen r => ?_, ?_⟩
  · simp only [fields_eq_foldlM, List.foldlM_append, List.foldlM_cons, hstep]
  · simp only [entriesFault?_append, Node.entriesFault?, hfault]

/-- An entry that is not known adds nothing, at whatever depth: by induction on the records that are
opened on the way to it. -/
theorem Inserted.sameFields (h : Inserted known es es') : SameFields known es es' := by
  induction h with
  | here key value before after hkey hvalue => exact sameFields_here before after hkey hvalue
  | within key before after hfind hreach _ ih =>
    have hvalue := hreach.sameReading ih
    exact sameFields_of_step before after (fun _ _ => takeField_congr hfind hvalue.reads)
      hvalue.fault

end Fields

end Decode

end ModuleCompiler
