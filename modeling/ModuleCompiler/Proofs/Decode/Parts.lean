import Mathlib.Data.List.Induction
import ModuleCompiler.Decode.Value
import ModuleCompiler.Proofs.Decode.Reading

/-!
Parts of a document and the parts of a value that are read from them. Aliases stand for the nodes
behind them, and of equal keys the last one has the value.
-/

namespace ModuleCompiler

open Yaml

/-- What decoders know of a document. -/
def Yaml.Document.anchors (doc : Document) : Decode.Anchors := ⟨doc.anchored, 100 * doc.eventCount⟩

namespace Decode

variable {anchors : Anchors}

section Nodes

def keyText? (anchors : Anchors) (k : Node) : Option String :=
  match target? anchors k with
  | some (.scalar s) => some s.text
  | _ => none

/-- The value of the last entry of a key. -/
def valueOf? (anchors : Anchors) (es : List (Node × Node)) (key : String) : Option Node :=
  (es.reverse.find? fun e => keyText? anchors e.1 = some key).map Prod.snd

/-- The node one step below a node. -/
def child? (anchors : Anchors) (n : Node) (step : Step) : Option Node :=
  match target? anchors n, step with
  | some (.map _ es), .key name => valueOf? anchors es name
  | some (.seq _ ns), .index i => ns[i]?
  | _, _ => none

/-- The node so many steps below a node, the first step being the one at that node. -/
def at? (anchors : Anchors) : Node → List Step → Option Node
  | n, [] => some n
  | n, step :: steps => (child? anchors n step).bind (at? anchors · steps)

theorem valueOf?_concat (es : List (Node × Node)) (e : Node × Node) (key : String) :
    valueOf? anchors (es ++ [e]) key =
      if keyText? anchors e.1 = some key then some e.2 else valueOf? anchors es key := by
  simp only [valueOf?, List.reverse_append, List.reverse_cons, List.reverse_nil, List.nil_append,
    List.singleton_append, List.find?_cons]
  by_cases hkey : keyText? anchors e.1 = some key
  · simp only [hkey, decide_true, if_true, Option.map_some]
  · simp only [hkey, decide_false, if_false]

theorem at?_append (n : Node) (steps steps' : List Step) :
    at? anchors n (steps ++ steps') = (at? anchors n steps).bind (at? anchors · steps') := by
  induction steps generalizing n with
  | nil => rfl
  | cons step steps ih =>
    simp only [List.cons_append, at?, Option.bind_assoc]
    exact congrArg _ (funext ih)

theorem at?_cons_eq_some_iff {n m : Node} {step : Step} {steps : List Step} :
    at? anchors n (step :: steps) = some m ↔
      ∃ c, child? anchors n step = some c ∧ at? anchors c steps = some m :=
  Option.bind_eq_some_iff

end Nodes

/-- Reading a node, wherever it stands. -/
def ReadAs (anchors : Anchors) (decoder : Decoder α) (n : Node) (a : α) : Prop :=
  ∃ p, Reads anchors (decoder p n) a

/-- A part of a value that is read from a node, or is as it starts if there is no node for it. -/
def ReadFrom (anchors : Anchors) (decoder : Decoder α) (start : α) : Option Node → α → Prop
  | none, a => a = start
  | some n, a => ReadAs anchors decoder n a

section Relations

variable {R : α → β → Prop} {a : α} {b : β} {o : Option α} {o' : Option β}

theorem rel_getElem? {as : List α} {bs : List β} (h : List.Forall₂ R as bs) (i : Nat) :
    Option.Rel R as[i]? bs[i]? := by
  induction h generalizing i with
  | nil => exact .none
  | cons hab _ ih =>
    cases i with
    | zero => exact .some hab
    | succ i => simpa only [List.getElem?_cons_succ] using ih i

theorem exists_right_of_rel (h : Option.Rel R (some a) o') : ∃ b, o' = some b ∧ R a b := by
  cases h with
  | some hab => exact ⟨_, rfl, hab⟩

theorem exists_left_of_rel (h : Option.Rel R o (some b)) : ∃ a, o = some a ∧ R a b := by
  cases h with
  | some hab => exact ⟨_, rfl, hab⟩

theorem rel_bind {S : γ → δ → Prop} {f : α → Option γ} {g : β → Option δ} (h : Option.Rel R o o')
    (hfg : ∀ a b, R a b → Option.Rel S (f a) (g b)) : Option.Rel S (o.bind f) (o'.bind g) := by
  cases h with
  | none => exact .none
  | some hab => exact hfg _ _ hab

/-- An entry goes to the place of its key on both sides. -/
theorem rel_put {k key : String} (hab : R a b) (ho : Option.Rel R o o') :
    Option.Rel R (if some k = some key then some a else o) (if key = k then some b else o') := by
  by_cases hkey : key = k
  · subst hkey
    simp only [if_true]
    exact .some hab
  · simp only [Option.some.injEq, if_neg hkey, if_neg (Ne.symm hkey)]
    exact ho

end Relations

section Folds

variable {f : σ → Node × Node → Decode σ} {P : Option Node → σ → Prop} {key : String}

theorem Reads.keyText {expected t : String} {p : Place} {n : Node}
    (h : Reads anchors (Decode.textAs expected p n) t) : keyText? anchors n = some t := by
  obtain ⟨s, hs, rfl⟩ := h.textAs
  rw [keyText?, hs]

/-- What entries of a key do to a state, and other entries leave as it is, is done by the last entry
of the key. -/
theorem Reads.foldlM_valueOf
    (hstep : ∀ o s e s', P o s → Reads anchors (f s e) s' →
      P (if keyText? anchors e.1 = some key then some e.2 else o) s')
    {es : List (Node × Node)} {s s' : σ} (hs : P none s) (h : Reads anchors (es.foldlM f s) s') :
    P (valueOf? anchors es key) s' := by
  -- from the end, where the entry stands that decides
  induction es using List.reverseRecOn generalizing s' with
  | nil => exact h.eq_of_pure ▸ hs
  | append_singleton es e ih =>
    rw [List.foldlM_append] at h
    obtain ⟨t, ht, h⟩ := h.bind
    rw [List.foldlM_cons] at h
    obtain ⟨t', ht', h⟩ := h.bind
    rw [valueOf?_concat, ← h.eq_of_pure]
    exact hstep _ _ _ _ (ih ht) ht'

theorem Reads.takeEntry {p : Place} {depth : Nat} {decoder : String → Decoder α}
    {put : String → α → σ → σ} {s s' : σ} {e : Node × Node}
    (h : Reads anchors (takeEntry p depth decoder put s e) s') :
    ∃ key v, keyText? anchors e.1 = some key ∧ ReadAs anchors (decoder key) e.2 v ∧
      s' = put key v s := by
  obtain ⟨key, hkey, h⟩ := h.bind
  obtain ⟨v, hv, h⟩ := h.bind
  exact ⟨key, v, hkey.keyText, ⟨_, hv⟩, h.eq_of_pure.symm⟩

theorem Reads.items {decoder : Decoder α} {p : Place} {depth i : Nat} {ns : List Node}
    {as : List α} (h : Reads anchors (items p depth decoder i ns) as) :
    List.Forall₂ (ReadAs anchors decoder) ns as := by
  induction ns generalizing i as with
  | nil => exact h.eq_of_pure ▸ .nil
  | cons n ns ih =>
    obtain ⟨a, ha, h⟩ := h.bind
    obtain ⟨as', has, h⟩ := h.bind
    rw [← h.eq_of_pure]
    exact .cons ⟨_, ha⟩ (ih has)

theorem Reads.descend {p : Place} {inner : Nat → Decode α} {a : α}
    (h : Reads anchors (descend p inner) a) : ∃ depth, Reads anchors (inner depth) a := by
  unfold Decode.descend at h
  split at h
  · exact absurd h (fails_fail _).not_reads
  · exact ⟨_, h⟩

end Folds

section Collections

variable {decoder : Decoder α} {n m : Node}

theorem child?_of_isEmptyCollection (ht : target? anchors n = some m)
    (h : isEmptyCollection m = true) (step : Step) : child? anchors n step = none := by
  cases m with
  | scalar s => simp only [child?, ht]
  | absent => simp only [child?, ht]
  | _ => cases h

theorem ReadAs.list {as : List α} (h : ReadAs anchors (list decoder) n as) (i : Nat) :
    Option.Rel (ReadAs anchors decoder) (child? anchors n (.index i)) as[i]? := by
  obtain ⟨p, h⟩ := h
  obtain ⟨m, hm, h⟩ := h.bind
  have ht := hm.target
  cases m with
  | seq tag ns =>
    obtain ⟨depth, h⟩ := h.descend
    simp only [child?, ht]
    exact rel_getElem? h.items i
  | _ =>
    obtain ⟨hempty, rfl⟩ := Reads.ofEmpty h
    rw [child?_of_isEmptyCollection ht hempty]
    exact .none

theorem ReadAs.table {entries : SortedMap α} (h : ReadAs anchors (table decoder) n entries)
    (key : String) :
    Option.Rel (ReadAs anchors decoder) (child? anchors n (.key key)) (entries.get? key) := by
  obtain ⟨p, h⟩ := h
  obtain ⟨m, hm, h⟩ := h.bind
  have ht := hm.target
  cases m with
  | map tag es =>
    obtain ⟨depth, h⟩ := h.descend
    rw [entries_eq_foldlM] at h
    simp only [child?, ht]
    refine Reads.foldlM_valueOf (P := fun o (entries : SortedMap α) =>
      Option.Rel (ReadAs anchors decoder) o (entries.get? key)) ?_ .none h
    intro o s e s' hs he
    obtain ⟨k, v, hk, hv, rfl⟩ := he.takeEntry
    rw [hk, SortedMap.get?_insert]
    exact rel_put hv hs
  | _ =>
    obtain ⟨hempty, rfl⟩ := Reads.ofEmpty h
    rw [child?_of_isEmptyCollection ht hempty]
    exact .none

/-- What an optional value is read from, it is read from as a value that has to be there, unless it
is left out. -/
theorem ReadAs.option {o : Option α} (h : ReadAs anchors (option decoder) n o) :
    ∃ m, target? anchors n = some m ∧
      (o = none ∧ IsLeftOut m ∨ ∃ a, o = some a ∧ ReadAs anchors decoder m a) := by
  obtain ⟨p, h⟩ := h
  obtain ⟨m, hm, hcase⟩ := h.option
  refine ⟨m, hm, hcase.imp_right ?_⟩
  rintro ⟨a, ha, hread⟩
  exact ⟨a, ha, p, hread⟩

/-- A collection is in the place that is read for it. -/
theorem child?_of_target {c : Node} {step : Step} (ht : target? anchors n = some m)
    (hc : child? anchors n step = some c) : child? anchors m step = some c := by
  simp only [child?, ht] at hc
  cases m with
  | seq tag ns => exact hc
  | map tag es => exact hc
  | _ => cases hc

theorem IsLeftOut.child? (h : IsLeftOut m) (step : Step) : child? anchors m step = none := by
  cases h <;> rfl

end Collections

section Records

variable {known : List (FieldDecoder ρ)} {name : String} {decoder : Decoder α} {view : ρ → α}

/-- A field that goes by one name and has a place of its own in the record. -/
structure HasField (known : List (FieldDecoder ρ)) (name : String) (decoder : Decoder α)
    (view : ρ → α) : Prop where
  found : ∃ store, known.find? (·.isNamed name) = some (field name decoder store) ∧
    ∀ v r, view (store v r) = v
  others : ∀ f ∈ known, (f.name = name ∧ f.otherNames = []) ∨ f.Keeps view

@[simp] theorem name_field (name : String) (decoder : Decoder α) (store : α → ρ → ρ) :
    (field name decoder store).name = name := rfl

@[simp] theorem otherNames_field (name : String) (decoder : Decoder α) (store : α → ρ → ρ) :
    (field name decoder store).otherNames = [] := rfl

/-- Entries of other keys leave the field as it is. -/
theorem HasField.keeps (hf : HasField known name decoder view) {key : String} (hkey : key ≠ name)
    {f : FieldDecoder ρ} (hfind : known.find? (·.isNamed key) = some f) : f.Keeps view := by
  rcases hf.others f (List.mem_of_find?_eq_some hfind) with ⟨hname, hothers⟩ | hkeeps
  · have hnamed := List.find?_some hfind
    simp only [FieldDecoder.isNamed, hname, hothers, List.contains_nil, Bool.or_false,
      beq_iff_eq] at hnamed
    exact absurd hnamed.symm hkey
  · exact hkeeps

theorem Reads.takeField_view (hf : HasField known name decoder view) {start : α} {o : Option Node}
    {p : Place} {depth : Nat} {acc acc' : List String × ρ} {e : Node × Node}
    (ho : ReadFrom anchors decoder start o (view acc.2))
    (h : Reads anchors (Decode.takeField p depth known acc e) acc') :
    ReadFrom anchors decoder start
      (if keyText? anchors e.1 = some name then some e.2 else o) (view acc'.2) := by
  obtain ⟨s, hs, h⟩ := h.takeField
  have hkey : keyText? anchors e.1 = some s.text := by rw [keyText?, hs]
  rw [hkey]
  by_cases hname : s.text = name
  · obtain ⟨store, hfound, hview⟩ := hf.found
    simp only [hname, if_true]
    rw [hname, hfound] at h
    rcases h with ⟨hnone, _⟩ | ⟨f, q, store', hsome, _, hread, rfl⟩
    · cases hnone
    · obtain rfl := Option.some.inj hsome
      obtain ⟨v, hv, rfl⟩ := Reads.map hread
      exact ⟨q, (hview v acc.2).symm ▸ hv⟩
  · simp only [Option.some.injEq, if_neg hname]
    rcases h with ⟨_, rfl⟩ | ⟨f, q, store, hfind, _, hread, rfl⟩
    · exact ho
    · rw [hf.keeps hname hfind _ _ _ _ hread]
      exact ho

/-- A field of a record is read from the value under its name. -/
theorem ReadAs.record {label : String} {initial r : ρ} {n : Node}
    (hf : HasField known name decoder view)
    (h : ReadAs anchors (record label known initial) n r) :
    ReadFrom anchors decoder (view initial) (child? anchors n (.key name)) (view r) := by
  obtain ⟨p, h⟩ := h
  obtain ⟨m, ht, ⟨tag, es, depth, rfl, h⟩ | ⟨hempty, rfl⟩⟩ := h.record
  · rw [fields_eq_foldlM] at h
    obtain ⟨acc, hacc, rfl⟩ := h.map
    have hstart : ReadFrom anchors decoder (view initial) none (view initial) := rfl
    simp only [child?, ht]
    exact Reads.foldlM_valueOf (P := fun o (acc : List String × ρ) =>
      ReadFrom anchors decoder (view initial) o (view acc.2))
      (fun _ _ _ _ ho he => Reads.takeField_view hf ho he) hstart hacc
  · rw [child?_of_isEmptyCollection ht hempty]
    exact rfl

end Records

section Origin

variable {decoder : Decoder α} {o : Option Node} {a : α}

/-- What is in a table was read from the value of its key. -/
theorem ReadFrom.of_get? {m : SortedMap α} {key : String}
    (h : ReadFrom anchors (table decoder) ∅ o m) (ha : m.get? key = some a) :
    ∃ n c, o = some n ∧ child? anchors n (.key key) = some c ∧ ReadAs anchors decoder c a := by
  cases o with
  | none =>
    rw [show m = ∅ from h] at ha
    cases ha
  | some n =>
    have hrel := ReadAs.table h key
    rw [ha] at hrel
    obtain ⟨c, hc, hread⟩ := exists_left_of_rel hrel
    exact ⟨n, c, rfl, hc, hread⟩

theorem ReadFrom.of_getElem? {as : List α} {i : Nat}
    (h : ReadFrom anchors (list decoder) [] o as) (ha : as[i]? = some a) :
    ∃ n c, o = some n ∧ child? anchors n (.index i) = some c ∧ ReadAs anchors decoder c a := by
  cases o with
  | none =>
    rw [show as = [] from h] at ha
    cases ha
  | some n =>
    have hrel := ReadAs.list h i
    rw [ha] at hrel
    obtain ⟨c, hc, hread⟩ := exists_left_of_rel hrel
    exact ⟨n, c, rfl, hc, hread⟩

end Origin

theorem readAs_of_run {decoder : Decoder α} {doc : Document} {a : α}
    (h : decoder.run doc = .ok a) : ReadAs doc.anchors decoder doc.root a :=
  ⟨.root, reads_of_run h⟩

end Decode

end ModuleCompiler
