import ModuleCompiler.Proofs.Decode.Parts
import ModuleCompiler.Settings.Load

/-!
Settings in layers, key by key: a table goes into the table below it and any other value replaces
what is below. A record then takes its fields from what has come together.
-/

namespace ModuleCompiler

open Yaml

namespace SettingValue

section Tables

variable {es base : Entries SettingValue} {v below : SettingValue}

/-- What is under a key when one table lies on another. -/
def over? : Option SettingValue → Option SettingValue → Option SettingValue
  | none, below => below
  | some v, none => some v
  | some v, some below => some (v.onTop below)

@[simp] theorem onTop_table : (table es).onTop (table base) = table (entriesOnTop es base) := by
  simp only [onTop]

theorem onTop_of_left (h : ∀ es, v ≠ table es) : v.onTop below = v := by
  cases v with
  | table es => exact absurd rfl (h es)
  | _ => simp only [onTop]

theorem onTop_of_right (h : ∀ es, below ≠ table es) : v.onTop below = v := by
  cases below with
  | table es => exact absurd rfl (h es)
  | _ => cases v <;> simp only [onTop]

@[simp] theorem entriesOnTop_nil : entriesOnTop [] base = base := by
  simp only [entriesOnTop]

@[simp] theorem entriesOnTop_cons (k : String) :
    entriesOnTop ((k, v) :: es) base =
      entriesOnTop es (Entries.insert k ((Entries.get? k base).elim v v.onTop) base) := by
  rw [entriesOnTop]
  cases Entries.get? k base <;> rfl

theorem get?_entriesOnTop (h : es.Ascending) (base : Entries SettingValue) (k : String) :
    Entries.get? k (entriesOnTop es base) = over? (Entries.get? k es) (Entries.get? k base) := by
  induction es generalizing base with
  | nil =>
    rw [entriesOnTop_nil]
    rfl
  | cons e es ih =>
    obtain ⟨k', v⟩ := e
    obtain ⟨hlt, hes⟩ := List.pairwise_cons.1 h
    rw [entriesOnTop_cons, ih hes, Entries.get?_insert, Entries.get?]
    by_cases hk : k = k'
    · subst hk
      rw [if_pos rfl, if_pos rfl, Entries.get?_eq_none_of_lt hlt]
      cases Entries.get? k base <;> rfl
    · rw [if_neg hk, if_neg hk]

theorem ascending_entriesOnTop (h : base.Ascending) (es : Entries SettingValue) :
    Entries.Ascending (entriesOnTop es base) := by
  induction es generalizing base with
  | nil => rwa [entriesOnTop_nil]
  | cons e es ih =>
    rw [entriesOnTop_cons]
    exact ih (h.insert _ _)

end Tables

/-- If the value is a table, it has each key once. -/
def IsTidy (v : SettingValue) : Prop := ∀ es : Entries SettingValue, v = table es → es.Ascending

section Tidy

open Decode

variable {anchors : Anchors}

theorem isTidy_table {es : Entries SettingValue} (h : es.Ascending) : (table es).IsTidy := by
  rintro _ ⟨⟩
  exact h

theorem isTidy_ofScalarValue (s : ScalarValue) : (ofScalarValue s).IsTidy := by
  cases s <;> exact nofun

theorem isTidy_ofEntries {es : Entries SettingValue} (h : es.Ascending)
    (hes : ∀ k v, es.get? k = some v → v.IsTidy) : (ofEntries es).IsTidy := by
  unfold ofEntries
  cases hv : Entries.get? valueKey es with
  | none => exact isTidy_table h
  | some v => exact hes _ v hv

theorem isTidy_of_variantOf {p : Place} {n : Node} {wrap : SettingValue → SettingValue}
    (h : Reads anchors (variantOf assembly p n) wrap) {v : SettingValue} (hv : v.IsTidy) :
    (wrap v).IsTidy := by
  unfold variantOf at h
  split at h
  · exact h.eq_of_pure ▸ hv
  · obtain rfl := h.eq_of_pure
    exact isTidy_table (List.pairwise_singleton _ _)

theorem isTidy_of_scalar {p : Place} {n : Node} {s : ScalarValue}
    {wrap : SettingValue → SettingValue} (hwrap : Reads anchors (variantOf assembly p n) wrap)
    {v : SettingValue}
    (h : Reads anchors (wrap <$> assembly.scalar p s) v) : v.IsTidy := by
  obtain ⟨w, hw, rfl⟩ := h.map
  exact isTidy_of_variantOf hwrap (hw.eq_of_pure ▸ isTidy_ofScalarValue s)

/-- Whatever is read has tables with each key once. -/
theorem isTidy_of_any {depth : Nat} {path : Path} {n : Node} {v : SettingValue}
    (h : Reads anchors (any assembly depth path n) v) : v.IsTidy := by
  induction depth generalizing path n v with
  | zero =>
    obtain ⟨m, -, h⟩ := Reads.bind h
    obtain ⟨wrap, hwrap, h⟩ := h.bind
    obtain ⟨u, -, h⟩ := h.bind
    cases u with
    | scalar s => exact isTidy_of_scalar hwrap h
    | nothing => exact h.eq_of_pure ▸ nofun
    | _ => exact absurd h (fails_fail _).not_reads
  | succ depth ih =>
    obtain ⟨m, -, h⟩ := Reads.bind h
    obtain ⟨wrap, hwrap, h⟩ := h.bind
    obtain ⟨u, -, h⟩ := h.bind
    cases u with
    | scalar s => exact isTidy_of_scalar hwrap h
    | nothing => exact h.eq_of_pure ▸ nofun
    | seq ns =>
      obtain ⟨vs, -, rfl⟩ := Reads.map h
      exact isTidy_of_variantOf hwrap nofun
    | map es =>
      obtain ⟨vs, hvs, rfl⟩ := Reads.map h
      rw [entries_eq_foldlM] at hvs
      have htidy : vs.Ascending ∧ ∀ k v, vs.get? k = some v → v.IsTidy := by
        refine Reads.foldlM_related (R := fun (vs : Entries SettingValue) _ =>
          vs.Ascending ∧ ∀ k v, vs.get? k = some v → v.IsTidy) ?_
          ⟨List.Pairwise.nil, nofun⟩ hvs hvs
        intro s t e s' t' hs he _
        obtain ⟨k, w, -, ⟨q, hw⟩, rfl⟩ := he.takeEntry
        dsimp only at hw
        split at hw
        · obtain ⟨_, _, hw⟩ := hw.bind
          exact hw.eq_of_pure ▸ hs
        · obtain ⟨v, hv, rfl⟩ := hw.map
          refine ⟨hs.1.insert k v, fun k' v' hv' => ?_⟩
          rw [Entries.get?_insert] at hv'
          split at hv'
          · exact Option.some.inj hv' ▸ ih hv
          · exact hs.2 k' v' hv'
      exact isTidy_of_variantOf hwrap (isTidy_ofEntries htidy.1 htidy.2)

theorem isTidy_fileDecoder {doc : Document} {v : SettingValue} (h : fileDecoder.run doc = .ok v) :
    ∃ es : Entries SettingValue, v = table es ∧ es.Ascending ∧
      ∀ k w, es.get? k = some w → w.IsTidy := by
  obtain ⟨m, hm, h⟩ := (reads_of_run h).bind
  obtain rfl := h.eq_of_pure
  refine ⟨m.entries, rfl, m.ascending, fun k w hw => ?_⟩
  have hrel := ReadAs.table ⟨_, hm⟩ k
  rw [SortedMap.get?, hw] at hrel
  obtain ⟨c, -, q, hread⟩ := exists_left_of_rel hrel
  exact isTidy_of_any hread

end Tidy

end SettingValue

namespace SettingReader

variable {r : SettingReader α} {known : List (FieldReader ρ)} {name : String} {view : ρ → α}

/-- A part is read if it is there, and is as it starts if not. -/
def Gives (r : SettingReader α) (start : α) : Option SettingValue → α → Prop
  | none, a => a = start
  | some v, a => r v = .ok a

/-- The field leaves a view of the record as it is. -/
def FieldReader.Keeps (view : ρ → α) (f : FieldReader ρ) : Prop :=
  ∀ v store, f.read v = .ok store → ∀ x, view (store x) = view x

/-- A field that has a place of its own in the record. -/
structure HasField (known : List (FieldReader ρ)) (name : String) (r : SettingReader α)
    (view : ρ → α) : Prop where
  found : ∃ f store, known.find? (·.name == name) = some f ∧
    (∀ v, f.read v = (r v).map store) ∧ ∀ a x, view (store a x) = a
  others : ∀ f ∈ known, f.name = name ∨ f.Keeps view

theorem map_eq_ok_iff {x : Except ε α} {f : α → β} {b : β} :
    x.map f = .ok b ↔ ∃ a, x = .ok a ∧ f a = b := by
  cases x <;> simp [Except.map]

theorem keeps_field {r : SettingReader β} {store : β → ρ → ρ}
    (h : ∀ b x, view (store b x) = view x) : (field name r store).Keeps view := by
  intro v _ hstore
  obtain ⟨b, -, rfl⟩ := map_eq_ok_iff.1 hstore
  exact h b

theorem inside_eq_ok_iff {key : String} {x : Except SettingError α} {a : α} :
    inside key x = .ok a ↔ x = .ok a :=
  mapError_eq_ok_iff

theorem HasField.view_store (hf : HasField known name r view) {key : String} (hkey : key ≠ name)
    {f : FieldReader ρ} (hfind : known.find? (·.name == key) = some f) {v : SettingValue}
    {store : ρ → ρ} (h : f.read v = .ok store) (x : ρ) : view (store x) = view x := by
  rcases hf.others f (List.mem_of_find?_eq_some hfind) with hname | hkeeps
  · have hfound := List.find?_some hfind
    exact absurd ((beq_iff_eq.1 hfound).symm.trans hname) hkey
  · exact hkeeps v store h x

/-- What a table has under the name of a field is read into the field. -/
theorem gives_of_entries (hf : HasField known name r view) {strict : Bool}
    {es : Entries SettingValue} (hes : es.Ascending) {start x : ρ}
    (h : entries known strict start es = .ok x) : Gives r (view start) (es.get? name) (view x) := by
  induction es generalizing start with
  | nil =>
    cases h
    exact rfl
  | cons e es ih =>
    obtain ⟨k, v⟩ := e
    obtain ⟨hlt, hes⟩ := List.pairwise_cons.1 hes
    rw [Entries.get?]
    cases hfind : known.find? (·.name == k) with
    | none =>
      have hk : name ≠ k := by
        rintro rfl
        obtain ⟨f, _, hfound, _⟩ := hf.found
        cases hfind.symm.trans hfound
      rw [if_neg hk]
      cases strict with
      | true => simp [entries, hfind] at h
      | false => exact ih hes (by simpa [entries, hfind] using h)
    | some f =>
      simp only [entries, hfind] at h
      split at h
      · cases h
      · rename_i store hstore
        rw [inside_eq_ok_iff] at hstore
        have hrest := ih hes h
        by_cases hk : name = k
        · subst hk
          obtain ⟨f', store', hfound, hread, hview⟩ := hf.found
          obtain rfl := Option.some.inj (hfind.symm.trans hfound)
          rw [hread, map_eq_ok_iff] at hstore
          obtain ⟨a, ha, rfl⟩ := hstore
          -- later keys are greater, so nothing goes over this value
          rw [if_pos rfl]
          rw [Entries.get?_eq_none_of_lt hlt] at hrest
          exact hrest.trans (hview a start) ▸ ha
        · rw [if_neg hk]
          rwa [hf.view_store (Ne.symm hk) hfind hstore] at hrest

/-- A list gives the next field its next value, if there is one. -/
theorem places_eq_ok {expected : String} {i : Nat} {f : FieldReader ρ} {fs : List (FieldReader ρ)}
    {acc x : ρ} {vs : List SettingValue} (h : places expected i (f :: fs) acc vs = .ok x) :
    (vs = [] ∧ places expected (i + 1) fs acc [] = .ok x) ∨
      ∃ v rest store, vs = v :: rest ∧ f.read v = .ok store ∧
        places expected (i + 1) fs (store acc) rest = .ok x := by
  cases vs with
  | nil =>
    simp only [places] at h
    split at h
    · exact .inl ⟨rfl, h⟩
    · cases h
  | cons v rest =>
    simp only [places] at h
    split at h
    · cases h
    · rename_i store hstore
      exact .inr ⟨v, rest, store, rfl, inside_eq_ok_iff.1 hstore, h⟩

/-- A record is read from a table, or from a list; a list has its fields in their order. -/
theorem record_eq_ok {title : String} {strict : Bool} {start x : ρ} {v : SettingValue}
    (h : record title known strict start v = .ok x) :
    (∃ es, v = .table es ∧ entries known strict start es = .ok x) ∨
      ∃ vs expected, v = .list vs ∧ places expected 0 known start vs = .ok x := by
  cases v with
  | table es => exact .inl ⟨es, rfl, h⟩
  | list vs => exact .inr ⟨vs, _, rfl, h⟩
  | _ => cases h

end SettingReader

section Records

open SettingReader

theorem OutputSettings.hasField_format :
    HasField OutputSettings.fields "format" OutputFormat.reader OutputSettings.format where
  found := ⟨_, _, rfl, fun _ => rfl, fun _ _ => rfl⟩
  others := List.forall_mem_cons.2
    ⟨.inl rfl, List.forall_mem_singleton.2 (.inr (keeps_field fun _ _ => rfl))⟩

theorem OutputSettings.hasField_pretty :
    HasField OutputSettings.fields "pretty" bool OutputSettings.pretty where
  found := ⟨_, _, rfl, fun _ => rfl, fun _ _ => rfl⟩
  others := List.forall_mem_cons.2
    ⟨.inr (keeps_field fun _ _ => rfl), List.forall_mem_singleton.2 (.inl rfl)⟩

theorem Settings.hasField_output :
    HasField Settings.fields "output" OutputSettings.reader Settings.output where
  found := ⟨_, _, rfl, fun _ => rfl, fun _ _ => rfl⟩
  others := List.forall_mem_cons.2
    ⟨.inr (keeps_field fun _ _ => rfl), List.forall_mem_singleton.2 (.inl rfl)⟩

end Records

namespace Environment

/-- The name begins like those of variables that hold settings. -/
def isMarked (name : String) : Bool := (dropMarker? marker.toList (trim name.toList)).isSome

variable {environment : Environment} {name : String}

theorem path?_of_not_isMarked (h : isMarked name = false) : path? name = none := by
  have hnone : dropMarker? marker.toList (trim name.toList) = none := by
    simpa [isMarked] using h
  rw [path?, hnone]
  rfl

/-- What one variable adds to the layer of those before it. -/
def step (below : SettingValue) (e : String × String) : SettingValue :=
  match path? e.1 with
  | none => below
  | some path => (nest path (SettingText.read e.2)).onTop below

theorem layer_eq_foldl (environment : Environment) :
    layer environment = environment.foldl step (.table []) :=
  rfl

theorem step_of_not_isMarked (h : isMarked name = false) (below : SettingValue) (text : String) :
    step below (name, text) = below := by
  rw [step, path?_of_not_isMarked h]

theorem layer_of_not_isMarked (h : ∀ e ∈ environment, isMarked e.1 = false) :
    layer environment = .table [] := by
  rw [layer_eq_foldl]
  induction environment with
  | nil => rfl
  | cons e environment ih =>
    obtain ⟨he, hrest⟩ := List.forall_mem_cons.1 h
    rw [List.foldl_cons, step_of_not_isMarked he]
    exact ih hrest

end Environment

namespace Settings

open SettingValue

def baseOutput : Entries SettingValue := [("format", .text "json"), ("pretty", .bool true)]

/-- The defaults below a file and the environment. -/
def baseEntries : Entries SettingValue := [("logging", .null), ("output", .table baseOutput)]

theorem ofTree_base : ofTree base.toTree = .table baseEntries := rfl

theorem ascending_baseEntries : baseEntries.Ascending :=
  Entries.ascending_of_keys ["logging", "output"] rfl (by decide +kernel)

theorem ascending_baseOutput : baseOutput.Ascending :=
  Entries.ascending_of_keys ["format", "pretty"] rfl (by decide +kernel)

/-- All layers when a file is asked for. -/
def layersOf (path : String) (file : SettingValue) (environment : Environment) : Layers :=
  [(.defaults, ofTree base.toTree), (.file path, file), (.environment, environment.layer)]

theorem ofFile_eq_ok_iff {path : String} {content : Option Document} {environment : Environment}
    {s : Settings} : ofFile path content environment = .ok s ↔
      ∃ file, fileLayer path content = .ok file ∧
        Layers.read (layersOf path file environment) = .ok s := by
  rw [ofFile, mapError_eq_ok_iff, bind_eq_ok_iff]
  rfl

theorem read_eq_ok_iff {layers : Layers} {s : Settings} :
    layers.read = .ok s ↔ reader layers.join = .ok s :=
  mapError_eq_ok_iff

theorem join_layersOf {path : String} {fs ls : Entries SettingValue} {environment : Environment}
    (h : environment.layer = .table ls) :
    (layersOf path (.table fs) environment).join =
      .table (entriesOnTop ls (entriesOnTop fs baseEntries)) := by
  have hbase : entriesOnTop baseEntries [] = baseEntries := rfl
  simp only [Layers.join, layersOf, List.foldl_cons, List.foldl_nil, ofTree_base, h, onTop_table,
    hbase]

end Settings

end ModuleCompiler
