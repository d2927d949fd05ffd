import ModuleCompiler.Proofs.Decode.Carried
import ModuleCompiler.Proofs.EntryOrder
import ModuleCompiler.Proofs.Settings.Layering
import ModuleCompiler.Proofs.Settings.Overriding

/-!
Settings that are printed and read again. What has been printed says everything that flags of the
command line have left, so what lies below it does not show, and the same flags change nothing more.
-/

namespace ModuleCompiler

open Yaml

/-- A document that is well-formed to its end, the only one, and says what the tree says. -/
structure Yaml.Document.Carries (doc : Document) (t : Tree) : Prop where
  root : t.CarriedBy doc.root
  fault : doc.fault = none
  continues : doc.continues = false

def Yaml.Document.carries (t : Tree) : Document → Bool
  | ⟨root, _, _, fault, continues⟩ => t.isIn root && fault.isNone && !continues

theorem Yaml.Document.carries_of_check {doc : Document} {t : Tree} (h : doc.carries t = true) :
    doc.Carries t := by
  obtain ⟨root, anchored, eventCount, fault, continues⟩ := doc
  simp only [carries, Bool.and_eq_true, Option.isNone_iff_eq_none, Bool.not_eq_true'] at h
  exact ⟨Tree.carriedBy_of_isIn h.1.1, h.1.2, h.2⟩

namespace SettingValue

section Trees

open Decode

variable {t : Tree} {fs : List (String × Tree)} {m : SortedMap Tree} {levels : Nat}

theorem ofTree_of_isScalar {s : ScalarValue} (h : t.IsScalar s) : ofTree t = ofScalarValue s := by
  cases h <;> rfl

theorem ofFields_eq_foldr (fs : List (String × Tree)) :
    ofFields fs = fs.foldr (fun f acc => Entries.insert f.1 (ofTree f.2) acc) [] := by
  induction fs with
  | nil => rfl
  | cons f fs ih => rw [ofFields, ih, List.foldr_cons]

/-- The order of fields does not show in a table. -/
theorem ofTree_record (h : fs.Perm m.toList) :
    ofTree (.record fs) = .table (m.map fun _ => ofTree).entries := by
  have hreverse := Entries.foldl_insert_of_perm ((List.reverse_perm fs).trans h) ofTree
  rw [List.foldl_reverse] at hreverse
  rw [ofTree, ofFields_eq_foldr, hreverse]

/-- Whatever carries the tree is read as the same value, where so many levels may open. -/
def IsReread (t : Tree) (levels : Nat) : Prop :=
  ∀ depth path n, levels ≤ depth → t.CarriedBy n → any assembly depth path n = pure (ofTree t)

theorem isReread_leaf {s : ScalarValue} (h : t.IsScalar s) (levels : Nat) : IsReread t levels := by
  intro depth path n _ hn
  cases hn with
  | @scalar _ text v hv htag hs =>
    rw [ofTree_of_isScalar hv]
    cases depth <;>
      simp [any, resolve, variantOf, tagOf?, htag, content, hs, assembly]
  | list _ => cases h
  | record _ => cases h

theorem IsReread.mono (h : IsReread t levels) {more : Nat} (hmore : levels ≤ more) :
    IsReread t more :=
  fun depth path n hdepth => h depth path n (Nat.le_trans hmore hdepth)

/-- The keys of a table that is nothing but a table. -/
def IsPlainKey (key : String) : Prop := key ≠ idKey ∧ key ≠ valueKey

instance (key : String) : Decidable (IsPlainKey key) :=
  inferInstanceAs (Decidable (key ≠ idKey ∧ key ≠ valueKey))

theorem ofEntries_of_ne {es : Entries SettingValue} (h : ∀ e ∈ es, e.1 ≠ valueKey) :
    ofEntries es = .table es := by
  rw [ofEntries, Entries.get?_eq_none h]
  rfl

theorem ofEntries_foldl_insert (hfs : fs.Perm m.toList) (hkeys : ∀ f ∈ fs, IsPlainKey f.1) :
    ofEntries (fs.foldl (fun acc f => Entries.insert f.1 (ofTree f.2) acc) []) =
      ofTree (.record fs) := by
  rw [Entries.foldl_insert_of_perm hfs ofTree, ofTree_record hfs, ofEntries_of_ne]
  intro e he
  obtain ⟨f, hf, rfl⟩ := List.mem_map.1 he
  exact (hkeys f (hfs.mem_iff.2 hf)).2

theorem IsReread.record (h : ∀ f ∈ fs, IsReread f.2 levels) (hfs : fs.Perm m.toList)
    (hkeys : ∀ f ∈ fs, IsPlainKey f.1) : IsReread (.record fs) (levels + 1) := by
  intro depth path n hdepth hn
  obtain ⟨depth, rfl⟩ := Nat.exists_eq_add_of_le' (Nat.one_le_of_lt hdepth)
  cases hn with
  | scalar hv => cases hv
  | record hes =>
    simp only [any, resolve, pure_bind, variantOf, tagOf?, Option.bind_none, content]
    rw [entries_carried (g := fun f => some (ofTree f.2)) ((List.map_id fs).symm ▸ hes), map_pure]
    · exact congrArg pure (ofEntries_foldl_insert hfs hkeys)
    · intro f hf q n hq hn
      have hdropped : assembly.dropped f.1 = none := if_neg (hkeys f hf).1
      simp only [id, hdropped]
      rw [h f hf depth q.path n (by omega) hn, map_pure]

/-- A file is read as its tree, whatever the keys at its root. -/
theorem fileDecoder_carried (h : ∀ f ∈ fs, IsReread f.2 levels) (hfs : fs.Perm m.toList) {p : Place}
    (hp : levels < p.depth) {n : Node} (hn : (Tree.record fs).CarriedBy n) :
    fileDecoder p n = pure (ofTree (.record fs)) := by
  cases hn with
  | scalar hv => cases hv
  | @record _ mark es hes =>
    have hdepth : (p.enter (.map ⟨none, mark⟩ es)).depth = p.depth := rfl
    have htable : Decode.table decoder p (.map ⟨none, mark⟩ es) = pure (m.map fun _ => ofTree) := by
      simp only [Decode.table, resolve, pure_bind]
      rw [descend_of_pos (by omega),
        entries_carried (g := fun f => ofTree f.2) ((List.map_id fs).symm ▸ hes)]
      · exact congrArg pure (SortedMap.foldl_insert_of_perm hfs ofTree)
      · intro f hf q n hq hn
        exact h f hf q.depth q.path n (by omega) hn
    rw [fileDecoder, htable, ofTree_record hfs]
    rfl

end Trees

end SettingValue

section Readers

open SettingReader SettingValue

theorem isReread_countTree (n : Option Nat) (levels : Nat) :
    IsReread (LogSection.countTree n) levels := by
  cases n with
  | none => exact isReread_leaf .null levels
  | some n => exact isReread_leaf (.integer n) levels

theorem natural_of_lt {bound n : Nat} (h : n < bound) (expected : String) :
    natural bound expected (.integer n false) = .ok n := by
  have hfits : (0 : Int) ≤ n ∧ (n : Int) < bound := ⟨by omega, by omega⟩
  rw [natural, if_pos hfits]
  rfl

theorem option_countTree {r : SettingReader α} {toNat : α → Nat}
    (h : ∀ a, r (.integer (toNat a) false) = .ok a) (a : Option α) :
    option r (ofTree (LogSection.countTree (a.map toNat))) = .ok a := by
  cases a with
  | none => rfl
  | some a =>
    have hsign : decide ((toNat a : Int) < 0) = false := by simp
    change (r (.integer (toNat a) (decide ((toNat a : Int) < 0)))).map some = .ok (some a)
    rw [hsign, h]
    rfl

theorem tableEntries_mapValues {r : SettingReader α} {value : α → SettingValue}
    (h : ∀ a, r (value a) = .ok a) (es : Entries α) (m : SortedMap α) :
    tableEntries r m (es.mapValues fun _ => value) =
      .ok (es.foldl (fun m e => m.insert e.1 e.2) m) := by
  induction es generalizing m with
  | nil => rfl
  | cons e es ih =>
    have hrest := ih (m.insert e.1 e.2)
    simp only [Entries.mapValues, List.map_cons, tableEntries, h] at hrest ⊢
    exact hrest

namespace LogSection

theorem uint32_toNat (n : UInt32) : uint32 (.integer n.toNat false) = .ok n := by
  have hbound : n.toNat < wordBound 32 := n.toNat_lt
  rw [uint32, natural_of_lt hbound]
  exact congrArg Except.ok (by simp)

theorem uint64_toNat (expected : String) (n : UInt64) :
    uint64 expected (.integer n.toNat false) = .ok n := by
  have hbound : n.toNat < wordBound 64 := n.toNat_lt
  rw [uint64, natural_of_lt hbound]
  exact congrArg Except.ok (by simp)

variable (s : LogSection)

/-- The fields in the order in which they are printed, which is that of their names. -/
def trees : SortedMap Tree where
  entries := [
    ("console_level", .text s.consoleLevel),
    ("file", .text s.file),
    ("file_level", .text s.fileLevel),
    ("max_age_days", countTree (s.maxAgeDays.map (·.toNat))),
    ("max_backups", countTree (s.maxBackups.map (·.toNat))),
    ("max_size_mb", countTree (s.maxSizeMb.map (·.toNat)))]
  ascending := Entries.ascending_of_keys
    ["console_level", "file", "file_level", "max_age_days", "max_backups", "max_size_mb"] rfl
    (by decide +kernel)

theorem ofTree_toTree : ofTree s.toTree = .table (s.trees.map fun _ => ofTree).entries :=
  ofTree_record (List.Perm.refl s.trees.toList)

theorem isReread : IsReread s.toTree 1 := by
  refine IsReread.record ?_ (List.Perm.refl s.trees.toList) ?_
  · simp [isReread_countTree, isReread_leaf (.text _)]
  · simp [IsPlainKey, idKey, valueKey]

theorem reader_ofTree : reader (ofTree s.toTree) = .ok s := by
  have hdays := option_countTree uint32_toNat s.maxAgeDays
  have hbackups := option_countTree (uint64_toNat "usize") s.maxBackups
  have hsize := option_countTree (uint64_toNat "u64") s.maxSizeMb
  have hrecord : record "Section" fields false { consoleLevel := "" } (ofTree s.toTree) = .ok s := by
    rw [ofTree_toTree]
    simp [trees, SortedMap.map, Entries.mapValues, ofTree, record, entries, fields, field, levelField,
      hdays, hbackups, hsize, SettingReader.text, inside, Except.map, Except.mapError]
  rw [reader, hrecord, ofTree_toTree]
  rfl

end LogSection

namespace LogSections

variable {sections : LogSections} {order : List (String × LogSection)}

/-- No name of a section is one of the keys that make something else of a table. -/
def HasPlainNames (sections : LogSections) : Prop := ∀ name ∈ sections.keys, IsPlainKey name

instance (sections : LogSections) : Decidable sections.HasPlainNames :=
  inferInstanceAs (Decidable (∀ name ∈ sections.keys, IsPlainKey name))

/-- What is printed of sections in some order. -/
def treesOf (order : List (String × LogSection)) : List (String × Tree) :=
  order.map fun e => (e.1, e.2.toTree)

theorem perm_treesOf (h : order.Perm sections.toList) :
    (treesOf order).Perm (sections.map fun _ => LogSection.toTree).toList :=
  h.map _

theorem ofTree_treesOf (h : order.Perm sections.toList) : ofTree (.record (treesOf order)) =
    .table (sections.entries.mapValues fun _ s => ofTree s.toTree) := by
  rw [ofTree_record (perm_treesOf h)]
  simp [SortedMap.map, Entries.mapValues]

theorem isReread (h : order.Perm sections.toList) (hnames : sections.HasPlainNames) :
    IsReread (.record (treesOf order)) 2 := by
  refine IsReread.record ?_ (perm_treesOf h) ?_
  · intro f hf
    obtain ⟨e, -, rfl⟩ := List.mem_map.1 hf
    exact e.2.isReread
  · intro f hf
    obtain ⟨e, he, rfl⟩ := List.mem_map.1 hf
    exact hnames e.1 (List.mem_map_of_mem (h.mem_iff.1 he))

theorem reader_ofTree (h : order.Perm sections.toList) :
    option (SettingReader.table LogSection.reader) (ofTree (.record (treesOf order))) =
      .ok (some sections) := by
  have hread : SettingReader.table LogSection.reader
      (.table (sections.entries.mapValues fun _ s => ofTree s.toTree)) = .ok sections := by
    rw [SettingReader.table, tableEntries_mapValues LogSection.reader_ofTree]
    exact congrArg Except.ok (SortedMap.ofList_toList sections)
  rw [ofTree_treesOf h]
  exact congrArg (Except.map some) hread

end LogSections

namespace OutputSettings

variable (o : OutputSettings)

def trees : SortedMap Tree where
  entries := [("format", .text o.format.name), ("pretty", .bool o.pretty)]
  ascending := Entries.ascending_of_keys ["format", "pretty"] rfl (by decide +kernel)

theorem ofTree_outputTree : ofTree (Settings.outputTree o) =
    .table [("format", .text o.format.name), ("pretty", .bool o.pretty)] :=
  ofTree_record (List.Perm.refl o.trees.toList)

theorem isReread : IsReread (Settings.outputTree o) 1 := by
  refine IsReread.record ?_ (List.Perm.refl o.trees.toList) ?_
  · simp [isReread_leaf (.text _), isReread_leaf (.bool _)]
  · simp [IsPlainKey, idKey, valueKey]

theorem reader_ofTree : reader (ofTree (Settings.outputTree o)) = .ok o := by
  have hformat : OutputFormat.reader (.text o.format.name) = .ok o.format := by
    cases o.format <;> rfl
  rw [ofTree_outputTree]
  simp [reader, record, entries, fields, field, hformat, SettingReader.bool, inside, Except.map,
    Except.mapError]

end OutputSettings

end Readers

namespace Settings

open SettingReader SettingValue

variable {sections : LogSections} {order : List (String × LogSection)} {output : OutputSettings}

section Printing

/-- What is printed of settings whose sections come in some order. -/
def printedTrees (order : List (String × LogSection)) (output : OutputSettings) :
    SortedMap Tree where
  entries := [("logging", .record (LogSections.treesOf order)), ("output", outputTree output)]
  ascending := Entries.ascending_of_keys ["logging", "output"] rfl (by decide +kernel)

def printedTree (order : List (String × LogSection)) (output : OutputSettings) : Tree :=
  .record (printedTrees order output).toList

theorem toTree_eq_printedTree (sections : LogSections) (output : OutputSettings) :
    toTree ⟨some sections, output⟩ = printedTree sections.toList output :=
  rfl

theorem ofTree_printedTree (order : List (String × LogSection)) (output : OutputSettings) :
    ofTree (printedTree order output) =
      .table [("logging", ofTree (.record (LogSections.treesOf order))),
        ("output", ofTree (outputTree output))] :=
  ofTree_record (List.Perm.refl (printedTrees order output).toList)

theorem run_printedTree (horder : order.Perm sections.toList) (hnames : sections.HasPlainNames)
    {doc : Document} (hdoc : doc.Carries (printedTree order output)) :
    fileDecoder.run doc = .ok (ofTree (printedTree order output)) := by
  have htrees : ∀ f ∈ (printedTrees order output).toList, IsReread f.2 2 :=
    List.forall_mem_cons.2 ⟨LogSections.isReread horder hnames,
      List.forall_mem_singleton.2 (output.isReread.mono (by decide))⟩
  have hlevels : 2 < Decode.Place.root.depth := by decide
  have hroot := fileDecoder_carried htrees (List.Perm.refl _) hlevels hdoc.root
  rw [Decoder.run_of_pure hroot hdoc.fault, hdoc.continues]
  rfl

theorem reader_printedTree (horder : order.Perm sections.toList) (output : OutputSettings) :
    reader (ofTree (printedTree order output)) = .ok ⟨some sections, output⟩ := by
  have hlogging := LogSections.reader_ofTree horder
  have houtput := output.reader_ofTree
  rw [ofTree_printedTree]
  simp [reader, record, entries, fields, field, hlogging, houtput, inside, Except.map,
    Except.mapError]

theorem entriesOnTop_base (ls : Entries SettingValue) (format pretty : SettingValue) :
    entriesOnTop [("logging", .table ls),
      ("output", .table [("format", format), ("pretty", pretty)])] baseEntries =
      [("logging", .table ls), ("output", .table [("format", format), ("pretty", pretty)])] := by
  have hformat : "format" < "pretty" := by decide +kernel
  have hlogging : "logging" < "output" := by decide +kernel
  simp [baseEntries, baseOutput, Entries.insert_cons_self, Entries.insert_cons_of_lt hformat,
    Entries.insert_cons_of_lt hlogging, Entries.get?, onTop_of_right]

/-- Settings with all their parts are loaded from any document that carries them. -/
theorem load_carried (horder : order.Perm sections.toList) (hnames : sections.HasPlainNames)
    {doc : Document} (hdoc : doc.Carries (printedTree order output)) (path : String)
    {environment : Environment} (henv : ∀ e ∈ environment, Environment.isMarked e.1 = false) :
    load (some ⟨path, some doc⟩) environment = .ok ⟨some sections, output⟩ := by
  have htable : ofTree (printedTree order output) = .table [
      ("logging", .table (sections.entries.mapValues fun _ s => ofTree s.toTree)),
      ("output", .table
        [("format", .text output.format.name), ("pretty", .bool output.pretty)])] := by
    rw [ofTree_printedTree, LogSections.ofTree_treesOf horder, output.ofTree_outputTree]
  refine ofFile_eq_ok_iff.2 ⟨_, mapError_eq_ok_iff.2 (run_printedTree horder hnames hdoc), ?_⟩
  -- the file has all keys that the defaults have, so what is read is the file's tree again
  rw [read_eq_ok_iff, htable, join_layersOf (Environment.layer_of_not_isMarked henv),
    entriesOnTop_nil, entriesOnTop_base, ← htable]
  exact reader_printedTree horder output

/-- Settings that flags have gone over are printed, their sections in whatever order, and the text is
loaded where no variable holds a setting: that gives the same settings, and the same flags leave them
so. -/
theorem load_printed (s : Settings) (o : Overrides) {sections : LogSections}
    (hsections : (s.override o).logging = some sections) (hnames : sections.HasPlainNames)
    {order : List (String × LogSection)} (horder : order.Perm sections.toList)
    (hdoc : (Document.ofBytes (printedTree order (s.override o).output).toYaml.toUTF8).Carries
      (printedTree order (s.override o).output))
    (path : String) {environment : Environment}
    (henv : ∀ e ∈ environment, Environment.isMarked e.1 = false) :
    ∃ loaded, load (some ⟨path,
        some (.ofBytes (printedTree order (s.override o).output).toYaml.toUTF8)⟩) environment =
          .ok loaded ∧
      loaded.override o = s.override o := by
  have hload := load_carried horder hnames hdoc path henv
  have hs : (⟨some sections, (s.override o).output⟩ : Settings) = s.override o := by
    rw [← hsections]
  rw [hs] at hload
  exact ⟨_, hload, override_override s o⟩

/-- Logging for one part, and for nothing by default. -/
def apiSettings : Settings where
  logging := some (.ofList [("api", { consoleLevel := "error", maxBackups := some 0 })])
  output := { pretty := false }

def yamlOverrides : Overrides where
  format := some .yaml
  verbosity := 1

theorem load_printed_api :
    ∃ loaded, load (some ⟨"config.yaml",
        some (.ofBytes (apiSettings.override yamlOverrides).toYaml.toUTF8)⟩) [("PATH", "/bin")] =
          .ok loaded ∧
      loaded.override yamlOverrides = apiSettings.override yamlOverrides := by
  have hnames : (raiseVerbosity (apiSettings.logging.getD .standard) 1).HasPlainNames := by
    decide +kernel
  exact load_printed apiSettings yamlOverrides rfl hnames (List.Perm.refl _)
    (Document.carries_of_check (by decide +kernel)) "config.yaml" (by decide +kernel)

/-- A section with the name of a key whose value is not kept. -/
def idSettings : Settings where
  logging := some (.ofList [(idKey, { consoleLevel := "info" })])

def idText : String :=
  "logging:\n  ___figment_value_id:\n    console_level: info\n    file: ''\n    file_level: ''\n" ++
    "    max_age_days: null\n    max_backups: null\n    max_size_mb: null\n" ++
    "output:\n  format: json\n  pretty: true\n"

theorem exists_unread_print :
    (idSettings.override {}).toYaml = idText ∧
    (Document.ofBytes idText.toUTF8).Carries (idSettings.override {}).toTree ∧
      ∃ e, load (some ⟨"config.yaml", some (.ofBytes idText.toUTF8)⟩) [] = .error e := by
  -- one evaluation, since the text is read for both
  have hread : ((Document.ofBytes idText.toUTF8).carries (idSettings.override {}).toTree &&
      (load (some ⟨"config.yaml", some (.ofBytes idText.toUTF8)⟩) []).toOption.isNone) = true := by
    decide +kernel
  obtain ⟨hcarries, hload⟩ := Bool.and_eq_true_iff.1 hread
  exact ⟨by decide +kernel, Document.carries_of_check hcarries, exists_error_of_toOption hload⟩

end Printing

end Settings

end ModuleCompiler
