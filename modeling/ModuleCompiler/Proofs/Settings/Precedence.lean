import Mathlib.Data.List.Induction
import ModuleCompiler.Proofs.Settings.Layering
import ModuleCompiler.Proofs.Settings.VariableText

/-!
Where the output settings come from if a file is asked for: from variables of the environment, else
from the file, else from the defaults. Without a file only the defaults count, whatever the variables
say.
-/

namespace ModuleCompiler

open SettingReader

namespace Environment

def formatVariable : String := "MODFILE__OUTPUT__FORMAT"

def prettyVariable : String := "MODFILE__OUTPUT__PRETTY"

/-- Of all variables for settings there are those for the output at most, each of them once. -/
structure SetsOutputOnly (environment : Environment) : Prop where
  names : ∀ e ∈ environment, isMarked e.1 = true → e.1 = formatVariable ∨ e.1 = prettyVariable
  distinct : (environment.map Prod.fst).Nodup

def value? (environment : Environment) (name : String) : Option SettingValue :=
  (environment.lookup name).map SettingText.read

/-- What variables for the format and for pretty printing set, if they are there. -/
def outputEntries (format pretty : Option SettingValue) : Entries SettingValue :=
  (format.map ("format", ·)).toList ++ (pretty.map ("pretty", ·)).toList

/-- What they say about the output, as a whole. -/
def overlay? (format pretty : Option SettingValue) : Option SettingValue :=
  if format.isSome || pretty.isSome then some (.table (outputEntries format pretty)) else none

def overlayEntries (format pretty : Option SettingValue) : Entries SettingValue :=
  ((overlay? format pretty).map ("output", ·)).toList

section Layer

variable {environment : Environment} {e : String × String} {text : String}
  {format pretty : Option SettingValue}

theorem path?_formatVariable : path? formatVariable = some ["output", "format"] := by decide +kernel

theorem path?_prettyVariable : path? prettyVariable = some ["output", "pretty"] := by decide +kernel

theorem isMarked_formatVariable : isMarked formatVariable = true := by decide +kernel

theorem isMarked_prettyVariable : isMarked prettyVariable = true := by decide +kernel

theorem format_lt_pretty : "format" < "pretty" := by decide +kernel

theorem insert_format (v w : SettingValue) :
    Entries.insert "format" v [("pretty", w)] = [("format", v), ("pretty", w)] :=
  Entries.insert_of_lt (List.forall_mem_singleton.2 format_lt_pretty) v

theorem insert_pretty (v w : SettingValue) :
    Entries.insert "pretty" v [("format", w)] = [("format", w), ("pretty", v)] :=
  Entries.insert_cons_of_lt format_lt_pretty v w []

theorem step_format : step (.table (overlayEntries none pretty)) (formatVariable, text) =
    .table (overlayEntries (some (SettingText.read text)) pretty) := by
  rw [step, path?_formatVariable]
  cases pretty with
  | none => rfl
  | some p =>
    simp [overlayEntries, overlay?, outputEntries, nest, Entries.get?, Entries.insert_cons_self,
      insert_format]

theorem step_pretty : step (.table (overlayEntries format none)) (prettyVariable, text) =
    .table (overlayEntries format (some (SettingText.read text))) := by
  rw [step, path?_prettyVariable]
  cases format with
  | none => rfl
  | some f =>
    simp [overlayEntries, overlay?, outputEntries, nest, Entries.get?, Entries.insert_cons_self,
      insert_pretty]

theorem SetsOutputOnly.of_append (h : SetsOutputOnly (environment ++ [e])) :
    environment.SetsOutputOnly ∧ e.1 ∉ environment.map Prod.fst := by
  obtain ⟨hnames, hdistinct⟩ := h
  rw [List.map_append, List.nodup_append] at hdistinct
  refine ⟨⟨fun e' he' => hnames e' (List.mem_append_left _ he'), hdistinct.1⟩, fun he => ?_⟩
  exact hdistinct.2.2 _ he _ (List.mem_map_of_mem (List.mem_singleton_self e)) rfl

theorem value?_append (name : String) :
    value? (environment ++ [e]) name =
      (value? environment name).or (if name = e.1 then some (SettingText.read e.2) else none) := by
  obtain ⟨name', text⟩ := e
  rw [value?, value?, List.lookup_append, Option.map_or, List.lookup_singleton]
  congr 1
  by_cases hname : name = name' <;> simp [hname]

theorem value?_eq_none {name : String} (h : name ∉ environment.map Prod.fst) :
    value? environment name = none := by
  have hlookup : environment.lookup name = none := by
    rw [List.lookup_eq_none_iff]
    intro e he
    exact bne_iff_ne.2 fun hname => h (hname ▸ List.mem_map_of_mem he)
  rw [value?, hlookup]
  rfl

theorem layer_of_setsOutputOnly (h : environment.SetsOutputOnly) : layer environment =
    .table (overlayEntries (value? environment formatVariable)
      (value? environment prettyVariable)) := by
  have hne : formatVariable ≠ prettyVariable := by decide
  -- from the end, since the layer is built up from the front
  induction environment using List.reverseRecOn with
  | nil => rfl
  | append_singleton environment e ih =>
    obtain ⟨hbefore, hnew⟩ := h.of_append
    rw [layer_eq_foldl, List.foldl_append, ← layer_eq_foldl, ih hbefore, value?_append,
      value?_append, List.foldl_cons, List.foldl_nil]
    obtain ⟨name, text⟩ := e
    cases hmarked : isMarked name with
    | false =>
      have hnot : ∀ other, isMarked other = true → other ≠ name := by
        rintro other hother rfl
        cases hmarked.symm.trans hother
      rw [step_of_not_isMarked hmarked, if_neg (hnot _ isMarked_formatVariable),
        if_neg (hnot _ isMarked_prettyVariable)]
      simp
    | true =>
      rcases h.names (name, text) (by simp) hmarked with hname | hname
      · obtain rfl : name = formatVariable := hname
        rw [value?_eq_none hnew, step_format, if_pos rfl, if_neg hne.symm]
        simp
      · obtain rfl : name = prettyVariable := hname
        rw [value?_eq_none hnew, step_pretty, if_pos rfl, if_neg hne]
        simp

end Layer

end Environment

namespace SettingValue

variable {es fs : Entries SettingValue} {v below : SettingValue}

theorem ne_null_of_onTop (hv : v ≠ .null) : v.onTop below ≠ .null := by
  by_cases htable : ∃ es, v = .table es
  · obtain ⟨es, rfl⟩ := htable
    by_cases hbelow : ∃ fs, below = .table fs
    · obtain ⟨fs, rfl⟩ := hbelow
      rw [onTop_table]
      exact nofun
    · rwa [onTop_of_right fun fs hfs => hbelow ⟨fs, hfs⟩]
  · rwa [onTop_of_left fun es hes => htable ⟨es, hes⟩]

/-- Values that are not nothing do not come in front of one that is. -/
theorem head_of_entriesOnTop (hes : Entries.NullFree es) {k : String} {rest : Entries SettingValue}
    (h : entriesOnTop es fs = (k, .null) :: rest) : ∃ rest', fs = (k, .null) :: rest' := by
  induction es generalizing fs with
  | nil =>
    rw [entriesOnTop_nil] at h
    exact ⟨rest, h⟩
  | cons e es ih =>
    obtain ⟨k', v⟩ := e
    obtain ⟨hv, hes⟩ := List.forall_mem_cons.1 hes
    rw [entriesOnTop_cons] at h
    have hjoined : (Entries.get? k' fs).elim v v.onTop ≠ .null := by
      cases Entries.get? k' fs with
      | none => exact hv
      | some below => exact ne_null_of_onTop hv
    obtain ⟨rest', hinsert⟩ := ih hes h
    generalize (Entries.get? k' fs).elim v v.onTop = joined at hjoined hinsert
    cases fs with
    | nil =>
      cases hinsert
      exact absurd rfl hjoined
    | cons f fs =>
      obtain ⟨k₁, v₁⟩ := f
      simp only [Entries.insert] at hinsert
      split at hinsert
      · cases hinsert
        exact absurd rfl hjoined
      · split at hinsert
        · cases hinsert
          exact absurd rfl hjoined
        · cases hinsert
          exact ⟨fs, rfl⟩

end SettingValue

section Parts

variable {r : SettingReader α} {start a : α} {es fs : Entries SettingValue}

theorem OutputFormat.reader_table_eq_ok_iff {f : OutputFormat} :
    OutputFormat.reader (.table es) = .ok f ↔
      ∃ k rest, es = (k, .null) :: rest ∧ OutputFormat.ofVariant k = .ok f := by
  cases es with
  | nil => exact ⟨nofun, nofun⟩
  | cons e es =>
    obtain ⟨k, v⟩ := e
    simp only [OutputFormat.reader, inside_eq_ok_iff]
    cases hk : OutputFormat.ofVariant k with
    | error e => simp [hk]
    | ok g =>
      cases v <;> simp [hk, fail]

/-- Where a part of the output settings comes from: from what a variable sets, else from what the
file gives, else it is as it starts. Tables of both go together, so there the file's part stays. -/
inductive Origin (r : SettingReader α) (start : α) (set? given? : Option SettingValue) : α → Prop
  | set {v : SettingValue} {a : α} : set? = some v → r v = .ok a → Origin r start set? given? a
  | given {v : SettingValue} {a : α} : set? = none → given? = some v → r v = .ok a →
      Origin r start set? given? a
  | start : set? = none → given? = none → Origin r start set? given? start
  | joined {es fs : Entries SettingValue} {a : α} : set? = some (.table es) →
      given? = some (.table fs) → r (.table fs) = .ok a → Origin r start set? given? a

/-- What is laid over a table does not change what is read of it. -/
def SeesThrough (r : SettingReader α) : Prop :=
  ∀ (es fs : Entries SettingValue) (a : α), Entries.NullFree es →
    r (.table (SettingValue.entriesOnTop es fs)) = .ok a → r (.table fs) = .ok a

theorem OutputFormat.seesThrough_reader : SeesThrough OutputFormat.reader := by
  intro es fs f hes h
  obtain ⟨k, rest, hjoined, hk⟩ := OutputFormat.reader_table_eq_ok_iff.1 h
  obtain ⟨rest', hfs⟩ := SettingValue.head_of_entriesOnTop hes hjoined
  exact OutputFormat.reader_table_eq_ok_iff.2 ⟨k, rest', hfs, hk⟩

theorem seesThrough_bool : SeesThrough SettingReader.bool := nofun

variable {set? given? : Option SettingValue} {d v : SettingValue}

theorem over?_some (hd : ∀ es, d ≠ .table es) (given? : Option SettingValue) :
    SettingValue.over? given? (some d) = some (given?.getD d) := by
  cases given? with
  | none => rfl
  | some v => exact congrArg some (SettingValue.onTop_of_right hd)

theorem origin_of_over? (hr : SeesThrough r) (hd : ∀ es, d ≠ .table es) (hstart : r d = .ok start)
    (hset : ∀ es, set? = some (.table es) → Entries.NullFree es)
    (h : Gives r start (SettingValue.over? set? (SettingValue.over? given? (some d))) a) :
    Origin r start set? given? a := by
  rw [over?_some hd] at h
  cases set? with
  | none =>
    cases given? with
    | none =>
      obtain rfl := Except.ok.inj (hstart.symm.trans h)
      exact .start rfl rfl
    | some w => exact .given rfl rfl h
  | some v =>
    change r (v.onTop (given?.getD d)) = .ok a at h
    by_cases hv : ∃ es, v = .table es
    · obtain ⟨es, rfl⟩ := hv
      by_cases hgiven : ∃ fs, given?.getD d = .table fs
      · obtain ⟨fs, hfs⟩ := hgiven
        -- two tables come together, and the one below decides what is read
        rw [hfs, SettingValue.onTop_table] at h
        cases given? with
        | none => exact absurd hfs (hd fs)
        | some w =>
          obtain rfl : w = .table fs := hfs
          exact .joined rfl rfl (hr es fs a (hset es rfl) h)
      · rw [SettingValue.onTop_of_right fun fs hfs => hgiven ⟨fs, hfs⟩] at h
        exact .set rfl h
    · rw [SettingValue.onTop_of_left fun es hes => hv ⟨es, hes⟩] at h
      exact .set rfl h

theorem origin_of_gives_set (h : Gives r start set? a) : Origin r start set? none a := by
  cases set? with
  | none => exact h ▸ .start rfl rfl
  | some v => exact .set rfl h

theorem origin_of_gives_given (h : Gives r start given? a) : Origin r start none given? a := by
  cases given? with
  | none => exact h ▸ .start rfl rfl
  | some v => exact .given rfl rfl h

end Parts

namespace OutputSettings

variable {o : OutputSettings} {v : SettingValue}

theorem gives_of_table {es : Entries SettingValue} (hes : es.Ascending)
    (h : reader (.table es) = .ok o) :
    Gives OutputFormat.reader .json (es.get? "format") o.format ∧
      Gives bool true (es.get? "pretty") o.pretty :=
  ⟨gives_of_entries hasField_format hes h, gives_of_entries hasField_pretty hes h⟩

theorem gives_of_list {vs : List SettingValue} (h : reader (.list vs) = .ok o) :
    Gives OutputFormat.reader .json vs[0]? o.format ∧ Gives bool true vs[1]? o.pretty := by
  change places _ 0 fields {} vs = .ok o at h
  rcases places_eq_ok h with ⟨rfl, h⟩ | ⟨v, vs, _, rfl, hstore, h⟩
  · rcases places_eq_ok h with ⟨-, h⟩ | ⟨_, _, _, hcons, _⟩
    · cases h
      exact ⟨rfl, rfl⟩
    · cases hcons
  · obtain ⟨f, hf, rfl⟩ := map_eq_ok_iff.1 hstore
    rcases places_eq_ok h with ⟨rfl, h⟩ | ⟨w, vs, _, rfl, hstore, h⟩
    · cases h
      exact ⟨hf, rfl⟩
    · obtain ⟨b, hb, rfl⟩ := map_eq_ok_iff.1 hstore
      cases h
      exact ⟨hf, hb⟩

theorem reader_eq_ok_cases (h : reader v = .ok o) :
    (∃ es, v = .table es) ∨ ∃ vs, v = .list vs := by
  rcases record_eq_ok h with ⟨es, rfl, _⟩ | ⟨vs, _, rfl, _⟩
  · exact .inl ⟨es, rfl⟩
  · exact .inr ⟨vs, rfl⟩

end OutputSettings

namespace Environment

variable {environment : Environment} {format pretty : Option SettingValue}

/-- Some variable says something about the output. -/
def isOverlaid (environment : Environment) : Bool :=
  (value? environment formatVariable).isSome || (value? environment prettyVariable).isSome

theorem ascending_outputEntries : (outputEntries format pretty).Ascending := by
  cases format with
  | none =>
    cases pretty with
    | none => exact .nil
    | some p => exact List.pairwise_singleton _ _
  | some f =>
    cases pretty with
    | none => exact List.pairwise_singleton _ _
    | some p => exact List.pairwise_pair.2 format_lt_pretty

theorem get?_outputEntries_format : (outputEntries format pretty).get? "format" = format := by
  cases format <;> cases pretty <;> simp [outputEntries, Entries.get?]

theorem get?_outputEntries_pretty : (outputEntries format pretty).get? "pretty" = pretty := by
  cases format <;> cases pretty <;> simp [outputEntries, Entries.get?]

theorem ascending_overlayEntries : (overlayEntries format pretty).Ascending := by
  unfold overlayEntries
  cases overlay? format pretty with
  | none => exact .nil
  | some v => exact List.pairwise_singleton _ _

theorem get?_overlayEntries :
    (overlayEntries format pretty).get? "output" = overlay? format pretty := by
  unfold overlayEntries
  cases overlay? format pretty <;> rfl

theorem nullFree_of_value? {name : String} {es : Entries SettingValue}
    (h : value? environment name = some (.table es)) : Entries.NullFree es := by
  obtain ⟨text, -, htext⟩ := Option.map_eq_some_iff.1 h
  exact SettingText.nullFree_of_read htext

end Environment

namespace Settings

open SettingValue

/-- What a file gives for a part of the output settings, by its name or, in a list, by its place. A
list is gone when variables put a table there. -/
def givenPart? (output : Option SettingValue) (overlaid : Bool) (name : String) (place : Nat) :
    Option SettingValue :=
  match output with
  | some (.table es) => Entries.get? name es
  | some (.list vs) => if overlaid then none else vs[place]?
  | _ => none

section Layers

variable {path : String} {file w : SettingValue} {fs es : Entries SettingValue}
  {environment : Environment} {format pretty : Option SettingValue} {o : OutputSettings}
  {s : Settings}

theorem gives_of_read {ls : Entries SettingValue} (hlayer : environment.layer = .table ls)
    (hls : ls.Ascending) (hfs : fs.Ascending)
    (h : Layers.read (layersOf path (.table fs) environment) = .ok s) :
    Gives OutputSettings.reader {}
      (over? (ls.get? "output") (over? (fs.get? "output") (some (.table baseOutput)))) s.output := by
  rw [read_eq_ok_iff, join_layersOf hlayer] at h
  have hbelow := ascending_entriesOnTop ascending_baseEntries fs
  have hgives := gives_of_entries hasField_output (ascending_entriesOnTop hbelow ls) h
  rwa [get?_entriesOnTop hls, get?_entriesOnTop hfs] at hgives

theorem origins_of_tables
    (hformat : ∀ es, format = some (.table es) → Entries.NullFree es)
    (hpretty : ∀ es, pretty = some (.table es) → Entries.NullFree es) (hes : es.Ascending)
    (h : Gives OutputSettings.reader {}
      (over? (Environment.overlay? format pretty) (some (.table (entriesOnTop es baseOutput)))) o) :
    Origin OutputFormat.reader .json format (es.get? "format") o.format ∧
      Origin bool true pretty (es.get? "pretty") o.pretty := by
  have htables : over? (Environment.overlay? format pretty)
      (some (.table (entriesOnTop es baseOutput))) = some (.table (entriesOnTop
        (Environment.outputEntries format pretty) (entriesOnTop es baseOutput))) := by
    cases format <;> cases pretty <;>
      simp [Environment.overlay?, over?, Environment.outputEntries]
  rw [htables] at h
  have hbelow := ascending_entriesOnTop ascending_baseOutput es
  obtain ⟨hf, hp⟩ := OutputSettings.gives_of_table (ascending_entriesOnTop hbelow _) h
  rw [get?_entriesOnTop Environment.ascending_outputEntries, get?_entriesOnTop hes] at hf hp
  rw [Environment.get?_outputEntries_format] at hf
  rw [Environment.get?_outputEntries_pretty] at hp
  have hjson : ∀ es, SettingValue.text "json" ≠ .table es := nofun
  have htrue : ∀ es, SettingValue.bool true ≠ .table es := nofun
  exact ⟨origin_of_over? OutputFormat.seesThrough_reader hjson rfl hformat hf,
    origin_of_over? seesThrough_bool htrue rfl hpretty hp⟩

theorem origins_of_overlay (hw : ∀ es, w ≠ .table es)
    (hset : (format.isSome || pretty.isSome) = true)
    (h : Gives OutputSettings.reader {} (over? (Environment.overlay? format pretty) (some w)) o) :
    Origin OutputFormat.reader .json format none o.format ∧
      Origin bool true pretty none o.pretty := by
  rw [Environment.overlay?, if_pos hset] at h
  change OutputSettings.reader (SettingValue.onTop _ w) = .ok o at h
  rw [onTop_of_right hw] at h
  obtain ⟨hf, hp⟩ := OutputSettings.gives_of_table Environment.ascending_outputEntries h
  rw [Environment.get?_outputEntries_format] at hf
  rw [Environment.get?_outputEntries_pretty] at hp
  exact ⟨origin_of_gives_set hf, origin_of_gives_set hp⟩

theorem origins_of_gives {output : Option SettingValue} (htidy : ∀ v, output = some v → v.IsTidy)
    (hformat : ∀ es, format = some (.table es) → Entries.NullFree es)
    (hpretty : ∀ es, pretty = some (.table es) → Entries.NullFree es)
    (h : Gives OutputSettings.reader {} (over? (Environment.overlay? format pretty)
      (over? output (some (.table baseOutput)))) o) :
    let overlaid := format.isSome || pretty.isSome
    Origin OutputFormat.reader .json format (givenPart? output overlaid "format" 0) o.format ∧
      Origin bool true pretty (givenPart? output overlaid "pretty" 1) o.pretty := by
  dsimp only
  cases output with
  | none => exact origins_of_tables hformat hpretty .nil h
  | some w =>
    by_cases htable : ∃ es, w = .table es
    · obtain ⟨es, rfl⟩ := htable
      exact origins_of_tables hformat hpretty (htidy _ rfl es rfl) h
    · have hw : ∀ es, w ≠ .table es := fun es hes => htable ⟨es, hes⟩
      have hover : over? (some w) (some (.table baseOutput)) = some w :=
        congrArg some (onTop_of_left hw)
      rw [hover] at h
      cases hset : format.isSome || pretty.isSome with
      | true =>
        -- the table of the variables takes the place of a list
        have hgiven : ∀ name place, givenPart? (some w) true name place = none := by
          intro name place
          cases w with
          | table es => exact absurd rfl (hw es)
          | _ => rfl
        rw [hgiven, hgiven]
        exact origins_of_overlay hw hset h
      | false =>
        obtain ⟨hf, hp⟩ := Bool.or_eq_false_iff.1 hset
        obtain rfl := Option.not_isSome_iff_eq_none.1 (Bool.eq_false_iff.1 hf)
        obtain rfl := Option.not_isSome_iff_eq_none.1 (Bool.eq_false_iff.1 hp)
        rcases OutputSettings.reader_eq_ok_cases h with ⟨es, rfl⟩ | ⟨vs, rfl⟩
        · exact absurd rfl (hw es)
        · obtain ⟨hf, hp⟩ := OutputSettings.gives_of_list h
          exact ⟨origin_of_gives_given hf, origin_of_gives_given hp⟩

end Layers

theorem fileLayer_eq_ok {path : String} {content : Option Yaml.Document} {v : SettingValue}
    (h : fileLayer path content = .ok v) : ∃ es : Entries SettingValue, v = .table es ∧
      es.Ascending ∧ ∀ k w, es.get? k = some w → w.IsTidy := by
  cases content with
  | none =>
    cases h
    exact ⟨[], rfl, .nil, nofun⟩
  | some doc => exact isTidy_fileDecoder (mapError_eq_ok_iff.1 h)

/-- Each output setting is that of its variable, else that of the file, else the default, if a file is
asked for, which need not exist. Without one only the defaults count. -/
theorem load_output {choice : Option FileChoice} {environment : Environment} {s : Settings}
    (henv : environment.SetsOutputOnly) (h : load choice environment = .ok s) :
    (choice = none → s.output = {}) ∧
    ∀ c, choice = some c → ∃ file, fileLayer c.path c.content = .ok file ∧
      Origin OutputFormat.reader .json (environment.value? Environment.formatVariable)
        (givenPart? (file.at? ["output"]) environment.isOverlaid "format" 0) s.output.format ∧
      Origin bool true (environment.value? Environment.prettyVariable)
        (givenPart? (file.at? ["output"]) environment.isOverlaid "pretty" 1) s.output.pretty := by
  refine ⟨?_, ?_⟩
  · rintro rfl
    cases h
    rfl
  · rintro c rfl
    obtain ⟨file, hfile, hread⟩ := ofFile_eq_ok_iff.1 h
    obtain ⟨fs, rfl, hfs, htidy⟩ := fileLayer_eq_ok hfile
    have hat : (SettingValue.table fs).at? ["output"] = fs.get? "output" := by
      cases hv : Entries.get? "output" fs <;> simp [at?, hv]
    have hgives := gives_of_read (Environment.layer_of_setsOutputOnly henv)
      Environment.ascending_overlayEntries hfs hread
    rw [Environment.get?_overlayEntries] at hgives
    refine ⟨_, hfile, ?_⟩
    rw [hat]
    exact origins_of_gives (htidy "output") (fun _ => Environment.nullFree_of_value?)
      (fun _ => Environment.nullFree_of_value?) hgives

/-- A file that the output is to be compact in. -/
def compactFile : FileChoice where
  path := "config.yaml"
  content := some (.ofBytes "output:\n  format: json\n  pretty: false\n".toUTF8)

/-- The format is set and nothing else that counts. -/
def yamlEnvironment : Environment := [("PATH", "/bin"), (Environment.formatVariable, "yaml")]

theorem setsOutputOnly_yamlEnvironment : yamlEnvironment.SetsOutputOnly where
  names := by decide +kernel
  distinct := by decide

theorem load_output_compact : yamlEnvironment.SetsOutputOnly ∧
    ∃ s file, load (some compactFile) yamlEnvironment = .ok s ∧ s.output = ⟨.yaml, false⟩ ∧
      fileLayer compactFile.path compactFile.content = .ok file ∧
      Origin OutputFormat.reader .json (some (SettingText.read "yaml"))
        (givenPart? (file.at? ["output"]) true "format" 0) s.output.format ∧
      Origin bool true none (givenPart? (file.at? ["output"]) true "pretty" 1) s.output.pretty := by
  obtain ⟨s, hs, houtput⟩ := exists_ok_of_toOption_bind
    (x := load (some compactFile) yamlEnvironment) (f := fun s => some s.output)
    (b := ⟨.yaml, false⟩) (by decide +kernel)
  obtain ⟨-, hfile⟩ := load_output setsOutputOnly_yamlEnvironment hs
  obtain ⟨file, hread, hformat, hpretty⟩ := hfile compactFile rfl
  exact ⟨setsOutputOnly_yamlEnvironment, s, file, hs, Option.some.inj houtput, hread, hformat,
    hpretty⟩

theorem exists_unread_variable : yamlEnvironment.SetsOutputOnly ∧
    (∃ v, yamlEnvironment.value? Environment.formatVariable = some v ∧
      OutputFormat.reader v = .ok .yaml) ∧
    ∃ s, load none yamlEnvironment = .ok s ∧ s.output.format = .json :=
  ⟨setsOutputOnly_yamlEnvironment, ⟨_, rfl, eq_ok_of_toOption (by decide +kernel)⟩, _, rfl, rfl⟩

end Settings

end ModuleCompiler
