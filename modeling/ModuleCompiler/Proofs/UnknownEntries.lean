import ModuleCompiler.Proofs.Decode.Inserted
import ModuleCompiler.Proofs.Unmarked

/-!
Entries that no record knows. They are passed over when the version is looked up, and again when the
descriptor is decoded, so a document with one of them has the same module or fails in the same way.
All they do is to move what comes after them.
-/

namespace ModuleCompiler

open Decode

/-- Two documents, the first without aliases, the second with one more entry than the first: its key
is a scalar that the record of the entry does not know, and its value is any whole node. -/
structure Yaml.Document.Extended (doc doc' : Yaml.Document) : Prop where
  root : ∃ o es es', doc.root = .map o es ∧ doc'.root = .map o es' ∧
    Inserted Descriptor.fields es es'
  aliasFree : doc.root.aliasFree = true
  fault : doc'.fault = doc.fault
  continues : doc'.continues = doc.continues

section Marker

open Descriptor

theorem text_of_sameKind {n n' : Yaml.Node} (h : SameKind n n') (p : Place) :
    option text p n = option text p n' := by
  cases h <;> rfl

theorem find?_marker (key : String) : VersionMarker.fields.find? (·.isNamed key) =
    if key = "modfileVersion" then VersionMarker.fields.head? else none :=
  find?_field ..

/-- What a descriptor does not know, the marker of its version does not know either. -/
theorem sameFields_marker {es es' : List (Yaml.Node × Yaml.Node)}
    (h : Inserted Descriptor.fields es es') : SameFields VersionMarker.fields es es' := by
  cases h with
  | here key value before after hkey hvalue =>
    refine sameFields_here before after (fun f hf => ?_) hvalue
    rw [List.mem_singleton.1 hf]
    exact hkey _ (List.mem_cons_self ..)
  | @within _ _ _ _ _ _ f value value' key before after hfind hreach hinner =>
    have hvalue := hreach.sameReading hinner.sameFields
    refine sameFields_of_step before after (fun p depth acc => ?_) hvalue.fault
    by_cases hkey : key.text = "modfileVersion"
    · have hmarker := find?_marker key.text
      rw [if_pos hkey] at hmarker
      refine takeField_congr hmarker (fun q => ?_) acc
      exact congrArg (_ <$> ·) (text_of_sameKind hvalue.kind q)
    · have hmarker := find?_marker key.text
      rw [if_neg hkey] at hmarker
      exact takeField_of_passed hmarker hvalue.fault acc

end Marker

section Run

variable {doc doc' : Yaml.Document}

/-- What is read from a tree without aliases does not hang on the rest of the document. -/
theorem Decode.Steady.run_eq {decoder : Decoder α} (hd : Steady decoder) (h : doc.Extended doc')
    (hread : decoder .root doc.root = decoder .root doc'.root) :
    decoder.run doc' = decoder.run doc := by
  have hdecided := hd .root doc.root h.aliasFree
  simp only [Decoder.run, ← hread, h.fault, h.continues]
  cases hdecided with
  | yields a ha =>
    rw [ha]
    rfl
  | fails e he =>
    rw [he]
    rfl

theorem Yaml.Document.Extended.run_marker (h : doc.Extended doc') :
    Descriptor.VersionMarker.decoder.run doc' = Descriptor.VersionMarker.decoder.run doc := by
  obtain ⟨o, es, es', hroot, hroot', hinserted⟩ := h.root
  refine Descriptor.VersionMarker.composed_decoder.steady.run_eq h ?_
  rw [hroot, hroot']
  exact ((sameFields_marker hinserted).record _ _ o).option.reads .root

theorem Yaml.Document.Extended.run_descriptor (h : doc.Extended doc') :
    Descriptor.decoder.run doc' = Descriptor.decoder.run doc := by
  obtain ⟨o, es, es', hroot, hroot', hinserted⟩ := h.root
  refine Descriptor.composed_decoder.steady.run_eq h ?_
  rw [hroot, hroot']
  exact (hinserted.sameFields.record _ _ o).reads .root

theorem Yaml.Document.Extended.standard_compile (h : doc.Extended doc') :
    Compiler.standard.compile doc' = Compiler.standard.compile doc := by
  have hversion : Compiler.versionOf doc' = Compiler.versionOf doc := by
    rw [Compiler.versionOf, h.run_marker]
    rfl
  have hcompile : VersionEntry.v1.compile doc' = VersionEntry.v1.compile doc := by
    simp only [VersionEntry.v1, h.run_descriptor]
  rw [Compiler.standard_compile_eq, Compiler.standard_compile_eq, hversion, hcompile]

end Run

/-- An entry that its record does not know leaves everything as it is: the module of the document,
or the error, but that its place may be another. -/
theorem compile_unknown_entry {bytes bytes' : ByteArray}
    (h : (Yaml.Document.ofBytes bytes).unmarked.Extended (Yaml.Document.ofBytes bytes').unmarked) :
    (compile bytes').mapError CompileError.unmarked =
      (compile bytes).mapError CompileError.unmarked := by
  rw [compile, compile, ← Compiler.standard_compile_unmarked,
    ← Compiler.standard_compile_unmarked]
  exact h.standard_compile

section Example

open Yaml Descriptor

def plainScalar (s : String) : Scalar := ⟨s, .plain, none, .start⟩

def plainNode (s : String) : Node := .scalar (plainScalar s)

def plainOpening : Opening := ⟨none, .start⟩

/-- A document of one service whose run config has these entries. -/
def serviceEntries (runConfig : List (Node × Node)) : List (Node × Node) :=
  [(plainNode "modfileVersion", plainNode "v1"),
    (plainNode "services", .map plainOpening [(plainNode "web", .map plainOpening
      [(plainNode "image", plainNode "httpd"),
        (plainNode "runConfig", .map plainOpening runConfig)])])]

def serviceDocument : ByteArray :=
  ("modfileVersion: v1\nservices:\n  web:\n    image: httpd\n    runConfig:\n" ++
    "      maxRetries: 3\n").toUTF8

/-- The same with an entry that run configs do not have. -/
def niceDocument : ByteArray :=
  ("modfileVersion: v1\nservices:\n  web:\n    image: httpd\n    runConfig:\n" ++
    "      nice: [[5]]\n      maxRetries: 3\n").toUTF8

def retriesEntry : Node × Node := (plainNode "maxRetries", plainNode "3")

def niceEntry : Node × Node :=
  (plainNode "nice", .seq plainOpening [.seq plainOpening [plainNode "5"]])

theorem inserted_nice : Inserted Descriptor.fields (serviceEntries [retriesEntry])
    (serviceEntries [niceEntry, retriesEntry]) := by
  have hconfig : Inserted RunConfig.fields [retriesEntry] [niceEntry, retriesEntry] :=
    .here (plainScalar "nice") _ [] [retriesEntry] (by decide) rfl
  have hservice : Inserted Service.fields
      [(plainNode "image", plainNode "httpd"),
        (plainNode "runConfig", .map plainOpening [retriesEntry])]
      [(plainNode "image", plainNode "httpd"),
        (plainNode "runConfig", .map plainOpening [niceEntry, retriesEntry])] :=
    .within (plainScalar "runConfig") [(plainNode "image", plainNode "httpd")] [] rfl
      (.map _ (.record _ _ plainOpening)) hconfig
  exact .within (plainScalar "services") [(plainNode "modfileVersion", plainNode "v1")] [] rfl
    (.map _ (.value plainOpening (plainNode "web") [] [] (.record _ _ plainOpening))) hservice

/-- A whole document that is a map of these entries, marks aside. -/
def IsMapOf (bytes : ByteArray) (es : List (Node × Node)) : Prop :=
  (Document.ofBytes bytes).unmarked.root = .map plainOpening es ∧
    (Document.ofBytes bytes).unmarked.fault = none ∧
    (Document.ofBytes bytes).unmarked.continues = false

instance (bytes : ByteArray) (es : List (Node × Node)) : Decidable (IsMapOf bytes es) :=
  inferInstanceAs (Decidable (_ ∧ _ ∧ _))

theorem extended_of_isMapOf {bytes bytes' : ByteArray} {es es' : List (Node × Node)}
    (h : IsMapOf bytes es) (h' : IsMapOf bytes' es') (hfree : Node.entriesAliasFree es = true)
    (hinserted : Inserted Descriptor.fields es es') :
    (Document.ofBytes bytes).unmarked.Extended (Document.ofBytes bytes').unmarked := by
  obtain ⟨hroot, hfault, hcontinues⟩ := h
  obtain ⟨hroot', hfault', hcontinues'⟩ := h'
  have haliasFree : (Document.ofBytes bytes).unmarked.root.aliasFree = true := by
    rw [hroot]
    exact hfree
  exact ⟨⟨plainOpening, es, es', hroot, hroot', hinserted⟩, haliasFree, hfault'.trans hfault.symm,
    hcontinues'.trans hcontinues.symm⟩

theorem compile_unknown_entry_nice :
    (Document.ofBytes serviceDocument).unmarked.Extended
      (Document.ofBytes niceDocument).unmarked ∧
      ∃ m, compile serviceDocument = .ok m ∧ compile niceDocument = .ok m := by
  have hservice : IsMapOf serviceDocument (serviceEntries [retriesEntry]) := by decide +kernel
  have hnice : IsMapOf niceDocument (serviceEntries [niceEntry, retriesEntry]) := by decide +kernel
  have hextended := extended_of_isMapOf hservice hnice rfl inserted_nice
  obtain ⟨m, hm, _⟩ := exists_ok_of_toOption_bind (x := compile serviceDocument)
    (f := fun _ => some ()) (b := ()) (by decide +kernel)
  have hsame := compile_unknown_entry hextended
  rw [hm] at hsame
  exact ⟨hextended, m, hm, mapError_eq_ok_iff.1 hsame⟩

/-- A document that has one field twice. Its first line is empty. -/
def repeatedDocument : ByteArray := "\nmodfileVersion: v1\nname: a\nname: b\n".toUTF8

/-- The same with an entry on the first line, one that descriptors do not have. -/
def shiftedDocument : ByteArray := "zzz: 1\nmodfileVersion: v1\nname: a\nname: b\n".toUTF8

def repeatedEntries : List (Node × Node) :=
  [(plainNode "modfileVersion", plainNode "v1"), (plainNode "name", plainNode "a"),
    (plainNode "name", plainNode "b")]

/-- The new entry is where the document begins now, and so the error is told of another place. -/
theorem compile_shifted_ne :
    (Document.ofBytes repeatedDocument).unmarked.Extended
      (Document.ofBytes shiftedDocument).unmarked ∧
      compile shiftedDocument ≠ compile repeatedDocument := by
  have hrepeated : IsMapOf repeatedDocument repeatedEntries := by decide +kernel
  have hshifted : IsMapOf shiftedDocument
      ((plainNode "zzz", plainNode "1") :: repeatedEntries) := by decide +kernel
  have hinserted : Inserted Descriptor.fields repeatedEntries
      ((plainNode "zzz", plainNode "1") :: repeatedEntries) :=
    .here (plainScalar "zzz") _ [] repeatedEntries (by decide) rfl
  refine ⟨extended_of_isMapOf hrepeated hshifted rfl hinserted, fun heq => ?_⟩
  have hreport : ((compile repeatedDocument).mapError CompileError.report).map (fun _ => ()) =
      .error "invalid document: duplicate field `name` at line 2 column 1" := by decide +kernel
  have hreport' : ((compile shiftedDocument).mapError CompileError.report).map (fun _ => ()) =
      .error "invalid document: duplicate field `name`" := by decide +kernel
  rw [heq, hreport] at hreport'
  exact absurd (Except.error.inj hreport') (by decide)

end Example

end ModuleCompiler
