import ModuleCompiler.Descriptor.Decode
import ModuleCompiler.Proofs.Decode.Untyped
import ModuleCompiler.Proofs.Generation.Ports
import ModuleCompiler.Proofs.Number.Literal

/-!
Ports are checked twice: for their shape when a document is decoded, and in full when they are
expanded. What has passed the first check can only fail the second for the order of its ends.
-/

namespace ModuleCompiler

open Yaml Decode

/-- A text that is read as ports, or would be if its ends ascended. -/
def HasPortShape (text : String) : Prop :=
  (∃ ports, parsePorts text = .ok ports) ∨
    ∃ first last, parsePorts text = .error (.invalidRange text first last)

/-- A fault that shows without comparing the ends of a range. -/
inductive PortError.OfShape (text : String) : PortError → Prop
  | empty : OfShape text .empty
  | invalidFormat : OfShape text (.invalidFormat text)
  | invalidNumber {part : String} : OfShape text (.invalidNumber text part)

/-- A fault that ports of the right shape may still have. -/
inductive PortError.OfValues : PortError → Prop
  | invalidRange {spec : String} {first last : UInt16} : OfValues (.invalidRange spec first last)
  | morePorts {ports hostPorts : Nat} : OfValues (.morePorts ports hostPorts)
  | fewerPorts {ports hostPorts : Nat} : OfValues (.fewerPorts ports hostPorts)

section Shape

variable {text : String} {parts : List (List Char)} {ns : List UInt16} {e : PortError}

theorem length_readPortParts (h : readPortParts text parts = .ok ns) :
    ns.length = parts.length := by
  induction parts generalizing ns with
  | nil =>
    cases h
    rfl
  | cons part parts ih =>
    unfold readPortParts at h
    split at h
    · cases h
    · split at h
      · cases h
      · rename_i ms hms
        cases h
        exact congrArg (· + 1) (ih hms)

theorem ofShape_readPortParts (h : readPortParts text parts = .error e) : e.OfShape text := by
  induction parts with
  | nil => cases h
  | cons part parts ih =>
    unfold readPortParts at h
    split at h
    · cases h
      exact .invalidNumber
    · split at h
      · rename_i hparts
        cases h
        exact ih hparts
      · cases h

/-- The shape of a text is that of a number, of a range, or wrong. -/
theorem splitPorts_cases (text : String) :
    (∃ n, splitPorts text = .ok [n]) ∨ (∃ first last, splitPorts text = .ok [first, last]) ∨
      ∃ e : PortError, e.OfShape text ∧ splitPorts text = .error e := by
  unfold splitPorts
  split
  · exact .inr (.inr ⟨_, .empty, rfl⟩)
  · dsimp only
    split
    · exact .inr (.inr ⟨_, .invalidFormat, rfl⟩)
    · rename_i hlength
      cases hparts : readPortParts text (splitHyphens text.toList) with
      | error e => exact .inr (.inr ⟨e, ofShape_readPortParts hparts, rfl⟩)
      | ok ns =>
        -- two hyphens have been refused, so there are one or two parts
        have hns := length_readPortParts hparts
        rw [length_splitHyphens] at hns hlength
        match ns with
        | [n] => exact .inl ⟨n, rfl⟩
        | [first, last] => exact .inr (.inl ⟨first, last, rfl⟩)
        | [] => cases hns
        | _ :: _ :: _ :: _ =>
          simp only [List.length_cons] at hns
          omega

/-- Only the order of the ends is left to be checked once a text has been split. -/
theorem exists_splitPorts_iff : (∃ ns, splitPorts text = .ok ns) ↔ HasPortShape text := by
  rcases splitPorts_cases text with ⟨n, hn⟩ | ⟨first, last, hends⟩ | ⟨e, he, hfault⟩
  · refine iff_of_true ⟨_, hn⟩ (.inl ⟨[n], ?_⟩)
    simp only [parsePorts, hn]
  · refine iff_of_true ⟨_, hends⟩ ?_
    by_cases hlt : first < last
    · refine .inl ⟨portRange first (last.toNat - first.toNat + 1), ?_⟩
      simp only [parsePorts, hends, if_pos hlt]
    · exact .inr ⟨first, last, by simp only [parsePorts, hends, if_neg hlt]⟩
  · have hparse : parsePorts text = .error e := by simp only [parsePorts, hfault]
    refine iff_of_false (by simp [hfault]) ?_
    rintro (⟨ports, h⟩ | ⟨first, last, h⟩)
    · cases hparse.symm.trans h
    · cases hparse.symm.trans h
      cases he

theorem HasPortShape.error_eq (h : HasPortShape text) (he : parsePorts text = .error e) :
    ∃ first last, e = .invalidRange text first last := by
  rcases h with ⟨ports, hports⟩ | ⟨first, last, hends⟩
  · cases he.symm.trans hports
  · exact ⟨first, last, Except.error.inj (he.symm.trans hends)⟩

theorem ofText_eq_ok_iff {spec : PortSpec} :
    PortSpec.ofText text = .ok spec ↔ spec.text = text ∧ HasPortShape text := by
  rw [← exists_splitPorts_iff, PortSpec.ofText]
  cases splitPorts text with
  | error e => simp
  | ok ns =>
    obtain ⟨t⟩ := spec
    simp [eq_comm]

end Shape

namespace PortSpec

section Nodes

variable {anchors : Anchors} {p : Place} {n : Node} {s : Scalar} {spec : PortSpec}

theorem expand_ofPort (m : UInt16) : (ofPort m).expand = .ok [m] := by
  obtain ⟨ports, hports, hbetween⟩ := parsePorts_of_names (.single (isPortNumber_toString m))
  have hself : AreBetween m m [m] := by simp [AreBetween]
  rw [expand, ofPort, hports, hbetween.unique hself]

theorem hasPortShape_ofPort (m : UInt16) : HasPortShape (ofPort m).text :=
  .inl ⟨[m], expand_ofPort m⟩

/-- What is read from any node can only fail to expand for the order of its ends. -/
theorem hasPortShape_of_reads (h : Reads anchors (decoder p n) spec) : HasPortShape spec.text := by
  obtain ⟨_, u, _, _, h⟩ := Reads.untyped h
  cases u with
  | scalar v =>
    cases v with
    | integer k minus =>
      dsimp only at h
      split at h
      · exact h.eq_of_pure ▸ hasPortShape_ofPort _
      · split at h
        · exact absurd h (Place.fails_fail _ _).not_reads
        · exact absurd h (fails_refuseUntyped _ _ _).not_reads
    | text t =>
      dsimp only at h
      split at h
      · rename_i spec' hspec
        obtain ⟨rfl, hshape⟩ := ofText_eq_ok_iff.1 hspec
        exact h.eq_of_pure ▸ hshape
      · exact absurd h (Place.fails_fail _ _).not_reads
    | _ => exact absurd h (fails_refuseUntyped _ _ _).not_reads
  | _ => exact absurd h (fails_refuseUntyped _ _ _).not_reads

/-- A node is read as the scalar that it is or stands for. -/
theorem run_decoder {count count' : Nat}
    (hn : ((resolve n).run anchors).run count = .ok (.scalar s, count')) :
    ((decoder p n).run anchors).run count = ((decoder p (.scalar s)).run anchors).run count' := by
  simp only [decoder, untyped, ReaderT.run_bind, StateT.run_bind, hn]
  rfl

section Scalars

variable (htag : s.tag.bind Tag.variant? = none)

include htag

theorem decoder_integer {k : Int} {minus : Bool} (hs : s.value = .ok (.integer k minus)) :
    (∃ m : UInt16, (m.toNat : Int) = k ∧ decoder p (.scalar s) = pure (ofPort m)) ∨
      ¬ (0 ≤ k ∧ k ≤ 65535) ∧ Fails (decoder p (.scalar s)) := by
  rw [decoder, untyped_scalar htag hs]
  dsimp only
  by_cases hk : 0 ≤ k ∧ k < 65536
  · have hround : k.toNat.toUInt16.toNat = k.toNat :=
      UInt16.toNat_ofNat_of_lt' (show k.toNat < 65536 by omega)
    exact .inl ⟨k.toNat.toUInt16, by omega, if_pos hk⟩
  · rw [if_neg hk]
    refine .inr ⟨by omega, ?_⟩
    split
    · exact Place.fails_fail _ _
    · exact fails_refuseUntyped _ _ _

theorem decoder_text {t : String} (hs : s.value = .ok (.text t)) :
    HasPortShape t ∧ decoder p (.scalar s) = pure ⟨t⟩ ∨
      ¬ HasPortShape t ∧ Fails (decoder p (.scalar s)) := by
  rw [decoder, untyped_scalar htag hs]
  dsimp only
  cases hread : ofText t with
  | ok spec =>
    obtain ⟨rfl, hshape⟩ := ofText_eq_ok_iff.1 hread
    exact .inl ⟨hshape, rfl⟩
  | error e =>
    refine .inr ⟨fun hshape => ?_, Place.fails_fail _ _⟩
    cases hread.symm.trans (ofText_eq_ok_iff.2 ⟨rfl, hshape⟩)

theorem fails_decoder_float {x : Float} (hs : s.value = .ok (.float x)) :
    Fails (decoder p (.scalar s)) := by
  rw [decoder, untyped_scalar htag hs]
  exact fails_refuseUntyped _ _ _

end Scalars

end Nodes

section Literals

variable {text : String} {mark : Mark} {k : Int} {n : Nat} {p : Place}

theorem parsePorts_of_large (hn : IsDecimal text.toList n) (hlarge : 65535 < n) :
    parsePorts text = .error (.invalidNumber text text) := by
  have hne : text ≠ "" := by
    rintro rfl
    cases hn with
    | plain hds => exact hds.nonempty rfl
  have hnone : ∀ m, ¬ IsPortNumber text m := by
    intro m hm
    have hbound := m.toNat_lt
    have heq := IsDecimal.unique hm hn
    omega
  rw [parsePorts_of_not_mem hne (hn.not_mem rfl (by decide)), readPort?_eq_none_iff.2 hnone]

/-- A sign is taken for a hyphen with nothing in front of it. -/
theorem parsePorts_of_minus {ds : List Char} (htext : text.toList = '-' :: ds)
    (hds : AreDigits ds n) : parsePorts text = .error (.invalidNumber text "") := by
  have hsplit : text = "" ++ "-" ++ .ofList ds := by
    rw [← String.toList_inj, toList_hyphen, htext]
    simp
  have hmem : '-' ∉ (String.ofList ds).toList := by
    rw [String.toList_ofList]
    exact fun hmem => absurd (hds.digits _ hmem) (by decide)
  rw [hsplit, parsePorts_of_parts (by simp) hmem]
  rfl

theorem lt_of_not_fitsWide (hn : ¬ FitsWide n) : 65535 < n := by
  have hbound : 65535 < wordBound 128 := by decide
  rw [ScalarText.fitsWide_natCast] at hn
  omega

/-- Numbers that are too wide to be read as such are no ports by their text, either. -/
theorem not_hasPortShape (h : IsLiteral text.toList k) (hk : ¬ FitsWide k) :
    ¬ HasPortShape text := by
  have herror : ∃ part, parsePorts text = .error (.invalidNumber text part) := by
    generalize htext : text.toList = cs at h
    cases h with
    | unsigned hds =>
      have hdecimal := htext ▸ IsDecimal.plain hds.toAreDigits
      exact ⟨_, parsePorts_of_large hdecimal (lt_of_not_fitsWide hk)⟩
    | plus hds =>
      have hdecimal := htext ▸ IsDecimal.plus hds.toAreDigits
      exact ⟨_, parsePorts_of_large hdecimal (lt_of_not_fitsWide hk)⟩
    | minus hds => exact ⟨_, parsePorts_of_minus htext hds.toAreDigits⟩
  obtain ⟨part, herror⟩ := herror
  intro hshape
  obtain ⟨_, _, he⟩ := hshape.error_eq herror
  cases he

/-- A decimal number of any width is a port, or it is refused. -/
theorem decoder_literal (h : IsLiteral text.toList k) :
    (∃ m : UInt16, (m.toNat : Int) = k ∧
      decoder p (.scalar ⟨text, .plain, none, mark⟩) = pure (ofPort m)) ∨
      ¬ (0 ≤ k ∧ k ≤ 65535) ∧ Fails (decoder p (.scalar ⟨text, .plain, none, mark⟩)) := by
  have hvalue : (⟨text, .plain, none, mark⟩ : Scalar).value =
      .ok (ScalarText.plainValue text) := rfl
  rw [ScalarText.plainValue_literal h] at hvalue
  by_cases hk : FitsWide k
  · rw [if_pos hk] at hvalue
    exact decoder_integer rfl hvalue
  · have hrange : ¬ (0 ≤ k ∧ k ≤ 65535) := by
      rintro ⟨hle, hlt⟩
      obtain ⟨n, rfl⟩ := Int.eq_ofNat_of_zero_le hle
      have hlarge := lt_of_not_fitsWide hk
      omega
    refine .inr ⟨hrange, ?_⟩
    rw [if_neg hk] at hvalue
    split at hvalue
    · exact fails_decoder_float rfl hvalue
    · rcases decoder_text rfl hvalue with ⟨hshape, _⟩ | ⟨_, hfails⟩
      · exact absurd hshape (not_hasPortShape h hk)
      · exact hfails

end Literals

end PortSpec

namespace Descriptor

theorem hasField_services : HasField fields "services" (table Service.decoder) (·.services) :=
  ⟨⟨_, rfl, fun _ _ => rfl⟩, by simp [fields]⟩

theorem hasField_ports : HasField Service.fields "ports" (list ServicePort.decoder) (·.ports) :=
  ⟨⟨_, rfl, fun _ _ => rfl⟩, by simp [Service.fields]⟩

theorem hasField_port : HasField ServicePort.fields "port" PortSpec.decoder (·.port) :=
  ⟨⟨_, rfl, fun _ _ => rfl⟩, by simp [ServicePort.fields]⟩

theorem hasField_hostPort :
    HasField ServicePort.fields "hostPort" (Decode.option PortSpec.decoder) (·.hostPort) :=
  ⟨⟨_, rfl, fun _ _ => rfl⟩, by simp [ServicePort.fields]⟩

/-- An entry of the ports of a service, and the node it was read from. -/
theorem exists_portNode {doc : Document} {d : Descriptor} (h : decoder.run doc = .ok d)
    {id : String} {s : Service} (hs : d.services.get? id = some s) {i : Nat} {p : ServicePort}
    (hp : s.ports[i]? = some p) :
    ∃ n, at? doc.anchors doc.root [.key "services", .key id, .key "ports", .index i] = some n ∧
      ReadAs doc.anchors ServicePort.decoder n p := by
  have hread := (readAs_of_run h).record hasField_services
  obtain ⟨services, service, hservices, hservice, hread⟩ := ReadFrom.of_get? hread hs
  have hread := hread.record hasField_ports
  obtain ⟨ports, n, hports, hn, hread⟩ := ReadFrom.of_getElem? hread hp
  refine ⟨n, ?_, hread⟩
  simp only [at?, hservices, hservice, hports, hn, Option.bind_some]

/-- Host ports have been checked if there are any. -/
theorem hasPortShape_hostPort {anchors : Anchors} {n : Node} {p : ServicePort} {spec : PortSpec}
    (h : ReadAs anchors ServicePort.decoder n p) (hspec : p.hostPort = some spec) :
    HasPortShape spec.text := by
  have hhost := h.record hasField_hostPort
  cases hchild : child? anchors n (.key "hostPort") with
  | none =>
    rw [hchild] at hhost
    cases hspec.symm.trans hhost
  | some m =>
    rw [hchild] at hhost
    obtain ⟨_, _, ⟨hnone, _⟩ | ⟨_, hsome, _, hread⟩⟩ := ReadAs.option hhost
    · cases hspec.symm.trans hnone
    · cases hspec.symm.trans hsome
      exact PortSpec.hasPortShape_of_reads hread

/-- An entry without a port is told as such, and another one by what its ports come to. -/
theorem failsWith_cases {anchors : Anchors} {n : Node} {p : ServicePort} {e : PortError}
    (h : ReadAs anchors ServicePort.decoder n p) (he : Module.Port.FailsWith p e) :
    (child? anchors n (.key "port") = none ∧ e = .empty) ∨
      child? anchors n (.key "port") ≠ none ∧ e.OfValues := by
  have hport := h.record hasField_port
  cases hchild : child? anchors n (.key "port") with
  | none =>
    rw [hchild] at hport
    have hempty : p.port.expand = .error .empty := by
      rw [show p.port = {} from hport]
      rfl
    refine .inl ⟨rfl, ?_⟩
    cases he with
    | port he => exact Except.error.inj (he.symm.trans hempty)
    | hostPort hns => cases hempty.symm.trans hns
    | morePorts hns => cases hempty.symm.trans hns
    | fewerPorts hns => cases hempty.symm.trans hns
  | some m =>
    rw [hchild] at hport
    obtain ⟨q, hport⟩ := hport
    have hshape := PortSpec.hasPortShape_of_reads hport
    refine .inr ⟨nofun, ?_⟩
    cases he with
    | port he =>
      obtain ⟨first, last, rfl⟩ := hshape.error_eq he
      exact .invalidRange
    | hostPort _ hspec he =>
      obtain ⟨first, last, rfl⟩ := (hasPortShape_hostPort h hspec).error_eq he
      exact .invalidRange
    | morePorts => exact .morePorts
    | fewerPorts => exact .fewerPorts

end Descriptor

/-- A scalar that is an integer, in whatever notation it is read as one, or in decimal digits. -/
inductive IsIntegerScalar : Scalar → Int → Prop
  | value {s : Scalar} {k : Int} {minus : Bool} : s.tag.bind Tag.variant? = none →
      s.value = .ok (.integer k minus) → IsIntegerScalar s k
  | literal {text : String} {mark : Mark} {k : Int} : IsLiteral text.toList k →
      IsIntegerScalar ⟨text, .plain, none, mark⟩ k

section Outcomes

variable {anchors : Anchors} {count count' : Nat} {n : Node} {s : Scalar}

theorem decoder_integerScalar {k : Int} (hs : IsIntegerScalar s k) (p : Place) :
    (∃ m : UInt16, (m.toNat : Int) = k ∧
      PortSpec.decoder p (.scalar s) = pure (PortSpec.ofPort m)) ∨
      ¬ (0 ≤ k ∧ k ≤ 65535) ∧ Fails (PortSpec.decoder p (.scalar s)) := by
  cases hs with
  | value htag hvalue => exact PortSpec.decoder_integer htag hvalue
  | literal h => exact PortSpec.decoder_literal h

theorem run_integer {k : Int} (hn : ((resolve n).run anchors).run count = .ok (.scalar s, count'))
    (hs : IsIntegerScalar s k) (p : Place) :
    ((∃ r, ((PortSpec.decoder p n).run anchors).run count = .ok r) ↔ 0 ≤ k ∧ k ≤ 65535) ∧
    (0 ≤ k → k ≤ 65535 → ∃ spec m, (m.toNat : Int) = k ∧
      ((PortSpec.decoder p n).run anchors).run count = .ok (spec, count') ∧
      spec.expand = .ok [m] ∧ parsePorts (toString k) = .ok [m]) := by
  rw [PortSpec.run_decoder hn]
  rcases decoder_integerScalar hs p with ⟨m, rfl, hread⟩ | ⟨hrange, hfails⟩
  · have hbound := m.toNat_lt
    rw [hread]
    refine ⟨iff_of_true ⟨_, rfl⟩ (by omega), fun _ _ => ⟨_, m, rfl, rfl, ?_⟩⟩
    exact ⟨PortSpec.expand_ofPort m, PortSpec.expand_ofPort m⟩
  · obtain ⟨e, he⟩ := hfails anchors count'
    rw [he]
    exact ⟨iff_of_false (by simp) hrange, fun hle hlt => absurd ⟨hle, hlt⟩ hrange⟩

theorem run_text {t : String} (hn : ((resolve n).run anchors).run count = .ok (.scalar s, count'))
    (htag : s.tag.bind Tag.variant? = none) (hs : s.value = .ok (.text t)) (p : Place) :
    ((∃ r, ((PortSpec.decoder p n).run anchors).run count = .ok r) ↔ HasPortShape t) ∧
    ∀ spec c, ((PortSpec.decoder p n).run anchors).run count = .ok (spec, c) → spec.text = t := by
  rw [PortSpec.run_decoder hn]
  rcases PortSpec.decoder_text (p := p) htag hs with ⟨hshape, hread⟩ | ⟨hshape, hfails⟩
  · rw [hread]
    refine ⟨iff_of_true ⟨_, rfl⟩ hshape, ?_⟩
    rintro _ _ ⟨⟩
    rfl
  · obtain ⟨e, he⟩ := hfails anchors count'
    rw [he]
    exact ⟨iff_of_false (by simp) hshape, nofun⟩

end Outcomes

/-- Decoding and generation classify ports alike. What was decoded from any node expands, or its
ends do not ascend. An integer is decoded if and only if it is a port, and then expands to itself as
its decimal text does; a text is decoded if and only if it expands or its ends do not ascend. So
ports of a decoded document are told to be empty only if the first entry that fails has none, and
they are never malformed. -/
theorem port_checks_agree :
    (∀ anchors p n spec, Reads anchors (PortSpec.decoder p n) spec →
      (∃ ports, spec.expand = .ok ports) ∨
        ∃ first last, spec.expand = .error (.invalidRange spec.text first last)) ∧
    (∀ anchors count count' n s k, ((resolve n).run anchors).run count = .ok (.scalar s, count') →
      IsIntegerScalar s k → ∀ p,
      ((∃ r, ((PortSpec.decoder p n).run anchors).run count = .ok r) ↔ 0 ≤ k ∧ k ≤ 65535) ∧
      (0 ≤ k → k ≤ 65535 → ∃ spec m, (m.toNat : Int) = k ∧
        ((PortSpec.decoder p n).run anchors).run count = .ok (spec, count') ∧
        spec.expand = .ok [m] ∧ parsePorts (toString k) = .ok [m])) ∧
    (∀ anchors count count' n s t, ((resolve n).run anchors).run count = .ok (.scalar s, count') →
      s.tag.bind Tag.variant? = none → s.value = .ok (.text t) → ∀ p,
      ((∃ r, ((PortSpec.decoder p n).run anchors).run count = .ok r) ↔ HasPortShape t) ∧
      ∀ spec c, ((PortSpec.decoder p n).run anchors).run count = .ok (spec, c) → spec.text = t) ∧
    ∀ doc d id s e, Descriptor.decoder.run doc = .ok d → d.services.get? id = some s →
      Module.Port.ofDescriptors s.ports = .error e →
      (∀ spec, e ≠ .invalidFormat spec) ∧ (∀ spec part, e ≠ .invalidNumber spec part) ∧
      ∃ before p after n, s.ports = before ++ p :: after ∧
        (∀ q ∈ before, Module.Port.Pairs q) ∧ Module.Port.FailsWith p e ∧
        at? doc.anchors doc.root
          [.key "services", .key id, .key "ports", .index before.length] = some n ∧
        (e = .empty ↔ child? doc.anchors n (.key "port") = none) := by
  refine ⟨fun _ _ _ _ => PortSpec.hasPortShape_of_reads,
    fun _ _ _ _ _ _ hn hs p => run_integer hn hs p,
    fun _ _ _ _ _ _ hn htag hs p => run_text hn htag hs p, ?_⟩
  intro doc d id s e hd hs he
  obtain ⟨before, p, after, hports, hbefore, hfails⟩ :=
    Module.Port.ofDescriptors_eq_error_iff.1 he
  obtain ⟨n, hn, hread⟩ := Descriptor.exists_portNode hd hs
    (i := before.length) (p := p) (by simp [hports])
  have hcases := Descriptor.failsWith_cases hread hfails
  refine ⟨?_, ?_, before, p, after, n, hports, hbefore, hfails, hn, ?_⟩
  · rintro spec rfl
    rcases hcases with ⟨_, h⟩ | ⟨_, h⟩ <;> cases h
  · rintro spec part rfl
    rcases hcases with ⟨_, h⟩ | ⟨_, h⟩ <;> cases h
  · rcases hcases with ⟨hnone, rfl⟩ | ⟨hsome, hvalues⟩
    · exact iff_of_true rfl hnone
    · refine iff_of_false ?_ hsome
      rintro rfl
      cases hvalues

/-- A service whose second entry has host ports only. -/
def hostPortDocument : ByteArray :=
  ("services:\n  web:\n    ports:\n    - port: 80\n    - hostPort: 8080\n").toUTF8

theorem port_checks_agree_web :
    (∃ spec, ((PortSpec.decoder .root (.scalar ⟨"8080", .plain, none, .start⟩)).run ⟨[], 0⟩).run 0 =
        .ok (spec, 0) ∧ spec.expand = .ok [8080]) ∧
    (∃ spec c,
      ((PortSpec.decoder .root (.scalar ⟨"9-3", .plain, none, .start⟩)).run ⟨[], 0⟩).run 0 =
        .ok (spec, c) ∧ spec.text = "9-3" ∧ ∀ ports, spec.expand ≠ .ok ports) ∧
    ∃ d s n, Descriptor.decoder.run (.ofBytes hostPortDocument) = .ok d ∧
      d.services.get? "web" = some s ∧ Module.Port.ofDescriptors s.ports = .error .empty ∧
      child? (Document.ofBytes hostPortDocument).anchors n (.key "port") = none := by
  obtain ⟨hreads, hintegers, htexts, hdocuments⟩ := port_checks_agree
  have hdigits : AreDigits "8080".toList 8080 :=
    ⟨by decide, List.all_eq_true.1 (by decide), by decide⟩
  have hport : IsLiteral "8080".toList 8080 := .unsigned ⟨hdigits, by decide⟩
  have hrange : parsePorts "9-3" = .error (.invalidRange "9-3" 9 3) := by decide
  refine ⟨?_, ?_, ?_⟩
  · obtain ⟨_, hexpand⟩ := hintegers ⟨[], 0⟩ 0 0 (.scalar ⟨"8080", .plain, none, .start⟩) _ 8080 rfl
      (.literal hport) .root
    obtain ⟨spec, m, hm, hrun, hspec, _⟩ := hexpand (by decide) (by decide)
    have hvalue : UInt16.toNat 8080 = 8080 := rfl
    obtain rfl : m = 8080 := UInt16.toNat_inj.1 (by omega)
    exact ⟨spec, hrun, hspec⟩
  · obtain ⟨hdecodes, htext⟩ :=
      htexts ⟨[], 0⟩ 0 0 (.scalar ⟨"9-3", .plain, none, .start⟩) _ "9-3" rfl rfl
      rfl .root
    obtain ⟨⟨spec, c⟩, hrun⟩ := hdecodes.2 (.inr ⟨9, 3, hrange⟩)
    have hspec := htext spec c hrun
    refine ⟨spec, c, hrun, hspec, fun ports hports => ?_⟩
    rw [PortSpec.expand, hspec] at hports
    cases hrange.symm.trans hports
  · obtain ⟨d, hd, hweb⟩ := exists_ok_of_toOption_bind
      (x := Descriptor.decoder.run (.ofBytes hostPortDocument))
      (f := fun d => (d.services.get? "web").map fun s =>
        decide (Module.Port.ofDescriptors s.ports = .error .empty)) (b := true) (by decide +kernel)
    obtain ⟨s, hs, hempty⟩ := Option.map_eq_some_iff.1 hweb
    have he := of_decide_eq_true hempty
    obtain ⟨_, _, _, _, _, n, _, _, _, _, hmissing⟩ := hdocuments _ d "web" s .empty hd hs he
    exact ⟨d, s, n, hd, hs, he, hmissing.1 rfl⟩

end ModuleCompiler
