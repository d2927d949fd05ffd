import Mathlib.Algebra.Group.Int.Defs
import ModuleCompiler.Descriptor.Decode
import ModuleCompiler.Proofs.Decode.Untyped
import ModuleCompiler.Proofs.Number.Literal

/-!
Whole numbers in values of no fixed type, at any depth of a config. Those of a signed word of 64
bits are kept, others are refused as long as they fit a word of 128 bits, and wider ones turn into
real numbers or text.
-/

namespace ModuleCompiler

open Yaml Decode

namespace RawValue

/-- What a decimal number is read as. Nothing is read for those that are refused. -/
inductive StandsFor (text : String) (k : Int) : RawValue → Prop
  | int {i : Int64} : i.toInt = k → StandsFor text k (.int i)
  | float : ¬ FitsWide k → (BinaryFloat.nextTo k).isFinite = true →
      StandsFor text k (.float (BinaryFloat.nextTo k).toFloat)
  | string : ¬ FitsWide k → (BinaryFloat.nextTo k).isFinite = false →
      StandsFor text k (.string text)

/-- An integer of 64 bits is kept, and any other number is refused. -/
def IsExact (k : Int) (x : Decode RawValue) : Prop :=
  (∃ i : Int64, i.toInt = k ∧ x = pure (.int i)) ∨ (∀ i : Int64, i.toInt ≠ k) ∧ Fails x

section Literals

variable {anchors : Anchors} {text : String} {k : Int} {v : RawValue}

theorem fitsWide_of_toInt (i : Int64) : FitsWide i.toInt := by
  have hle := i.le_toInt
  have hlt := i.toInt_lt
  have hleast : -Int.ofNat (wordBound 127) ≤ -2 ^ 63 := by decide
  have hgreatest : (2 : Int) ^ 63 ≤ Int.ofNat (wordBound 128) := by decide
  exact ⟨Int.le_trans hleast hle, Int.lt_of_lt_of_le hlt hgreatest⟩

theorem StandsFor.exists_int (h : StandsFor text k v) (hk : FitsWide k) :
    ∃ i : Int64, i.toInt = k ∧ v = .int i := by
  cases h with
  | int hi => exact ⟨_, hi, rfl⟩
  | float hwide _ => exact absurd hk hwide
  | string hwide _ => exact absurd hk hwide

theorem not_standsFor (hk : FitsWide k) (hi : ∀ i : Int64, i.toInt ≠ k) (v : RawValue) :
    ¬ StandsFor text k v := by
  intro h
  obtain ⟨i, hint, _⟩ := h.exists_int hk
  exact hi i hint

theorem StandsFor.unique {w : RawValue} (hv : StandsFor text k v) (hw : StandsFor text k w) :
    v = w := by
  cases hv with
  | @int i hi =>
    cases hw with
    | int hi' => rw [Int64.toInt_inj.1 (hi.trans hi'.symm)]
    | float hwide _ => exact absurd (hi ▸ fitsWide_of_toInt i) hwide
    | string hwide _ => exact absurd (hi ▸ fitsWide_of_toInt i) hwide
  | float hwide hfinite =>
    cases hw with
    | int hi => exact absurd (hi ▸ fitsWide_of_toInt _) hwide
    | float _ _ => rfl
    | string _ hinfinite => cases hfinite.symm.trans hinfinite
  | string hwide hinfinite =>
    cases hw with
    | int hi => exact absurd (hi ▸ fitsWide_of_toInt _) hwide
    | float _ hfinite => cases hfinite.symm.trans hinfinite
    | string _ _ => rfl

/-- A number of 128 bits is taken if it has 64, and refused otherwise. -/
theorem ofScalarValue_integer (p : Place) (k : Int) (minus : Bool) :
    (∃ i : Int64, i.toInt = k ∧ ofScalarValue p (.integer k minus) = pure (.int i)) ∨
      (∀ i : Int64, i.toInt ≠ k) ∧
        ofScalarValue p (.integer k minus) = p.fail (.integerTooWide k) := by
  cases hk : ofInt? k with
  | some v =>
    obtain ⟨i, hi, rfl⟩ := ofInt?_eq_some_iff.1 hk
    exact .inl ⟨i, hi, by simp only [ofScalarValue, hk]⟩
  | none =>
    refine .inr ⟨fun i hi => ?_, by simp only [ofScalarValue, hk]⟩
    cases hk.symm.trans (ofInt?_eq_some_iff.2 ⟨i, hi, rfl⟩)

/-- A plain scalar is read by its look, however deep it lies. -/
theorem decoder_plain (p : Place) (text : String) (mark : Mark) :
    decoder p (.scalar ⟨text, .plain, none, mark⟩) =
      ofScalarValue { p with mark := mark } (ScalarText.plainValue text) := by
  obtain ⟨path, depth, outer⟩ := p
  have hid : ∀ x : Decode RawValue, id <$> x = x := id_map
  cases depth with
  | zero => exact hid _
  | succ depth => exact hid _

theorem decoder_literal (h : IsLiteral text.toList k) (p : Place) (mark : Mark) :
    (∃ v, StandsFor text k v ∧ decoder p (.scalar ⟨text, .plain, none, mark⟩) = pure v) ∨
      FitsWide k ∧ (∀ i : Int64, i.toInt ≠ k) ∧
        decoder p (.scalar ⟨text, .plain, none, mark⟩) =
          { p with mark := mark }.fail (.integerTooWide k) := by
  rw [decoder_plain, ScalarText.plainValue_literal h]
  by_cases hk : FitsWide k
  · rw [if_pos hk]
    rcases ofScalarValue_integer { p with mark := mark } k (text.startsWith "-") with
      ⟨i, hi, hread⟩ | ⟨hi, hread⟩
    · exact .inl ⟨_, .int hi, hread⟩
    · exact .inr ⟨hk, hi, hread⟩
  · rw [if_neg hk]
    cases hfinite : (BinaryFloat.nextTo k).isFinite with
    | true => exact .inl ⟨_, .float hk hfinite, rfl⟩
    | false => exact .inl ⟨_, .string hk hfinite, rfl⟩

theorem decoder_eq_pure_iff (h : IsLiteral text.toList k) (p : Place) (mark : Mark)
    (v : RawValue) :
    decoder p (.scalar ⟨text, .plain, none, mark⟩) = pure v ↔ StandsFor text k v := by
  rcases decoder_literal h p mark with ⟨w, hw, hread⟩ | ⟨hwide, hi, hread⟩
  · rw [hread]
    constructor
    · exact fun h => pure_injective h ▸ hw
    · exact fun h => congrArg pure (hw.unique h)
  · rw [hread]
    constructor
    · exact fun h => absurd (h ▸ Place.fails_fail _ _) (not_fails_pure v)
    · exact fun h => absurd h (not_standsFor hwide hi v)

theorem isExact_iff (h : IsLiteral text.toList k) (p : Place) (mark : Mark) :
    IsExact k (decoder p (.scalar ⟨text, .plain, none, mark⟩)) ↔ FitsWide k := by
  rcases decoder_literal h p mark with ⟨w, hw, hread⟩ | ⟨hwide, hi, hread⟩
  · rw [hread]
    constructor
    · rintro (⟨i, rfl, _⟩ | ⟨_, hfails⟩)
      · exact fitsWide_of_toInt i
      · exact absurd hfails (not_fails_pure w)
    · intro hwide
      obtain ⟨i, hi, rfl⟩ := hw.exists_int hwide
      exact .inl ⟨i, hi, rfl⟩
  · rw [hread]
    exact iff_of_true (.inr ⟨hi, Place.fails_fail _ _⟩) hwide

/-- A number that is read, perhaps through an alias, has been read as what it stands for. -/
theorem standsFor_of_readAs {n : Node} {mark : Mark} (h : IsLiteral text.toList k)
    (hn : target? anchors n = some (.scalar ⟨text, .plain, none, mark⟩))
    (hv : ReadAs anchors decoder n v) : StandsFor text k v := by
  obtain ⟨_, hv⟩ := hv
  obtain ⟨m, u, hm, hu, hmakes⟩ := makes_of_reads hv
  cases hn.symm.trans hm
  cases hu with
  | scalar hs =>
    obtain rfl := Except.ok.inj hs
    cases hmakes with
    | @scalar p _ _ hread =>
      change Reads anchors (ofScalarValue p (ScalarText.plainValue text)) v at hread
      rw [← decoder_plain] at hread
      rcases decoder_literal h p p.mark with ⟨w, hw, heq⟩ | ⟨_, _, heq⟩
      · rw [heq] at hread
        exact hread.eq_of_pure ▸ hw
      · rw [heq] at hread
        exact absurd hread (Place.fails_fail _ _).not_reads

end Literals

end RawValue

namespace Descriptor

/-- Where a config has values of no fixed type. -/
inductive UntypedPlace where
  | value
  | option (i : Nat)
  | typeOption (key : String)

namespace UntypedPlace

/-- The way there from the node of the config. -/
def steps : UntypedPlace → List Step
  | value => [.key "value"]
  | option i => [.key "options", .index i]
  | typeOption key => [.key "userInput", .key "typeOptions", .key key]

def get? (c : ConfigValue) : UntypedPlace → Option RawValue
  | value => some c.value
  | option i => c.options[i]?
  | typeOption key => c.userInput.bind (·.typeOptions.get? key)

end UntypedPlace

theorem hasField_configs :
    HasField fields "configs" (table ConfigValue.decoder) (·.configs) :=
  ⟨⟨_, rfl, fun _ _ => rfl⟩, by simp [fields]⟩

theorem hasField_value :
    HasField ConfigValue.fields "value" RawValue.decoder (·.value) :=
  ⟨⟨_, rfl, fun _ _ => rfl⟩, by simp [ConfigValue.fields]⟩

theorem hasField_options :
    HasField ConfigValue.fields "options" (list RawValue.decoder) (·.options) :=
  ⟨⟨_, rfl, fun _ _ => rfl⟩, by simp [ConfigValue.fields]⟩

theorem hasField_userInput : HasField ConfigValue.fields "userInput"
    (Decode.option ConfigUserInput.decoder) (·.userInput) :=
  ⟨⟨_, rfl, fun _ _ => rfl⟩, by simp [ConfigValue.fields]⟩

theorem hasField_typeOptions : HasField ConfigUserInput.fields "typeOptions"
    (table RawValue.decoder) (·.typeOptions) :=
  ⟨⟨_, rfl, fun _ _ => rfl⟩, by simp [ConfigUserInput.fields]⟩

section Documents

variable {anchors : Anchors} {n m : Node} {c : ConfigValue}

theorem readAs_config {doc : Document} {d : Descriptor} {name : String} {steps : List Step}
    (h : decoder.run doc = .ok d)
    (hm : at? doc.anchors doc.root (.key "configs" :: .key name :: steps) = some m) :
    ∃ n c, at? doc.anchors n steps = some m ∧ d.configs.get? name = some c ∧
      ReadAs doc.anchors ConfigValue.decoder n c := by
  obtain ⟨configs, hconfigs, hm⟩ := at?_cons_eq_some_iff.1 hm
  obtain ⟨n, hn, hm⟩ := at?_cons_eq_some_iff.1 hm
  have hread := (readAs_of_run h).record hasField_configs
  rw [hconfigs] at hread
  have hrel := ReadAs.table hread name
  rw [hn] at hrel
  obtain ⟨c, hc, hread⟩ := exists_right_of_rel hrel
  exact ⟨n, c, hm, hc, hread⟩

/-- The node in such a place of a config has its value. -/
theorem readAs_untyped (h : ReadAs anchors ConfigValue.decoder n c) (place : UntypedPlace)
    (hm : at? anchors n place.steps = some m) :
    ∃ v, place.get? c = some v ∧ ReadAs anchors RawValue.decoder m v := by
  cases place with
  | value =>
    obtain ⟨_, hchild, hm⟩ := at?_cons_eq_some_iff.1 hm
    obtain rfl := Option.some.inj hm
    have hread := h.record hasField_value
    rw [hchild] at hread
    exact ⟨c.value, rfl, hread⟩
  | option i =>
    obtain ⟨options, hoptions, hm⟩ := at?_cons_eq_some_iff.1 hm
    obtain ⟨_, hchild, hm⟩ := at?_cons_eq_some_iff.1 hm
    obtain rfl := Option.some.inj hm
    have hread := h.record hasField_options
    rw [hoptions] at hread
    have hrel := ReadAs.list hread i
    rw [hchild] at hrel
    exact exists_right_of_rel hrel
  | typeOption key =>
    obtain ⟨input, hinput, hm⟩ := at?_cons_eq_some_iff.1 hm
    obtain ⟨options, hoptions, hm⟩ := at?_cons_eq_some_iff.1 hm
    obtain ⟨_, hchild, hm⟩ := at?_cons_eq_some_iff.1 hm
    obtain rfl := Option.some.inj hm
    have hread := h.record hasField_userInput
    rw [hinput] at hread
    obtain ⟨t, ht, hcase⟩ := ReadAs.option hread
    have hoptions := child?_of_target ht hoptions
    rcases hcase with ⟨_, hleft⟩ | ⟨u, hu, hread⟩
    · cases (hleft.child? _).symm.trans hoptions
    · have hread := hread.record hasField_typeOptions
      rw [hoptions] at hread
      have hrel := ReadAs.table hread key
      rw [hchild] at hrel
      rw [UntypedPlace.get?, hu]
      exact exists_right_of_rel hrel

theorem standsFor_of_run {doc : Document} {d : Descriptor} {name : String} {place : UntypedPlace}
    {inner : List Step} {text : String} {mark : Mark} {k : Int} (h : decoder.run doc = .ok d)
    (hn : at? doc.anchors doc.root (.key "configs" :: .key name :: (place.steps ++ inner)) = some n)
    (ht : target? doc.anchors n = some (.scalar ⟨text, .plain, none, mark⟩))
    (hk : IsLiteral text.toList k) :
    ∃ c v, d.configs.get? name = some c ∧ (place.get? c).bind (·.at? inner) = some v ∧
      RawValue.StandsFor text k v := by
  obtain ⟨config, c, hn, hc, hread⟩ := readAs_config h hn
  rw [at?_append] at hn
  obtain ⟨m, hm, hn⟩ := Option.bind_eq_some_iff.1 hn
  obtain ⟨v, hv, hread⟩ := readAs_untyped hread place hm
  have hrel := RawValue.reads_at hread inner
  rw [hn] at hrel
  obtain ⟨w, hw, hread⟩ := exists_right_of_rel hrel
  refine ⟨c, w, hc, ?_, RawValue.standsFor_of_readAs hk ht hread⟩
  rw [hv]
  exact hw

end Documents

/-- A decimal number where no type is asked for. It is kept if it has 64 bits and refused otherwise
if and only if it has at most 128 bits; beyond them it is the nearest double, or its own text if
there is none. It comes to the same wherever it stands inside a value, an option or a type option of
a config: a document with a number that is refused is no descriptor. -/
theorem decoder_integers {text : String} {k : Int} (hk : IsLiteral text.toList k) :
    (∀ p mark, RawValue.IsExact k (RawValue.decoder p (.scalar ⟨text, .plain, none, mark⟩)) ↔
      FitsWide k) ∧
    (∀ p mark v, RawValue.decoder p (.scalar ⟨text, .plain, none, mark⟩) = pure v ↔
      RawValue.StandsFor text k v) ∧
    ∀ (doc : Document) (name : String) (place : UntypedPlace) (inner : List Step) (n : Node)
      (mark : Mark),
      at? doc.anchors doc.root (.key "configs" :: .key name :: (place.steps ++ inner)) = some n →
      target? doc.anchors n = some (.scalar ⟨text, .plain, none, mark⟩) →
      (∀ d, decoder.run doc = .ok d → ∃ c v, d.configs.get? name = some c ∧
        (place.get? c).bind (·.at? inner) = some v ∧ RawValue.StandsFor text k v) ∧
      (FitsWide k → (∀ i : Int64, i.toInt ≠ k) → ∃ e, decoder.run doc = .error e) := by
  refine ⟨fun p mark => RawValue.isExact_iff hk p mark,
    fun p mark v => RawValue.decoder_eq_pure_iff hk p mark v, ?_⟩
  intro doc name place inner n mark hn ht
  have hstands := fun d hd => standsFor_of_run (d := d) hd hn ht hk
  refine ⟨hstands, fun hwide hi => ?_⟩
  cases hd : decoder.run doc with
  | error e => exact ⟨e, rfl⟩
  | ok d =>
    obtain ⟨_, v, _, _, hv⟩ := hstands d hd
    exact absurd hv (RawValue.not_standsFor hwide hi v)

/-- A config with the least integer of 64 bits inside an option. -/
def leastDocument : ByteArray :=
  "configs:\n  size:\n    options: [1, {min: -9223372036854775808}]\n".toUTF8

theorem decoder_integers_least :
    ∃ d c v, decoder.run (.ofBytes leastDocument) = .ok d ∧ d.configs.get? "size" = some c ∧
      c.options[1]? = some v ∧ v.at? [.key "min"] = some (.int (-9223372036854775808)) := by
  have hdigits : AreDigits "9223372036854775808".toList 9223372036854775808 :=
    ⟨by decide, List.all_eq_true.1 (by decide), by decide +kernel⟩
  have hk : IsLiteral "-9223372036854775808".toList (-9223372036854775808) :=
    .minus ⟨hdigits, by decide⟩
  obtain ⟨d, hd, _⟩ := exists_ok_of_toOption_bind (x := decoder.run (.ofBytes leastDocument))
    (f := fun _ => some ()) (b := ()) (by decide +kernel)
  have hat : at? (Document.ofBytes leastDocument).anchors (Document.ofBytes leastDocument).root
      (.key "configs" :: .key "size" :: ((UntypedPlace.option 1).steps ++ [.key "min"])) =
      some (.scalar ⟨"-9223372036854775808", .plain, none, ⟨40, 2, 23⟩⟩) := by
    decide +kernel
  obtain ⟨c, v, hc, hv, hstands⟩ := ((decoder_integers hk).2.2 (.ofBytes leastDocument) "size"
    (.option 1) [.key "min"] _ _ hat rfl).1 d hd
  obtain ⟨w, hw, hv⟩ := Option.bind_eq_some_iff.1 hv
  have hleast : Int64.toInt (-9223372036854775808) = -9223372036854775808 := rfl
  obtain ⟨i, hi, rfl⟩ := hstands.exists_int (by decide)
  obtain rfl := Int64.toInt_inj.1 (hi.trans hleast.symm)
  exact ⟨d, c, w, hd, hc, hw, hv⟩

/-- A document that is the first number beyond 128 bits. -/
def wideDocument : ByteArray := "340282366920938463463374607431768211456".toUTF8

/-- The number is none of the integers that a value may be, and it is not refused. -/
theorem exists_wide_float :
    IsLiteral "340282366920938463463374607431768211456".toList (2 ^ 128) ∧
    ∃ x, RawValue.decoder.run (.ofBytes wideDocument) = .ok (.float x) := by
  have hdigits : AreDigits "340282366920938463463374607431768211456".toList (2 ^ 128) :=
    ⟨by decide, List.all_eq_true.1 (by decide), by decide +kernel⟩
  refine ⟨.unsigned ⟨hdigits, by decide⟩, ?_⟩
  obtain ⟨v, hv, hfloat⟩ := exists_ok_of_toOption_bind
    (x := RawValue.decoder.run (.ofBytes wideDocument))
    (f := fun v => if v.kind = "float64" then some () else none) (b := ()) (by decide +kernel)
  cases v with
  | float x => exact ⟨x, hv⟩
  | _ => cases hfloat

end Descriptor

end ModuleCompiler
