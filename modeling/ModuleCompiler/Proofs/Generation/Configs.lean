import ModuleCompiler.Module.Config
import ModuleCompiler.Proofs.Number.Positional
import ModuleCompiler.Proofs.Outcome

/-!
Configs and the kinds of their values. A config is compiled exactly if all that it says is of one
kind, and what comes out of it is of that kind again.
-/

namespace ModuleCompiler

/-- The kind as errors have it. -/
def DataType.expected : DataType → String
  | string => "string"
  | bool => "bool"
  | int => "int64"
  | float => "float64"

namespace RawValue

/-- A value taken as one of a kind. Nothing but texts takes in values of other kinds. -/
inductive Coerces : DataType → RawValue → ConfigScalar → Prop
  | string (s : String) : Coerces .string (.string s) (.string s)
  | intText (n : Int64) : Coerces .string (.int n) (.string (ToString.toString n.toInt))
  | floatText (x : Float) : Coerces .string (.float x) (.string (RealNotation.plain.render x))
  | bool (b : Bool) : Coerces .bool (.bool b) (.bool b)
  | int (n : Int64) : Coerces .int (.int n) (.int n)
  | float (x : Float) : Coerces .float (.float x) (.float x)

def Coercible (kind : DataType) (v : RawValue) : Prop := ∃ s, Coerces kind v s

/-- A value as the scalar that it is by itself. -/
inductive IsScalar : RawValue → ConfigScalar → Prop
  | string (s : String) : IsScalar (.string s) (.string s)
  | bool (b : Bool) : IsScalar (.bool b) (.bool b)
  | int (n : Int64) : IsScalar (.int n) (.int n)
  | float (x : Float) : IsScalar (.float x) (.float x)

/-- The first of several values that cannot be taken as one of a kind. -/
def FirstOutside (kind : DataType) (vs : List RawValue) (v : RawValue) : Prop :=
  ∃ before after, vs = before ++ v :: after ∧ (∀ w ∈ before, Coercible kind w) ∧ ¬ Coercible kind v

section Coercion

variable {kind : DataType} {v : RawValue} {s : ConfigScalar} {e : CoerceError}

theorem Coerces.dataType (h : Coerces kind v s) : s.dataType = kind := by
  cases h <;> rfl

theorem Coerces.coerce (h : Coerces kind v s) : v.coerce kind = .ok s := by
  cases h <;> rfl

theorem coerce_cases (kind : DataType) (v : RawValue) :
    Coercible kind v ∨ v.coerce kind = .error ⟨kind.expected, v.kind⟩ := by
  cases kind with
  | string =>
    cases v with
    | string s => exact .inl ⟨_, .string s⟩
    | int n => exact .inl ⟨_, .intText n⟩
    | float x => exact .inl ⟨_, .floatText x⟩
    | _ => exact .inr rfl
  | bool =>
    cases v with
    | bool b => exact .inl ⟨_, .bool b⟩
    | _ => exact .inr rfl
  | int =>
    cases v with
    | int n => exact .inl ⟨_, .int n⟩
    | _ => exact .inr rfl
  | float =>
    cases v with
    | float x => exact .inl ⟨_, .float x⟩
    | _ => exact .inr rfl

theorem coerce_outcome (kind : DataType) (v : RawValue) :
    (∀ s, v.coerce kind = .ok s ↔ Coerces kind v s) ∧
    ∀ e, v.coerce kind = .error e ↔ ¬ Coercible kind v ∧ e = ⟨kind.expected, v.kind⟩ := by
  refine outcome_iff (fun _ => Coerces.coerce) ?_ ?_
  · rintro _ ⟨hnot, rfl⟩
    exact (coerce_cases kind v).resolve_left hnot
  · exact (Classical.em (Coercible kind v)).imp_right fun hnot => ⟨_, hnot, rfl⟩

theorem coerce_eq_ok_iff : v.coerce kind = .ok s ↔ Coerces kind v s :=
  (coerce_outcome kind v).1 s

theorem coerce_eq_error_iff :
    v.coerce kind = .error e ↔ ¬ Coercible kind v ∧ e = ⟨kind.expected, v.kind⟩ :=
  (coerce_outcome kind v).2 e

theorem IsScalar.toScalar (h : IsScalar v s) : v.toScalar = .ok s := by
  cases h <;> rfl

theorem toScalar_cases (v : RawValue) :
    (∃ s, IsScalar v s) ∨ v.toScalar = .error ⟨"scalar", v.kind⟩ := by
  cases v with
  | string s => exact .inl ⟨_, .string s⟩
  | bool b => exact .inl ⟨_, .bool b⟩
  | int n => exact .inl ⟨_, .int n⟩
  | float x => exact .inl ⟨_, .float x⟩
  | _ => exact .inr rfl

theorem toScalar_outcome (v : RawValue) :
    (∀ s, v.toScalar = .ok s ↔ IsScalar v s) ∧
    ∀ e, v.toScalar = .error e ↔ (¬ ∃ s, IsScalar v s) ∧ e = ⟨"scalar", v.kind⟩ := by
  refine outcome_iff (fun _ => IsScalar.toScalar) ?_ ?_
  · rintro _ ⟨hnot, rfl⟩
    exact (toScalar_cases v).resolve_left hnot
  · exact (Classical.em (∃ s, IsScalar v s)).imp_right fun hnot => ⟨_, hnot, rfl⟩

theorem toScalar_eq_ok_iff : v.toScalar = .ok s ↔ IsScalar v s :=
  (toScalar_outcome v).1 s

theorem toScalar_eq_error_iff :
    v.toScalar = .error e ↔ (¬ ∃ s, IsScalar v s) ∧ e = ⟨"scalar", v.kind⟩ :=
  (toScalar_outcome v).2 e

end Coercion

end RawValue

namespace Module

namespace ConfigEntry

open RawValue

/-- The kind that a config has by the name of its type, which may be left out. -/
inductive Names : Option String → DataType → Prop
  | unsaid : Names none .string
  | string : Names (some "string") .string
  | bool : Names (some "bool") .bool
  | int : Names (some "int") .int
  | int64 : Names (some "int64") .int
  | float : Names (some "float") .float
  | float64 : Names (some "float64") .float

inductive IsDefault (kind : DataType) : Bool → RawValue → Option ConfigValue → Prop
  | absent (isList : Bool) : IsDefault kind isList .absent none
  | list {vs : List RawValue} {ss : List ConfigScalar} : List.Forall₂ (Coerces kind) vs ss →
      IsDefault kind true (.list vs) (some (.list ss))
  | single {v : RawValue} {s : ConfigScalar} : Coerces kind v s →
      IsDefault kind false v (some (.scalar s))

inductive NoDefault (kind : DataType) : Bool → RawValue → ConfigError → Prop
  | notAList {v : RawValue} : v ≠ .absent → (∀ vs, v ≠ .list vs) →
      NoDefault kind true v (.notAList v.kind)
  | element {vs : List RawValue} {v : RawValue} : FirstOutside kind vs v →
      NoDefault kind true (.list vs) (.value ⟨kind.expected, v.kind⟩)
  | single {v : RawValue} : v ≠ .absent → ¬ Coercible kind v →
      NoDefault kind false v (.value ⟨kind.expected, v.kind⟩)

/-- The options that a config gives to its input, if it has one. -/
def given (c : Descriptor.ConfigValue) : SortedMap RawValue :=
  (c.userInput.map (·.typeOptions)).getD ∅

/-- All that a config says is of one kind. -/
structure WellTyped (c : Descriptor.ConfigValue) (kind : DataType) : Prop where
  dataType : Names c.dataType kind
  value : c.value = .absent ∨
    (c.isList = true ∧ ∃ vs, c.value = .list vs ∧ ∀ v ∈ vs, Coercible kind v) ∨
    (c.isList = false ∧ Coercible kind c.value)
  options : ∀ v ∈ c.options, Coercible kind v
  typeOptions : ∀ key v, (given c).get? key = some v → ∃ s, IsScalar v s

/-- The entry that a config is compiled to, field by field. -/
structure IsCompiled (c : Descriptor.ConfigValue) (e : ConfigEntry) : Prop where
  dataType : Names c.dataType e.dataType
  isList : e.isList = c.isList
  default : IsDefault e.dataType c.isList c.value e.default
  options : List.Forall₂ (Coerces e.dataType) c.options e.options
  optionsExt : e.optionsExt = c.optionsExt
  inputType : e.inputType = (c.userInput.map (·.type)).getD ""
  typeOptions : ∀ key, Option.Rel IsScalar ((given c).get? key) (e.typeOptions.get? key)
  delimiter : e.delimiter = if c.isList then some (c.delimiter.getD ",") else none
  required : e.required = !c.optional

/-- What an entry shows of its config and of its kind. -/
structure IsTyped (c : Descriptor.ConfigValue) (e : ConfigEntry) : Prop where
  default : ∀ v, e.default = some v → ∀ s ∈ v.scalars, s.dataType = e.dataType
  options : ∀ s ∈ e.options, s.dataType = e.dataType
  unset : e.default = none ↔ c.value = .absent
  list : ∀ v, e.default = some v → ((∃ ss, v = .list ss) ↔ c.isList = true)
  delimiter : e.delimiter.isSome = c.isList
  keys : ∀ key, e.typeOptions.contains key = (given c).contains key

/-- The fault of a config. Of several the first is told: the type, then the default, then the
options, then those of the input by their keys. -/
inductive FailsWith (c : Descriptor.ConfigValue) : ConfigError → Prop
  | dataType {name : String} : c.dataType = some name → (∀ kind, ¬ Names (some name) kind) →
      FailsWith c (.invalidDataType name)
  | default {kind : DataType} {e : ConfigError} : Names c.dataType kind →
      NoDefault kind c.isList c.value e → FailsWith c e
  | option {kind : DataType} {d : Option ConfigValue} {v : RawValue} : Names c.dataType kind →
      IsDefault kind c.isList c.value d → FirstOutside kind c.options v →
      FailsWith c (.value ⟨kind.expected, v.kind⟩)
  | typeOption {kind : DataType} {d : Option ConfigValue} {ss : List ConfigScalar} {key : String}
      {v : RawValue} : Names c.dataType kind → IsDefault kind c.isList c.value d →
      List.Forall₂ (Coerces kind) c.options ss → (given c).get? key = some v →
      (¬ ∃ s, IsScalar v s) →
      (∀ key' v', (given c).get? key' = some v' → key' < key → ∃ s, IsScalar v' s) →
      FailsWith c (.typeOption key ⟨"scalar", v.kind⟩)

section Parts

variable {kind : DataType} {isList : Bool} {v : RawValue} {vs : List RawValue}
  {ss : List ConfigScalar} {d : Option ConfigValue} {err : ConfigError} {name : Option String}

theorem ofName?_eq_some_iff {name : String} :
    DataType.ofName? name = some kind ↔ Names (some name) kind := by
  constructor
  · intro h
    unfold DataType.ofName? at h
    split at h
    · cases h
      exact .string
    · cases h
      exact .bool
    · cases h
      exact .int
    · cases h
      exact .int64
    · cases h
      exact .float
    · cases h
      exact .float64
    · cases h
  · intro h
    cases h <;> rfl

theorem kindOf_eq_ok_iff : kindOf name = .ok kind ↔ Names name kind := by
  cases name with
  | none =>
    constructor
    · intro h
      cases h
      exact .unsaid
    · intro h
      cases h
      rfl
  | some name =>
    rw [← ofName?_eq_some_iff, kindOf]
    cases DataType.ofName? name <;> simp

theorem kindOf_eq_error_iff : kindOf name = .error err ↔
    ∃ n, name = some n ∧ (∀ kind, ¬ Names (some n) kind) ∧ err = .invalidDataType n := by
  cases name with
  | none => simp [kindOf]
  | some n =>
    simp only [← ofName?_eq_some_iff, kindOf, Option.some.injEq, exists_eq_left']
    cases DataType.ofName? n <;> simp [eq_comm]

theorem coerceAll_eq_ok_iff : coerceAll kind vs = .ok ss ↔ List.Forall₂ (Coerces kind) vs ss := by
  simp only [coerceAll, mapM_eq_ok_iff, coerce_eq_ok_iff]

theorem coerceAll_eq_error_iff {e : CoerceError} : coerceAll kind vs = .error e ↔
    ∃ v, FirstOutside kind vs v ∧ e = ⟨kind.expected, v.kind⟩ := by
  simp only [coerceAll, mapM_eq_error_iff, coerce_eq_ok_iff, coerce_eq_error_iff]
  constructor
  · rintro ⟨before, v, after, heq, hbefore, hv, he⟩
    exact ⟨v, ⟨before, after, heq, hbefore, hv⟩, he⟩
  · rintro ⟨v, ⟨before, after, heq, hbefore, hv⟩, he⟩
    exact ⟨before, v, after, heq, hbefore, hv, he⟩

theorem exists_forall₂_iff :
    (∃ ss, List.Forall₂ (Coerces kind) vs ss) ↔ ∀ v ∈ vs, Coercible kind v := by
  simp only [← coerceAll_eq_ok_iff, coerceAll, exists_mapM_iff, coerce_eq_ok_iff]
  rfl

theorem dataType_of_forall₂ (h : List.Forall₂ (Coerces kind) vs ss) :
    ∀ s ∈ ss, s.dataType = kind := by
  induction h with
  | nil => simp
  | cons hs _ ih => exact List.forall_mem_cons.2 ⟨hs.dataType, ih⟩

theorem defaultOf_of_isDefault (h : IsDefault kind isList v d) : defaultOf kind isList v = .ok d := by
  cases h with
  | absent => rfl
  | list hss => simp only [defaultOf, coerceAll_eq_ok_iff.2 hss, if_true]
  | @single v s hs =>
    have hsingle : defaultOf.single kind v = .ok (some (.scalar s)) := by
      rw [defaultOf.single, hs.coerce]
    cases hs <;> exact hsingle

theorem defaultOf_of_noDefault (h : NoDefault kind isList v err) :
    defaultOf kind isList v = .error err := by
  cases h with
  | notAList hv hlist =>
    cases v with
    | absent => exact absurd rfl hv
    | list vs => exact absurd rfl (hlist vs)
    | _ => rfl
  | element hfirst =>
    simp only [defaultOf, coerceAll_eq_error_iff.2 ⟨_, hfirst, rfl⟩, if_true]
  | single hv hnot =>
    have hsingle : defaultOf.single kind v = .error (.value ⟨kind.expected, v.kind⟩) := by
      rw [defaultOf.single, coerce_eq_error_iff.2 ⟨hnot, rfl⟩]
    cases v with
    | absent => exact absurd rfl hv
    | _ => exact hsingle

theorem isDefault_or_noDefault (kind : DataType) (isList : Bool) (v : RawValue) :
    (∃ d, IsDefault kind isList v d) ∨ ∃ err, NoDefault kind isList v err := by
  by_cases hv : v = .absent
  · rw [hv]
    exact .inl ⟨_, .absent isList⟩
  cases isList with
  | true =>
    by_cases hlist : ∃ vs, v = .list vs
    · obtain ⟨vs, rfl⟩ := hlist
      cases hss : coerceAll kind vs with
      | ok ss => exact .inl ⟨_, .list (coerceAll_eq_ok_iff.1 hss)⟩
      | error e =>
        obtain ⟨w, hw, _⟩ := coerceAll_eq_error_iff.1 hss
        exact .inr ⟨_, .element hw⟩
    · exact .inr ⟨_, .notAList hv fun vs he => hlist ⟨vs, he⟩⟩
  | false =>
    by_cases hs : Coercible kind v
    · obtain ⟨s, hs⟩ := hs
      exact .inl ⟨_, .single hs⟩
    · exact .inr ⟨_, .single hv hs⟩

theorem defaultOf_outcome (kind : DataType) (isList : Bool) (v : RawValue) :
    (∀ d, defaultOf kind isList v = .ok d ↔ IsDefault kind isList v d) ∧
    ∀ err, defaultOf kind isList v = .error err ↔ NoDefault kind isList v err :=
  outcome_iff (fun _ => defaultOf_of_isDefault) (fun _ => defaultOf_of_noDefault)
    (isDefault_or_noDefault kind isList v)

theorem defaultOf_eq_ok_iff : defaultOf kind isList v = .ok d ↔ IsDefault kind isList v d :=
  (defaultOf_outcome kind isList v).1 d

theorem defaultOf_eq_error_iff :
    defaultOf kind isList v = .error err ↔ NoDefault kind isList v err :=
  (defaultOf_outcome kind isList v).2 err

theorem exists_isDefault_iff : (∃ d, IsDefault kind isList v d) ↔ v = .absent ∨
    (isList = true ∧ ∃ vs, v = .list vs ∧ ∀ w ∈ vs, Coercible kind w) ∨
    (isList = false ∧ Coercible kind v) := by
  constructor
  · rintro ⟨d, hd⟩
    cases hd with
    | absent => exact .inl rfl
    | list hss => exact .inr (.inl ⟨rfl, _, rfl, exists_forall₂_iff.1 ⟨_, hss⟩⟩)
    | single hs => exact .inr (.inr ⟨rfl, _, hs⟩)
  · rintro (rfl | ⟨rfl, vs, rfl, hvs⟩ | ⟨rfl, s, hs⟩)
    · exact ⟨_, .absent isList⟩
    · obtain ⟨ss, hss⟩ := exists_forall₂_iff.2 hvs
      exact ⟨_, .list hss⟩
    · exact ⟨_, .single hs⟩

theorem IsDefault.dataType {w : ConfigValue} (h : IsDefault kind isList v (some w)) :
    ∀ s ∈ w.scalars, s.dataType = kind := by
  cases h with
  | list hss => exact dataType_of_forall₂ hss
  | single hs => exact List.forall_mem_singleton.2 hs.dataType

theorem IsDefault.eq_none_iff (h : IsDefault kind isList v d) : d = none ↔ v = .absent := by
  cases h with
  | absent => simp
  | list hss => simp
  | single hs => cases hs <;> simp

theorem IsDefault.isList_iff {w : ConfigValue} (h : IsDefault kind isList v (some w)) :
    (∃ ss, w = .list ss) ↔ isList = true := by
  cases h with
  | list hss => simp
  | single hs => simp

theorem optionsOf_eq_ok_iff : optionsOf kind vs = .ok ss ↔ List.Forall₂ (Coerces kind) vs ss := by
  rw [optionsOf, mapError_eq_ok_iff, coerceAll_eq_ok_iff]

theorem optionsOf_eq_error_iff : optionsOf kind vs = .error err ↔
    ∃ v, FirstOutside kind vs v ∧ err = .value ⟨kind.expected, v.kind⟩ := by
  simp only [optionsOf, mapError_eq_error_iff, coerceAll_eq_error_iff]
  constructor
  · rintro ⟨_, ⟨v, hv, rfl⟩, rfl⟩
    exact ⟨v, hv, rfl⟩
  · rintro ⟨v, hv, rfl⟩
    exact ⟨_, ⟨v, hv, rfl⟩, rfl⟩

theorem inputTypeOptions_eq_traverse (c : Descriptor.ConfigValue) :
    inputTypeOptions c.userInput = typeOptionsOf (given c) := by
  rw [given]
  cases c.userInput with
  | none => rfl
  | some input => rfl

theorem inputTypeOptions_eq_ok_iff {c : Descriptor.ConfigValue} {ts : SortedMap ConfigScalar} :
    inputTypeOptions c.userInput = .ok ts ↔
      ∀ key, Option.Rel IsScalar ((given c).get? key) (ts.get? key) := by
  simp only [inputTypeOptions_eq_traverse, typeOptionsOf, SortedMap.traverse_eq_ok_iff,
    mapError_eq_ok_iff, toScalar_eq_ok_iff]

theorem inputTypeOptions_eq_error_iff {c : Descriptor.ConfigValue} :
    inputTypeOptions c.userInput = .error err ↔
      ∃ key v, (given c).get? key = some v ∧
        ((¬ ∃ s, IsScalar v s) ∧ err = .typeOption key ⟨"scalar", v.kind⟩) ∧
        ∀ key' v', (given c).get? key' = some v' → key' < key → ∃ s, IsScalar v' s := by
  have hfault : ∀ key v, v.toScalar.mapError (ConfigError.typeOption key) = .error err ↔
      (¬ ∃ s, IsScalar v s) ∧ err = .typeOption key ⟨"scalar", v.kind⟩ := by
    intro key v
    rw [mapError_eq_error_iff]
    constructor
    · rintro ⟨cause, hcause, rfl⟩
      obtain ⟨hnot, rfl⟩ := toScalar_eq_error_iff.1 hcause
      exact ⟨hnot, rfl⟩
    · rintro ⟨hnot, rfl⟩
      exact ⟨_, toScalar_eq_error_iff.2 ⟨hnot, rfl⟩, rfl⟩
  simp only [inputTypeOptions_eq_traverse, typeOptionsOf, SortedMap.traverse_eq_error_iff,
    mapError_eq_ok_iff, toScalar_eq_ok_iff, hfault]

end Parts

section Whole

variable {c : Descriptor.ConfigValue} {e : ConfigEntry} {err : ConfigError}

theorem ofDescriptor_eq_ok_iff : ofDescriptor c = .ok e ↔ IsCompiled c e := by
  simp only [ofDescriptor, bind_eq_ok_iff, pure_eq_ok_iff, kindOf_eq_ok_iff, defaultOf_eq_ok_iff,
    optionsOf_eq_ok_iff, inputTypeOptions_eq_ok_iff]
  constructor
  · rintro ⟨kind, hkind, d, hd, ss, hss, ts, hts, rfl⟩
    exact ⟨hkind, rfl, hd, hss, rfl, rfl, hts, rfl, rfl⟩
  · rintro ⟨hkind, hlist, hd, hss, hext, hinput, hts, hdelimiter, hrequired⟩
    refine ⟨_, hkind, _, hd, _, hss, _, hts, ?_⟩
    obtain ⟨⟩ := e
    cases hlist
    cases hext
    cases hinput
    cases hdelimiter
    cases hrequired
    rfl

theorem ofDescriptor_eq_error_iff : ofDescriptor c = .error err ↔ FailsWith c err := by
  simp only [ofDescriptor, bind_eq_error_iff, kindOf_eq_ok_iff, defaultOf_eq_ok_iff,
    optionsOf_eq_ok_iff, inputTypeOptions_eq_ok_iff, kindOf_eq_error_iff, defaultOf_eq_error_iff,
    optionsOf_eq_error_iff, inputTypeOptions_eq_error_iff]
  constructor
  · rintro (⟨name, hname, hnot, rfl⟩ | ⟨kind, hkind, hn | ⟨d, hd, ⟨v, hv, rfl⟩ | ⟨ss, hss,
      ⟨key, v, hv, ⟨hnot, rfl⟩, hfirst⟩ | ⟨ts, _, hpure⟩⟩⟩⟩)
    · exact .dataType hname hnot
    · exact .default hkind hn
    · exact .option hkind hd hv
    · exact .typeOption hkind hd hss hv hnot hfirst
    · cases hpure
  · intro h
    cases h with
    | dataType hname hnot => exact .inl ⟨_, hname, hnot, rfl⟩
    | default hkind hn => exact .inr ⟨_, hkind, .inl hn⟩
    | option hkind hd hv => exact .inr ⟨_, hkind, .inr ⟨_, hd, .inl ⟨_, hv, rfl⟩⟩⟩
    | typeOption hkind hd hss hv hnot hfirst =>
      exact .inr ⟨_, hkind, .inr ⟨_, hd, .inr ⟨_, hss, .inl ⟨_, _, hv, ⟨hnot, rfl⟩, hfirst⟩⟩⟩⟩

theorem exists_entry_iff : (∃ e, ofDescriptor c = .ok e) ↔ ∃ kind, WellTyped c kind := by
  simp only [ofDescriptor_eq_ok_iff]
  constructor
  · rintro ⟨e, h⟩
    refine ⟨e.dataType, h.dataType, exists_isDefault_iff.1 ⟨_, h.default⟩,
      exists_forall₂_iff.1 ⟨_, h.options⟩, fun key v hv => ?_⟩
    have hkey := h.typeOptions key
    rw [hv] at hkey
    generalize e.typeOptions.get? key = t at hkey
    cases hkey with
    | some hs => exact ⟨_, hs⟩
  · rintro ⟨kind, h⟩
    obtain ⟨d, hd⟩ := exists_isDefault_iff.2 h.value
    obtain ⟨ss, hss⟩ := exists_forall₂_iff.2 h.options
    cases hts : inputTypeOptions c.userInput with
    | ok ts =>
      exact ⟨⟨kind, c.isList, d, ss, c.optionsExt, _, ts, _, !c.optional⟩, h.dataType, rfl, hd, hss,
        rfl, rfl, inputTypeOptions_eq_ok_iff.1 hts, rfl, rfl⟩
    | error err =>
      obtain ⟨key, v, hv, ⟨hnot, _⟩, _⟩ := inputTypeOptions_eq_error_iff.1 hts
      obtain ⟨s, hs⟩ := h.typeOptions key v hv
      exact absurd ⟨s, hs⟩ hnot

theorem IsCompiled.isTyped (h : IsCompiled c e) : IsTyped c e where
  default := by
    intro v hv
    have hd := h.default
    rw [hv] at hd
    exact hd.dataType
  options := dataType_of_forall₂ h.options
  unset := h.default.eq_none_iff
  list := by
    intro v hv
    have hd := h.default
    rw [hv] at hd
    exact hd.isList_iff
  delimiter := by
    rw [h.delimiter]
    cases c.isList <;> rfl
  keys := by
    intro key
    have hkey := h.typeOptions key
    simp only [SortedMap.contains]
    generalize (given c).get? key = a, e.typeOptions.get? key = b at hkey
    cases hkey <;> rfl

end Whole

/-- A config is compiled if and only if all that it says is of the one kind that it names. -/
theorem ofDescriptor_typed (c : Descriptor.ConfigValue) :
    (∀ kind v s, v.coerce kind = .ok s ↔ Coerces kind v s) ∧
    (∀ x s, (RawValue.float x).coerce .string = .ok (.string s) →
      (BinaryFloat.ofFloat x).IsWritten s.toList) ∧
    ((∃ e, ofDescriptor c = .ok e) ↔ ∃ kind, WellTyped c kind) ∧
    (∀ e, ofDescriptor c = .ok e ↔ IsCompiled c e) ∧
    (∀ e, ofDescriptor c = .ok e → IsTyped c e) ∧
    ∀ err, ofDescriptor c = .error err ↔ FailsWith c err := by
  refine ⟨fun _ _ _ => coerce_eq_ok_iff, fun x s h => ?_, exists_entry_iff,
    fun _ => ofDescriptor_eq_ok_iff, fun _ h => (ofDescriptor_eq_ok_iff.1 h).isTyped,
    fun _ => ofDescriptor_eq_error_iff⟩
  cases h
  exact RealNotation.render_plain x

end ConfigEntry

end Module

end ModuleCompiler
