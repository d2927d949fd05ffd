import ModuleCompiler.Proofs.Binding.Bearer

/-!
Slots of the tables of services. A step concerns one slot: it is refused for a target that is not
declared or for another binding in its slot, and else it leaves all other slots alone.
-/

namespace ModuleCompiler.Module

/-- A key of a family on a service or helper service. -/
structure Slot where
  kind : ServiceKind
  target : String
  family : Family
  key : String
  deriving DecidableEq

namespace Step

def kind : Step → ServiceKind
  | service .. => .service
  | auxService .. => .auxService

def target : Step → String
  | service target _ _ => target
  | auxService target _ _ => target

def key : Step → String
  | service _ key _ => key
  | auxService _ key _ => key

def binding : Step → Binding
  | service _ _ b => b
  | auxService _ _ b => .shared b

def family (s : Step) : Family := s.binding.family

def origin (s : Step) : String := s.binding.origin

def slot (s : Step) : Slot := ⟨s.kind, s.target, s.family, s.key⟩

theorem eq_service {s : Step} {target key : String} {b : Binding}
    (hs : s.slot = ⟨.service, target, b.family, key⟩) (hb : s.binding = b) :
    s = .service target key b := by
  cases s <;> simp_all [slot, kind, Step.target, Step.key, binding]

theorem eq_auxService {s : Step} {target key : String} {b : SharedBinding}
    (hs : s.slot = ⟨.auxService, target, b.family, key⟩) (hb : s.binding = .shared b) :
    s = .auxService target key b := by
  cases s <;> simp_all [slot, kind, Step.target, Step.key, binding]

end Step

namespace ServiceTables

def declares (t : ServiceTables) (kind : ServiceKind) (id : String) : Bool :=
  match kind with
  | .service => t.services.contains id
  | .auxService => t.auxServices.contains id

def binding? (t : ServiceTables) (slot : Slot) : Option Binding :=
  match slot.kind with
  | .service => bindingIn? t.services slot.target slot.family slot.key
  | .auxService => (bindingIn? t.auxServices slot.target slot.family slot.key).map .shared

def bare (t : ServiceTables) : ServiceTables :=
  ⟨t.services.map fun _ => Bearer.bare, t.auxServices.map fun _ => Bearer.bare⟩

theorem declares_of_binding? {t : ServiceTables} {slot : Slot} {b : Binding}
    (h : t.binding? slot = some b) : t.declares slot.kind slot.target = true := by
  obtain ⟨kind, target, family, key⟩ := slot
  cases kind with
  | service => exact contains_of_bindingIn? h
  | auxService =>
    obtain ⟨c, hc, rfl⟩ := Option.map_eq_some_iff.1 h
    exact contains_of_bindingIn? hc

theorem declares_congr {t t' : ServiceTables} (h : t'.bare = t.bare) (kind : ServiceKind)
    (id : String) : t'.declares kind id = t.declares kind id := by
  cases kind with
  | service =>
    have hs := congrArg (fun u : ServiceTables => u.services.contains id) h
    simpa [bare, declares] using hs
  | auxService =>
    have hs := congrArg (fun u : ServiceTables => u.auxServices.contains id) h
    simpa [bare, declares] using hs

theorem ext_binding? {t t' : ServiceTables} (hb : t.bare = t'.bare)
    (h : ∀ slot, t.binding? slot = t'.binding? slot) : t = t' := by
  obtain ⟨services, auxServices⟩ := t
  obtain ⟨services', auxServices'⟩ := t'
  have hs : services = services' :=
    ext_bindingIn? (congrArg ServiceTables.services hb) fun id f k => h ⟨.service, id, f, k⟩
  have ha : auxServices = auxServices' := by
    refine ext_bindingIn? (congrArg ServiceTables.auxServices hb) fun id f k => ?_
    exact Option.map_injective (fun _ _ e => Binding.shared.inj e) (h ⟨.auxService, id, f, k⟩)
  rw [hs, ha]

/-- A step has been taken: its binding is in its slot, and all else is as it was. -/
structure IsAfter (t : ServiceTables) (s : Step) (t' : ServiceTables) : Prop where
  bare : t'.bare = t.bare
  binding? : ∀ slot, t'.binding? slot = if slot = s.slot then some s.binding else t.binding? slot

theorem IsAfter.service {t : ServiceTables} {target key : String} {b : Binding}
    {services : SortedMap Service} (h : Extends t.services target key b services) :
    t.IsAfter (.service target key b) { t with services := services } := by
  constructor
  · simp [ServiceTables.bare, h.bare]
  · rintro ⟨kind, id, f, k⟩
    cases kind with
    | service =>
      simp only [ServiceTables.binding?, h.binding?, Step.slot, Slot.mk.injEq, true_and, Step.kind,
        Step.target, Step.key, Step.family, Step.binding]
      rfl
    | auxService => simp [ServiceTables.binding?, Step.slot, Step.kind]

theorem IsAfter.auxService {t : ServiceTables} {target key : String} {b : SharedBinding}
    {auxServices : SortedMap AuxService} (h : Extends t.auxServices target key b auxServices) :
    t.IsAfter (.auxService target key b) { t with auxServices := auxServices } := by
  constructor
  · simp [ServiceTables.bare, h.bare]
  · rintro ⟨kind, id, f, k⟩
    cases kind with
    | service => simp [ServiceTables.binding?, Step.slot, Step.kind]
    | auxService =>
      simp only [ServiceTables.binding?, h.binding?, Step.slot, Slot.mk.injEq, true_and, Step.kind,
        Step.target, Step.key, Step.family, Step.binding]
      rw [apply_ite (Option.map Binding.shared)]
      rfl

/-- Why a step can be refused, and what it does otherwise. -/
theorem apply_cases (t : ServiceTables) (s : Step) :
    (t.declares s.kind s.target = false ∧
      t.apply s = .error (.undefinedTarget s.family s.kind s.target)) ∨
    (∃ old, t.binding? s.slot = some old ∧ old ≠ s.binding ∧
      t.apply s = .error (.conflict s.family s.target s.key old.origin s.origin)) ∨
    (t.declares s.kind s.target = true ∧ (∀ old, t.binding? s.slot = some old → old = s.binding) ∧
      ∃ t', t.apply s = .ok t' ∧ t.IsAfter s t') := by
  cases s with
  | service target key b =>
    have h := updateEntry_bindOn t.services target key b
      (GenerateError.undefinedTarget b.family .service target)
      (fun old => .conflict b.family target key old.origin b.origin)
    rcases h with ⟨hc, hr⟩ | ⟨old, ho, hne, hr⟩ | ⟨hc, hk, m, hr, hm⟩
    · exact .inl ⟨hc, congrArg (Except.map _) hr⟩
    · exact .inr (.inl ⟨old, ho, hne, congrArg (Except.map _) hr⟩)
    · exact .inr (.inr ⟨hc, hk, _, congrArg (Except.map _) hr, .service hm⟩)
  | auxService target key b =>
    have h := updateEntry_bindOn t.auxServices target key b
      (GenerateError.undefinedTarget b.family .auxService target)
      (fun old => .conflict b.family target key old.origin b.origin)
    rcases h with ⟨hc, hr⟩ | ⟨old, ho, hne, hr⟩ | ⟨hc, hk, m, hr, hm⟩
    · exact .inl ⟨hc, congrArg (Except.map _) hr⟩
    · refine .inr (.inl ⟨.shared old, congrArg (Option.map _) ho, ?_, congrArg (Except.map _) hr⟩)
      exact fun he => hne (Binding.shared.inj he)
    · refine .inr (.inr ⟨hc, fun old ho => ?_, _, congrArg (Except.map _) hr, .auxService hm⟩)
      obtain ⟨c, hb, rfl⟩ := Option.map_eq_some_iff.1 ho
      exact congrArg Binding.shared (hk c hb)

end ServiceTables

end ModuleCompiler.Module
