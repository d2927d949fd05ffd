import ModuleCompiler.Proofs.Binding.FirstFault

/-!
The checks that a descriptor has to pass to become a module, each by itself, and the order in which
they are made: configs, services section by section, helper services, and references last.
-/

namespace ModuleCompiler.Module

/-- The declared services with nothing in them. -/
def ServiceTables.blank (d : Descriptor) : ServiceTables :=
  ⟨d.services.map fun _ _ => {}, d.auxServices.map fun _ _ => {}⟩

inductive Check where
  | config (name : String)
  | service (id : String) (part : ServiceSection)
  | auxService (id : String) (part : ServiceSection)
  | references

def ServiceSection.position : ServiceSection → Nat
  | bindMounts => 0
  | tmpfsMounts => 1
  | httpEndpoints => 2
  | ports => 3

namespace Check

/-- A check fails, whatever the others say. References are held against the declared services, with
nothing else in these. -/
inductive FailsWith (d : Descriptor) : Check → GenerateError → Prop
  | config {name : String} {c : Descriptor.ConfigValue} {cause : ConfigError} :
      d.configs.get? name = some c → ConfigEntry.ofDescriptor c = .error cause →
      FailsWith d (.config name) (.config name cause)
  | bindMounts {id : String} {s : Descriptor.Service} {cause : MountError} :
      d.services.get? id = some s → BindMount.ofDescriptors s.bindMounts = .error cause →
      FailsWith d (.service id .bindMounts) (.service .service id .bindMounts (.mount cause))
  | tmpfsMounts {id : String} {s : Descriptor.Service} {cause : MountError} :
      d.services.get? id = some s → TmpfsMount.ofDescriptors s.tmpfs = .error cause →
      FailsWith d (.service id .tmpfsMounts) (.service .service id .tmpfsMounts (.mount cause))
  | httpEndpoints {id : String} {s : Descriptor.Service} {cause : MountError} :
      d.services.get? id = some s → HttpEndpoint.ofDescriptors s.httpEndpoints = .error cause →
      FailsWith d (.service id .httpEndpoints) (.service .service id .httpEndpoints (.mount cause))
  | ports {id : String} {s : Descriptor.Service} {cause : PortError} :
      d.services.get? id = some s → Port.ofDescriptors s.ports = .error cause →
      FailsWith d (.service id .ports) (.service .service id .ports (.port cause))
  | auxBindMounts {id : String} {s : Descriptor.AuxService} {cause : MountError} :
      d.auxServices.get? id = some s → BindMount.ofDescriptors s.bindMounts = .error cause →
      FailsWith d (.auxService id .bindMounts) (.service .auxService id .bindMounts (.mount cause))
  | auxTmpfsMounts {id : String} {s : Descriptor.AuxService} {cause : MountError} :
      d.auxServices.get? id = some s → TmpfsMount.ofDescriptors s.tmpfs = .error cause →
      FailsWith d (.auxService id .tmpfsMounts)
        (.service .auxService id .tmpfsMounts (.mount cause))
  | references {e : GenerateError} :
      resolve (.blank d) d = .error e → FailsWith d .references e

theorem FailsWith.unique {d : Descriptor} {check : Check} {e e' : GenerateError}
    (h : check.FailsWith d e) (h' : check.FailsWith d e') : e = e' := by
  cases h <;> cases h' <;> simp_all

theorem FailsWith.exists_service {d : Descriptor} {id : String} {part : ServiceSection}
    {e : GenerateError} (h : (Check.service id part).FailsWith d e) :
    ∃ s, d.services.get? id = some s := by
  cases h <;> exact ⟨_, ‹_›⟩

theorem FailsWith.exists_auxService {d : Descriptor} {id : String} {part : ServiceSection}
    {e : GenerateError} (h : (Check.auxService id part).FailsWith d e) :
    ∃ s, d.auxServices.get? id = some s := by
  cases h <;> exact ⟨_, ‹_›⟩

def phase : Check → Nat
  | config _ => 0
  | service .. => 1
  | auxService .. => 2
  | references => 3

def subject : Check → String
  | config name => name
  | service id _ => id
  | auxService id _ => id
  | references => ""

def position : Check → Nat
  | service _ part => part.position
  | auxService _ part => part.position
  | _ => 0

/-- The order of phases, in a phase by name, and of one service by section. -/
def Precedes (a b : Check) : Prop :=
  a.phase < b.phase ∨ a.phase = b.phase ∧
    (a.subject < b.subject ∨ a.subject = b.subject ∧ a.position < b.position)

theorem position_trichotomy (p q : ServiceSection) :
    p.position < q.position ∨ p = q ∨ q.position < p.position := by
  cases p <;> cases q <;> decide

theorem precedes_trichotomy (a b : Check) : a.Precedes b ∨ a = b ∨ b.Precedes a := by
  by_cases hp : a.phase = b.phase
  · rcases key_trichotomy a.subject b.subject with hs | hs | hs
    · exact .inl (.inr ⟨hp, .inl hs⟩)
    · have hq : a.position < b.position ∨ a = b ∨ b.position < a.position := by
        cases a <;> cases b <;> cases hp <;> cases hs
        · exact .inr (.inl rfl)
        · exact (position_trichotomy _ _).imp_right (.imp_left (congrArg _))
        · exact (position_trichotomy _ _).imp_right (.imp_left (congrArg _))
        · exact .inr (.inl rfl)
      rcases hq with h | h | h
      · exact .inl (.inr ⟨hp, .inr ⟨hs, h⟩⟩)
      · exact .inr (.inl h)
      · exact .inr (.inr (.inr ⟨hp.symm, .inr ⟨hs.symm, h⟩⟩))
    · exact .inr (.inr (.inr ⟨hp.symm, .inl hs⟩))
  · rcases Nat.lt_or_gt_of_ne hp with h | h
    · exact .inl (.inl h)
    · exact .inr (.inr (.inl h))

end Check

end ModuleCompiler.Module
