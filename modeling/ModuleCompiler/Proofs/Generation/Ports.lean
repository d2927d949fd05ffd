import ModuleCompiler.Module.Ports
import ModuleCompiler.Proofs.Field.PortText
import ModuleCompiler.Proofs.Outcome

/-!
Ports of a service and the ports of the host that lead to them. What an entry names is what its
ports have, in that order: nothing gets lost on the way, and nothing is added.
-/

namespace ModuleCompiler

theorem PortSpec.expand_ne_nil {spec : PortSpec} {ns : List UInt16} (h : spec.expand = .ok ns) :
    ns ≠ [] := by
  obtain ⟨first, last, _, hb⟩ := parsePorts_eq_ok_iff.1 h
  exact hb.ne_nil

namespace Module.Port

open Descriptor (ServicePort)

/-- The ports of an entry can be told from each other: it has one, or no host ports, or as many. -/
def Pairs (p : ServicePort) : Prop :=
  ∃ ns, p.port.expand = .ok ns ∧ ∀ spec, p.hostPort = some spec →
    ∃ hs, spec.expand = .ok hs ∧ (ns.length = 1 ∨ ns.length = hs.length)

/-- The ports that come of an entry. -/
structure IsBlock (p : ServicePort) (block : List Port) : Prop where
  numbers : p.port.expand = .ok (block.map (·.number))
  name : ∀ q ∈ block, q.name = p.name
  protocol : ∀ q ∈ block, q.protocol = p.protocol.getD "tcp"
  unbound : p.hostPort = none → ∀ q ∈ block, q.bindings = []
  bound : ∀ spec, p.hostPort = some spec → spec.expand = .ok (block.flatMap (·.bindings))
  oneEach : p.hostPort ≠ none → block.length ≠ 1 → ∀ q ∈ block, q.bindings.length = 1

inductive FailsWith (p : ServicePort) : PortError → Prop
  | port {e : PortError} : p.port.expand = .error e → FailsWith p e
  | hostPort {ns : List UInt16} {spec : PortSpec} {e : PortError} : p.port.expand = .ok ns →
      p.hostPort = some spec → spec.expand = .error e → FailsWith p e
  | morePorts {ns hs : List UInt16} {spec : PortSpec} : p.port.expand = .ok ns →
      p.hostPort = some spec → spec.expand = .ok hs → hs.length < ns.length →
      FailsWith p (.morePorts ns.length hs.length)
  | fewerPorts {ns hs : List UInt16} {spec : PortSpec} : p.port.expand = .ok ns →
      p.hostPort = some spec → spec.expand = .ok hs → 1 < ns.length → ns.length < hs.length →
      FailsWith p (.fewerPorts ns.length hs.length)

section Entry

variable {p : ServicePort} {ns hs : List UInt16} {block : List Port} {e : PortError}

def ofNumber (p : ServicePort) (n : UInt16) (bindings : List UInt16) : Port :=
  ⟨p.name, n, p.protocol.getD defaultProtocol, bindings⟩

theorem ofNumber_self {q : Port} (hname : q.name = p.name)
    (hprotocol : q.protocol = p.protocol.getD "tcp") : ofNumber p q.number q.bindings = q := by
  rw [ofNumber, defaultProtocol, ← hname, ← hprotocol]

/-- How the ports of an entry and its host ports go together, if it has host ports at all. -/
theorem pair_cases (mk : UInt16 → List UInt16 → Port) (hns : ns ≠ []) (hhs : hs ≠ []) :
    (∃ n, ns = [n] ∧ pair mk ns hs = .ok [mk n hs]) ∨
    (ns.length ≠ 1 ∧ ns.length = hs.length ∧
      pair mk ns hs = .ok (ns.zipWith (fun n h => mk n [h]) hs)) ∨
    (hs.length < ns.length ∧ pair mk ns hs = .error (.morePorts ns.length hs.length)) ∨
    (1 < ns.length ∧ ns.length < hs.length ∧
      pair mk ns hs = .error (.fewerPorts ns.length hs.length)) := by
  have hbound : ¬ hs.isEmpty = true := by simpa using hhs
  have hlength : 0 < hs.length := List.length_pos_iff.2 hhs
  simp only [pair, if_neg hbound]
  by_cases hmore : hs.length < ns.length
  · exact .inr (.inr (.inl ⟨hmore, if_pos hmore⟩))
  rw [if_neg hmore]
  by_cases hfewer : 1 < ns.length ∧ ns.length < hs.length
  · exact .inr (.inr (.inr ⟨hfewer.1, hfewer.2, if_pos hfewer⟩))
  rw [if_neg hfewer]
  match ns with
  | [n] => exact .inl ⟨n, rfl, rfl⟩
  | n :: m :: ns =>
    rw [List.length_cons, List.length_cons] at hmore hfewer
    exact .inr (.inl ⟨by simp, by simp only [List.length_cons]; omega, rfl⟩)

theorem zipWith_ofNumber (p : ServicePort) (h : ns.length = hs.length) :
    (ns.zipWith (fun n h => ofNumber p n [h]) hs).map (·.number) = ns ∧
      (ns.zipWith (fun n h => ofNumber p n [h]) hs).flatMap (·.bindings) = hs := by
  induction ns generalizing hs with
  | nil =>
    cases hs with
    | nil => exact ⟨rfl, rfl⟩
    | cons m hs => cases h
  | cons n ns ih =>
    cases hs with
    | nil => cases h
    | cons m hs =>
      obtain ⟨hnumbers, hbindings⟩ := ih (Nat.succ.inj h)
      simp only [List.zipWith_cons_cons, List.map_cons, List.flatMap_cons, hnumbers, hbindings]
      exact ⟨rfl, rfl⟩

theorem zipWith_bindings (hq : ∀ q ∈ block, ofNumber p q.number q.bindings = q)
    (hone : ∀ q ∈ block, q.bindings.length = 1) :
    (block.map (·.number)).zipWith (fun n h => ofNumber p n [h]) (block.flatMap (·.bindings)) =
      block := by
  induction block with
  | nil => rfl
  | cons q block ih =>
    obtain ⟨hq, hqs⟩ := List.forall_mem_cons.1 hq
    obtain ⟨hone, hones⟩ := List.forall_mem_cons.1 hone
    obtain ⟨m, hm⟩ := List.length_eq_one_iff.1 hone
    rw [hm] at hq
    simp only [List.map_cons, List.flatMap_cons, hm, List.singleton_append,
      List.zipWith_cons_cons, hq, ih hqs hones]

theorem length_bindings (hone : ∀ q ∈ block, q.bindings.length = 1) :
    (block.flatMap (·.bindings)).length = block.length := by
  rw [List.length_flatMap, List.map_congr_left hone, List.map_const', List.sum_replicate_nat,
    Nat.mul_one]

theorem IsBlock.length_cases (h : IsBlock p block) {spec : PortSpec} (hh : p.hostPort = some spec) :
    block.length = 1 ∨ block.length = (block.flatMap (·.bindings)).length := by
  by_cases hlength : block.length = 1
  · exact .inl hlength
  · exact .inr (length_bindings (h.oneEach (by simp [hh]) hlength)).symm

theorem ofDescriptor_eq_pair {spec : PortSpec} (hns : p.port.expand = .ok ns)
    (hh : p.hostPort = some spec) (hhs : spec.expand = .ok hs) :
    ofDescriptor p = pair (ofNumber p) ns hs := by
  simp only [ofDescriptor, hns, hh, expandHostPorts, hhs]
  rfl

theorem ofDescriptor_of_isBlock (h : IsBlock p block) : ofDescriptor p = .ok block := by
  have hself : ∀ q ∈ block, ofNumber p q.number q.bindings = q := fun q hq =>
    ofNumber_self (h.name q hq) (h.protocol q hq)
  cases hh : p.hostPort with
  | none =>
    have hblock : (block.map (·.number)).map (fun n => ofNumber p n []) = block := by
      rw [List.map_map]
      refine (List.map_congr_left fun q hq => ?_).trans (List.map_id block)
      have hq' := hself q hq
      rwa [h.unbound hh q hq] at hq'
    simp only [ofDescriptor, h.numbers, hh, expandHostPorts, pair]
    exact congrArg Except.ok hblock
  | some spec =>
    have hhs := h.bound spec hh
    have hlength := h.length_cases hh
    have hne := List.length_pos_iff.2 (PortSpec.expand_ne_nil hhs)
    rw [ofDescriptor_eq_pair h.numbers hh hhs]
    rcases pair_cases (ofNumber p) (PortSpec.expand_ne_nil h.numbers)
      (PortSpec.expand_ne_nil hhs) with ⟨n, hn, hr⟩ | ⟨hn, _, hr⟩ | ⟨hlt, _⟩ | ⟨hn, hlt, _⟩
    · obtain ⟨q, rfl, rfl⟩ := List.map_eq_singleton_iff.1 hn
      rw [hr, List.flatMap_singleton, hself q (by simp)]
    · rw [List.length_map] at hn
      rw [hr, zipWith_bindings hself (h.oneEach (by simp [hh]) hn)]
    · rw [List.length_map] at hlt
      omega
    · rw [List.length_map] at hn hlt
      omega

theorem ofDescriptor_of_failsWith (h : FailsWith p e) : ofDescriptor p = .error e := by
  cases h with
  | port he => simp only [ofDescriptor, he]
  | hostPort hns hh he => simp only [ofDescriptor, hns, hh, expandHostPorts, he]
  | morePorts hns hh hhs hlt =>
    have hne := List.length_pos_iff.2 (PortSpec.expand_ne_nil hhs)
    rw [ofDescriptor_eq_pair hns hh hhs]
    rcases pair_cases (ofNumber p) (PortSpec.expand_ne_nil hns) (PortSpec.expand_ne_nil hhs) with
      ⟨n, rfl, _⟩ | ⟨_, heq, _⟩ | ⟨_, hr⟩ | ⟨_, hgt, _⟩
    · rw [List.length_singleton] at hlt
      omega
    · omega
    · exact hr
    · omega
  | fewerPorts hns hh hhs hone hlt =>
    rw [ofDescriptor_eq_pair hns hh hhs]
    rcases pair_cases (ofNumber p) (PortSpec.expand_ne_nil hns) (PortSpec.expand_ne_nil hhs) with
      ⟨n, rfl, _⟩ | ⟨_, heq, _⟩ | ⟨hgt, _⟩ | ⟨_, _, hr⟩
    · rw [List.length_singleton] at hone
      omega
    · omega
    · omega
    · exact hr

theorem isBlock_unbound (hns : p.port.expand = .ok ns) (hh : p.hostPort = none) :
    IsBlock p (ns.map fun n => ofNumber p n []) where
  numbers := by
    rw [hns, List.map_map]
    exact congrArg Except.ok (List.map_id ns).symm
  name := by simp [ofNumber]
  protocol := by simp [ofNumber, defaultProtocol]
  unbound := by simp [ofNumber]
  bound := by simp [hh]
  oneEach := by simp [hh]

theorem isBlock_single {n : UInt16} {spec : PortSpec} (hns : p.port.expand = .ok [n])
    (hh : p.hostPort = some spec) (hhs : spec.expand = .ok hs) : IsBlock p [ofNumber p n hs] where
  numbers := hns
  name := by simp [ofNumber]
  protocol := by simp [ofNumber, defaultProtocol]
  unbound := by simp [hh]
  bound := by
    intro spec' hh'
    cases hh.symm.trans hh'
    rw [hhs, List.flatMap_singleton]
    rfl
  oneEach := by simp

theorem isBlock_zipWith {spec : PortSpec} (hns : p.port.expand = .ok ns)
    (hh : p.hostPort = some spec) (hhs : spec.expand = .ok hs) (hlength : ns.length = hs.length) :
    IsBlock p (ns.zipWith (fun n h => ofNumber p n [h]) hs) := by
  obtain ⟨hnumbers, hbindings⟩ := zipWith_ofNumber p hlength
  have hmem : ∀ q ∈ ns.zipWith (fun n h => ofNumber p n [h]) hs,
      ∃ n h, q = ofNumber p n [h] := by
    intro q hq
    obtain ⟨i, hi, rfl⟩ := List.mem_iff_getElem.1 hq
    exact ⟨_, _, List.getElem_zipWith⟩
  refine ⟨?_, ?_, ?_, ?_, ?_, ?_⟩
  · rw [hns, hnumbers]
  · intro q hq
    obtain ⟨n, h, rfl⟩ := hmem q hq
    rfl
  · intro q hq
    obtain ⟨n, h, rfl⟩ := hmem q hq
    rfl
  · simp [hh]
  · intro spec' hh'
    cases hh.symm.trans hh'
    rw [hhs, hbindings]
  · intro _ _ q hq
    obtain ⟨n, h, rfl⟩ := hmem q hq
    rfl

/-- There is no third way for an entry to end. -/
theorem isBlock_or_failsWith (p : ServicePort) : (∃ block, IsBlock p block) ∨ ∃ e, FailsWith p e := by
  cases hns : p.port.expand with
  | error e => exact .inr ⟨e, .port hns⟩
  | ok ns =>
    cases hh : p.hostPort with
    | none => exact .inl ⟨_, isBlock_unbound hns hh⟩
    | some spec =>
      cases hhs : spec.expand with
      | error e => exact .inr ⟨e, .hostPort hns hh hhs⟩
      | ok hs =>
        rcases pair_cases (ofNumber p) (PortSpec.expand_ne_nil hns)
          (PortSpec.expand_ne_nil hhs) with ⟨n, rfl, _⟩ | ⟨_, heq, _⟩ | ⟨hgt, _⟩ | ⟨hone, hlt, _⟩
        · exact .inl ⟨_, isBlock_single hns hh hhs⟩
        · exact .inl ⟨_, isBlock_zipWith hns hh hhs heq⟩
        · exact .inr ⟨_, .morePorts hns hh hhs hgt⟩
        · exact .inr ⟨_, .fewerPorts hns hh hhs hone hlt⟩

theorem ofDescriptor_outcome (p : ServicePort) :
    (∀ block, ofDescriptor p = .ok block ↔ IsBlock p block) ∧
    ∀ e, ofDescriptor p = .error e ↔ FailsWith p e :=
  outcome_iff (fun _ => ofDescriptor_of_isBlock) (fun _ => ofDescriptor_of_failsWith)
    (isBlock_or_failsWith p)

theorem ofDescriptor_eq_ok_iff : ofDescriptor p = .ok block ↔ IsBlock p block :=
  (ofDescriptor_outcome p).1 block

theorem ofDescriptor_eq_error_iff : ofDescriptor p = .error e ↔ FailsWith p e :=
  (ofDescriptor_outcome p).2 e

theorem exists_block_iff : (∃ block, ofDescriptor p = .ok block) ↔ Pairs p := by
  simp only [ofDescriptor_eq_ok_iff]
  constructor
  · rintro ⟨block, h⟩
    refine ⟨_, h.numbers, fun spec hh => ⟨_, h.bound spec hh, ?_⟩⟩
    rw [List.length_map]
    exact h.length_cases hh
  · rintro ⟨ns, hns, hpairs⟩
    cases hh : p.hostPort with
    | none => exact ⟨_, isBlock_unbound hns hh⟩
    | some spec =>
      obtain ⟨hs, hhs, hone | heq⟩ := hpairs spec hh
      · obtain ⟨n, rfl⟩ := List.length_eq_one_iff.1 hone
        exact ⟨_, isBlock_single hns hh hhs⟩
      · exact ⟨_, isBlock_zipWith hns hh hhs heq⟩

end Entry

section Entries

/-- A list of entries fails as the first of them that has no ports. -/
theorem ofDescriptors_eq_error_iff {ps : List ServicePort} {e : PortError} :
    ofDescriptors ps = .error e ↔
      ∃ before p after, ps = before ++ p :: after ∧ (∀ q ∈ before, Pairs q) ∧ FailsWith p e := by
  rw [ofDescriptors, map_eq_pure_bind, bind_eq_error_iff, mapM_eq_error_iff]
  simp only [exists_block_iff, ofDescriptor_eq_error_iff]
  constructor
  · rintro (h | ⟨_, _, h⟩)
    · exact h
    · cases h
  · exact .inl

end Entries

/-- Ports come of a list of entries if and only if each of them pairs its ports. They are then those
of the entries one after the other, and otherwise the first entry that fails is told. -/
theorem ofDescriptors_blocks (ps : List ServicePort) :
    ((∃ ports, ofDescriptors ps = .ok ports) ↔ ∀ p ∈ ps, Pairs p) ∧
    (∀ ports, ofDescriptors ps = .ok ports ↔
      ∃ blocks, List.Forall₂ IsBlock ps blocks ∧ ports = blocks.flatten) ∧
    ∀ e, ofDescriptors ps = .error e ↔
      ∃ before p after, ps = before ++ p :: after ∧ (∀ q ∈ before, Pairs q) ∧ FailsWith p e := by
  have hok : ∀ ports, ofDescriptors ps = .ok ports ↔
      ∃ blocks, ps.mapM ofDescriptor = .ok blocks ∧ ports = blocks.flatten := by
    intro ports
    rw [ofDescriptors, map_eq_pure_bind, bind_eq_ok_iff]
    exact exists_congr fun blocks => and_congr_right' (pure_eq_ok_iff.trans eq_comm)
  refine ⟨?_, fun ports => ?_, fun e => ofDescriptors_eq_error_iff⟩
  · simp only [← exists_block_iff, ← exists_mapM_iff, hok]
    constructor
    · rintro ⟨_, blocks, hblocks, _⟩
      exact ⟨blocks, hblocks⟩
    · rintro ⟨blocks, hblocks⟩
      exact ⟨_, blocks, hblocks, rfl⟩
  · simp only [hok, mapM_eq_ok_iff, ofDescriptor_eq_ok_iff]

end Module.Port

end ModuleCompiler
