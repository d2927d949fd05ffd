import ModuleCompiler.Field.PortSpec
import ModuleCompiler.Proofs.Number.Decimal
import ModuleCompiler.Proofs.Outcome

/-!
Which texts name ports. A text is read if it is a number or an ascending range of two, it covers
exactly the numbers between the ends, and otherwise it is told what is wrong with it first.
-/

namespace ModuleCompiler

/-- A decimal number that fits a port. -/
def IsPortNumber (text : String) (n : UInt16) : Prop := IsDecimal text.toList n.toNat

/-- A text for the ports between two numbers, which is one number if they are the same. -/
inductive NamesPorts : String → UInt16 → UInt16 → Prop
  | single {text : String} {n : UInt16} : IsPortNumber text n → NamesPorts text n n
  | range {a b : String} {first last : UInt16} : IsPortNumber a first → IsPortNumber b last →
      first < last → NamesPorts (a ++ "-" ++ b) first last

/-- All numbers from the first to the last, in ascending order. -/
def AreBetween (first last : UInt16) (ports : List UInt16) : Prop :=
  ports.map UInt16.toNat = List.range' first.toNat (last.toNat - first.toNat + 1)

/-- What is wrong with a text that names no ports. Of two parts the left one is told first. -/
inductive IsPortFault : String → PortError → Prop
  | empty : IsPortFault "" .empty
  | invalidFormat {text : String} :
      2 ≤ text.toList.count '-' → IsPortFault text (.invalidFormat text)
  | whole {text : String} : text ≠ "" → '-' ∉ text.toList → (∀ n, ¬ IsPortNumber text n) →
      IsPortFault text (.invalidNumber text text)
  | first {a b : String} : '-' ∉ a.toList → '-' ∉ b.toList → (∀ n, ¬ IsPortNumber a n) →
      IsPortFault (a ++ "-" ++ b) (.invalidNumber (a ++ "-" ++ b) a)
  | last {a b : String} {first : UInt16} : IsPortNumber a first → '-' ∉ b.toList →
      (∀ n, ¬ IsPortNumber b n) → IsPortFault (a ++ "-" ++ b) (.invalidNumber (a ++ "-" ++ b) b)
  | invalidRange {a b : String} {first last : UInt16} : IsPortNumber a first →
      IsPortNumber b last → last ≤ first →
      IsPortFault (a ++ "-" ++ b) (.invalidRange (a ++ "-" ++ b) first last)

section Numbers

variable {text : String} {n : UInt16}

theorem readPort?_eq_some_iff : readPort? text.toList = some n ↔ IsPortNumber text n := by
  have hbound : n.toNat ≤ 65535 := Nat.le_of_lt_succ n.toNat_lt
  cases h : readUnsigned 10 65535 text.toList with
  | error e =>
    simp only [readPort?, h, IsPortNumber]
    constructor
    · exact nofun
    · intro hn
      rw [readUnsigned_eq_ok_iff.2 ⟨hn, hbound⟩] at h
      cases h
  | ok m =>
    obtain ⟨hm, hle⟩ := readUnsigned_eq_ok_iff.1 h
    have hsize : m < UInt16.size := Nat.lt_succ_of_le hle
    have hround : m.toUInt16.toNat = m := UInt16.toNat_ofNat_of_lt' hsize
    simp only [readPort?, h, Option.some.injEq, IsPortNumber]
    constructor
    · rintro rfl
      rwa [hround]
    · intro hn
      have heq := h.symm.trans (readUnsigned_eq_ok_iff.2 ⟨hn, hbound⟩)
      exact UInt16.toNat_inj.1 (hround.trans (Except.ok.inj heq))

theorem readPort?_eq_none_iff :
    readPort? text.toList = none ↔ ∀ n, ¬ IsPortNumber text n := by
  simp only [← readPort?_eq_some_iff]
  exact Option.eq_none_iff_forall_ne_some

theorem IsPortNumber.not_mem (h : IsPortNumber text n) : '-' ∉ text.toList :=
  IsDecimal.not_mem h rfl (by decide)

theorem isPortNumber_toString (n : UInt16) : IsPortNumber (toString n.toNat) n :=
  isDecimal_toString n.toNat

theorem areBetween_portRange {first last : UInt16} (h : first ≤ last) :
    AreBetween first last (portRange first (last.toNat - first.toNat + 1)) := by
  have hle : first.toNat ≤ last.toNat := UInt16.le_iff_toNat_le.1 h
  have hbound : last.toNat < 65536 := last.toNat_lt
  have hround : ∀ k ∈ List.range' first.toNat (last.toNat - first.toNat + 1),
      (UInt16.toNat ∘ Nat.toUInt16) k = id k := by
    intro k hk
    have hlt := (List.mem_range'_1.1 hk).2
    exact UInt16.toNat_ofNat_of_lt' (show k < 65536 by omega)
  rw [AreBetween, portRange, List.map_map, List.map_congr_left hround, List.map_id]

theorem AreBetween.unique {first last : UInt16} {ports ports' : List UInt16}
    (h : AreBetween first last ports) (h' : AreBetween first last ports') : ports = ports' :=
  (List.map_inj_right fun _ _ => UInt16.toNat_inj.1).1 (h.trans h'.symm)

theorem AreBetween.ne_nil {first last : UInt16} {ports : List UInt16}
    (h : AreBetween first last ports) : ports ≠ [] := by
  rintro rfl
  have hlength := congrArg List.length h
  rw [List.map_nil, List.length_nil, List.length_range'] at hlength
  omega

end Numbers

section Split

variable {a b text : String}

theorem splitHyphens_eq (cs : List Char) : splitHyphens cs = cs.splitOn '-' := by
  induction cs with
  | nil => rfl
  | cons c cs ih =>
    obtain ⟨part, parts, hcons⟩ := List.exists_cons_of_ne_nil (List.splitOn_ne_nil '-' cs)
    simp only [splitHyphens, List.splitOn_cons_eq_if_modifyHead, ih, hcons, beq_iff_eq,
      List.modifyHead_cons]

theorem length_splitHyphens (cs : List Char) : (splitHyphens cs).length = cs.count '-' + 1 := by
  induction cs with
  | nil => rfl
  | cons c cs ih =>
    obtain ⟨part, parts, hcons⟩ := List.exists_cons_of_ne_nil (List.splitOn_ne_nil '-' cs)
    rw [← splitHyphens_eq] at hcons
    rw [hcons, List.length_cons] at ih
    by_cases hc : c = '-'
    · simp only [splitHyphens, hcons, List.count_cons, hc, beq_self_eq_true, if_true,
        List.length_cons, ih]
    · simp only [splitHyphens, hcons, if_neg hc, List.count_cons, beq_iff_eq, List.length_cons, ih,
        Nat.add_zero]

theorem toList_hyphen (a b : String) : (a ++ "-" ++ b).toList = a.toList ++ '-' :: b.toList := by
  simp

theorem hyphen_cases (text : String) : '-' ∉ text.toList ∨ 2 ≤ text.toList.count '-' ∨
    ∃ a b, text = a ++ "-" ++ b ∧ '-' ∉ a.toList ∧ '-' ∉ b.toList := by
  by_cases hmem : '-' ∈ text.toList
  · obtain ⟨as, bs, htext, has⟩ := List.eq_append_cons_of_mem hmem
    by_cases hbs : '-' ∈ bs
    · have hcount : 0 < bs.count '-' := List.count_pos_iff.2 hbs
      refine .inr (.inl ?_)
      rw [htext, List.count_append, List.count_cons_self]
      omega
    · refine .inr (.inr ⟨.ofList as, .ofList bs, ?_, by simpa, by simpa⟩)
      rw [← String.toList_inj, toList_hyphen, htext, String.toList_ofList, String.toList_ofList]
  · exact .inl hmem

theorem parsePorts_of_not_mem (hne : text ≠ "") (h : '-' ∉ text.toList) :
    parsePorts text =
      match readPort? text.toList with
      | none => .error (.invalidNumber text text)
      | some n => .ok [n] := by
  have hparts : splitHyphens text.toList = [text.toList] := by
    rw [splitHyphens_eq, List.splitOn_eq_singleton h]
  have hsplit : splitPorts text = readPortParts text [text.toList] := by
    simp [splitPorts, hne, hparts]
  rw [parsePorts, hsplit]
  cases hread : readPort? text.toList with
  | none => simp [readPortParts, hread]
  | some n => simp [readPortParts, hread]

theorem parsePorts_of_parts (ha : '-' ∉ a.toList) (hb : '-' ∉ b.toList) :
    parsePorts (a ++ "-" ++ b) =
      match readPort? a.toList with
      | none => .error (.invalidNumber (a ++ "-" ++ b) a)
      | some first =>
        match readPort? b.toList with
        | none => .error (.invalidNumber (a ++ "-" ++ b) b)
        | some last =>
          if first < last then .ok (portRange first (last.toNat - first.toNat + 1))
          else .error (.invalidRange (a ++ "-" ++ b) first last) := by
  have hne : a ++ "-" ++ b ≠ "" := by
    intro h
    have hnil := congrArg String.toList h
    rw [toList_hyphen] at hnil
    simp at hnil
  have hparts : splitHyphens (a ++ "-" ++ b).toList = [a.toList, b.toList] := by
    rw [splitHyphens_eq, toList_hyphen, List.splitOn_append_cons_self_of_not_mem ha,
      List.splitOn_eq_singleton hb]
  have hsplit : splitPorts (a ++ "-" ++ b) =
      readPortParts (a ++ "-" ++ b) [a.toList, b.toList] := by
    simp only [splitPorts, String.isEmpty_iff, hne, if_false, hparts, List.length_cons,
      List.length_nil, Nat.lt_irrefl]
  rw [parsePorts, hsplit]
  cases hfirst : readPort? a.toList with
  | none => simp only [readPortParts, hfirst, String.ofList_toList]
  | some first =>
    cases hlast : readPort? b.toList with
    | none => simp only [readPortParts, hfirst, hlast, String.ofList_toList]
    | some last => simp only [readPortParts, hfirst, hlast]

theorem parsePorts_of_count (h : 2 ≤ text.toList.count '-') :
    parsePorts text = .error (.invalidFormat text) := by
  have hne : text ≠ "" := by
    rintro rfl
    exact absurd h (by decide)
  have hlength : 2 < (splitHyphens text.toList).length := by
    rw [length_splitHyphens]
    omega
  have hsplit : splitPorts text = .error (.invalidFormat text) := by
    simp only [splitPorts, String.isEmpty_iff, hne, if_false, if_pos hlength]
  rw [parsePorts, hsplit]

end Split

section Outcome

variable {text : String} {first last : UInt16} {ports : List UInt16} {e : PortError}

theorem parsePorts_of_names (h : NamesPorts text first last) :
    ∃ ports, parsePorts text = .ok ports ∧ AreBetween first last ports := by
  cases h with
  | single hn =>
    have hne : text ≠ "" := by
      rintro rfl
      cases hn with
      | plain hds => exact hds.nonempty rfl
    refine ⟨[first], ?_, by simp [AreBetween]⟩
    rw [parsePorts_of_not_mem hne hn.not_mem, readPort?_eq_some_iff.2 hn]
  | range ha hb hlt =>
    have hle : first ≤ last := UInt16.le_of_lt hlt
    refine ⟨_, ?_, areBetween_portRange hle⟩
    rw [parsePorts_of_parts ha.not_mem hb.not_mem, readPort?_eq_some_iff.2 ha,
      readPort?_eq_some_iff.2 hb]
    exact if_pos hlt

theorem parsePorts_of_fault (h : IsPortFault text e) : parsePorts text = .error e := by
  cases h with
  | empty => rfl
  | invalidFormat hcount => exact parsePorts_of_count hcount
  | whole hne hmem hn =>
    rw [parsePorts_of_not_mem hne hmem, readPort?_eq_none_iff.2 hn]
  | first ha hb hn => rw [parsePorts_of_parts ha hb, readPort?_eq_none_iff.2 hn]
  | last ha hb hn =>
    rw [parsePorts_of_parts ha.not_mem hb, readPort?_eq_some_iff.2 ha,
      readPort?_eq_none_iff.2 hn]
  | invalidRange ha hb hle =>
    rw [parsePorts_of_parts ha.not_mem hb.not_mem, readPort?_eq_some_iff.2 ha,
      readPort?_eq_some_iff.2 hb]
    exact if_neg (UInt16.not_lt.2 hle)

/-- There is no third kind of text. -/
theorem names_or_fault (text : String) :
    (∃ first last, NamesPorts text first last) ∨ ∃ e, IsPortFault text e := by
  rcases hyphen_cases text with hmem | hcount | ⟨a, b, rfl, ha, hb⟩
  · by_cases hne : text = ""
    · subst hne
      exact .inr ⟨_, .empty⟩
    · by_cases hn : ∃ n, IsPortNumber text n
      · obtain ⟨n, hn⟩ := hn
        exact .inl ⟨n, n, .single hn⟩
      · exact .inr ⟨_, .whole hne hmem (not_exists.1 hn)⟩
  · exact .inr ⟨_, .invalidFormat hcount⟩
  · by_cases hfirst : ∃ n, IsPortNumber a n
    · obtain ⟨first, hfirst⟩ := hfirst
      by_cases hlast : ∃ n, IsPortNumber b n
      · obtain ⟨last, hlast⟩ := hlast
        by_cases hlt : first < last
        · exact .inl ⟨first, last, .range hfirst hlast hlt⟩
        · exact .inr ⟨_, .invalidRange hfirst hlast (UInt16.not_lt.1 hlt)⟩
      · exact .inr ⟨_, .last hfirst hb (not_exists.1 hlast)⟩
    · exact .inr ⟨_, .first ha hb (not_exists.1 hfirst)⟩

theorem parsePorts_outcome (text : String) :
    (∀ ports, parsePorts text = .ok ports ↔
      ∃ first last, NamesPorts text first last ∧ AreBetween first last ports) ∧
    ∀ e, parsePorts text = .error e ↔ IsPortFault text e := by
  refine outcome_iff ?_ (fun _ => parsePorts_of_fault) ?_
  · rintro ports ⟨first, last, hn, hb⟩
    obtain ⟨ports', hports', hb'⟩ := parsePorts_of_names hn
    rw [hports', hb'.unique hb]
  · refine (names_or_fault text).imp_left ?_
    rintro ⟨first, last, hn⟩
    obtain ⟨ports, _, hb⟩ := parsePorts_of_names hn
    exact ⟨ports, first, last, hn, hb⟩

theorem parsePorts_eq_ok_iff : parsePorts text = .ok ports ↔
    ∃ first last, NamesPorts text first last ∧ AreBetween first last ports :=
  (parsePorts_outcome text).1 ports

end Outcome

/-- Exactly the numbers and the ascending ranges of them are read, each as the ports between its
ends; any other text is refused for what is wrong with it first. A range that is written out reads
back. -/
theorem parsePorts_grammar (text : String) :
    ((∃ ports, parsePorts text = .ok ports) ↔ ∃ first last, NamesPorts text first last) ∧
    (∀ ports, parsePorts text = .ok ports ↔
      ∃ first last, NamesPorts text first last ∧ AreBetween first last ports) ∧
    (∀ e, parsePorts text = .error e ↔ IsPortFault text e) ∧
    ∀ first last : Nat, first < last → last ≤ 65535 →
      ∃ ports, parsePorts (toString first ++ "-" ++ toString last) = .ok ports ∧
        ports.map UInt16.toNat = List.range' first (last - first + 1) := by
  refine ⟨⟨?_, ?_⟩, (parsePorts_outcome text).1, (parsePorts_outcome text).2, ?_⟩
  · rintro ⟨ports, h⟩
    obtain ⟨first, last, hn, _⟩ := parsePorts_eq_ok_iff.1 h
    exact ⟨first, last, hn⟩
  · rintro ⟨first, last, hn⟩
    obtain ⟨ports, hports, _⟩ := parsePorts_of_names hn
    exact ⟨ports, hports⟩
  · intro first last hlt hle
    have hround : ∀ n ≤ 65535, n.toUInt16.toNat = n := fun n hn =>
      UInt16.toNat_ofNat_of_lt' (Nat.lt_succ_of_le hn)
    have hfirst := hround first (by omega)
    have hlast := hround last hle
    have hnumber := isPortNumber_toString first.toUInt16
    have hnumber' := isPortNumber_toString last.toUInt16
    have hascend : first.toUInt16 < last.toUInt16 := by
      rw [UInt16.lt_iff_toNat_lt, hfirst, hlast]
      exact hlt
    obtain ⟨ports, hports, hb⟩ := parsePorts_of_names (.range hnumber hnumber' hascend)
    rw [hfirst, hlast] at hports
    rw [AreBetween, hfirst, hlast] at hb
    exact ⟨ports, hports, hb⟩

example : parsePorts "65534-65535" = .ok [65534, 65535] := by decide

end ModuleCompiler
