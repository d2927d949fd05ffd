import Mathlib.Data.List.Forall2
import Mathlib.Data.Prod.Basic
import ModuleCompiler.Module.Tree

/-!
What a record says by the fields that it writes. Fields that are left out when they are empty do
not blur it: the names differ, so what stands in a record tells each of its fields.
-/

namespace ModuleCompiler.Module

/-- A field of that name, written or left out. -/
class IsField (name : outParam String) (part : List (String × Tree)) : Prop where
  eq_nil_or : part = [] ∨ ∃ t, part = [(name, t)]

class AreFields (names : outParam (List String)) (parts : List (List (String × Tree))) : Prop where
  forall₂ : List.Forall₂ IsField names parts

instance : AreFields [] [] := ⟨.nil⟩

section Fields

variable {name : String} {names : List String} {p : List (String × Tree)}
  {ps qs : List (List (String × Tree))}

instance [hp : IsField name p] [hps : AreFields names ps] :
    AreFields (name :: names) (p :: ps) :=
  ⟨.cons hp hps.forall₂⟩

theorem mem_names (h : List.Forall₂ IsField names ps) {e : String × Tree} (he : e ∈ ps.flatten) :
    e.1 ∈ names := by
  induction h with
  | nil => simp at he
  | cons hp _ ih =>
    rcases List.mem_append.1 (List.flatten_cons ▸ he) with he | he
    · rcases hp.eq_nil_or with rfl | ⟨t, rfl⟩
      · simp at he
      · simp [List.mem_singleton.1 he]
    · exact List.mem_cons_of_mem _ (ih he)

theorem flatten_injective (hn : names.Nodup) (hp : List.Forall₂ IsField names ps)
    (hq : List.Forall₂ IsField names qs) (h : ps.flatten = qs.flatten) : ps = qs := by
  induction hp generalizing qs with
  | nil =>
    cases hq
    rfl
  | @cons name p names ps hp hps ih =>
    cases hq with
    | @cons _ q _ qs hq hqs =>
      obtain ⟨hname, hn⟩ := List.nodup_cons.1 hn
      rw [List.flatten_cons, List.flatten_cons] at h
      -- a field that one record leaves out cannot be among the later fields of the other
      rcases hp.eq_nil_or with rfl | ⟨t, rfl⟩ <;> rcases hq.eq_nil_or with rfl | ⟨u, rfl⟩
      · rw [ih hn hqs h]
      · exact absurd (mem_names hps (e := (name, u)) (by simp [show ps.flatten = _ from h])) hname
      · exact absurd (mem_names hqs (e := (name, t)) (by simp [← show _ = qs.flatten from h])) hname
      · obtain ⟨ht, hrest⟩ := List.cons.inj h
        rw [ht, ih hn hqs hrest]

theorem fieldsOf_injective [hp : AreFields names ps] [hq : AreFields names qs]
    (hn : names.Nodup) (h : fieldsOf ps = fieldsOf qs) : ps = qs :=
  flatten_injective hn hp.forall₂ hq.forall₂ (Tree.record.inj h)

end Fields

section Parts

variable {name : String}

instance (t : Tree) : IsField name (always name t) := ⟨.inr ⟨t, rfl⟩⟩

instance (x : Option α) (f : α → Tree) : IsField name (present name x f) := by
  cases x with
  | none => exact ⟨.inl rfl⟩
  | some a => exact ⟨.inr ⟨f a, rfl⟩⟩

instance isField_ite {p : List (String × Tree)} [h : IsField name p] (c : Prop) [Decidable c] :
    IsField name (if c then [] else p) := by
  split
  · exact ⟨.inl rfl⟩
  · exact h

instance (s : String) : IsField name (nonempty name s) :=
  isField_ite (p := always name _) _

instance (xs : List α) (f : α → Tree) : IsField name (listed name xs f) :=
  isField_ite (p := always name _) _

instance (m : SortedMap α) (f : α → Tree) : IsField name (tabled name m f) :=
  isField_ite (p := always name _) _

@[simp] theorem always_inj {t u : Tree} : always name t = always name u ↔ t = u := by
  simp [always]

@[simp] theorem present_inj {f : α → Tree} (hf : Function.Injective f) {x y : Option α} :
    present name x f = present name y f ↔ x = y := by
  cases x <;> cases y <;> simp [present, hf.eq_iff]

/-- Left out for one value only, a field tells its values. -/
theorem unless_inj (empty : α → Bool) {f : α → Tree} {a b : α}
    (hempty : empty a = true → empty b = true → a = b) (hf : f a = f b → a = b) :
    (if empty a then [] else always name (f a)) = (if empty b then [] else always name (f b)) ↔
      a = b := by
  constructor
  · intro h
    by_cases ha : empty a = true <;> by_cases hb : empty b = true
    · exact hempty ha hb
    · simp [ha, hb, always] at h
    · simp [ha, hb, always] at h
    · exact hf (by simpa [ha, hb] using h)
  · rintro rfl
    rfl

@[simp] theorem nonempty_inj {s s' : String} : nonempty name s = nonempty name s' ↔ s = s' := by
  refine unless_inj String.isEmpty (fun hs hs' => ?_) Tree.text.inj
  rw [String.isEmpty_iff.1 hs, String.isEmpty_iff.1 hs']

@[simp] theorem listed_inj {f : α → Tree} (hf : Function.Injective f) {xs ys : List α} :
    listed name xs f = listed name ys f ↔ xs = ys := by
  refine unless_inj List.isEmpty (f := fun xs => .list (xs.map f)) (fun hx hy => ?_) fun h => ?_
  · rw [List.isEmpty_iff.1 hx, List.isEmpty_iff.1 hy]
  · exact List.map_injective_iff.2 hf (Tree.list.inj h)

theorem entries_injective {m n : SortedMap α} (h : m.toList = n.toList) : m = n := by
  cases m
  cases n
  congr

theorem map_eq_of_isEmpty {m n : SortedMap α} (hm : m.isEmpty = true) (hn : n.isEmpty = true) :
    m = n :=
  entries_injective ((List.isEmpty_iff.1 hm).trans (List.isEmpty_iff.1 hn).symm)

@[simp] theorem tableTree_inj {f : α → Tree} (hf : Function.Injective f) {m n : SortedMap α} :
    tableTree m f = tableTree n f ↔ m = n := by
  have hentry : Function.Injective fun e : String × α => (e.1, f e.2) :=
    Function.injective_id.prodMap hf
  constructor
  · intro h
    exact entries_injective (List.map_injective_iff.2 hentry (Tree.record.inj h))
  · rintro rfl
    rfl

@[simp] theorem tabled_inj {f : α → Tree} (hf : Function.Injective f) {m n : SortedMap α} :
    tabled name m f = tabled name n f ↔ m = n :=
  unless_inj SortedMap.isEmpty (f := (tableTree · f)) map_eq_of_isEmpty (tableTree_inj hf).1

end Parts

end ModuleCompiler.Module
