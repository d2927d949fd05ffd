import ModuleCompiler.Module.Tree
import ModuleCompiler.Tree.Json

/-!
What JSON keeps of a tree. The one loss is that of numbers which are not finite, so a tree without
them is kept whole.
-/

namespace ModuleCompiler

def FiniteFloat (x : Float) : Prop := (BinaryFloat.ofFloat x).isFinite = true

namespace Tree

section Kept

mutual

/-- The tree that JSON has in place of a tree. -/
def inJson : Tree → Tree
  | .float x => if (BinaryFloat.ofFloat x).isFinite then .float x else .null
  | .list ts => .list (inJsonItems ts)
  | .record fs => .record (inJsonFields fs)
  | t => t

def inJsonItems : List Tree → List Tree
  | [] => []
  | t :: ts => t.inJson :: inJsonItems ts

def inJsonFields : List (String × Tree) → List (String × Tree)
  | [] => []
  | (k, t) :: fs => (k, t.inJson) :: inJsonFields fs

end

theorem isEmpty_inJsonItems (ts : List Tree) : (inJsonItems ts).isEmpty = ts.isEmpty := by
  cases ts <;> rfl

theorem isEmpty_inJsonFields (fs : List (String × Tree)) :
    (inJsonFields fs).isEmpty = fs.isEmpty := by
  cases fs <;> rfl

mutual

theorem writeJson_inJson (l : JsonLayout) (depth : Nat) (t : Tree) :
    writeJson l depth t.inJson = writeJson l depth t := by
  cases t with
  | float x =>
    by_cases hx : (BinaryFloat.ofFloat x).isFinite = true <;>
      simp [inJson, writeJson, jsonFloat, hx]
  | list ts => simp only [inJson, writeJson, isEmpty_inJsonItems, jsonItems_inJson]
  | record fs => simp only [inJson, writeJson, isEmpty_inJsonFields, jsonFields_inJson]
  | _ => rfl

theorem jsonItems_inJson (l : JsonLayout) (depth : Nat) (ts : List Tree) :
    jsonItems l depth (inJsonItems ts) = jsonItems l depth ts := by
  cases ts with
  | nil => rfl
  | cons t ts =>
    simp only [inJsonItems, jsonItems, isEmpty_inJsonItems, writeJson_inJson l depth t,
      jsonItems_inJson l depth ts]

theorem jsonFields_inJson (l : JsonLayout) (depth : Nat) (fs : List (String × Tree)) :
    jsonFields l depth (inJsonFields fs) = jsonFields l depth fs := by
  cases fs with
  | nil => rfl
  | cons e fs =>
    simp only [inJsonFields, jsonFields, isEmpty_inJsonFields, writeJson_inJson l depth e.2,
      jsonFields_inJson l depth fs]

end

/-- A tree is written as what JSON has in its place. -/
theorem toJson_inJson (pretty : Bool) (t : Tree) : t.inJson.toJson pretty = t.toJson pretty :=
  writeJson_inJson _ 0 t

end Kept

section Whole

/-- JSON has the tree as it is. -/
def InJson (t : Tree) : Prop := t.inJson = t

@[simp] theorem inJson_bool (b : Bool) : (bool b).InJson := rfl

@[simp] theorem inJson_integer (n : Int) : (integer n).InJson := rfl

@[simp] theorem inJson_text (s : String) : (text s).InJson := rfl

@[simp] theorem inJson_float {x : Float} : (float x).InJson ↔ FiniteFloat x := by
  by_cases hx : (BinaryFloat.ofFloat x).isFinite = true <;>
    simp [InJson, FiniteFloat, inJson, hx]

theorem inJsonItems_eq {ts : List Tree} (h : ∀ t ∈ ts, t.InJson) : inJsonItems ts = ts := by
  induction ts with
  | nil => rfl
  | cons t ts ih =>
    rw [inJsonItems, h t (List.mem_cons_self ..), ih fun u hu => h u (List.mem_cons_of_mem _ hu)]

theorem inJson_list {ts : List Tree} (h : ∀ t ∈ ts, t.InJson) : (list ts).InJson := by
  rw [InJson, inJson, inJsonItems_eq h]

theorem inJsonFields_eq {fs : List (String × Tree)} (h : ∀ f ∈ fs, f.2.InJson) :
    inJsonFields fs = fs := by
  induction fs with
  | nil => rfl
  | cons f fs ih =>
    rw [inJsonFields, h f (List.mem_cons_self ..), ih fun g hg => h g (List.mem_cons_of_mem _ hg)]

theorem inJson_record {fs : List (String × Tree)} (h : ∀ f ∈ fs, f.2.InJson) :
    (record fs).InJson := by
  rw [InJson, inJson, inJsonFields_eq h]

end Whole

end Tree

namespace Module

section Parts

/-- A part of a record of which JSON keeps everything. -/
def PartInJson (p : List (String × Tree)) : Prop := ∀ f ∈ p, f.2.InJson

variable {name : String} {f : α → Tree}

theorem inJson_fieldsOf {ps : List (List (String × Tree))} (h : ∀ p ∈ ps, PartInJson p) :
    (fieldsOf ps).InJson := by
  refine Tree.inJson_record fun f hf => ?_
  obtain ⟨p, hp, hf⟩ := List.mem_flatten.1 hf
  exact h p hp f hf

@[simp] theorem partInJson_always {t : Tree} : PartInJson (always name t) ↔ t.InJson := by
  simp [PartInJson, always]

@[simp] theorem partInJson_present {x : Option α} :
    PartInJson (present name x f) ↔ ∀ a ∈ x, (f a).InJson := by
  cases x <;> simp [PartInJson, present]

theorem partInJson_ite {c : Prop} [Decidable c] {p : List (String × Tree)} (h : PartInJson p) :
    PartInJson (if c then [] else p) := by
  split
  · simp [PartInJson]
  · exact h

@[simp] theorem partInJson_nonempty (s : String) : PartInJson (nonempty name s) :=
  partInJson_ite (by simp [PartInJson])

@[simp] theorem partInJson_listed {xs : List α} (h : ∀ x ∈ xs, (f x).InJson) :
    PartInJson (listed name xs f) := by
  refine partInJson_ite (partInJson_always.2 (Tree.inJson_list fun t ht => ?_))
  obtain ⟨x, hx, rfl⟩ := List.mem_map.1 ht
  exact h x hx

@[simp] theorem inJson_tableTree {m : SortedMap α} (h : ∀ k v, m.get? k = some v → (f v).InJson) :
    (tableTree m f).InJson := by
  refine Tree.inJson_record fun t ht => ?_
  obtain ⟨e, he, rfl⟩ := List.mem_map.1 ht
  exact h e.1 e.2 (SortedMap.get?_eq_some_iff.2 he)

@[simp] theorem partInJson_tabled {m : SortedMap α} (h : ∀ k v, m.get? k = some v → (f v).InJson) :
    PartInJson (tabled name m f) :=
  partInJson_ite (partInJson_always.2 (inJson_tableTree h))

end Parts

end Module

end ModuleCompiler
