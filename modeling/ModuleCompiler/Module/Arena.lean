import ModuleCompiler.Module.Error
import ModuleCompiler.SortedMap

/-!
Services of one kind in a row, each found by its id under a handle. A pass goes over the ids that
targets list and works on their services in place; what is done when it stops stays done. An arena
made of a map stays one of a map, so a handle that is found always has its slot.
-/

namespace ModuleCompiler.Module

/-- Goes over a list until something stops it. -/
def sweep (f : α → β → α × Option ε) (a : α) : List β → α × Option ε
  | [] => (a, none)
  | b :: bs =>
    match f a b with
    | (a', none) => sweep f a' bs
    | (a', some e) => (a', some e)

inductive Stop where
  | failed (e : GenerateError)
  /-- A handle without a slot. -/
  | outOfBounds
  deriving DecidableEq, Repr

/-- What lists ids of services. -/
class Targets (τ : Type) where
  services : τ → List String
  auxServices : τ → List String := fun _ => []

def Targets.ids [Targets τ] (t : τ) : ServiceKind → List String
  | .service => services t
  | .auxService => auxServices t

structure Arena (σ : Type) where
  kind : ServiceKind
  ids : List String := []
  slots : List σ := []
  /-- The handles of ids. -/
  index : SortedMap Nat := ∅

namespace Arena

def push (a : Arena σ) (id : String) (s : σ) : Arena σ where
  kind := a.kind
  ids := a.ids ++ [id]
  slots := a.slots ++ [s]
  index := a.index.insert id a.slots.length

def pushAll (a : Arena σ) (es : Entries σ) : Arena σ := es.foldl (fun a e => a.push e.1 e.2) a

def ofMap (kind : ServiceKind) (services : SortedMap σ) : Arena σ :=
  pushAll { kind := kind } services.toList

def toMap (a : Arena σ) : SortedMap σ := .ofList (a.ids.zip a.slots)

def handle (a : Arena σ) (family : Family) (id : String) : Except GenerateError Nat :=
  match a.index.get? id with
  | none => .error (.undefinedTarget family a.kind id)
  | some h => .ok h

/-- Works on the service with an id. Work that fails may have changed the service. -/
def visit (a : Arena σ) (family : Family) (id : String) (work : σ → σ × Option GenerateError) :
    Arena σ × Option Stop :=
  match a.handle family id with
  | .error e => (a, some (.failed e))
  | .ok h =>
    match a.slots[h]? with
    | none => (a, some .outOfBounds)
    | some s => ({ a with slots := a.slots.set h (work s).1 }, (work s).2.map .failed)

def forEachTarget [Targets τ] (a : Arena σ) (family : Family) (targets : List τ)
    (work : τ → String → σ → σ × Option GenerateError) : Arena σ × Option Stop :=
  sweep (fun a t => sweep (fun a id => a.visit family id (work t id)) a (Targets.ids t a.kind))
    a targets

end Arena

/-- Keeps a state as it is where nothing comes of a change. -/
def attempt (f : σ → Except ε σ) (s : σ) : σ × Option ε :=
  match f s with
  | .error e => (s, some e)
  | .ok s' => (s', none)

namespace Arena

/-- Ids, slots and index speak of the same services. Ids strictly ascend, so none comes twice. -/
structure Valid (a : Arena σ) : Prop where
  length_eq : a.slots.length = a.ids.length
  ascending : a.ids.Pairwise (· < ·)
  index_iff : ∀ id h, a.index.get? id = some h ↔ a.ids[h]? = some id

section Building

variable {a : Arena σ} {es : Entries σ} {kind : ServiceKind} {m : SortedMap σ}

theorem Valid.push (ha : a.Valid) {id : String} (hid : ∀ i ∈ a.ids, i < id) (s : σ) :
    (a.push id s).Valid := by
  refine ⟨?_, ?_, fun id' h => ?_⟩
  · simp only [Arena.push, List.length_append, ha.length_eq, List.length_singleton]
  · refine List.pairwise_append.2 ⟨ha.ascending, List.pairwise_singleton _ _, fun i hi i' hi' => ?_⟩
    rw [List.mem_singleton.1 hi']
    exact hid i hi
  · simp only [Arena.push, SortedMap.get?_insert, ha.length_eq]
    -- Handles below the new one are those of the ids before, which are all other than the new id.
    by_cases hlt : h < a.ids.length
    · rw [List.getElem?_append_left hlt, ← ha.index_iff]
      by_cases hi : id' = id
      · have hnew : a.index.get? id' ≠ some h := fun hget =>
          String.lt_irrefl id (hid id (hi ▸ List.mem_of_getElem? ((ha.index_iff id' h).1 hget)))
        simp only [if_pos hi, Option.some.injEq, hnew, iff_false]
        omega
      · rw [if_neg hi]
    · have hold : a.index.get? id' ≠ some h := fun hget => by
        rw [ha.index_iff, List.getElem?_eq_none (by omega)] at hget
        cases hget
      rw [List.getElem?_append_right (by omega), List.getElem?_singleton]
      by_cases hi : id' = id
      · subst hi
        by_cases hlast : h = a.ids.length
        · simp [hlast]
        · have hafter : h - a.ids.length ≠ 0 := by omega
          simp [hafter, Ne.symm hlast]
      · simp [hi, hold, Ne.symm hi]

theorem Valid.pushAll (ha : a.Valid) (hes : es.Ascending)
    (hlt : ∀ i ∈ a.ids, ∀ e ∈ es, i < e.1) : (a.pushAll es).Valid := by
  induction es generalizing a with
  | nil => exact ha
  | cons e es ih =>
    obtain ⟨hfirst, hrest⟩ := List.pairwise_cons.1 hes
    refine ih (ha.push (fun i hi => hlt i hi e List.mem_cons_self) e.2) hrest fun i hi e' he' => ?_
    rcases List.mem_append.1 hi with hi | hi
    · exact hlt i hi e' (List.mem_cons_of_mem e he')
    · rw [List.mem_singleton.1 hi]
      exact hfirst e' he'

theorem valid_ofMap (kind : ServiceKind) (m : SortedMap σ) : (ofMap kind m).Valid := by
  have hempty : ({ kind := kind } : Arena σ).Valid :=
    ⟨rfl, List.Pairwise.nil, fun _ _ => ⟨nofun, nofun⟩⟩
  exact hempty.pushAll m.ascending nofun

theorem pushAll_eq (a : Arena σ) (es : Entries σ) : (a.pushAll es).kind = a.kind ∧
    (a.pushAll es).ids = a.ids ++ es.map Prod.fst ∧
    (a.pushAll es).slots = a.slots ++ es.map Prod.snd := by
  induction es generalizing a with
  | nil => simp [pushAll]
  | cons e es ih =>
    obtain ⟨hkind, hids, hslots⟩ := ih (a.push e.1 e.2)
    simp only [push, List.append_assoc, List.singleton_append] at hkind hids hslots
    exact ⟨hkind, hids, hslots⟩

@[simp] theorem kind_ofMap (kind : ServiceKind) (m : SortedMap σ) : (ofMap kind m).kind = kind :=
  (pushAll_eq { kind := kind } m.toList).1

@[simp] theorem ids_ofMap (kind : ServiceKind) (m : SortedMap σ) : (ofMap kind m).ids = m.keys :=
  (pushAll_eq { kind := kind } m.toList).2.1

@[simp] theorem slots_ofMap (kind : ServiceKind) (m : SortedMap σ) :
    (ofMap kind m).slots = m.toList.map Prod.snd :=
  (pushAll_eq { kind := kind } m.toList).2.2

@[simp] theorem toMap_ofMap (kind : ServiceKind) (m : SortedMap σ) : (ofMap kind m).toMap = m := by
  have hzip : m.keys.zip (m.toList.map Prod.snd) = m.toList := (List.zip_of_prod rfl rfl).symm
  rw [toMap, ids_ofMap, slots_ofMap, hzip, SortedMap.ofList_toList]

/-- The index adds nothing to the rest of an arena. -/
theorem Valid.ext {a b : Arena σ} (ha : a.Valid) (hb : b.Valid) (hkind : a.kind = b.kind)
    (hids : a.ids = b.ids) (hslots : a.slots = b.slots) : a = b := by
  have hindex : a.index = b.index := by
    apply SortedMap.ext_get?
    intro id
    apply Option.ext
    intro h
    rw [ha.index_iff, hb.index_iff, hids]
  cases a
  cases b
  simp_all

theorem Valid.set (ha : a.Valid) (h : Nat) (s : σ) :
    ({ a with slots := a.slots.set h s } : Arena σ).Valid :=
  ⟨List.length_set.trans ha.length_eq, ha.ascending, ha.index_iff⟩

theorem handle_ofMap {id : String} {s : σ} (hs : m.get? id = some s) (kind : ServiceKind)
    (family : Family) :
    ∃ h, (ofMap kind m).handle family id = .ok h ∧ m.toList[h]? = some (id, s) := by
  obtain ⟨h, hentry⟩ := SortedMap.exists_getElem?_of_get? hs
  have hid : (ofMap kind m).ids[h]? = some id := by
    rw [ids_ofMap, SortedMap.getElem?_keys hentry]
  have hindex := ((valid_ofMap kind m).index_iff id h).2 hid
  exact ⟨h, by rw [handle, hindex], hentry⟩

theorem handle_ofMap_of_none {id : String} (hm : m.get? id = none) (kind : ServiceKind)
    (family : Family) :
    (ofMap kind m).handle family id = .error (.undefinedTarget family kind id) := by
  cases hindex : (ofMap kind m).index.get? id with
  | none => rw [handle, hindex, kind_ofMap]
  | some h =>
    have hid := List.mem_of_getElem? (((valid_ofMap kind m).index_iff id h).1 hindex)
    obtain ⟨s, hs⟩ := SortedMap.mem_keys.1 (ids_ofMap kind m ▸ hid)
    cases hm.symm.trans hs

theorem set_ofMap {id : String} {s : σ} {h : Nat} (hentry : m.toList[h]? = some (id, s))
    (kind : ServiceKind) (s' : σ) :
    { ofMap kind m with slots := (ofMap kind m).slots.set h s' } = ofMap kind (m.insert id s') := by
  have hkeys := SortedMap.keys_insert hentry s'
  have hslots : (m.insert id s').toList.map Prod.snd = (m.toList.map Prod.snd).set h s' := by
    rw [SortedMap.toList_insert hentry, List.map_set]
  refine ((valid_ofMap kind m).set h s').ext (valid_ofMap kind _) ?_ ?_ ?_
  · simp only [kind_ofMap]
  · simp only [ids_ofMap, hkeys]
  · simp only [slots_ofMap, hslots]

/-- Work on a service of an arena is work on the service of the map. -/
theorem visit_ofMap {id : String} {s : σ} (hs : m.get? id = some s) (kind : ServiceKind)
    (family : Family) (work : σ → σ × Option GenerateError) :
    (ofMap kind m).visit family id work =
      (ofMap kind (m.insert id (work s).1), (work s).2.map .failed) := by
  obtain ⟨h, hhandle, hentry⟩ := handle_ofMap hs kind family
  have hslot : (ofMap kind m).slots[h]? = some s := by
    rw [slots_ofMap, List.getElem?_map, hentry]
    rfl
  simp only [visit, hhandle, hslot, set_ofMap hentry]

theorem visit_ofMap_of_none {id : String} (hm : m.get? id = none) (kind : ServiceKind)
    (family : Family) (work : σ → σ × Option GenerateError) :
    (ofMap kind m).visit family id work =
      (ofMap kind m, some (.failed (.undefinedTarget family kind id))) := by
  simp only [visit, handle_ofMap_of_none hm kind family]

end Building

end Arena

end ModuleCompiler.Module
