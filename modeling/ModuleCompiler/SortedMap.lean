/-!
Finite maps from text to values, kept as an association list in ascending key order. Two maps with
the same look-ups are the same map (`SortedMap.ext_get?`), so equality of maps is equality of
content.
-/

namespace ModuleCompiler

theorem key_trichotomy (a b : String) : a < b ∨ a = b ∨ b < a := by
  by_cases h : a < b
  · exact .inl h
  · by_cases e : a = b
    · exact .inr (.inl e)
    · exact .inr (.inr (Std.lt_of_le_of_ne (String.not_lt.1 h) (Ne.symm e)))

abbrev Entries (α : Type u) := List (String × α)

namespace Entries

/-- Keys strictly ascend, so no key occurs twice. -/
def Ascending (es : Entries α) : Prop :=
  es.Pairwise (fun a b => a.1 < b.1)

def get? (k : String) : Entries α → Option α
  | [] => none
  | (k', v) :: es => if k = k' then some v else get? k es

def insert (k : String) (v : α) : Entries α → Entries α
  | [] => [(k, v)]
  | (k', v') :: es =>
    if k < k' then (k, v) :: (k', v') :: es
    else if k = k' then (k, v) :: es
    else (k', v') :: insert k v es

theorem get?_insert (k k' : String) (v : α) (es : Entries α) :
    get? k' (insert k v es) = if k' = k then some v else get? k' es := by
  induction es with
  | nil => simp [insert, get?]
  | cons e es ih =>
    obtain ⟨k₁, v₁⟩ := e
    simp only [insert]
    split
    · simp [get?]
    · split
      · rename_i h
        subst h
        simp only [get?]
        split <;> simp_all
      · simp only [get?, ih]
        split <;> split <;> simp_all

theorem mem_insert {k : String} {v : α} {es : Entries α} {e : String × α}
    (h : e ∈ insert k v es) : e = (k, v) ∨ e ∈ es := by
  induction es with
  | nil => simpa [insert] using h
  | cons e₁ es ih =>
    obtain ⟨k₁, v₁⟩ := e₁
    simp only [insert] at h
    split at h
    · simpa using h
    · split at h
      · rcases List.mem_cons.1 h with h | h
        · exact .inl h
        · exact .inr (List.mem_cons_of_mem _ h)
      · rcases List.mem_cons.1 h with h | h
        · exact .inr (by simp [h])
        · rcases ih h with h | h
          · exact .inl h
          · exact .inr (List.mem_cons_of_mem _ h)

theorem Ascending.insert {es : Entries α} (h : es.Ascending) (k : String) (v : α) :
    (Entries.insert k v es).Ascending := by
  induction es with
  | nil => simp [Entries.insert, Ascending]
  | cons e es ih =>
    obtain ⟨k₁, v₁⟩ := e
    have hc := List.pairwise_cons.1 h
    simp only [Entries.insert]
    split
    · rename_i hk
      refine List.pairwise_cons.2 ⟨fun e he => ?_, h⟩
      rcases List.mem_cons.1 he with rfl | he
      · exact hk
      · exact String.lt_trans hk (hc.1 e he)
    · split
      · rename_i hk
        subst hk
        exact List.pairwise_cons.2 ⟨hc.1, hc.2⟩
      · rename_i hlt hne
        refine List.pairwise_cons.2 ⟨fun e he => ?_, ih hc.2⟩
        rcases mem_insert he with rfl | he
        · rcases key_trichotomy k k₁ with h | h | h
          · exact absurd h hlt
          · exact absurd h hne
          · exact h
        · exact hc.1 e he

theorem insert_of_lt {k : String} {es : Entries α} (h : ∀ e ∈ es, k < e.1) (v : α) :
    Entries.insert k v es = (k, v) :: es := by
  cases es with
  | nil => rfl
  | cons e es => exact if_pos (h e (by simp))

theorem insert_cons_self (k : String) (v v' : α) (es : Entries α) :
    Entries.insert k v ((k, v') :: es) = (k, v) :: es := by
  rw [Entries.insert, if_neg (String.lt_irrefl k), if_pos rfl]

theorem insert_cons_of_lt {k k' : String} (h : k' < k) (v v' : α) (es : Entries α) :
    Entries.insert k v ((k', v') :: es) = (k', v') :: Entries.insert k v es := by
  have hne : k ≠ k' := fun hk => String.lt_irrefl k (hk ▸ h)
  rw [Entries.insert, if_neg (String.lt_asymm h), if_neg hne]

/-- A key that is there already keeps its place. -/
theorem insert_eq_set {k : String} {v : α} {es : Entries α} {i : Nat} (h : es.Ascending)
    (hi : es[i]? = some (k, v)) (w : α) : Entries.insert k w es = es.set i (k, w) := by
  induction es generalizing i with
  | nil => cases hi
  | cons e es ih =>
    obtain ⟨hlt, hes⟩ := List.pairwise_cons.1 h
    cases i with
    | zero =>
      obtain rfl : e = (k, v) := Option.some.inj hi
      exact insert_cons_self k w v es
    | succ i =>
      have hk : e.1 < k := hlt (k, v) (List.mem_of_getElem? hi)
      rw [insert_cons_of_lt hk w e.2 es, ih hes hi]
      rfl

theorem ascending_of_keys {es : Entries α} (keys : List String) (h : es.map Prod.fst = keys)
    (hkeys : keys.Pairwise (· < ·)) : es.Ascending := by
  subst h
  exact List.pairwise_map.1 hkeys

theorem get?_eq_none {k : String} {es : Entries α} (h : ∀ e ∈ es, e.1 ≠ k) : es.get? k = none := by
  induction es with
  | nil => rfl
  | cons e es ih =>
    have hk : k ≠ e.1 := (h e (by simp)).symm
    exact (if_neg hk).trans (ih fun e he => h e (by simp [he]))

theorem get?_eq_none_of_lt {k : String} {es : Entries α} (h : ∀ e ∈ es, k < e.1) :
    es.get? k = none :=
  get?_eq_none fun e he hk => String.lt_irrefl k (hk ▸ h e he)

theorem get?_eq_some_iff {k : String} {v : α} {es : Entries α} (h : es.Ascending) :
    es.get? k = some v ↔ (k, v) ∈ es := by
  induction es with
  | nil => simp [get?]
  | cons e es ih =>
    obtain ⟨k₁, v₁⟩ := e
    have hc := List.pairwise_cons.1 h
    simp only [get?, List.mem_cons, Prod.mk.injEq]
    split
    · rename_i hk
      subst hk
      constructor
      · intro h
        exact .inl ⟨rfl, (Option.some.inj h).symm⟩
      · rintro (⟨_, rfl⟩ | hm)
        · rfl
        · exact absurd (hc.1 _ hm) (String.lt_irrefl _)
    · rename_i hk
      rw [ih hc.2]
      constructor
      · exact .inr
      · rintro (⟨e, _⟩ | hm)
        · exact absurd e hk
        · exact hm

theorem ext_get? {es fs : Entries α} (he : es.Ascending) (hf : fs.Ascending)
    (h : ∀ k, es.get? k = fs.get? k) : es = fs := by
  induction es generalizing fs with
  | nil =>
    cases fs with
    | nil => rfl
    | cons f fs =>
      have := h f.1
      simp [get?] at this
  | cons e es ih =>
    obtain ⟨k, v⟩ := e
    have hec := List.pairwise_cons.1 he
    cases fs with
    | nil =>
      have := h k
      simp [get?] at this
    | cons f fs =>
      obtain ⟨k', v'⟩ := f
      have hfc := List.pairwise_cons.1 hf
      have hkk : k = k' := by
        rcases key_trichotomy k k' with hlt | heq | hgt
        · have hn : get? k ((k', v') :: fs) = none := by
            refine get?_eq_none_of_lt fun e hm => ?_
            rcases List.mem_cons.1 hm with rfl | hm
            · exact hlt
            · exact String.lt_trans hlt (hfc.1 e hm)
          have := h k
          rw [hn] at this
          simp [get?] at this
        · exact heq
        · have hn : get? k' ((k, v) :: es) = none := by
            refine get?_eq_none_of_lt fun e hm => ?_
            rcases List.mem_cons.1 hm with rfl | hm
            · exact hgt
            · exact String.lt_trans hgt (hec.1 e hm)
          have := h k'
          rw [hn] at this
          simp [get?] at this
      subst hkk
      have hv : v = v' := by
        have := h k
        simpa [get?] using this
      subst hv
      congr 1
      refine ih hec.2 hfc.2 fun q => ?_
      by_cases hq : q = k
      · subst hq
        rw [get?_eq_none_of_lt hec.1, get?_eq_none_of_lt hfc.1]
      · have := h q
        simpa [get?, hq] using this

theorem insert_comm {k k' : String} (hk : k ≠ k') (v v' : α) {es : Entries α}
    (h : es.Ascending) : insert k v (insert k' v' es) = insert k' v' (insert k v es) := by
  apply ext_get? ((h.insert _ _).insert _ _) ((h.insert _ _).insert _ _)
  intro q
  simp only [get?_insert]
  by_cases hq : q = k
  · subst hq
    simp [hk]
  · simp [hq]

def mapValues (f : String → α → β) (es : Entries α) : Entries β :=
  es.map fun e => (e.1, f e.1 e.2)

theorem Ascending.mapValues {es : Entries α} (h : es.Ascending) (f : String → α → β) :
    (Entries.mapValues f es).Ascending :=
  List.pairwise_map.2 h

theorem get?_mapValues (f : String → α → β) (k : String) (es : Entries α) :
    (es.mapValues f).get? k = (es.get? k).map (f k) := by
  induction es with
  | nil => rfl
  | cons e es ih =>
    simp only [mapValues, List.map_cons, get?]
    split
    · rename_i h
      simp [h]
    · exact ih

/-- Runs a fallible step on every value in key order and stops at the first failure. -/
def traverse (f : String → α → Except ε β) : Entries α → Except ε (Entries β)
  | [] => .ok []
  | (k, v) :: es =>
    match f k v with
    | .error e => .error e
    | .ok w =>
      match traverse f es with
      | .error e => .error e
      | .ok ws => .ok ((k, w) :: ws)

theorem keys_of_traverse {f : String → α → Except ε β} {es : Entries α} {ws : Entries β}
    (h : traverse f es = .ok ws) : ws.map Prod.fst = es.map Prod.fst := by
  induction es generalizing ws with
  | nil =>
    cases h
    rfl
  | cons e es ih =>
    obtain ⟨k, v⟩ := e
    simp only [traverse] at h
    split at h
    · cases h
    · split at h
      · cases h
      · rename_i hr
        cases h
        simp [ih hr]

theorem get?_of_traverse {f : String → α → Except ε β} {es : Entries α} {ws : Entries β}
    (h : traverse f es = .ok ws) {k : String} {w : β} (hw : ws.get? k = some w) :
    ∃ v, es.get? k = some v ∧ f k v = .ok w := by
  induction es generalizing ws with
  | nil =>
    cases h
    cases hw
  | cons e es ih =>
    obtain ⟨k₁, v₁⟩ := e
    simp only [traverse] at h
    split at h
    · cases h
    · rename_i w₁ hf
      split at h
      · cases h
      · rename_i hr
        cases h
        simp only [get?] at hw ⊢
        split at hw
        · rename_i hk
          subst hk
          cases hw
          exact ⟨v₁, if_pos rfl, hf⟩
        · rename_i hk
          simpa only [if_neg hk] using ih hr hw

theorem traverse_insert {f : String → α → Except ε β} {es : Entries α} {ws : Entries β}
    (h : traverse f es = .ok ws) {k : String} {v : α} {w : β} (hv : f k v = .ok w) :
    traverse f (es.insert k v) = .ok (ws.insert k w) := by
  induction es generalizing ws with
  | nil =>
    cases h
    simp [insert, traverse, hv]
  | cons e es ih =>
    obtain ⟨k₁, v₁⟩ := e
    cases hf : f k₁ v₁ with
    | error e => simp [traverse, hf] at h
    | ok w₁ =>
      cases hr : traverse f es with
      | error e => simp [traverse, hf, hr] at h
      | ok ws₁ =>
        obtain rfl : (k₁, w₁) :: ws₁ = ws := by simpa [traverse, hf, hr] using h
        by_cases hlt : k < k₁
        · simp only [insert, if_pos hlt, traverse, hv, hf, hr]
        · by_cases hk : k = k₁
          · simp only [insert, if_neg hlt, if_pos hk, traverse, hv, hr]
          · simp only [insert, if_neg hlt, if_neg hk, traverse, hf, ih hr]

theorem first_of_traverse_error {f : String → α → Except ε β} {es : Entries α} {e : ε}
    (ha : es.Ascending) (h : traverse f es = .error e) :
    ∃ k v, (k, v) ∈ es ∧ f k v = .error e ∧
      ∀ k' v', (k', v') ∈ es → k' < k → ∃ w, f k' v' = .ok w := by
  induction es with
  | nil => cases h
  | cons e₁ es ih =>
    obtain ⟨k₁, v₁⟩ := e₁
    have hc := List.pairwise_cons.1 ha
    simp only [traverse] at h
    split at h
    · rename_i hf
      refine ⟨k₁, v₁, by simp, by rw [hf, Except.error.inj h], fun k' v' hm hlt => ?_⟩
      rcases List.mem_cons.1 hm with he | hm
      · cases he
        exact absurd hlt (String.lt_irrefl k₁)
      · exact absurd (String.lt_trans hlt (hc.1 _ hm)) (String.lt_irrefl k')
    · rename_i w hf
      split at h
      · rename_i hr
        obtain ⟨k, v, hm, hkv, hfirst⟩ := ih hc.2 (hr.trans h)
        refine ⟨k, v, List.mem_cons_of_mem _ hm, hkv, fun k' v' hm' hlt => ?_⟩
        rcases List.mem_cons.1 hm' with he | hm'
        · cases he
          exact ⟨w, hf⟩
        · exact hfirst k' v' hm' hlt
      · cases h

theorem Ascending.of_keys {es : Entries α} {ws : Entries β}
    (h : ws.map Prod.fst = es.map Prod.fst) (ha : es.Ascending) : ws.Ascending := by
  have he : (es.map Prod.fst).Pairwise (· < ·) := List.pairwise_map.2 ha
  rw [← h] at he
  exact List.pairwise_map.1 he

/-- Keeps the entries that the step answers, with its answers as values. -/
def filterValues (f : String → α → Option β) (es : Entries α) : Entries β :=
  es.filterMap fun e => (f e.1 e.2).map (e.1, ·)

theorem Ascending.filterValues {es : Entries α} (h : es.Ascending) (f : String → α → Option β) :
    (Entries.filterValues f es).Ascending := by
  refine List.pairwise_filterMap.2 (h.imp fun {a b} hab x hx y hy => ?_)
  simp only [Option.map_eq_some_iff] at hx hy
  obtain ⟨_, _, rfl⟩ := hx
  obtain ⟨_, _, rfl⟩ := hy
  exact hab

end Entries

/-- A finite map with text keys in ascending order. -/
structure SortedMap (α : Type u) where
  entries : Entries α
  ascending : entries.Ascending

/-- A finite set of texts in ascending order. -/
abbrev SortedSet := SortedMap Unit

namespace SortedMap

def empty : SortedMap α := ⟨[], List.Pairwise.nil⟩

instance : EmptyCollection (SortedMap α) := ⟨empty⟩

instance : Inhabited (SortedMap α) := ⟨empty⟩

def get? (m : SortedMap α) (k : String) : Option α := m.entries.get? k

def contains (m : SortedMap α) (k : String) : Bool := (m.get? k).isSome

def insert (m : SortedMap α) (k : String) (v : α) : SortedMap α :=
  ⟨m.entries.insert k v, m.ascending.insert k v⟩

def size (m : SortedMap α) : Nat := m.entries.length

def isEmpty (m : SortedMap α) : Bool := m.entries.isEmpty

def toList (m : SortedMap α) : List (String × α) := m.entries

def keys (m : SortedMap α) : List String := m.entries.map Prod.fst

/-- Later values of a key replace earlier ones. -/
def ofList (es : List (String × α)) : SortedMap α :=
  es.foldl (fun m e => m.insert e.1 e.2) empty

def map (m : SortedMap α) (f : String → α → β) : SortedMap β :=
  ⟨m.entries.mapValues f, m.ascending.mapValues f⟩

def filterMap (m : SortedMap α) (f : String → α → Option β) : SortedMap β :=
  ⟨m.entries.filterValues f, m.ascending.filterValues f⟩

/-- The map of all answers, or the failure of the first key that fails. -/
def traverse (m : SortedMap α) (f : String → α → Except ε β) : Except ε (SortedMap β) :=
  match h : m.entries.traverse f with
  | .error e => .error e
  | .ok ws => .ok ⟨ws, Entries.Ascending.of_keys (Entries.keys_of_traverse h) m.ascending⟩

@[simp] theorem get?_empty (k : String) : (empty : SortedMap α).get? k = none := rfl

theorem get?_insert (m : SortedMap α) (k k' : String) (v : α) :
    (m.insert k v).get? k' = if k' = k then some v else m.get? k' :=
  Entries.get?_insert k k' v m.entries

theorem insert_comm {k k' : String} (hk : k ≠ k') (v v' : α) (m : SortedMap α) :
    (m.insert k' v').insert k v = (m.insert k v).insert k' v' := by
  simp only [insert, Entries.insert_comm hk v v' m.ascending]

theorem get?_eq_some_iff {m : SortedMap α} {k : String} {v : α} :
    m.get? k = some v ↔ (k, v) ∈ m.toList :=
  Entries.get?_eq_some_iff m.ascending

theorem mem_keys {m : SortedMap α} {k : String} : k ∈ m.keys ↔ ∃ v, m.get? k = some v := by
  simp [keys, get?_eq_some_iff, toList]

theorem mem_keys_of_eq {m : SortedMap α} {n : SortedMap β} (h : n.keys = m.keys) {k : String}
    {v : α} (hk : m.get? k = some v) : k ∈ n.keys :=
  h ▸ mem_keys.2 ⟨v, hk⟩

theorem contains_iff {m : SortedMap α} {k : String} :
    m.contains k = true ↔ ∃ v, m.get? k = some v :=
  Option.isSome_iff_exists

theorem contains_iff_mem_keys {m : SortedMap α} {k : String} :
    m.contains k = true ↔ k ∈ m.keys :=
  contains_iff.trans mem_keys.symm

@[simp] theorem get?_map (m : SortedMap α) (f : String → α → β) (k : String) :
    (m.map f).get? k = (m.get? k).map (f k) :=
  Entries.get?_mapValues f k m.entries

@[simp] theorem contains_map (m : SortedMap α) (f : String → α → β) (k : String) :
    (m.map f).contains k = m.contains k := by
  simp [contains]

@[simp] theorem keys_map (m : SortedMap α) (f : String → α → β) : (m.map f).keys = m.keys := by
  simp [keys, map, Entries.mapValues]

theorem get?_filterMap (m : SortedMap α) (f : String → α → Option β) (k : String) :
    (m.filterMap f).get? k = (m.get? k).bind (f k) := by
  ext w
  rw [get?_eq_some_iff, Option.bind_eq_some_iff]
  simp only [get?_eq_some_iff]
  simp only [toList, filterMap, Entries.filterValues, List.mem_filterMap, Option.map_eq_some_iff]
  constructor
  · rintro ⟨⟨k', v⟩, hm, w', hf, he⟩
    cases he
    exact ⟨v, hm, hf⟩
  · rintro ⟨v, hm, hf⟩
    exact ⟨(k, v), hm, w, hf, rfl⟩

theorem mem_keys_filterMap {m : SortedMap α} {f : String → α → Option β} {k : String} :
    k ∈ (m.filterMap f).keys ↔ ∃ v, m.get? k = some v ∧ (f k v).isSome := by
  simp only [mem_keys, get?_filterMap, Option.bind_eq_some_iff, Option.isSome_iff_exists]
  exact ⟨fun ⟨w, v, hv, hw⟩ => ⟨v, hv, w, hw⟩, fun ⟨v, hv, w, hw⟩ => ⟨w, v, hv, hw⟩⟩

theorem entries_of_traverse {m : SortedMap α} {n : SortedMap β} {f : String → α → Except ε β}
    (h : m.traverse f = .ok n) : m.entries.traverse f = .ok n.entries := by
  simp only [traverse] at h
  split at h
  · cases h
  · rename_i hr
    cases h
    exact hr

theorem keys_of_traverse {m : SortedMap α} {n : SortedMap β} {f : String → α → Except ε β}
    (h : m.traverse f = .ok n) : n.keys = m.keys :=
  Entries.keys_of_traverse (entries_of_traverse h)

theorem get?_of_traverse {m : SortedMap α} {n : SortedMap β} {f : String → α → Except ε β}
    (h : m.traverse f = .ok n) {k : String} {w : β} (hw : n.get? k = some w) :
    ∃ v, m.get? k = some v ∧ f k v = .ok w :=
  Entries.get?_of_traverse (entries_of_traverse h) hw

theorem get?_traverse {m : SortedMap α} {n : SortedMap β} {f : String → α → Except ε β}
    (h : m.traverse f = .ok n) {k : String} {v : α} (hv : m.get? k = some v) :
    ∃ w, n.get? k = some w ∧ f k v = .ok w := by
  obtain ⟨w, hw⟩ := mem_keys.1 (mem_keys_of_eq (keys_of_traverse h) hv)
  obtain ⟨v', hv', hf⟩ := get?_of_traverse h hw
  cases hv.symm.trans hv'
  exact ⟨w, hw, hf⟩

/-- A value put in beforehand is found afterwards as what comes of it. -/
theorem traverse_insert {m : SortedMap α} {n : SortedMap β} {f : String → α → Except ε β}
    (h : m.traverse f = .ok n) {k : String} {v : α} {w : β} (hv : f k v = .ok w) :
    (m.insert k v).traverse f = .ok (n.insert k w) := by
  have he := Entries.traverse_insert (entries_of_traverse h) hv
  simp only [traverse]
  split
  · rename_i hr
    cases he.symm.trans hr
  · rename_i hr
    cases he.symm.trans hr
    rfl

theorem first_of_traverse_error {m : SortedMap α} {f : String → α → Except ε β} {e : ε}
    (h : m.traverse f = .error e) :
    ∃ k v, m.get? k = some v ∧ f k v = .error e ∧
      ∀ k' v', m.get? k' = some v' → k' < k → ∃ w, f k' v' = .ok w := by
  have he : m.entries.traverse f = .error e := by
    simp only [traverse] at h
    split at h
    · rename_i hr
      rw [hr, Except.error.inj h]
    · cases h
  simp only [get?_eq_some_iff]
  exact Entries.first_of_traverse_error m.ascending he

theorem ext_get? {m n : SortedMap α} (h : ∀ k, m.get? k = n.get? k) : m = n := by
  obtain ⟨es, he⟩ := m
  obtain ⟨fs, hf⟩ := n
  cases Entries.ext_get? he hf h
  rfl

theorem rel_of_traverse {m : SortedMap α} {n : SortedMap β} {f : String → α → Except ε β}
    (h : m.traverse f = .ok n) (k : String) :
    Option.Rel (fun v w => f k v = .ok w) (m.get? k) (n.get? k) := by
  cases hv : m.get? k with
  | some v =>
    obtain ⟨w, hw, hf⟩ := get?_traverse h hv
    rw [hw]
    exact .some hf
  | none =>
    cases hw : n.get? k with
    | none => exact .none
    | some w =>
      obtain ⟨v, hv', _⟩ := get?_of_traverse h hw
      cases hv.symm.trans hv'

theorem traverse_eq_ok_iff {m : SortedMap α} {n : SortedMap β} {f : String → α → Except ε β} :
    m.traverse f = .ok n ↔
      ∀ k, Option.Rel (fun v w => f k v = .ok w) (m.get? k) (n.get? k) := by
  refine ⟨rel_of_traverse, fun h => ?_⟩
  cases ht : m.traverse f with
  | error e =>
    obtain ⟨k, v, hv, hf, _⟩ := first_of_traverse_error ht
    have hk := h k
    rw [hv] at hk
    generalize n.get? k = b at hk
    cases hk with
    | some hw => cases hf.symm.trans hw
  | ok n' =>
    refine congrArg Except.ok (ext_get? fun k => ?_)
    have hk := h k
    have hk' := rel_of_traverse ht k
    generalize m.get? k = a, n.get? k = b, n'.get? k = b' at hk hk'
    cases hk with
    | none =>
      cases hk'
      rfl
    | some hw =>
      cases hk' with
      | some hw' =>
        cases hw.symm.trans hw'
        rfl

theorem traverse_eq_error_iff {m : SortedMap α} {f : String → α → Except ε β} {e : ε} :
    m.traverse f = .error e ↔
      ∃ k v, m.get? k = some v ∧ f k v = .error e ∧
        ∀ k' v', m.get? k' = some v' → k' < k → ∃ w, f k' v' = .ok w := by
  refine ⟨first_of_traverse_error, ?_⟩
  rintro ⟨k, v, hv, hf, hfirst⟩
  cases ht : m.traverse f with
  | ok n =>
    obtain ⟨w, _, hw⟩ := get?_traverse ht hv
    cases hf.symm.trans hw
  | error e' =>
    obtain ⟨k', v', hv', hf', hfirst'⟩ := first_of_traverse_error ht
    rcases key_trichotomy k' k with hlt | rfl | hlt
    · obtain ⟨w, hw⟩ := hfirst k' v' hv' hlt
      cases hf'.symm.trans hw
    · cases hv.symm.trans hv'
      exact congrArg Except.error (Except.error.inj (hf'.symm.trans hf))
    · obtain ⟨w, hw⟩ := hfirst' k v hv hlt
      cases hf.symm.trans hw

theorem ext_map_get? {m n : SortedMap α} {f : α → β} (hf : ∀ a b, f a = f b → a = b)
    (h : ∀ k, (m.get? k).map f = (n.get? k).map f) : m = n :=
  ext_get? fun k => Option.map_injective hf (h k)

/-- A key that is there already may be put in again. -/
theorem insert_of_get? {m : SortedMap α} {k : String} {v : α} (h : m.get? k = some v) :
    m.insert k v = m := by
  apply ext_get?
  intro k'
  rw [get?_insert]
  split
  · rename_i hk
    rw [hk, h]
  · rfl

theorem map_insert (m : SortedMap α) (f : String → α → β) (k : String) (v : α) :
    (m.insert k v).map f = (m.map f).insert k (f k v) := by
  apply ext_get?
  intro k'
  rw [get?_map, get?_insert, get?_insert, get?_map]
  by_cases hk : k' = k
  · subst hk
    simp
  · simp [hk]

theorem get?_foldl_insert {es : Entries α} (h : es.Ascending) (m : SortedMap α) (k : String) :
    (es.foldl (fun m e => m.insert e.1 e.2) m).get? k = (es.get? k).or (m.get? k) := by
  induction es generalizing m with
  | nil => rfl
  | cons e es ih =>
    obtain ⟨k', v⟩ := e
    obtain ⟨hlt, hes⟩ := List.pairwise_cons.1 h
    rw [List.foldl_cons, ih hes, get?_insert, Entries.get?]
    by_cases hk : k = k'
    · subst hk
      rw [if_pos rfl, if_pos rfl, Entries.get?_eq_none_of_lt hlt]
      rfl
    · rw [if_neg hk, if_neg hk]

theorem ofList_toList (m : SortedMap α) : ofList m.toList = m := by
  refine ext_get? fun k => ?_
  rw [ofList, toList, get?_foldl_insert m.ascending, get?_empty, Option.or_none]
  rfl

theorem exists_getElem?_of_get? {m : SortedMap α} {k : String} {v : α} (h : m.get? k = some v) :
    ∃ i : Nat, m.toList[i]? = some (k, v) :=
  List.mem_iff_getElem?.1 (get?_eq_some_iff.1 h)

theorem toList_insert {m : SortedMap α} {k : String} {v : α} {i : Nat}
    (h : m.toList[i]? = some (k, v)) (w : α) : (m.insert k w).toList = m.toList.set i (k, w) :=
  Entries.insert_eq_set m.ascending h w

theorem getElem?_keys {m : SortedMap α} {k : String} {v : α} {i : Nat}
    (h : m.toList[i]? = some (k, v)) : m.keys[i]? = some k := by
  have hkeys : m.keys = m.toList.map Prod.fst := rfl
  rw [hkeys, List.getElem?_map, h]
  rfl

theorem keys_insert {m : SortedMap α} {k : String} {v : α} {i : Nat}
    (h : m.toList[i]? = some (k, v)) (w : α) : (m.insert k w).keys = m.keys := by
  obtain ⟨hi, hk⟩ := List.getElem?_eq_some_iff.1 (getElem?_keys h)
  calc (m.insert k w).keys = (m.toList.set i (k, w)).map Prod.fst :=
        congrArg (List.map Prod.fst) (toList_insert h w)
    _ = m.keys.set i m.keys[i] := by rw [List.map_set, hk]; rfl
    _ = m.keys := List.set_getElem_self hi

instance [DecidableEq α] : DecidableEq (SortedMap α) := fun m n =>
  if h : m.entries = n.entries then
    .isTrue (by cases m; cases n; cases h; rfl)
  else .isFalse fun e => h (congrArg entries e)

end SortedMap

namespace SortedSet

def ofList (xs : List String) : SortedSet :=
  xs.foldl (fun s x => s.insert x ()) SortedMap.empty

def toList (s : SortedSet) : List String := s.keys

end SortedSet

end ModuleCompiler
