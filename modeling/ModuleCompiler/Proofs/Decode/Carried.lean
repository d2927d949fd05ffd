import ModuleCompiler.Proofs.Decode.Records
import ModuleCompiler.Proofs.Decode.Untyped
import ModuleCompiler.Proofs.Field.DurationText
import ModuleCompiler.Proofs.Number.Literal
import ModuleCompiler.Proofs.Tree.Fields

/-!
Trees that are read back. A tree has been written, somehow, into a document, and a decoder makes of
the node there what the tree was made from.
-/

namespace ModuleCompiler

open Yaml

/-- The value that a leaf stands for in a document. -/
inductive Tree.IsScalar : Tree → ScalarValue → Prop
  | null : IsScalar .null .null
  | bool (b : Bool) : IsScalar (.bool b) (.bool b)
  | integer (n : Int) : IsScalar (.integer n) (.integer n (decide (n < 0)))
  | float (x : Float) : IsScalar (.float x) (.float x)
  | text (s : String) : IsScalar (.text s) (.text s)

mutual

/-- The node says what the tree says, in whatever style its scalars are written. -/
inductive Tree.CarriedBy : Tree → Node → Prop
  | scalar {t : Tree} {s : Scalar} {v : ScalarValue} :
      t.IsScalar v → s.tag = none → s.value = .ok v → CarriedBy t (.scalar s)
  | list {ts : List Tree} {mark : Mark} {ns : List Node} :
      List.Forall₂ CarriedBy ts ns → CarriedBy (.list ts) (.seq ⟨none, mark⟩ ns)
  | record {fs : List (String × Tree)} {mark : Mark} {es : List (Node × Node)} :
      List.Forall₂ FieldCarriedBy fs es → CarriedBy (.record fs) (.map ⟨none, mark⟩ es)

inductive Tree.FieldCarriedBy : String × Tree → Node × Node → Prop
  | mk {name : String} {t : Tree} {k v : Node} :
      CarriedBy (.text name) k → CarriedBy t v → FieldCarriedBy (name, t) (k, v)

end

namespace Tree

section Check

def isLeafOf : Tree → ScalarValue → Bool
  | .null, .null => true
  | .bool b, .bool b' => b = b'
  | .integer n, .integer n' minus => n = n' && minus = decide (n < 0)
  | .text t, .text t' => t = t'
  | _, _ => false

def isLeafIn (t : Tree) : Node → Bool
  | .scalar s => s.tag = none && s.value.toOption.any t.isLeafOf
  | _ => false

mutual

/-- Tells that a node carries a tree; of floating point numbers it tells nothing. -/
def isIn : Tree → Node → Bool
  | .list ts, .seq o ns => o.tag = none && areIn ts ns
  | .record fs, .map o es => o.tag = none && fieldsAreIn fs es
  | t, n => t.isLeafIn n

def areIn : List Tree → List Node → Bool
  | [], [] => true
  | t :: ts, n :: ns => t.isIn n && areIn ts ns
  | _, _ => false

def fieldsAreIn : List (String × Tree) → List (Node × Node) → Bool
  | [], [] => true
  | (name, t) :: fs, (k, v) :: es => (Tree.text name).isLeafIn k && t.isIn v && fieldsAreIn fs es
  | _, _ => false

end

theorem isScalar_of_isLeafOf {t : Tree} {v : ScalarValue} (h : t.isLeafOf v = true) :
    t.IsScalar v := by
  unfold isLeafOf at h
  split at h
  · exact .null
  · obtain rfl := of_decide_eq_true h
    exact .bool _
  · simp only [Bool.and_eq_true, decide_eq_true_eq] at h
    obtain ⟨rfl, rfl⟩ := h
    exact .integer _
  · obtain rfl := of_decide_eq_true h
    exact .text _
  · cases h

theorem carriedBy_of_isLeafIn {t : Tree} {n : Node} (h : t.isLeafIn n = true) : t.CarriedBy n := by
  unfold isLeafIn at h
  split at h
  · rename_i s
    simp only [Bool.and_eq_true, decide_eq_true_eq] at h
    obtain ⟨htag, hvalue⟩ := h
    cases hs : s.value with
    | error e => simp [hs, Except.toOption] at hvalue
    | ok v => exact .scalar (isScalar_of_isLeafOf (by simpa [hs, Except.toOption] using hvalue)) htag hs
  · cases h

mutual

theorem carriedBy_of_isIn : ∀ {t : Tree} {n : Node}, t.isIn n = true → t.CarriedBy n
  | .list ts, .seq ⟨tag, mark⟩ ns, h => by
    simp only [isIn, Bool.and_eq_true, decide_eq_true_eq] at h
    obtain ⟨rfl, h⟩ := h
    exact .list (forall₂_of_areIn h)
  | .record fs, .map ⟨tag, mark⟩ es, h => by
    simp only [isIn, Bool.and_eq_true, decide_eq_true_eq] at h
    obtain ⟨rfl, h⟩ := h
    exact .record (forall₂_of_fieldsAreIn h)
  | t, .scalar s, h => carriedBy_of_isLeafIn (by cases t <;> simpa only [isIn] using h)

theorem forall₂_of_areIn : ∀ {ts : List Tree} {ns : List Node}, areIn ts ns = true →
    List.Forall₂ CarriedBy ts ns
  | [], [], _ => .nil
  | t :: ts, n :: ns, h => by
    simp only [areIn, Bool.and_eq_true] at h
    exact .cons (carriedBy_of_isIn h.1) (forall₂_of_areIn h.2)

theorem forall₂_of_fieldsAreIn : ∀ {fs : List (String × Tree)} {es : List (Node × Node)},
    fieldsAreIn fs es = true → List.Forall₂ FieldCarriedBy fs es
  | [], [], _ => .nil
  | (name, t) :: fs, (k, v) :: es, h => by
    simp only [fieldsAreIn, Bool.and_eq_true] at h
    exact .cons (.mk (carriedBy_of_isLeafIn h.1.1) (carriedBy_of_isIn h.1.2))
      (forall₂_of_fieldsAreIn h.2)

end

end Check

end Tree

section Scalars

variable {s : Scalar} {v : ScalarValue} {text : String}

/-- A scalar that is not text is plain, and its look tells what it is. -/
theorem plainValue_of_value (htag : s.tag = none) (hs : s.value = .ok v)
    (hv : ∀ t, v ≠ .text t) : s.style = .plain ∧ ScalarText.plainValue s.text = v := by
  simp only [Scalar.value, htag] at hs
  split at hs
  · rename_i hstyle
    exact ⟨hstyle, Except.ok.inj hs⟩
  · exact absurd (Except.ok.inj hs).symm (hv _)

theorem isNull_of_plainValue (h : ScalarText.plainValue text = v) (hv : v ≠ .null) :
    (text.isEmpty || ScalarText.isNull text) = false := by
  cases hnull : text.isEmpty || ScalarText.isNull text with
  | false => rfl
  | true =>
    rw [ScalarText.plainValue, if_pos hnull] at h
    exact absurd h.symm hv

theorem text_of_plainValue {t : String} (h : ScalarText.plainValue text = .text t) : text = t := by
  have hnull := isNull_of_plainValue h nofun
  rw [ScalarText.plainValue, if_neg (Bool.eq_false_iff.1 hnull)] at h
  split at h
  · cases h
  · split at h
    · cases h
    · split at h
      · exact ScalarValue.text.inj h
      · split at h
        · cases h
        · exact ScalarValue.text.inj h

theorem bool?_of_plainValue {b : Bool} (h : ScalarText.plainValue text = .bool b) :
    ScalarText.bool? text = some b := by
  have hnull := isNull_of_plainValue h nofun
  rw [ScalarText.plainValue, if_neg (Bool.eq_false_iff.1 hnull)] at h
  split at h
  · rename_i hb
    rw [hb, ScalarValue.bool.inj h]
  · split at h
    · cases h
    · split at h
      · cases h
      · split at h <;> cases h

theorem integer?_of_plainValue {n : Int} {minus : Bool}
    (h : ScalarText.plainValue text = .integer n minus) :
    ScalarText.integer? text = some n ∧ minus = text.startsWith "-" := by
  have hnull := isNull_of_plainValue h nofun
  rw [ScalarText.plainValue, if_neg (Bool.eq_false_iff.1 hnull)] at h
  split at h
  · cases h
  · split at h
    · rename_i hn
      obtain ⟨rfl, rfl⟩ := ScalarValue.integer.inj h
      exact ⟨hn, rfl⟩
    · split at h
      · cases h
      · split at h <;> cases h

/-- Without a minus sign a whole number is read like one that cannot have a sign. -/
theorem natural?_of_integer? {n : Int} (h : ScalarText.integer? text = some n)
    (hminus : text.startsWith "-" = false) : ∃ k : Nat, n = k ∧ ScalarText.natural? text = some k := by
  have hfirst : ∀ cs, text.toList ≠ '-' :: cs := by
    intro cs hcs
    refine String.startsWith_string_eq_false_iff.1 hminus ?_
    rw [hcs]
    exact ⟨cs, rfl⟩
  unfold ScalarText.integer? at h
  split at h
  · rename_i cs hcs
    exact absurd hcs (hfirst cs)
  · obtain ⟨k, hk, hbound⟩ := Option.bind_eq_some_iff.1 h
    split at hbound
    · exact ⟨k, (Option.some.inj hbound).symm, hk⟩
    · cases hbound

end Scalars

section Leaves

variable {n : Node} {s : Scalar}

theorem Tree.CarriedBy.text {t : String} (h : (Tree.text t).CarriedBy n) :
    ∃ s, n = .scalar s ∧ s.text = t ∧ s.tag = none ∧ s.value = .ok (.text t) := by
  cases h with
  | @scalar _ s v hv htag hs =>
    cases hv
    refine ⟨s, rfl, ?_, htag, hs⟩
    have hplain := hs
    simp only [Scalar.value, htag] at hplain
    split at hplain
    · exact text_of_plainValue (Except.ok.inj hplain)
    · exact ScalarValue.text.inj (Except.ok.inj hplain)

theorem Tree.CarriedBy.bool {b : Bool} (h : (Tree.bool b).CarriedBy n) :
    ∃ s, n = .scalar s ∧ s.style = .plain ∧ ScalarText.bool? s.text = some b := by
  cases h with
  | @scalar _ s v hv htag hs =>
    cases hv
    obtain ⟨hstyle, hplain⟩ := plainValue_of_value htag hs nofun
    exact ⟨s, rfl, hstyle, bool?_of_plainValue hplain⟩

theorem Tree.CarriedBy.natural {k : Nat} (h : (Tree.integer k).CarriedBy n) :
    ∃ s, n = .scalar s ∧ s.style = .plain ∧ ScalarText.natural? s.text = some k := by
  cases h with
  | @scalar _ s v hv htag hs =>
    cases hv
    obtain ⟨hstyle, hplain⟩ := plainValue_of_value htag hs nofun
    obtain ⟨hinteger, hminus⟩ := integer?_of_plainValue hplain
    have hsign : s.text.startsWith "-" = false := hminus.symm.trans (by simp)
    obtain ⟨k', hk', hnatural⟩ := natural?_of_integer? hinteger hsign
    obtain rfl : k = k' := Int.ofNat.inj hk'
    exact ⟨s, rfl, hstyle, hnatural⟩

end Leaves

section Existence

/-- Some document says what the tree says. -/
def Tree.IsCarried (t : Tree) : Prop := ∃ n, t.CarriedBy n

/-- What is written of a field can be said in a document. -/
def AreCarried (part : List (String × Tree)) : Prop := ∀ e ∈ part, e.2.IsCarried

@[simp] theorem isCarried_text (t : String) : (Tree.text t).IsCarried :=
  ⟨.scalar ⟨t, .doubleQuoted, none, .start⟩, .scalar (.text t) rfl rfl⟩

@[simp] theorem isCarried_bool (b : Bool) : (Tree.bool b).IsCarried := by
  cases b with
  | true => exact ⟨.scalar ⟨"true", .plain, none, .start⟩, .scalar (.bool true) rfl rfl⟩
  | false => exact ⟨.scalar ⟨"false", .plain, none, .start⟩, .scalar (.bool false) rfl rfl⟩

theorem isCarried_natural {n : Nat} (hn : n < wordBound 128) : (Tree.integer n).IsCarried := by
  have hdigits : (String.ofList (Nat.toDigits 10 n)).toList = Nat.toDigits 10 n := String.toList_ofList
  have hliteral : IsLiteral (String.ofList (Nat.toDigits 10 n)).toList n := by
    rw [hdigits]
    exact .unsigned (isNumeral_toDigits n)
  have hminus : (String.ofList (Nat.toDigits 10 n)).startsWith "-" = false := by
    rw [String.startsWith_string_eq_false_iff, hdigits]
    rintro ⟨ds, hds⟩
    have hdigit : '-'.isDigit = true := (areDigits_toDigits n).digits '-' (by rw [← hds]; simp)
    cases hdigit
  have hfits : FitsWide n := by
    have hleast : -Int.ofNat (wordBound 127) ≤ 0 := by decide
    exact ⟨by omega, Int.ofNat_lt.2 hn⟩
  refine ⟨.scalar ⟨String.ofList (Nat.toDigits 10 n), .plain, none, .start⟩,
    .scalar (.integer n) rfl ?_⟩
  have hplain := ScalarText.plainValue_literal hliteral
  rw [if_pos hfits, hminus] at hplain
  have hsign : decide ((n : Int) < 0) = false := by simp
  rw [hsign, ← hplain]
  rfl

theorem isCarried_list {ts : List Tree} (h : ∀ t ∈ ts, t.IsCarried) : (Tree.list ts).IsCarried := by
  have hitems : ∃ ns, List.Forall₂ Tree.CarriedBy ts ns := by
    induction ts with
    | nil => exact ⟨[], .nil⟩
    | cons t ts ih =>
      obtain ⟨⟨n, hn⟩, hts⟩ := List.forall_mem_cons.1 h
      obtain ⟨ns, hns⟩ := ih hts
      exact ⟨n :: ns, .cons hn hns⟩
  obtain ⟨ns, hns⟩ := hitems
  exact ⟨.seq ⟨none, .start⟩ ns, .list hns⟩

theorem isCarried_record {fs : List (String × Tree)} (h : AreCarried fs) :
    (Tree.record fs).IsCarried := by
  have hfields : ∃ es, List.Forall₂ Tree.FieldCarriedBy fs es := by
    induction fs with
    | nil => exact ⟨[], .nil⟩
    | cons e fs ih =>
      obtain ⟨⟨v, hv⟩, hfs⟩ := List.forall_mem_cons.1 h
      obtain ⟨k, hk⟩ := isCarried_text e.1
      obtain ⟨es, hes⟩ := ih hfs
      exact ⟨(k, v) :: es, .cons (.mk hk hv) hes⟩
  obtain ⟨es, hes⟩ := hfields
  exact ⟨.map ⟨none, .start⟩ es, .record hes⟩

theorem isCarried_fieldsOf {parts : List (List (String × Tree))} (h : ∀ part ∈ parts, AreCarried part) :
    (Module.fieldsOf parts).IsCarried := by
  refine isCarried_record fun e he => ?_
  obtain ⟨part, hpart, hmem⟩ := List.mem_flatten.1 he
  exact h part hpart e hmem

variable {name : String}

@[simp] theorem areCarried_always {t : Tree} : AreCarried (Module.always name t) ↔ t.IsCarried := by
  simp [AreCarried, Module.always]

@[simp] theorem areCarried_present {x : Option α} {toTree : α → Tree}
    (h : ∀ a, (toTree a).IsCarried) : AreCarried (Module.present name x toTree) := by
  cases x with
  | none => exact List.forall_mem_nil _
  | some a => exact areCarried_always.2 (h a)

theorem areCarried_unless {t : Tree} (empty : Bool) (h : t.IsCarried) :
    AreCarried (if empty then [] else Module.always name t) := by
  cases empty with
  | true => exact List.forall_mem_nil _
  | false => exact areCarried_always.2 h

@[simp] theorem areCarried_listed {xs : List α} {toTree : α → Tree}
    (h : ∀ a, (toTree a).IsCarried) : AreCarried (Module.listed name xs toTree) := by
  refine areCarried_unless xs.isEmpty (isCarried_list fun t ht => ?_)
  obtain ⟨a, -, rfl⟩ := List.mem_map.1 ht
  exact h a

@[simp] theorem areCarried_tabled {m : SortedMap α} {toTree : α → Tree}
    (h : ∀ a, (toTree a).IsCarried) : AreCarried (Module.tabled name m toTree) := by
  refine areCarried_unless m.isEmpty (isCarried_record fun e he => ?_)
  obtain ⟨a, -, rfl⟩ := List.mem_map.1 he
  exact h a.2

end Existence

namespace SortedMap

/-- The order of entries with distinct keys does not show. -/
theorem ofList_of_perm {es : List (String × α)} {m : SortedMap α} (h : es.Perm m.toList) :
    ofList es = m := by
  have hcomm : ∀ x ∈ es, ∀ y ∈ es, ∀ z : SortedMap α,
      (z.insert x.1 x.2).insert y.1 y.2 = (z.insert y.1 y.2).insert x.1 x.2 := by
    rintro ⟨k, v⟩ hx ⟨k', v'⟩ hy z
    have hv := get?_eq_some_iff.2 (h.mem_iff.1 hx)
    have hv' := get?_eq_some_iff.2 (h.mem_iff.1 hy)
    by_cases hk : k = k'
    · subst hk
      obtain rfl := Option.some.inj (hv.symm.trans hv')
      rfl
    · exact insert_comm (Ne.symm hk) v' v z
  rw [ofList, h.foldl_eq' hcomm]
  exact ofList_toList m

theorem foldl_insert_of_perm {es : List (String × α)} {m : SortedMap α} (h : es.Perm m.toList)
    (f : α → β) : es.foldl (fun m e => m.insert e.1 (f e.2)) ∅ = m.map fun _ => f := by
  have hmap : (es.map fun e => (e.1, f e.2)).Perm (m.map fun _ => f).toList := h.map _
  have hlist := ofList_of_perm hmap
  rwa [ofList, List.foldl_map] at hlist

end SortedMap

theorem Entries.foldl_insert_of_perm {es : List (String × α)} {m : SortedMap α}
    (h : es.Perm m.toList) (f : α → β) :
    es.foldl (fun acc e => Entries.insert e.1 (f e.2) acc) [] = (m.map fun _ => f).entries := by
  calc es.foldl (fun acc e => Entries.insert e.1 (f e.2) acc) (∅ : SortedMap β).entries
    _ = (es.foldl (fun m e => m.insert e.1 (f e.2)) (∅ : SortedMap β)).entries :=
      List.foldl_hom SortedMap.entries fun _ _ => rfl
    _ = (m.map fun _ => f).entries :=
      congrArg SortedMap.entries (SortedMap.foldl_insert_of_perm h f)

namespace Decode

/-- Whatever carries the tree of a value is read as that value where so many levels may open. -/
def ReadsBack (decoder : Decoder α) (toTree : α → Tree) (levels : Nat) : Prop :=
  ∀ a p n, levels ≤ p.depth → (toTree a).CarriedBy n → decoder p n = pure a

section Decoders

variable {p : Place} {n : Node} {decoder : Decoder α} {toTree : α → Tree} {levels : Nat}

theorem textTo_carried {t : String} (h : (Tree.text t).CarriedBy n) (expected : String)
    (make : Place → String → Decode β) (p : Place) :
    textTo expected make p n = make (p.enter n) t := by
  obtain ⟨s, rfl, rfl, -, -⟩ := h.text
  rfl

theorem textAs_carried {t : String} (h : (Tree.text t).CarriedBy n) (expected : String) (p : Place) :
    textAs expected p n = pure t :=
  textTo_carried h expected _ p

theorem readsBack_text : ReadsBack text .text 0 :=
  fun _ p _ _ h => textAs_carried h _ p

theorem readsBack_bool : ReadsBack bool .bool 0 := by
  intro b p n _ h
  obtain ⟨s, rfl, hstyle, hb⟩ := h.bool
  simp only [bool, resolve, pure_bind, Scalar.admits, hstyle, decide_true, Bool.true_or, if_true, hb]

theorem readsBack_uint32 : ReadsBack uint32 (fun k => .integer k.toNat) 0 := by
  intro k p n _ h
  obtain ⟨s, rfl, hstyle, hk⟩ := h.natural
  have hbound : k.toNat < wordBound 32 := k.toNat_lt
  have hread : unsigned 32 p (.scalar s) = pure k.toNat := by
    simp only [unsigned, resolve, pure_bind, Scalar.admits, hstyle, decide_true, Bool.true_or,
      if_true, hk, hbound]
  rw [uint32, hread, map_pure]
  simp

theorem readsBack_duration : ReadsBack Duration.decoder Module.durationTree 0 := by
  intro d p n _ h
  rw [Duration.decoder, textTo_carried h, Duration.ofText?_toText]

/-- What is there is not taken for absent. -/
theorem ReadsBack.option (hd : ReadsBack decoder toTree levels) (hnull : ∀ a, toTree a ≠ .null) (a : α)
    (p : Place) (n : Node) (hp : levels ≤ p.depth) (h : (toTree a).CarriedBy n) :
    Decode.option decoder p n = pure (some a) := by
  have hread := hd a p n hp h
  have hne := hnull a
  generalize toTree a = t at h hne
  cases h with
  | @scalar _ s v hv htag hs =>
    have hv : v ≠ .null := by
      rintro rfl
      cases hv
      exact hne rfl
    simp only [Decode.option, resolve, pure_bind, htag]
    split
    · rw [hread]
      rfl
    · rename_i hstyle
      rw [Decidable.not_not] at hstyle
      simp only [Scalar.value, htag, hstyle, if_true] at hs
      rw [isNull_of_plainValue (Except.ok.inj hs) hv, hread]
      rfl
  | list _ =>
    simp only [Decode.option, resolve, pure_bind, hread]
    rfl
  | record _ =>
    simp only [Decode.option, resolve, pure_bind, hread]
    rfl

theorem ReadsBack.items (hd : ReadsBack decoder toTree levels) {xs : List α} {ns : List Node}
    (h : List.Forall₂ Tree.CarriedBy (xs.map toTree) ns) {depth : Nat} (hdepth : levels ≤ depth)
    (i : Nat) : items p depth decoder i ns = pure xs := by
  induction xs generalizing ns i with
  | nil =>
    cases h
    rfl
  | cons x xs ih =>
    cases h with
    | @cons _ n _ ns hx hxs =>
      have hfirst : decoder (p.child (.index i) depth) n = pure x := hd x _ n hdepth hx
      rw [Decode.items, hfirst, pure_bind, ih hxs (i + 1), pure_bind]

theorem descend_of_pos (hp : 0 < p.depth) (inner : Nat → Decode β) :
    descend p inner = inner (p.depth - 1) := by
  obtain ⟨depth, hdepth⟩ := Nat.exists_eq_add_of_le' hp
  simp only [descend, hdepth, Nat.add_sub_cancel]

theorem descend_enter (hp : 0 < p.depth) (inner : Nat → Decode β) :
    descend (p.enter n) inner = inner (p.depth - 1) :=
  descend_of_pos (p := p.enter n) hp inner

theorem ReadsBack.list (hd : ReadsBack decoder toTree levels) :
    ReadsBack (Decode.list decoder) (fun xs => .list (xs.map toTree)) (levels + 1) := by
  intro xs p n hp h
  have hlevels : levels ≤ p.depth - 1 := by omega
  cases h with
  | scalar hv => cases hv
  | list hns =>
    simp only [Decode.list, resolve, pure_bind]
    rw [descend_enter (by omega), hd.items hns hlevels 0]

theorem readsBack_commandDecoder : ReadsBack commandDecoder (fun xs => .list (xs.map .text)) 1 := by
  intro xs p n hp h
  cases h with
  | scalar hv => cases hv
  | @list _ mark ns hns =>
    have hopen : commandDecoder p (.seq ⟨none, mark⟩ ns) = descend (p.enter (.seq ⟨none, mark⟩ ns))
        fun depth => Decode.items (p.enter (.seq ⟨none, mark⟩ ns)) depth text 0 ns := rfl
    rw [hopen, descend_enter hp, readsBack_text.items hns (Nat.zero_le _) 0]

/-- Entries are read one after the other, each by what is for its key. -/
theorem entries_carried {depth : Nat} {value : String → Decoder β} {put : String → β → σ → σ}
    {f : ι → String × Tree} {g : ι → β} {xs : List ι} {es : List (Node × Node)}
    (h : List.Forall₂ Tree.FieldCarriedBy (xs.map f) es)
    (hvalue : ∀ x ∈ xs, ∀ q n, q.depth = depth → (f x).2.CarriedBy n →
      value (f x).1 q n = pure (g x)) (acc : σ) :
    entries p depth value put acc es =
      pure (xs.foldl (fun acc x => put (f x).1 (g x) acc) acc) := by
  induction xs generalizing es acc with
  | nil =>
    cases h
    rfl
  | cons x xs ih =>
    obtain ⟨hfirst, hrest⟩ := List.forall_mem_cons.1 hvalue
    cases h with
    | @cons _ e _ es hx hxs =>
      generalize hf : f x = field at hx hfirst
      cases hx with
      | @mk name t k v hk hv =>
        have hkey : Decode.text { p with depth := depth } k = pure name := textAs_carried hk _ _
        have hread : value name (p.child (entryStep k) depth) v = pure (g x) := hfirst _ v rfl hv
        rw [Decode.entries, hkey, pure_bind, hread, pure_bind, ih hxs hrest, List.foldl_cons, hf]

theorem ReadsBack.entries (hd : ReadsBack decoder toTree levels) {xs : List (String × α)}
    {es : List (Node × Node)}
    (h : List.Forall₂ Tree.FieldCarriedBy (xs.map fun e => (e.1, toTree e.2)) es) {depth : Nat}
    (hdepth : levels ≤ depth) (m : SortedMap α) :
    entries p depth (fun _ => decoder) (fun k v m => m.insert k v) m es =
      pure (xs.foldl (fun m e => m.insert e.1 e.2) m) :=
  entries_carried h (fun e _ q n hq hn => hd e.2 q n (hq ▸ hdepth) hn) m

theorem ReadsBack.table (hd : ReadsBack decoder toTree levels) :
    ReadsBack (Decode.table decoder) (Module.tableTree · toTree) (levels + 1) := by
  intro m p n hp h
  have hlevels : levels ≤ p.depth - 1 := by omega
  cases h with
  | scalar hv => cases hv
  | record hes =>
    simp only [Decode.table, resolve, pure_bind]
    rw [descend_enter (by omega), hd.entries hes hlevels]
    exact congrArg pure (SortedMap.ofList_toList m)

end Decoders

section Records

variable {known : List (FieldDecoder ρ)} {depth : Nat} {name : String}

/-- What the reading of a field does to a record: nothing if the field has been left out. -/
inductive Fills (known : List (FieldDecoder ρ)) (depth : Nat) :
    String → List (String × Tree) → (ρ → ρ) → Prop
  | omitted {name : String} : Fills known depth name [] id
  | written {name : String} {t : Tree} {f : FieldDecoder ρ} {store : ρ → ρ} :
      known.find? (·.isNamed name) = some f → f.name = name →
      (∀ q n, q.depth = depth → t.CarriedBy n → f.read q n = pure store) →
      Fills known depth name [(name, t)] store

/-- All fields of a record in their order. -/
inductive FillsAll (known : List (FieldDecoder ρ)) (depth : Nat) :
    List String → List (List (String × Tree)) → (ρ → ρ) → Prop
  | nil : FillsAll known depth [] [] id
  | cons {name : String} {names : List String} {part : List (String × Tree)}
      {parts : List (List (String × Tree))} {store rest : ρ → ρ} :
      Fills known depth name part store → FillsAll known depth names parts rest →
      FillsAll known depth (name :: names) (part :: parts) (rest ∘ store)

theorem takeField_carried {p : Place} {t : Tree} {f : FieldDecoder ρ} {store : ρ → ρ} {k v : Node}
    (hk : (Tree.text name).CarriedBy k) (hv : t.CarriedBy v)
    (hfind : known.find? (·.isNamed name) = some f) (hname : f.name = name)
    (hread : ∀ q n, q.depth = depth → t.CarriedBy n → f.read q n = pure store)
    {seen : List String} (hseen : name ∉ seen) (r : ρ) :
    takeField p depth known (seen, r) (k, v) = pure (name :: seen, store r) := by
  have hkey := textAs_carried hk "field identifier" { p with depth := depth }
  have hnew : seen.contains f.name = false := by simpa [hname] using hseen
  simp only [takeField, hkey, pure_bind, hfind, hnew, Bool.false_eq_true, if_false]
  rw [hread _ v rfl hv, pure_bind, hname]

/-- The fields of a record are read one after the other; none is there twice. -/
theorem FillsAll.foldlM {p : Place} {names : List String} {parts : List (List (String × Tree))}
    {store : ρ → ρ} (h : FillsAll known depth names parts store) (hnames : names.Nodup)
    {es : List (Node × Node)} (hes : List.Forall₂ Tree.FieldCarriedBy parts.flatten es)
    {seen : List String} (hseen : ∀ name ∈ names, name ∉ seen) (r : ρ) :
    ∃ seen', es.foldlM (takeField p depth known) (seen, r) = pure (seen', store r) := by
  induction h generalizing es seen r with
  | nil =>
    cases hes
    exact ⟨seen, rfl⟩
  | @cons name names part parts store rest hpart hparts ih =>
    obtain ⟨hname, hnames⟩ := List.nodup_cons.1 hnames
    obtain ⟨hfirst, hseen⟩ := List.forall_mem_cons.1 hseen
    cases hpart with
    | omitted => exact ih hnames hes hseen r
    | @written t f _ hfind hfield hread =>
      cases hes with
      | @cons _ e _ es he hes =>
        cases he with
        | @mk _ _ k v hk hv =>
          have hlater : ∀ name' ∈ names, name' ∉ name :: seen := by
            intro name' hmem hcons
            rcases List.mem_cons.1 hcons with rfl | hold
            · exact hname hmem
            · exact hseen name' hmem hold
          obtain ⟨seen', hrest⟩ := ih hnames hes hlater (store r)
          refine ⟨seen', ?_⟩
          rw [List.foldlM_cons, takeField_carried hk hv hfind hfield hread hfirst, pure_bind, hrest]
          rfl

theorem record_carried {p : Place} {names : List String} {parts : List (List (String × Tree))}
    {store : ρ → ρ} {n : Node} (hn : (Module.fieldsOf parts).CarriedBy n) (hp : 0 < p.depth)
    (h : FillsAll known (p.depth - 1) names parts store) (hnames : names.Nodup) (title : String)
    (initial : ρ) : record title known initial p n = pure (store initial) := by
  cases hn with
  | scalar hv => cases hv
  | record hes =>
    simp only [Decode.record, resolve, pure_bind]
    rw [descend_enter hp, fields_eq_foldlM]
    obtain ⟨seen, hfold⟩ := h.foldlM hnames hes (fun _ _ => List.not_mem_nil) initial
    rw [hfold, map_pure]

section Fields

variable {decoder : Decoder α} {store : α → ρ → ρ}
  (hfind : known.find? (·.isNamed name) = some (field name decoder store))

include hfind

theorem fills_always {t : Tree} {a : α}
    (hread : ∀ q n, q.depth = depth → t.CarriedBy n → decoder q n = pure a) :
    Fills known depth name (Module.always name t) (store a) := by
  refine .written hfind rfl fun q n hq hn => ?_
  change store <$> decoder q n = pure (store a)
  rw [hread q n hq hn, map_pure]

theorem fills_unless {t : Tree} {a : α} (empty : Bool)
    (hread : ∀ q n, q.depth = depth → t.CarriedBy n → decoder q n = pure a) :
    Fills known depth name (if empty then [] else Module.always name t)
      (if empty then id else store a) := by
  cases empty with
  | true => exact .omitted
  | false => exact fills_always hfind hread

theorem fills_listed {toTree : β → Tree} {xs : List β} {a : α}
    (hread : ∀ q n, q.depth = depth → (Tree.list (xs.map toTree)).CarriedBy n → decoder q n = pure a) :
    Fills known depth name (Module.listed name xs toTree) (if xs.isEmpty then id else store a) :=
  fills_unless hfind xs.isEmpty hread

theorem fills_tabled {toTree : β → Tree} {m : SortedMap β} {a : α}
    (hread : ∀ q n, q.depth = depth → (Module.tableTree m toTree).CarriedBy n →
      decoder q n = pure a) :
    Fills known depth name (Module.tabled name m toTree) (if m.isEmpty then id else store a) :=
  fills_unless hfind m.isEmpty hread

theorem fills_present {toTree : β → Tree} {x : Option β} {g : β → α}
    (hread : ∀ b q n, q.depth = depth → (toTree b).CarriedBy n → decoder q n = pure (g b)) :
    Fills known depth name (Module.present name x toTree) (x.elim id fun b => store (g b)) := by
  cases x with
  | none => exact .omitted
  | some b => exact fills_always hfind (hread b)

end Fields

end Records

end Decode

end ModuleCompiler
