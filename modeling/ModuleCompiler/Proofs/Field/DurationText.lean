import ModuleCompiler.Field.Duration

/-!
The text of a span of time reads back as that span. Its parts are cut at the blanks between them,
a part at the end of its digits, and the parts add up to the whole.
-/

namespace ModuleCompiler.Duration

theorem ofName?_unitName (n : Nat) (u : TimeUnit) : TimeUnit.ofName? (unitName n u) = some u := by
  by_cases hn : 1 < n <;> cases u <;>
    simp only [unitName, unitName.plural, hn, if_true, if_false] <;> decide

theorem unitName_all (n : Nat) (u : TimeUnit) : (unitName n u).toList ≠ [] ∧
    (unitName n u).toList.all (fun c => isUnitChar c && !c.isDigit && !isBlank c) = true := by
  by_cases hn : 1 < n <;> cases u <;>
    simp only [unitName, unitName.plural, hn, if_true, if_false] <;> decide

theorem unitName_chars (n : Nat) (u : TimeUnit) : (unitName n u).toList ≠ [] ∧
    ∀ c ∈ (unitName n u).toList, isUnitChar c = true ∧ c.isDigit = false ∧ isBlank c = false := by
  obtain ⟨hne, hall⟩ := unitName_all n u
  refine ⟨hne, fun c hc => ?_⟩
  have hchar := List.all_eq_true.1 hall c hc
  simp only [Bool.and_eq_true, Bool.not_eq_true'] at hchar
  exact ⟨hchar.1.1, hchar.1.2, hchar.2⟩

theorem isBlank_eq_false_of_isDigit {c : Char} (h : c.isDigit = true) : isBlank c = false := by
  have hd : 48 ≤ c.toNat ∧ c.toNat ≤ 57 := by simpa [Char.isDigit, UInt32.le_iff_toNat_le] using h
  simp only [isBlank, Bool.or_eq_false_iff, Bool.and_eq_false_iff, decide_eq_false_iff_not]
  omega

section Parts

/-- A count of a unit as it is written. -/
def partText (p : TimeUnit × Nat) : List Char :=
  Nat.toDigits 10 p.2 ++ (unitName p.2 p.1).toList

/-- Further parts, each after a blank. -/
def partsText (ps : List (TimeUnit × Nat)) : List Char := ps.flatMap fun p => ' ' :: partText p

def total (size : TimeUnit → Nat) : List (TimeUnit × Nat) → Nat
  | [] => 0
  | p :: ps => p.2 * size p.1 + total size ps

theorem digits_ne_nil (n : Nat) : ∃ c cs, Nat.toDigits 10 n = c :: cs :=
  List.exists_cons_of_ne_nil Nat.toDigits_ne_nil

theorem isDigit_of_mem {n : Nat} {c : Char} (h : c ∈ Nat.toDigits 10 n) : c.isDigit = true :=
  Nat.isDigit_of_mem_toDigits (by decide) (by decide) h

theorem exists_partText (p : TimeUnit × Nat) (cs : List Char) :
    ∃ c ds, partText p ++ cs = c :: ds ∧ c.isDigit = true := by
  obtain ⟨c, ds, hc⟩ := digits_ne_nil p.2
  refine ⟨c, ds ++ (unitName p.2 p.1).toList ++ cs, ?_, isDigit_of_mem (n := p.2) (by simp [hc])⟩
  simp [partText, hc]

theorem digitRun_append {ds cs : List Char} (hd : ∀ c ∈ ds, c.isDigit = true)
    (hc : ∀ c ∈ cs.head?, c.isDigit = false ∧ isBlank c = false) :
    digitRun (ds ++ cs) = (ds, cs) := by
  have hds : ∀ c ∈ ds, (c.isDigit || isBlank c) = true := fun c h => by simp [hd c h]
  have htake : cs.takeWhile (fun c => c.isDigit || isBlank c) = [] := by
    cases cs with
    | nil => rfl
    | cons c cs => simp [hc c rfl]
  have hdrop : cs.dropWhile (fun c => c.isDigit || isBlank c) = cs := by
    cases cs with
    | nil => rfl
    | cons c cs => simp [hc c rfl]
  simp only [digitRun, List.takeWhile_append_of_pos hds, List.dropWhile_append_of_pos hds, htake,
    hdrop, List.append_nil, List.filter_eq_self.2 hd]

theorem readPart?_partText (p : TimeUnit × Nat) (ps : List (TimeUnit × Nat)) :
    readPart? (partText p ++ partsText ps) =
      some (⟨Nat.toDigits 10 p.2, none, (unitName p.2 p.1).toList⟩, partsText ps) := by
  obtain ⟨hne, hname⟩ := unitName_chars p.2 p.1
  obtain ⟨c, name, hcons⟩ := List.exists_cons_of_ne_nil hne
  have hc := hname c (by simp [hcons])
  have hdot : c ≠ '.' := by
    rintro rfl
    exact absurd hc.1 (by decide)
  have hrun : digitRun (partText p ++ partsText ps) =
      (Nat.toDigits 10 p.2, (unitName p.2 p.1).toList ++ partsText ps) := by
    rw [partText, List.append_assoc]
    refine digitRun_append (fun _ => isDigit_of_mem) ?_
    simpa [hcons] using hc.2
  have hunit : ∀ c ∈ (unitName p.2 p.1).toList, isUnitChar c = true := fun c h => (hname c h).1
  have hends : (partsText ps).takeWhile isUnitChar = [] ∧
      (partsText ps).dropWhile isUnitChar = partsText ps := by
    cases ps with
    | nil => exact ⟨rfl, rfl⟩
    | cons q qs =>
      have hblank : isUnitChar ' ' = false := by decide
      simp [partsText, hblank]
  have hnext : (partsText ps).isEmpty ||
      (partsText ps).head?.any (fun c => c.isDigit || isBlank c) := by
    cases ps with
    | nil => rfl
    | cons q qs =>
      have hblank : isBlank ' ' = true := by decide
      simp [partsText, hblank]
  simp only [readPart?, hrun]
  split
  · rename_i hrest
    rw [hcons] at hrest
    exact absurd (List.cons.inj hrest).1 hdot
  · simp only [List.takeWhile_append_of_pos hunit, List.dropWhile_append_of_pos hunit, hends,
      List.append_nil, hnext, if_true]

theorem add?_eq_some {d : Duration} {s ns : Nat} (hs : d.seconds.toNat + s < wordBound 64)
    (hn : d.nanos.val + ns < 1000000000) :
    ∃ e, d.add? s ns = some e ∧ e.seconds.toNat = d.seconds.toNat + s ∧
      e.nanos.val = d.nanos.val + ns := by
  have hdiv : (d.nanos.val + ns) / 1000000000 = 0 := Nat.div_eq_of_lt hn
  have hbound : wordBound 64 = 18446744073709551616 := rfl
  refine ⟨⟨(d.seconds.toNat + s).toUInt64, Fin.ofNat _ (d.nanos.val + ns)⟩, ?_, ?_, ?_⟩
  · have h₁ : bounded? (d.nanos.val + ns) = some (d.nanos.val + ns) := if_pos (by omega)
    have h₂ : bounded? s = some s := if_pos (by omega)
    have h₃ : bounded? (d.seconds.toNat + s) = some (d.seconds.toNat + s) := if_pos (by omega)
    simp only [add?, h₁, hdiv, Nat.add_zero, h₂, h₃, Option.bind_eq_bind, Option.bind_some]
    rfl
  · have hsize : d.seconds.toNat + s < UInt64.size := hs
    exact UInt64.toNat_ofNat_of_lt' hsize
  · exact Nat.mod_eq_of_lt hn

theorem count_le (n : Nat) (u : TimeUnit) : n ≤ n * u.seconds ∨ n ≤ n * u.nanos := by
  cases u <;> simp only [TimeUnit.seconds, TimeUnit.nanos] <;> omega

theorem addPart?_eq_some {d : Duration} {p : TimeUnit × Nat}
    (hs : d.seconds.toNat + p.2 * p.1.seconds < wordBound 64)
    (hn : d.nanos.val + p.2 * p.1.nanos < 1000000000) :
    ∃ e, d.addPart? ⟨Nat.toDigits 10 p.2, none, (unitName p.2 p.1).toList⟩ = some e ∧
      e.seconds.toNat = d.seconds.toNat + p.2 * p.1.seconds ∧
      e.nanos.val = d.nanos.val + p.2 * p.1.nanos := by
  obtain ⟨e, he, hes⟩ := add?_eq_some hs hn
  have hcount := count_le p.2 p.1
  have hbound : wordBound 64 = 18446744073709551616 := rfl
  have hvalue : digitsValue (Nat.toDigits 10 p.2) = p.2 := Nat.ofDigitChars_ten_toDigits
  have h₁ : bounded? p.2 = some p.2 := if_pos (by omega)
  have h₂ : bounded? (p.2 * p.1.seconds) = some (p.2 * p.1.seconds) := if_pos (by omega)
  have h₃ : bounded? (p.2 * p.1.nanos) = some (p.2 * p.1.nanos) := if_pos (by omega)
  refine ⟨e, ?_, hes⟩
  simp only [addPart?, String.ofList_toList, ofName?_unitName, hvalue, h₁, h₂, h₃, he,
    Option.bind_eq_bind, Option.bind_some]
  rfl

/-- Parts that fit a span of time altogether are added up, by induction on them. -/
theorem readParts?_partsText (ps : List (TimeUnit × Nat)) (fuel : Nat) (d : Duration)
    (hfuel : ps.length < fuel) (hs : d.seconds.toNat + total TimeUnit.seconds ps < wordBound 64)
    (hn : d.nanos.val + total TimeUnit.nanos ps < 1000000000) :
    ∃ e, readParts? fuel d (partsText ps) = some e ∧
      e.seconds.toNat = d.seconds.toNat + total TimeUnit.seconds ps ∧
      e.nanos.val = d.nanos.val + total TimeUnit.nanos ps := by
  induction ps generalizing fuel d with
  | nil =>
    obtain ⟨fuel, rfl⟩ := Nat.exists_eq_add_of_lt hfuel
    exact ⟨d, by simp [readParts?, partsText], by simp [total], by simp [total]⟩
  | cons p ps ih =>
    obtain ⟨fuel, rfl⟩ : ∃ f, fuel = f + 1 := ⟨fuel - 1, by simp at hfuel; omega⟩
    simp only [total] at hs hn ⊢
    obtain ⟨d', hd', hds, hdn⟩ := addPart?_eq_some (d := d) (p := p) (by omega) (by omega)
    obtain ⟨e, he, hes, hen⟩ := ih fuel d' (by simpa using hfuel) (by omega) (by omega)
    refine ⟨e, ?_, by omega, by omega⟩
    obtain ⟨c, cs, hc, hdigit⟩ := exists_partText p (partsText ps)
    have hblank : isBlank ' ' = true := by decide
    -- the blank in front of a part is skipped, and the digits after it are not
    have hskip : (partsText (p :: ps)).dropWhile isBlank = partText p ++ partsText ps := by
      have hcons : partsText (p :: ps) = ' ' :: (partText p ++ partsText ps) := rfl
      rw [hcons, List.dropWhile_cons_of_pos hblank, hc, List.dropWhile_cons_of_neg]
      simp [isBlank_eq_false_of_isDigit hdigit]
    have hempty : (partText p ++ partsText ps).isEmpty = false := by simp [hc]
    have hhead : (partText p ++ partsText ps).head?.any Char.isDigit = true := by simp [hc, hdigit]
    simp only [readParts?, hskip, hempty, hhead, readPart?_partText, Option.bind_eq_bind,
      Option.bind_some, hd', he]
    rfl

end Parts

section Counts

/-- The parts that are written: counts that are not zero, or no seconds at all. -/
def parts (d : Duration) : List (TimeUnit × Nat) :=
  if d = zero then [(.second, 0)] else d.counts.filter (·.2 ≠ 0)

theorem total_filter (size : TimeUnit → Nat) (ps : List (TimeUnit × Nat)) :
    total size (ps.filter (·.2 ≠ 0)) = total size ps := by
  induction ps with
  | nil => rfl
  | cons p ps ih =>
    by_cases hn : p.2 = 0
    · rw [List.filter_cons_of_neg (by simpa using hn), ih, total, hn, Nat.zero_mul, Nat.zero_add]
    · rw [List.filter_cons_of_pos (by simpa using hn), total, total, ih]

theorem split_seconds (s : Nat) :
    s / 31557600 * 31557600 + (s % 31557600 / 2630016 * 2630016 +
      (s % 31557600 % 2630016 / 86400 * 86400 +
        (s % 31557600 % 2630016 % 86400 / 3600 * 3600 +
          (s % 31557600 % 2630016 % 86400 % 3600 / 60 * 60 +
            s % 31557600 % 2630016 % 86400 % 60)))) = s := by
  omega

theorem split_nanos (n : Nat) :
    n / 1000000 * 1000000 + (n / 1000 % 1000 * 1000 + n % 1000) = n := by
  omega

theorem total_counts (d : Duration) : total TimeUnit.seconds d.counts = d.seconds.toNat ∧
    total TimeUnit.nanos d.counts = d.nanos.val := by
  simp only [counts, total, TimeUnit.seconds, TimeUnit.nanos, Nat.mul_zero, Nat.mul_one,
    Nat.add_zero, Nat.zero_add]
  exact ⟨split_seconds _, split_nanos _⟩

theorem total_parts (d : Duration) : total TimeUnit.seconds d.parts = d.seconds.toNat ∧
    total TimeUnit.nanos d.parts = d.nanos.val := by
  by_cases hd : d = zero
  · simp [hd, parts, total, zero]
  · simp only [parts, hd, if_false, total_filter]
    exact d.total_counts

theorem intercalate_eq (p : TimeUnit × Nat) (ps : List (TimeUnit × Nat)) :
    [' '].intercalate ((p :: ps).map partText) = partText p ++ partsText ps := by
  induction ps generalizing p with
  | nil => simp [partsText]
  | cons q ps ih =>
    rw [List.map_cons, List.map_cons, List.intercalate_cons_cons, ← List.map_cons, ih]
    simp [partsText]

theorem exists_parts (d : Duration) : ∃ p ps, d.parts = p :: ps := by
  refine List.exists_cons_of_ne_nil fun hnil => ?_
  obtain ⟨hs, hn⟩ := d.total_parts
  simp only [hnil, total] at hs hn
  have hseconds : d.seconds = 0 := UInt64.toNat_inj.1 (by simpa using hs.symm)
  have hnanos : d.nanos = 0 := Fin.ext (by simpa using hn.symm)
  have hd : d = zero := by
    obtain ⟨seconds, nanos⟩ := d
    simp only [zero, mk.injEq]
    exact ⟨hseconds, hnanos⟩
  simp [parts, hd] at hnil

theorem toList_toText {d : Duration} {p : TimeUnit × Nat} {ps : List (TimeUnit × Nat)}
    (h : d.parts = p :: ps) : d.toText.toList = partText p ++ partsText ps := by
  rw [← intercalate_eq, ← h]
  by_cases hd : d = zero
  · subst hd
    rfl
  · simp only [toText, parts, hd, if_false, String.toList_intercalate, List.map_map]
    congr 2
    funext p
    simp [partText]

end Counts

theorem readParts?_blank (fuel : Nat) (d : Duration) (cs : List Char) :
    readParts? fuel d (' ' :: cs) = readParts? fuel d cs := by
  have hblank : isBlank ' ' = true := by decide
  cases fuel with
  | zero => rfl
  | succ fuel => simp only [readParts?, List.dropWhile_cons_of_pos hblank]

theorem length_lt (p : TimeUnit × Nat) (ps : List (TimeUnit × Nat)) :
    ps.length + 1 < (partText p ++ partsText ps).length := by
  have hfirst : 2 ≤ (partText p).length := by
    obtain ⟨c, ds, hc⟩ := digits_ne_nil p.2
    obtain ⟨u, us, hu⟩ := List.exists_cons_of_ne_nil (unitName_chars p.2 p.1).1
    simp only [partText, hc, hu, List.length_append, List.length_cons]
    omega
  have hrest : ps.length ≤ (partsText ps).length := by
    induction ps with
    | nil => exact Nat.zero_le _
    | cons q ps ih =>
      simp only [partsText, List.flatMap_cons, List.length_append, List.length_cons] at ih ⊢
      omega
  rw [List.length_append]
  omega

/-- What is written for a span of time is read as that span. -/
theorem ofText?_toText (d : Duration) : ofText? d.toText = some d := by
  obtain ⟨p, ps, hparts⟩ := d.exists_parts
  have htext := toList_toText hparts
  have hlength := length_lt p ps
  obtain ⟨hs, hn⟩ := hparts ▸ d.total_parts
  have hzero : d.toText ≠ "0" := by
    intro h
    rw [← htext, h] at hlength
    simp at hlength
  have hblank : d.toText.toList.all isBlank = false := by
    obtain ⟨c, cs, hc, hdigit⟩ := exists_partText p (partsText ps)
    simp [htext, hc, isBlank_eq_false_of_isDigit hdigit]
  have hseconds : d.seconds.toNat < wordBound 64 := d.seconds.toNat_lt_size
  obtain ⟨e, he, hes, hen⟩ := readParts?_partsText (p :: ps)
    (d.toText.toList.length + 1) zero (by rw [htext, List.length_cons]; omega)
    (by rw [hs]; simpa [zero] using hseconds) (by rw [hn]; simp [zero])
  have hed : e = d := by
    obtain ⟨seconds, nanos⟩ := d
    obtain ⟨seconds', nanos'⟩ := e
    congr 1
    · exact UInt64.toNat_inj.1 (by simpa [zero, hs] using hes)
    · exact Fin.ext (by simpa [zero, hn] using hen)
  have hread : partsText (p :: ps) = ' ' :: (partText p ++ partsText ps) := rfl
  simp only [ofText?, if_neg hzero, hblank]
  rw [htext] at he ⊢
  rw [← readParts?_blank, ← hread, he, hed]
  rfl

theorem toText_injective {d e : Duration} (h : d.toText = e.toText) : d = e := by
  have hread := congrArg ofText? h
  rw [ofText?_toText, ofText?_toText] at hread
  exact Option.some.inj hread

end ModuleCompiler.Duration
