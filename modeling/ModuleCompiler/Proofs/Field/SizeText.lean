import ModuleCompiler.Decode.Value
import ModuleCompiler.Proofs.Decode.Untyped
import ModuleCompiler.Proofs.Field.DurationText
import ModuleCompiler.Proofs.Number.Exact
import ModuleCompiler.Proofs.Number.Literal
import ModuleCompiler.Proofs.Text.Letters

/-!
Sizes in bytes as text: a whole number with a unit is read without loss, up to the largest size, and
what is no positive number with a unit is refused.
-/

namespace ModuleCompiler

section Units

/-- The letters of the units and their powers of 1024. -/
def sizeLetters : List (Char × Nat) :=
  [('K', 1), ('M', 2), ('G', 3), ('T', 4), ('P', 5), ('E', 6)]

/-- The units in upper case: a byte, and its multiples by a letter alone or followed by that of the
byte. -/
inductive IsSizeUnit : List Char → Nat → Prop
  | byte : IsSizeUnit ['B'] 0
  | letter {c : Char} {k : Nat} : (c, k) ∈ sizeLetters → IsSizeUnit [c] k
  | short {c : Char} {k : Nat} : (c, k) ∈ sizeLetters → IsSizeUnit [c, 'B'] k
  | long {c : Char} {k : Nat} : (c, k) ∈ sizeLetters → IsSizeUnit [c, 'I', 'B'] k

theorem isSizeUnit_of_sizeUnitPower? {unit : String} {k : Nat} (h : sizeUnitPower? unit = some k) :
    IsSizeUnit unit.toList k := by
  unfold sizeUnitPower? at h
  split at h <;> cases h
  case h_1 => exact .byte
  case h_2 | h_5 | h_8 | h_11 | h_14 | h_17 => exact .letter (by decide)
  case h_3 | h_6 | h_9 | h_12 | h_15 | h_18 => exact .short (by decide)
  case h_4 | h_7 | h_10 | h_13 | h_16 | h_19 => exact .long (by decide)

theorem sizeUnitPower?_of_letter : ∀ e ∈ sizeLetters,
    sizeUnitPower? (String.ofList [e.1]) = some e.2 ∧
      sizeUnitPower? (String.ofList [e.1, 'B']) = some e.2 ∧
      sizeUnitPower? (String.ofList [e.1, 'I', 'B']) = some e.2 := by
  decide

theorem sizeUnitPower?_eq_some_iff {cs : List Char} {k : Nat} :
    sizeUnitPower? (String.ofList cs) = some k ↔ IsSizeUnit cs k := by
  constructor
  · intro h
    simpa using isSizeUnit_of_sizeUnitPower? h
  · intro h
    cases h with
    | byte => decide
    | letter hc => exact (sizeUnitPower?_of_letter _ hc).1
    | short hc => exact (sizeUnitPower?_of_letter _ hc).2.1
    | long hc => exact (sizeUnitPower?_of_letter _ hc).2.2

end Units

section Numbers

variable {cs : List Char}

inductive IsMantissa : List Char → Nat → Prop
  | whole {ds : List Char} {n : Nat} : AreDigits ds n → IsMantissa ds n
  | pointed {ds es : List Char} {n : Nat} : AreDigits (ds ++ es) n → IsMantissa (ds ++ '.' :: es) n

/-- Digits with at most one point among or around them, not all of them zero, and perhaps a plus in
front. -/
inductive IsPositiveNumber : List Char → Prop
  | unsigned {cs : List Char} {n : Nat} : IsMantissa cs n → 0 < n → IsPositiveNumber cs
  | plus {cs : List Char} {n : Nat} : IsMantissa cs n → 0 < n → IsPositiveNumber ('+' :: cs)

theorem isDigit_of_mem_takeWhile {c : Char} (h : c ∈ cs.takeWhile Char.isDigit) :
    c.isDigit = true :=
  List.all_eq_true.1 List.all_takeWhile c h

theorem areDigits_self {ds : List Char} (hne : ds ≠ []) (hds : ∀ c ∈ ds, c.isDigit = true) :
    AreDigits ds (naturalOf ds) := by
  have hself : AreDigits ds (Nat.ofDigitChars 10 ds 0) := ⟨hne, hds, rfl⟩
  exact hself.naturalOf ▸ hself

theorem readMantissa?_eq_some {ds rest : List Char} {places : Nat}
    (h : readMantissa? cs = some (ds, places, rest)) :
    ∃ front, cs = front ++ rest ∧ IsMantissa front (naturalOf ds) := by
  unfold readMantissa? spanDigits at h
  dsimp only at h
  have hcs := List.takeWhile_append_dropWhile (p := Char.isDigit) (l := cs)
  split at h
  · rename_i rest' hpoint
    rw [hpoint] at hcs
    have hrest := List.takeWhile_append_dropWhile (p := Char.isDigit) (l := rest')
    split at h
    · cases h
    · rename_i hne
      cases h
      refine ⟨cs.takeWhile Char.isDigit ++ '.' :: rest'.takeWhile Char.isDigit, ?_, ?_⟩
      · rw [List.append_assoc, List.cons_append, hrest, hcs]
      · refine .pointed (areDigits_self (by simpa using hne) fun c hc => ?_)
        rcases List.mem_append.1 hc with hc | hc <;> exact isDigit_of_mem_takeWhile hc
  · split at h
    · cases h
    · rename_i hne
      cases h
      exact ⟨_, hcs.symm, .whole (areDigits_self (by simpa using hne) fun _ =>
        isDigit_of_mem_takeWhile)⟩

theorem toLower_of_no_letter {c : Char} (h : isAlphabetic c = false) : c.toLower = c := by
  have hupper : ¬ (c.val ≥ 'A'.val ∧ c.val ≤ 'Z'.val) := by
    rintro ⟨hge, hle⟩
    have hge : 65 ≤ c.toNat := UInt32.le_iff_toNat_le.1 hge
    have hle : c.toNat ≤ 90 := UInt32.le_iff_toNat_le.1 hle
    have hletter := (isAlphabetic_of_isAlpha (isAlpha_iff_toNat.2 (.inl ⟨hge, hle⟩))).2
    rw [h] at hletter
    cases hletter
  exact dif_neg hupper

/-- Without letters there is neither a word nor an exponent. -/
theorem readMagnitude?_of_no_letters (hcs : ∀ c ∈ cs, isAlphabetic c = false)
    {f : BinaryFloat.Format} {negative : Bool} {x : BinaryFloat}
    (h : readMagnitude? f negative cs = some x) :
    ∃ n places, IsMantissa cs n ∧ x = .ofScientific f negative n places := by
  have hlower : cs.map Char.toLower = cs :=
    calc cs.map Char.toLower = cs.map id :=
          List.map_congr_left fun c hc => toLower_of_no_letter (hcs c hc)
      _ = cs := List.map_id cs
  have hword : ∀ w : String, 'n' ∈ w.toList → String.ofList (cs.map Char.toLower) ≠ w := by
    rintro _ hn rfl
    rw [String.toList_ofList, hlower] at hn
    cases hcs 'n' hn
  unfold readMagnitude? at h
  simp only [hword "inf" (by decide), hword "infinity" (by decide), hword "nan" (by decide), or_self,
    if_false, Option.bind_eq_bind, Option.bind_eq_some_iff] at h
  obtain ⟨⟨ds, places, rest⟩, hmantissa, e, hexponent, hx⟩ := h
  obtain ⟨front, rfl, hfront⟩ := readMantissa?_eq_some hmantissa
  cases rest with
  | nil =>
    rw [List.append_nil]
    exact ⟨_, _, hfront, (Option.some.inj hx).symm⟩
  | cons c rest =>
    dsimp only [readExponent?] at hexponent
    split at hexponent
    · rename_i he
      have hc := hcs c (by simp)
      rcases he with rfl | rfl <;> cases hc
    · cases hexponent

theorem isPositive_ofScientific {f : BinaryFloat.Format} {negative : Bool} {n : Nat} {e : Int}
    (h : (BinaryFloat.ofScientific f negative n e).isPositive = true) : negative = false ∧ 0 < n := by
  unfold BinaryFloat.ofScientific BinaryFloat.ofRatio at h
  dsimp only at h
  split at h
  · simp [BinaryFloat.isPositive] at h
  · rename_i hn
    refine ⟨?_, Nat.pos_of_ne_zero hn⟩
    split at h
    · simpa [BinaryFloat.isPositive] using h
    · split at h
      · simp [BinaryFloat.isPositive] at h
      · split at h
        · simp [BinaryFloat.isPositive] at h
        · split at h
          · simpa [BinaryFloat.isPositive] using h
          · simp only [BinaryFloat.isPositive, Bool.and_eq_true, Bool.not_eq_true'] at h
            exact h.1

theorem isPositiveNumber_of_read (hcs : ∀ c ∈ cs, isAlphabetic c = false) {x : BinaryFloat}
    (h : readDouble? cs = some x) (hx : x.isPositive = true) : IsPositiveNumber cs := by
  have hread : ∀ {ds : List Char} {negative : Bool}, (∀ c ∈ ds, isAlphabetic c = false) →
      readMagnitude? .double negative ds = some x →
        negative = false ∧ ∃ n, 0 < n ∧ IsMantissa ds n := by
    intro ds negative hds hmagnitude
    obtain ⟨n, places, hmantissa, rfl⟩ := readMagnitude?_of_no_letters hds hmagnitude
    obtain ⟨hsign, hn⟩ := isPositive_ofScientific hx
    exact ⟨hsign, n, hn, hmantissa⟩
  unfold readDouble? readReal? at h
  split at h
  · obtain ⟨-, n, hn, hmantissa⟩ := hread (fun c hc => hcs c (List.mem_cons_of_mem _ hc)) h
    exact .plus hmantissa hn
  · cases (hread (fun c hc => hcs c (List.mem_cons_of_mem _ hc)) h).1
  · obtain ⟨-, n, hn, hmantissa⟩ := hread hcs h
    exact .unsigned hmantissa hn

end Numbers

section Sizes

variable {s : String} {front back : List Char} {c : Char}

theorem parseByteSize_of_no_letters (h : ∀ c ∈ s.toList, isAlphabetic c = false) :
    parseByteSize s = .error (.noUnit s) := by
  have htrim : ∀ c ∈ trim s.toList, isAlphabetic c = false := fun c hc => h c (mem_of_mem_trim hc)
  have hnone : (trim s.toList).dropWhile (!isAlphabetic ·) = [] :=
    List.dropWhile_eq_nil_iff.2 fun c hc => by simp [htrim c hc]
  simp only [parseByteSize, upperText_of_no_letters htrim, hnone, List.isEmpty_nil, if_true]

/-- The first letter parts the number from the unit, before and after the case is changed. -/
theorem parseByteSize_of_split (hs : s.toList = front ++ c :: back)
    (hfront : ∀ d ∈ front, isAlphabetic d = false) (hc : isAlphabetic c = true) :
    parseByteSize s =
      match readDouble? (trim front) with
      | none => .error (.notPositive s)
      | some x =>
        if !x.isPositive then .error (.notPositive s)
        else
          match sizeUnitPower? (String.ofList (upperText (trimEnd (c :: back)))) with
          | none => .error (.unknownUnit s (String.ofList (upperText (trimEnd (c :: back)))))
          | some k => .ok (x.scaledFloor maxByteSize (10 * k)).toUInt64 := by
  have hnumber : ∀ d ∈ front.dropWhile isBlank, isAlphabetic d = false := fun d hd =>
    hfront d ((List.dropWhile_sublist _).subset hd)
  have hblank : isBlank c = false := isBlank_eq_false_of_isAlphabetic hc
  have hend : trimEnd (c :: back) = c :: trimEnd back := trimEnd_append_cons [] hblank back
  obtain ⟨d, ds, hupper, hd⟩ := upperText_letter (trimEnd back) hc
  have htext : upperText (trim s.toList) = front.dropWhile isBlank ++ d :: ds := by
    rw [hs, trim_append_cons _ hblank, upperText_append, upperText_of_no_letters hnumber, hupper]
  have hnot : ∀ d ∈ front.dropWhile isBlank, (!isAlphabetic d) = true := fun d hd => by
    simp [hnumber d hd]
  have htake : (front.dropWhile isBlank ++ d :: ds).takeWhile (!isAlphabetic ·) =
      front.dropWhile isBlank := by
    rw [List.takeWhile_append_of_pos hnot, List.takeWhile_cons_of_neg (by simp [hd]),
      List.append_nil]
  have hdrop : (front.dropWhile isBlank ++ d :: ds).dropWhile (!isAlphabetic ·) = d :: ds := by
    rw [List.dropWhile_append_of_pos hnot, List.dropWhile_cons_of_neg (by simp [hd])]
  simp only [parseByteSize, htext, htake, hdrop, hend, hupper, trim_dropWhile]
  rfl

/-- A whole number and its unit, in any case, with white space around and between them. -/
inductive IsSizeText : List Char → Nat → Nat → Prop
  | mk {before ds between unit after : List Char} {n k : Nat} : (∀ c ∈ before, isBlank c = true) →
      AreDigits ds n → (∀ c ∈ between, isBlank c = true) → IsSizeUnit (unit.map Char.toUpper) k →
      (∀ c ∈ after, isBlank c = true) → IsSizeText (before ++ ds ++ between ++ unit ++ after) n k

theorem isAlpha_of_toUpper (h : c.toUpper.isAlpha = true) : c.isAlpha = true := by
  by_cases hlower : c.val ≥ 'a'.val ∧ c.val ≤ 'z'.val
  · have hge : 97 ≤ c.toNat := UInt32.le_iff_toNat_le.1 hlower.1
    have hle : c.toNat ≤ 122 := UInt32.le_iff_toNat_le.1 hlower.2
    exact isAlpha_iff_toNat.2 (.inr ⟨hge, hle⟩)
  · have hself : c.toUpper = c := dif_neg hlower
    rwa [hself] at h

theorem IsSizeUnit.isAlpha {cs : List Char} {k : Nat} (h : IsSizeUnit cs k) :
    cs ≠ [] ∧ ∀ c ∈ cs, c.isAlpha = true := by
  have hletters : ∀ e ∈ sizeLetters, e.1.isAlpha = true := by decide
  have hb : 'B'.isAlpha = true := by decide
  have hi : 'I'.isAlpha = true := by decide
  cases h with
  | byte => simp [hb]
  | letter hc => simp [hletters _ hc]
  | short hc => simp [hletters _ hc, hb]
  | long hc => simp [hletters _ hc, hb, hi]

theorem toNat_sized (n k : Nat) :
    (min (n * 2 ^ (10 * k)) maxByteSize).toUInt64.toNat = min (n * 1024 ^ k) (2 ^ 64 - 1) := by
  have hpow : (2 : Nat) ^ (10 * k) = 1024 ^ k := Nat.pow_mul 2 10 k
  have hmax : maxByteSize = 2 ^ 64 - 1 := rfl
  rw [hpow, hmax]
  exact UInt64.toNat_ofNat_of_lt' (by
    have hle := Nat.min_le_right (n * 1024 ^ k) (2 ^ 64 - 1)
    have hsize : UInt64.size = 2 ^ 64 := rfl
    omega)

theorem readDouble?_natural {ds : List Char} {n : Nat} (h : AreDigits ds n) :
    readDouble? ds = some (.ofScientific .double false n 0) :=
  Yaml.ScalarText.readReal?_digits h .double

theorem IsSizeText.parse {cs : List Char} {n k : Nat} (h : IsSizeText cs n k) (hs : s.toList = cs)
    (hpos : 0 < n) (hn : n < 2 ^ 53) :
    ∃ size, parseByteSize s = .ok size ∧ size.toNat = min (n * 1024 ^ k) (2 ^ 64 - 1) := by
  obtain ⟨hbefore, hds, hbetween, hunit, hafter⟩ := h
  rename_i before ds between unit after
  obtain ⟨hne, halpha⟩ := hunit.isAlpha
  have hletters : ∀ c ∈ unit, c.toNat < 128 ∧ isAlphabetic c = true := fun c hc =>
    isAlphabetic_of_isAlpha (isAlpha_of_toUpper (halpha _ (List.mem_map_of_mem hc)))
  have hfront : ∀ d ∈ before ++ ds ++ between, isAlphabetic d = false := by
    intro d hd
    rcases List.mem_append.1 hd with hd | hd
    · rcases List.mem_append.1 hd with hd | hd
      · exact isAlphabetic_eq_false_of_isBlank (hbefore d hd)
      · exact isAlphabetic_eq_false_of_isDigit (hds.digits d hd)
    · exact isAlphabetic_eq_false_of_isBlank (hbetween d hd)
  have hnumber : trim (before ++ ds ++ between) = ds :=
    trim_of_no_blanks (fun d hd => Duration.isBlank_eq_false_of_isDigit (hds.digits d hd)) hbefore
      hbetween
  have htrim : trimEnd (unit ++ after) = unit := by
    rw [trimEnd_append_blank _ hafter, trimEnd_of_no_blanks fun c hc =>
      isBlank_eq_false_of_isAlphabetic (hletters c hc).2]
  have hupper : upperText unit = unit.map Char.toUpper := upperText_ascii fun c hc => (hletters c hc).1
  obtain ⟨c, us, rfl⟩ : ∃ c us, unit = c :: us :=
    List.exists_cons_of_ne_nil fun hnil => hne (by rw [hnil]; rfl)
  have hsplit : s.toList = before ++ ds ++ between ++ c :: (us ++ after) := by
    rw [hs, List.append_assoc _ (c :: us), List.cons_append]
  refine ⟨(min (n * 2 ^ (10 * k)) maxByteSize).toUInt64, ?_, toNat_sized n k⟩
  rw [parseByteSize_of_split hsplit hfront (hletters c List.mem_cons_self).2, hnumber,
    readDouble?_natural hds, ← List.cons_append, htrim, hupper]
  dsimp only
  rw [sizeUnitPower?_eq_some_iff.2 hunit, BinaryFloat.isPositive_natural hpos hn]
  dsimp only
  rw [if_neg (by decide), BinaryFloat.scaledFloor_natural _ _ hpos hn]

theorem parseByteSize_of_not_positive (hs : s.toList = front ++ c :: back)
    (hfront : ∀ d ∈ front, isAlphabetic d = false) (hc : isAlphabetic c = true)
    (h : ¬ IsPositiveNumber (trim front)) : parseByteSize s = .error (.notPositive s) := by
  have hnumber : ∀ d ∈ trim front, isAlphabetic d = false := fun d hd => hfront d (mem_of_mem_trim hd)
  rw [parseByteSize_of_split hs hfront hc]
  cases hread : readDouble? (trim front) with
  | none => rfl
  | some x =>
    cases hx : x.isPositive with
    | false => simp [hx]
    | true => exact absurd (isPositiveNumber_of_read hnumber hread hx) h

theorem parseByteSize_of_not_unit (hs : s.toList = front ++ c :: back)
    (hfront : ∀ d ∈ front, isAlphabetic d = false) (hc : isAlphabetic c = true)
    (h : ∀ k, ¬ IsSizeUnit (upperText (trimEnd (c :: back))) k) : ∃ e, parseByteSize s = .error e := by
  have hunit : sizeUnitPower? (String.ofList (upperText (trimEnd (c :: back)))) = none :=
    Option.eq_none_iff_forall_ne_some.2 fun k hk => h k (sizeUnitPower?_eq_some_iff.1 hk)
  rw [parseByteSize_of_split hs hfront hc]
  cases readDouble? (trim front) with
  | none => exact ⟨_, rfl⟩
  | some x =>
    dsimp only
    rw [hunit]
    split
    · exact ⟨_, rfl⟩
    · exact ⟨_, rfl⟩

/-- A size may be given as a number, too. -/
theorem byteSizeDecoder_text {p : Decode.Place} {number text : Yaml.Scalar} {size : UInt64}
    {minus : Bool} (hnumber : number.tag.bind Yaml.Tag.variant? = none)
    (htext : text.tag.bind Yaml.Tag.variant? = none)
    (hn : number.value = .ok (.integer size.toNat minus)) (hs : text.value = .ok (.text s))
    (h : parseByteSize s = .ok size) :
    byteSizeDecoder p (.scalar text) = byteSizeDecoder p (.scalar number) := by
  have hfits : 0 ≤ (size.toNat : Int) ∧ (size.toNat : Int).toNat < wordBound 64 :=
    ⟨Int.natCast_nonneg _, size.toNat_lt⟩
  have hsize : (size.toNat : Int).toNat.toUInt64 = size := by simp
  rw [byteSizeDecoder, Decode.untyped_scalar htext hs, Decode.untyped_scalar hnumber hn]
  dsimp only
  rw [h, if_pos hfits, hsize]

/-- A whole number with a unit is read as it is, up to the largest size, and like a number of bytes
where it has the unit of a byte. No other text is read but one of a positive number and a unit. -/
theorem parseByteSize_exact (s : String) :
    (∀ n k, IsSizeText s.toList n k → 1 ≤ n → n < 2 ^ 53 →
      ∃ size, parseByteSize s = .ok size ∧ size.toNat = min (n * 1024 ^ k) (2 ^ 64 - 1) ∧
        (k = 0 → ∀ (p : Decode.Place) (number text : Yaml.Scalar) (minus : Bool),
          number.tag.bind Yaml.Tag.variant? = none → text.tag.bind Yaml.Tag.variant? = none →
          number.value = .ok (.integer n minus) → text.value = .ok (.text s) →
          byteSizeDecoder p (.scalar text) = byteSizeDecoder p (.scalar number))) ∧
    ((∀ c ∈ s.toList, isAlphabetic c = false) → parseByteSize s = .error (.noUnit s)) ∧
    ∀ front c back, s.toList = front ++ c :: back → (∀ d ∈ front, isAlphabetic d = false) →
      isAlphabetic c = true →
        ((∀ k, ¬ IsSizeUnit (upperText (trimEnd (c :: back))) k) → ∃ e, parseByteSize s = .error e) ∧
        (¬ IsPositiveNumber (trim front) → parseByteSize s = .error (.notPositive s)) := by
  refine ⟨fun n k h hpos hn => ?_, parseByteSize_of_no_letters, fun front c back hs hfront hc =>
    ⟨parseByteSize_of_not_unit hs hfront hc, parseByteSize_of_not_positive hs hfront hc⟩⟩
  obtain ⟨size, hsize, hvalue⟩ := h.parse rfl hpos hn
  refine ⟨size, hsize, hvalue, ?_⟩
  rintro rfl p number text minus htag htag' hnumber htext
  have hbytes : size.toNat = n := by
    rw [hvalue, Nat.pow_zero, Nat.mul_one]
    omega
  exact byteSizeDecoder_text htag htag' (by rw [hbytes, hnumber]) htext hsize

/-- Sixteen of the largest unit are one byte too many, fifteen are not. -/
theorem parseByteSize_exact_largest :
    (∃ size, parseByteSize " 016 eIb" = .ok size ∧ size.toNat = 2 ^ 64 - 1) ∧
      (∃ size, parseByteSize "15E" = .ok size ∧ size.toNat = 15 * 1024 ^ 6) ∧
      parseByteSize "0K" = .error (.notPositive "0K") := by
  have hblank : ∀ c ∈ [' '], isBlank c = true := List.forall_mem_singleton.2 (by decide)
  have hnone : ∀ c ∈ ([] : List Char), isBlank c = true := List.forall_mem_nil _
  have hdigits : AreDigits ['0', '1', '6'] 16 := ⟨by decide, List.all_eq_true.1 (by decide), by decide⟩
  have hdigits' : AreDigits ['1', '5'] 15 := ⟨by decide, List.all_eq_true.1 (by decide), by decide⟩
  have hsixteen : IsSizeText " 016 eIb".toList 16 6 :=
    @IsSizeText.mk [' '] ['0', '1', '6'] [' '] ['e', 'I', 'b'] [] 16 6 hblank hdigits hblank
      (.long (by decide)) hnone
  have hfifteen : IsSizeText "15E".toList 15 6 :=
    @IsSizeText.mk [] ['1', '5'] [] ['E'] [] 15 6 hnone hdigits' hnone (.letter (by decide)) hnone
  have hzero : ¬ IsPositiveNumber (trim ['0']) := by
    have htrim : trim ['0'] = ['0'] := by decide
    have hmantissa : ∀ n, IsMantissa ['0'] n → n = 0 := by
      intro n h
      generalize hcs : ['0'] = cs at h
      cases h with
      | whole h => exact h.value.symm.trans (by rw [← hcs]; decide)
      | @pointed ds es n h =>
        have hpoint : '.' ∈ ['0'] := by rw [hcs]; simp
        simp at hpoint
    rw [htrim]
    intro h
    generalize hcs : ['0'] = cs at h
    cases h with
    | unsigned h hn => exact absurd (hmantissa _ (hcs ▸ h)) (Nat.ne_of_gt hn)
    | plus h hn => cases hcs
  obtain ⟨size, hsize, hvalue, -⟩ := (parseByteSize_exact " 016 eIb").1 16 6 hsixteen (by decide)
    (by decide)
  obtain ⟨size', hsize', hvalue', -⟩ := (parseByteSize_exact "15E").1 15 6 hfifteen (by decide)
    (by decide)
  have hletters : ∀ c ∈ ['0'], isAlphabetic c = false := List.forall_mem_singleton.2 (by decide)
  exact ⟨⟨size, hsize, hvalue.trans (by decide)⟩, ⟨size', hsize', hvalue'.trans (by decide)⟩,
    ((parseByteSize_exact "0K").2.2 ['0'] 'K' [] (by decide) hletters (by decide)).2 hzero⟩

end Sizes

end ModuleCompiler
