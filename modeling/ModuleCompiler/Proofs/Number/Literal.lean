import Mathlib.Data.List.TakeWhile
import ModuleCompiler.Proofs.Number.Decimal
import ModuleCompiler.Yaml.ScalarValue

/-!
Whole numbers in decimal notation, as they stand in a document. One that fits a word of 128 bits is
read as it is. A wider one is read as the double next to it, or as text if no double is.
-/

namespace ModuleCompiler

/-- Digits of a number without a zero in front. -/
structure IsNumeral (ds : List Char) (n : Nat) : Prop extends AreDigits ds n where
  leading : ds.head? = some '0' → ds = ['0']

/-- A whole number in decimal notation; the sign is optional. -/
inductive IsLiteral : List Char → Int → Prop
  | unsigned {ds : List Char} {n : Nat} : IsNumeral ds n → IsLiteral ds n
  | plus {ds : List Char} {n : Nat} : IsNumeral ds n → IsLiteral ('+' :: ds) n
  | minus {ds : List Char} {n : Nat} : IsNumeral ds n → IsLiteral ('-' :: ds) (-n)

/-- Fits a word of 128 bits, with or without a sign. -/
def FitsWide (k : Int) : Prop := -Int.ofNat (wordBound 127) ≤ k ∧ k < Int.ofNat (wordBound 128)

instance (k : Int) : Decidable (FitsWide k) := by
  unfold FitsWide
  infer_instance

/-- The double next to a whole number. -/
def BinaryFloat.nextTo (k : Int) : BinaryFloat :=
  .ofScientific .double (decide (k < 0)) k.natAbs 0

section Digits

variable {ds : List Char} {n : Nat}

theorem AreDigits.exists_cons (h : AreDigits ds n) :
    ∃ d ds', ds = d :: ds' ∧ d.isDigit = true := by
  obtain ⟨d, ds', rfl⟩ := List.exists_cons_of_ne_nil h.nonempty
  exact ⟨d, ds', rfl, h.digits d (by simp)⟩

theorem AreDigits.head?_isDigit (h : AreDigits ds n) : ds.head?.any Char.isDigit = true := by
  obtain ⟨d, ds', rfl, hd⟩ := h.exists_cons
  exact hd

theorem foldl_digits (hds : ∀ c ∈ ds, c.isDigit = true) (acc : Nat) :
    ds.foldl (fun acc c => acc.bind fun n => (digitValue? 10 c).map (n * 10 + ·)) (some acc) =
      some (Nat.ofDigitChars 10 ds acc) := by
  induction ds generalizing acc with
  | nil => rfl
  | cons d ds ih =>
    obtain ⟨hd, hds⟩ := List.forall_mem_cons.1 hds
    have hvalue : (digitValue? 10 d).map (acc * 10 + ·) =
        some (10 * acc + (d.toNat - '0'.toNat)) := by
      rw [digitValue?_ten, if_pos hd, Nat.mul_comm]
      rfl
    rw [List.foldl_cons, Option.bind_some, hvalue, ih hds, Nat.ofDigitChars_cons]

theorem AreDigits.naturalOfDigits? (h : AreDigits ds n) : naturalOfDigits? 10 ds = some n := by
  rw [ModuleCompiler.naturalOfDigits?, if_neg (by simpa using h.nonempty), foldl_digits h.digits,
    h.value]

theorem AreDigits.naturalOf (h : AreDigits ds n) : naturalOf ds = n := by
  rw [← h.value, Nat.ofDigitChars_eq_foldl, ModuleCompiler.naturalOf]
  simp only [Nat.mul_comm 10]

theorem AreDigits.spanDigits (h : AreDigits ds n) : spanDigits ds = (ds, []) := by
  rw [ModuleCompiler.spanDigits, List.takeWhile_eq_self_iff.2 h.digits,
    List.dropWhile_eq_nil_iff.2 h.digits]

theorem AreDigits.readMantissa? (h : AreDigits ds n) : readMantissa? ds = some (ds, 0, []) := by
  simp [ModuleCompiler.readMantissa?, h.spanDigits, h.nonempty]

theorem toLower_of_isDigit {c : Char} (h : c.isDigit = true) : c.toLower = c := by
  have hbound := (Char.isDigit_iff_toNat.1 h).2
  have hupper : ¬ (c.val ≥ 'A'.val ∧ c.val ≤ 'Z'.val) := by
    rintro ⟨hle, _⟩
    have hle : 'A'.toNat ≤ c.toNat := UInt32.le_iff_toNat_le.1 hle
    exact absurd (hle.trans hbound) (by decide)
  exact dif_neg hupper

/-- Digits at the front tell a number from the words for what is none. -/
theorem readMagnitude?_of_digits {cs : List Char} {places : Nat} (hcs : cs.head?.any Char.isDigit)
    (h : readMantissa? cs = some (ds, places, [])) (f : BinaryFloat.Format) (negative : Bool) :
    readMagnitude? f negative cs =
      some (.ofScientific f negative (naturalOf ds) (-(places : Int))) := by
  obtain _ | ⟨d, cs⟩ := cs
  · cases hcs
  have hd : d.isDigit = true := hcs
  have hword : ∀ w : String, w.toList.head?.any Char.isDigit = false →
      String.ofList ((d :: cs).map Char.toLower) ≠ w := by
    rintro _ hw rfl
    rw [String.toList_ofList, List.map_cons, toLower_of_isDigit hd] at hw
    cases hd.symm.trans hw
  simp only [readMagnitude?, hword "inf" rfl, hword "infinity" rfl, hword "nan" rfl, or_self,
    if_false, h, readExponent?, Option.bind_eq_bind, Option.bind_some, Int.zero_sub]
  rfl

theorem AreDigits.readMagnitude? (h : AreDigits ds n) (f : BinaryFloat.Format) (negative : Bool) :
    readMagnitude? f negative ds = some (.ofScientific f negative n 0) := by
  rw [readMagnitude?_of_digits h.head?_isDigit h.readMantissa?, h.naturalOf]
  rfl

theorem readReal?_of_digits {cs : List Char} (hcs : cs.head?.any Char.isDigit)
    (f : BinaryFloat.Format) : readReal? f cs = readMagnitude? f false cs := by
  unfold readReal?
  split
  · cases hcs
  · cases hcs
  · rfl

theorem head?_toDigits (n : Nat) (h : (Nat.toDigits 10 n).head? = some '0') : n = 0 := by
  induction n using Nat.strongRecOn with
  | ind n ih =>
    rw [Nat.toDigits_eq_if (by decide)] at h
    split at h
    · rename_i hlt
      have hcases : ∀ d < 10, [Nat.digitChar d].head? = some '0' → d = 0 := by decide
      exact hcases n hlt h
    · rename_i hge
      have hne : Nat.toDigits 10 (n / 10) ≠ [] := Nat.toDigits_ne_nil
      obtain ⟨d, ds, hds⟩ := List.exists_cons_of_ne_nil hne
      rw [hds] at h
      have hzero := ih (n / 10) (by omega) (by rw [hds]; exact h)
      omega

theorem isNumeral_toDigits (n : Nat) : IsNumeral (Nat.toDigits 10 n) n where
  toAreDigits := areDigits_toDigits n
  leading := by
    intro h
    obtain rfl := head?_toDigits n h
    rfl

end Digits

namespace Yaml.ScalarText

section Unsigned

variable {ds : List Char} {n : Nat}

theorem isSigned_digits (h : AreDigits ds n) : isSigned ds = false := by
  obtain ⟨d, ds', rfl, hd⟩ := h.exists_cons
  have hne : ∀ c : Char, c.isDigit = false → d ≠ c := by
    rintro c hc rfl
    cases hd.symm.trans hc
  simp [isSigned, hne '+' rfl, hne '-' rfl]

theorem dropPlus_digits (h : AreDigits ds n) : dropPlus ds = ds := by
  unfold dropPlus
  split
  · exact absurd (h.digits '+' (by simp)) (by decide)
  · rfl

theorem hasLeadingZero_numeral (h : IsNumeral ds n) : hasLeadingZero ds = false := by
  simp only [hasLeadingZero, isSigned_digits h.toAreDigits, Bool.false_eq_true, if_false]
  split
  · cases h.leading rfl
  · rfl

theorem magnitude?_numeral (h : IsNumeral ds n) : magnitude? ds = some n := by
  unfold magnitude?
  split
  · cases h.leading rfl
  · cases h.leading rfl
  · cases h.leading rfl
  · rw [if_neg (by simp [hasLeadingZero_numeral h]), h.naturalOfDigits?]

end Unsigned

section Literals

variable {text : String} {cs : List Char} {k : Int} {n : Nat}

theorem fitsWide_natCast : FitsWide (n : Int) ↔ n < wordBound 128 := by
  have hbound : 0 ≤ Int.ofNat (wordBound 127) := Int.natCast_nonneg _
  simp only [FitsWide, Int.ofNat_eq_natCast] at hbound ⊢
  omega

theorem fitsWide_neg : FitsWide (-(n : Int)) ↔ n ≤ wordBound 127 := by
  have hbound : 0 < Int.ofNat (wordBound 128) := by decide
  simp only [FitsWide, Int.ofNat_eq_natCast] at hbound ⊢
  omega

def isLiteralChar (c : Char) : Bool := c.isDigit || c = '+' || c = '-'

theorem all_literal (h : IsLiteral cs k) : cs.all isLiteralChar = true := by
  have hdigits : ∀ {ds n}, AreDigits ds n → ds.all isLiteralChar = true := fun hds =>
    List.all_eq_true.2 fun c hc => by simp [isLiteralChar, hds.digits c hc]
  cases h with
  | unsigned h => exact hdigits h.toAreDigits
  | plus h => exact List.all_cons.trans (hdigits h.toAreDigits)
  | minus h => exact List.all_cons.trans (hdigits h.toAreDigits)

theorem all_dropPlus (h : IsLiteral cs k) : (dropPlus cs).all isLiteralChar = true := by
  have hall := all_literal h
  unfold dropPlus
  split
  · exact hall
  · exact hall

theorem literal_ne (h : IsLiteral text.toList k) (word : String)
    (hword : word.toList.all isLiteralChar = false) : text ≠ word := by
  rintro rfl
  cases hword.symm.trans (all_literal h)

theorem dropPlus_ne (h : IsLiteral text.toList k) (word : String)
    (hword : word.toList.all isLiteralChar = false) : dropPlus text.toList ≠ word.toList := by
  intro he
  cases hword.symm.trans (he ▸ all_dropPlus h)

theorem literal_ne_nil (h : IsLiteral cs k) : cs ≠ [] := by
  cases h with
  | unsigned h => exact h.nonempty
  | _ => exact List.cons_ne_nil _ _

theorem hasLeadingZero_literal (h : IsLiteral cs k) : hasLeadingZero cs = false := by
  have hsigned : ∀ {c ds}, isSigned (c :: ds) = true → isSigned ds = false →
      hasLeadingZero (c :: ds) = hasLeadingZero ds := by
    intro c ds hc hds
    simp only [hasLeadingZero, hc, hds, if_true, List.drop_one, List.tail_cons, Bool.false_eq_true,
      if_false]
  cases h with
  | unsigned h => exact hasLeadingZero_numeral h
  | plus h =>
    exact (hsigned rfl (isSigned_digits h.toAreDigits)).trans (hasLeadingZero_numeral h)
  | minus h =>
    exact (hsigned rfl (isSigned_digits h.toAreDigits)).trans (hasLeadingZero_numeral h)

/-- Exactly the numbers of a word of 128 bits count as whole numbers. -/
theorem integer?_literal (h : IsLiteral text.toList k) :
    integer? text = if FitsWide k then some k else none := by
  -- digits are bounded alike with a plus and without a sign, but not with a minus
  have hplus : ∀ n, magnitude? (dropPlus text.toList) = some n →
      (natural? text >>= fun n => if n < wordBound 128 then some (n : Int) else none) =
        if FitsWide (n : Int) then some (n : Int) else none := by
    intro n hn
    rw [natural?, hn]
    simp only [fitsWide_natCast]
    rfl
  generalize htext : text.toList = cs at h hplus
  cases h with
  | @unsigned _ n h =>
    unfold integer?
    rw [htext]
    split
    · exact absurd (h.digits '-' (by simp)) (by decide)
    · exact hplus n (by rw [dropPlus_digits h.toAreDigits, magnitude?_numeral h])
  | @plus ds n h =>
    unfold integer?
    rw [htext]
    exact hplus n (magnitude?_numeral h)
  | @minus ds n h =>
    unfold integer?
    rw [htext]
    simp only [magnitude?_numeral h, fitsWide_neg]
    rfl

theorem readReal?_digits {ds : List Char} (h : AreDigits ds n) (f : BinaryFloat.Format) :
    readReal? f ds = some (.ofScientific f false n 0) := by
  rw [readReal?_of_digits h.head?_isDigit, h.readMagnitude?]

theorem nextTo_natCast : BinaryFloat.nextTo n = .ofScientific .double false n 0 := by
  have hsign : ¬ (n : Int) < 0 := by omega
  rw [BinaryFloat.nextTo, decide_eq_false hsign, Int.natAbs_natCast]

theorem nextTo_neg (hn : n ≠ 0) :
    BinaryFloat.nextTo (-(n : Int)) = .ofScientific .double true n 0 := by
  have hsign : -(n : Int) < 0 := by omega
  rw [BinaryFloat.nextTo, decide_eq_true hsign, Int.natAbs_neg, Int.natAbs_natCast]

theorem readDouble?_literal (h : IsLiteral cs k) (hk : k ≠ 0) :
    readDouble? (dropPlus cs) = some (.nextTo k) := by
  cases h with
  | unsigned h =>
    rw [dropPlus_digits h.toAreDigits, nextTo_natCast]
    exact readReal?_digits h.toAreDigits .double
  | plus h =>
    rw [nextTo_natCast]
    exact readReal?_digits h.toAreDigits .double
  | @minus _ n h =>
    have hn : n ≠ 0 := by omega
    rw [nextTo_neg hn]
    exact h.readMagnitude? .double true

theorem float?_literal (h : IsLiteral text.toList k) (hk : k ≠ 0) :
    float? text =
      if (BinaryFloat.nextTo k).isFinite then some (BinaryFloat.nextTo k).toFloat else none := by
  have hsign : ¬ (text.toList.head? = some '+' ∧ isSigned (dropPlus text.toList) = true) := by
    rintro ⟨hhead, hsigned⟩
    generalize text.toList = cs at h hhead hsigned
    cases h with
    | unsigned h =>
      obtain ⟨d, ds', rfl, hd⟩ := h.exists_cons
      obtain rfl := Option.some.inj hhead
      cases hd
    | plus h => exact absurd hsigned (by simp [dropPlus, isSigned_digits h.toAreDigits])
    | minus h => cases hhead
  have hdropped := dropPlus_ne h
  have hne := literal_ne h
  simp only [float?, if_neg hsign, hdropped ".inf" rfl, hdropped ".Inf" rfl, hdropped ".INF" rfl,
    hne "-.inf" rfl, hne "-.Inf" rfl, hne "-.INF" rfl, hne ".nan" rfl, hne ".NaN" rfl,
    hne ".NAN" rfl, or_self, if_false, readDouble?_literal h hk]

/-- A plain scalar of a number is that number if it fits a word of 128 bits. -/
theorem plainValue_literal (h : IsLiteral text.toList k) :
    plainValue text =
      if FitsWide k then .integer k (text.startsWith "-")
      else if (BinaryFloat.nextTo k).isFinite then .float (BinaryFloat.nextTo k).toFloat
      else .text text := by
  have hempty : text ≠ "" := by
    rintro rfl
    exact literal_ne_nil h rfl
  have hne := literal_ne h
  have hnull : isNull text = false := by
    simp [isNull, hne "null" rfl, hne "Null" rfl, hne "NULL" rfl, hne "~" rfl]
  have hbool : bool? text = none := by
    simp only [bool?, hne "true" rfl, hne "True" rfl, hne "TRUE" rfl, hne "false" rfl,
      hne "False" rfl, hne "FALSE" rfl, or_self, if_false]
  have hplain : (text.isEmpty || isNull text) = false := by simp [hempty, hnull]
  simp only [plainValue, hplain, hbool, integer?_literal h, hasLeadingZero_literal h,
    Bool.false_eq_true, if_false]
  by_cases hk : FitsWide k
  · simp only [if_pos hk]
  · have hzero : k ≠ 0 := by
      rintro rfl
      exact hk (by decide)
    simp only [if_neg hk, float?_literal h hzero]
    cases (BinaryFloat.nextTo k).isFinite <;> rfl

end Literals

end Yaml.ScalarText

end ModuleCompiler
