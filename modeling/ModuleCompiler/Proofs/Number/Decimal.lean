import ModuleCompiler.Number.Digits

/-!
Decimal numbers without a sign of their own: which texts are read as one, and as which.
-/

namespace ModuleCompiler

/-- The digits of a number; zeros may stand in front. -/
structure AreDigits (ds : List Char) (n : Nat) : Prop where
  nonempty : ds ≠ []
  digits : ∀ c ∈ ds, c.isDigit = true
  value : Nat.ofDigitChars 10 ds 0 = n

inductive IsDecimal : List Char → Nat → Prop
  | plain {ds : List Char} {n : Nat} : AreDigits ds n → IsDecimal ds n
  | plus {ds : List Char} {n : Nat} : AreDigits ds n → IsDecimal ('+' :: ds) n

theorem areDigits_toDigits (n : Nat) : AreDigits (Nat.toDigits 10 n) n where
  nonempty := Nat.toDigits_ne_nil
  digits := fun _ => Nat.isDigit_of_mem_toDigits (by decide) (by decide)
  value := Nat.ofDigitChars_ten_toDigits

theorem isDecimal_toString (n : Nat) : IsDecimal (toString n).toList n := by
  rw [Nat.toString_eq_ofList_toDigits, String.toList_ofList]
  exact .plain (areDigits_toDigits n)

theorem IsDecimal.not_mem {cs : List Char} {n : Nat} (h : IsDecimal cs n) {c : Char}
    (hc : c.isDigit = false) (hplus : c ≠ '+') : c ∉ cs := by
  have hdigits : ∀ {ds}, AreDigits ds n → c ∉ ds := by
    intro ds hds hmem
    rw [hds.digits c hmem] at hc
    cases hc
  cases h with
  | plain hds => exact hdigits hds
  | plus hds =>
    intro hmem
    rcases List.mem_cons.1 hmem with he | hmem
    · exact hplus he
    · exact hdigits hds hmem

theorem digitValue?_ten (c : Char) :
    digitValue? 10 c = if c.isDigit then some (c.toNat - '0'.toNat) else none := by
  have hdigit : c.isDigit = true ↔ '0' ≤ c ∧ c ≤ '9' := by
    rw [Char.isDigit_iff_toNat, Char.le_def, Char.le_def, UInt32.le_iff_toNat_le,
      UInt32.le_iff_toNat_le]
    rfl
  by_cases hc : '0' ≤ c ∧ c ≤ '9'
  · have hvalue : c.toNat - '0'.toNat < 10 := by
      have hbound := (Char.isDigit_iff_toNat.1 (hdigit.2 hc)).2
      have hnine : '9'.toNat = '0'.toNat + 9 := rfl
      omega
    simp only [digitValue?, if_pos hc, if_pos hvalue, if_pos (hdigit.2 hc)]
  · have hlarge : 10 ≤ (if 'a' ≤ c ∧ c ≤ 'z' then c.toNat - 'a'.toNat + 10
        else if 'A' ≤ c ∧ c ≤ 'Z' then c.toNat - 'A'.toNat + 10 else 10) := by
      split
      · exact Nat.le_add_left 10 _
      · split
        · exact Nat.le_add_left 10 _
        · exact Nat.le_refl 10
    simp only [digitValue?, if_neg hc, if_neg (fun h => hc (hdigit.1 h)),
      if_neg (Nat.not_lt.2 hlarge)]

theorem le_ofDigitChars (ds : List Char) (n : Nat) : n ≤ Nat.ofDigitChars 10 ds n := by
  have hpow : 0 < 10 ^ ds.length := Nat.pow_pos (by decide)
  have hmul := Nat.le_mul_of_pos_left n hpow
  rw [Nat.ofDigitChars_eq_ofDigitChars_zero]
  omega

/-- A number only grows while its digits are read, so it may be given up as soon as it is too
large. -/
theorem readDigits_eq_ok_iff {bound acc n : Nat} (cs : List Char) (hacc : acc ≤ bound) :
    readDigits 10 bound acc cs = .ok n ↔
      (∀ c ∈ cs, c.isDigit = true) ∧ Nat.ofDigitChars 10 cs acc = n ∧ n ≤ bound := by
  induction cs generalizing acc with
  | nil =>
    simp only [readDigits, Except.ok.injEq, List.not_mem_nil, false_imp_iff, implies_true,
      Nat.ofDigitChars_nil, true_and]
    constructor
    · rintro rfl
      exact ⟨rfl, hacc⟩
    · exact fun h => h.1
  | cons c cs ih =>
    simp only [readDigits, digitValue?_ten, List.forall_mem_cons, Nat.ofDigitChars_cons]
    by_cases hc : c.isDigit = true
    · rw [if_pos hc, Nat.mul_comm 10 acc]
      dsimp only
      by_cases hnext : acc * 10 + (c.toNat - '0'.toNat) ≤ bound
      · rw [if_pos hnext, ih hnext]
        simp [hc]
      · rw [if_neg hnext]
        have hgrow := le_ofDigitChars cs (acc * 10 + (c.toNat - '0'.toNat))
        constructor
        · exact nofun
        · rintro ⟨_, rfl, hle⟩
          exact absurd (Nat.le_trans hgrow hle) hnext
    · rw [if_neg hc]
      constructor
      · exact nofun
      · exact fun h => absurd h.1.1 hc

theorem readUnsigned_eq_ok_iff {bound n : Nat} {cs : List Char} :
    readUnsigned 10 bound cs = .ok n ↔ IsDecimal cs n ∧ n ≤ bound := by
  have hplain : ∀ ds, ds ≠ [] → (readDigits 10 bound 0 ds = .ok n ↔ AreDigits ds n ∧ n ≤ bound) := by
    intro ds hne
    rw [readDigits_eq_ok_iff ds (Nat.zero_le bound)]
    exact ⟨fun ⟨hd, hv, hle⟩ => ⟨⟨hne, hd, hv⟩, hle⟩, fun ⟨h, hle⟩ => ⟨h.digits, h.value, hle⟩⟩
  have hsign : ∀ {ds}, ¬ AreDigits ('+' :: ds) n := by
    intro ds h
    have hplus := h.digits '+' (by simp)
    cases hplus
  unfold readUnsigned
  split
  · constructor
    · exact nofun
    · rintro ⟨h, _⟩
      cases h with
      | plain h => exact absurd rfl h.nonempty
  · constructor
    · exact nofun
    · rintro ⟨h, _⟩
      cases h with
      | plain h => exact absurd h hsign
      | plus h => exact absurd rfl h.nonempty
  · rename_i ds hne
    rw [hplain ds (fun he => hne (by rw [he]))]
    constructor
    · exact fun h => ⟨.plus h.1, h.2⟩
    · rintro ⟨h, hle⟩
      cases h with
      | plain h => exact absurd h hsign
      | plus h => exact ⟨h, hle⟩
  · rename_i hnil hone hplus
    rw [hplain _ hnil]
    constructor
    · exact fun h => ⟨.plain h.1, h.2⟩
    · rintro ⟨h, hle⟩
      cases h with
      | plain h => exact ⟨h, hle⟩
      | plus h => exact absurd rfl (hplus _)

theorem IsDecimal.unique {cs : List Char} {m n : Nat} (hm : IsDecimal cs m)
    (hn : IsDecimal cs n) : m = n := by
  have hm := readUnsigned_eq_ok_iff.2 ⟨hm, Nat.le_max_left m n⟩
  have hn := readUnsigned_eq_ok_iff.2 ⟨hn, Nat.le_max_right m n⟩
  exact Except.ok.inj (hm.symm.trans hn)

end ModuleCompiler
