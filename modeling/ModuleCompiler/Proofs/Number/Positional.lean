import ModuleCompiler.Proofs.Number.Literal
import ModuleCompiler.Proofs.Number.Shortest

/-!
The notation of doubles without exponent: digits with at most one point among them, and of the value
of the shortest decimal that is read as the double. So is the text.
-/

namespace ModuleCompiler

/-- Digits that make up a number when the point is dropped, and how many of them stand after it. -/
inductive IsPositional : List Char → Nat → Nat → Prop
  | whole {ds : List Char} {n : Nat} : AreDigits ds n → IsPositional ds n 0
  | pointed {ds es : List Char} {n : Nat} : ds ≠ [] → es ≠ [] → AreDigits (ds ++ es) n →
      IsPositional (ds ++ '.' :: es) n es.length

/-- The text says the decimal: both are the same number over a common power of ten. -/
def Decimal.IsWritten (d : Decimal) (cs : List Char) : Prop :=
  ∃ n places, IsPositional cs n places ∧
    n * Nat.pow 10 (-(d.exponent + places)).toNat =
      d.digits * Nat.pow 10 (d.exponent + places).toNat

/-- Positional text of a double: that of a shortest decimal that is read as the double. Not every
double is a number. -/
inductive BinaryFloat.IsWritten : BinaryFloat → List Char → Prop
  | nan : IsWritten .nan ['N', 'a', 'N']
  | infinite : IsWritten (.infinite false) ['i', 'n', 'f']
  | negativeInfinite : IsWritten (.infinite true) ['-', 'i', 'n', 'f']
  | finite {m : Nat} {q : Int} {d : Decimal} {cs : List Char} : d.IsShortest .upper m q →
      d.IsWritten cs → IsWritten (.finite false m q) cs
  | negativeFinite {m : Nat} {q : Int} {d : Decimal} {cs : List Char} : d.IsShortest .upper m q →
      d.IsWritten cs → IsWritten (.finite true m q) ('-' :: cs)

namespace RealNotation

theorem ofDigitChars_zeros (n k : Nat) :
    Nat.ofDigitChars 10 (List.replicate k '0') n = n * Nat.pow 10 k := by
  induction k generalizing n with
  | zero => simp
  | succ k ih =>
    have hzero : 10 * n + ('0'.toNat - '0'.toNat) = n * 10 := by omega
    rw [List.replicate_succ, Nat.ofDigitChars_cons, ih, hzero, Nat.mul_assoc, Nat.mul_comm 10]
    rfl

theorem isDigit_of_mem_zeros {k : Nat} {c : Char} (h : c ∈ List.replicate k '0') :
    c.isDigit = true := by
  rw [List.eq_of_mem_replicate h]
  rfl

theorem areDigits_append_zeros {ds : List Char} {n : Nat} (h : AreDigits ds n) (k : Nat) :
    AreDigits (ds ++ List.replicate k '0') (n * Nat.pow 10 k) where
  nonempty := by simp [h.nonempty]
  digits := by
    intro c hc
    rcases List.mem_append.1 hc with hc | hc
    · exact h.digits c hc
    · exact isDigit_of_mem_zeros hc
  value := by rw [Nat.ofDigitChars_append, h.value, ofDigitChars_zeros]

theorem areDigits_zeros_append {ds : List Char} {n : Nat} (h : AreDigits ds n) (k : Nat) :
    AreDigits (List.replicate k '0' ++ ds) n where
  nonempty := by simp [h.nonempty]
  digits := by
    intro c hc
    rcases List.mem_append.1 hc with hc | hc
    · exact isDigit_of_mem_zeros hc
    · exact h.digits c hc
  value := by rw [Nat.ofDigitChars_append, ofDigitChars_zeros, Nat.zero_mul, h.value]

theorem isWritten_of_digits {d : Decimal} {cs : List Char} {places : Nat}
    (h : IsPositional cs d.digits places) (hplaces : d.exponent + places = 0) : d.IsWritten cs := by
  refine ⟨d.digits, places, h, ?_⟩
  rw [hplaces]
  rfl

/-- Zeros stand in for the places between the digits and the point, on either side of it. -/
theorem isWritten_plain (d : Decimal) : d.IsWritten (plain.unsigned d).toList := by
  obtain ⟨digits, exponent⟩ := d
  have hds := areDigits_toDigits digits
  generalize hlist : Nat.toDigits 10 digits = ds at hds
  have hlength : 0 < ds.length := List.length_pos_iff.2 hds.nonempty
  by_cases hzero : digits = 0
  · subst hzero
    refine ⟨0, 0, .whole ⟨by simp [unsigned, plain], ?_, ?_⟩, by simp⟩ <;>
      simp [unsigned, plain, Nat.ofDigitChars]
  by_cases hwhole : 0 ≤ exponent
  · have htext : (plain.unsigned ⟨digits, exponent⟩).toList =
        ds ++ List.replicate exponent.toNat '0' := by
      simp [unsigned, plain, zeros, hzero, hwhole, hlist]
    rw [htext]
    refine ⟨_, 0, .whole (areDigits_append_zeros hds exponent.toNat), ?_⟩
    have hneg : (-(exponent + (0 : Nat))).toNat = 0 := by omega
    have hpos : (exponent + (0 : Nat)).toNat = exponent.toNat := by omega
    rw [hneg, hpos]
    exact Nat.mul_one _
  by_cases hfirst : 0 ≤ exponent + ds.length - 1
  · generalize hcut : (exponent + ds.length - 1 + 1).toNat = cut
    have htext : (plain.unsigned ⟨digits, exponent⟩).toList =
        ds.take cut ++ '.' :: ds.drop cut := by
      simp only [unsigned, plain, hzero, hwhole, hlist, hfirst, hcut, if_true, if_false]
      simp
    have htake : (ds.take cut).length = min cut ds.length := List.length_take
    have hdrop : (ds.drop cut).length = ds.length - cut := List.length_drop
    have hplaces : exponent + ((ds.drop cut).length : Nat) = 0 := by omega
    rw [htext]
    refine isWritten_of_digits (.pointed ?_ ?_ ?_) hplaces
    · exact List.length_pos_iff.1 (by omega)
    · exact List.length_pos_iff.1 (by omega)
    · rwa [List.take_append_drop]
  · generalize hcut : (-(exponent + ds.length - 1) - 1).toNat = gap
    have htext : (plain.unsigned ⟨digits, exponent⟩).toList =
        ['0'] ++ '.' :: (List.replicate gap '0' ++ ds) := by
      simp only [unsigned, plain, zeros, hzero, hwhole, hlist, hfirst, hcut, if_true, if_false]
      simp
    have hlen : (List.replicate gap '0' ++ ds).length = gap + ds.length := by simp
    have hplaces : exponent + ((List.replicate gap '0' ++ ds).length : Nat) = 0 := by omega
    rw [htext]
    refine isWritten_of_digits (.pointed (by simp) ?_ ?_) hplaces
    · exact List.length_pos_iff.1 (by omega)
    · exact areDigits_zeros_append (areDigits_zeros_append hds gap) 1

/-- Texts of doubles have no exponent where the notation never asks for one. -/
theorem render_plain (x : Float) : (BinaryFloat.ofFloat x).IsWritten (plain.render x).toList := by
  unfold render
  cases hx : BinaryFloat.ofFloat x with
  | nan => exact .nan
  | infinite negative =>
    cases negative with
    | false => exact .infinite
    | true => exact .negativeInfinite
  | finite negative m q =>
    have hm := (BinaryFloat.ofBits_eq_finite hx).1
    have hshortest := shortestDecimal_isShortest .upper hm
    have hwritten := isWritten_plain (shortestDecimal .upper m q)
    cases negative with
    | false => simpa [plain] using BinaryFloat.IsWritten.finite hshortest hwritten
    | true => simpa [plain] using BinaryFloat.IsWritten.negativeFinite hshortest hwritten

end RealNotation

section ReadingBack

variable {cs : List Char} {n places m : Nat} {q : Int} {d : Decimal}

theorem IsPositional.head?_isDigit (h : IsPositional cs n places) :
    cs.head?.any Char.isDigit = true := by
  cases h with
  | whole h => exact h.head?_isDigit
  | pointed hds hes h =>
    obtain ⟨c, ds, rfl⟩ := List.exists_cons_of_ne_nil hds
    exact h.digits c List.mem_cons_self

theorem IsPositional.readMagnitude? (h : IsPositional cs n places) (f : BinaryFloat.Format)
    (negative : Bool) :
    readMagnitude? f negative cs = some (.ofScientific f negative n (-(places : Int))) := by
  have hhead := h.head?_isDigit
  cases h with
  | whole h => exact h.readMagnitude? f negative
  | @pointed ds es _ hds hes h =>
    have hpoint : ¬ '.'.isDigit = true := by decide
    have hdigits : ∀ c ∈ ds, c.isDigit = true := fun c hc => h.digits c (List.mem_append_left _ hc)
    have hdigits' : ∀ c ∈ es, c.isDigit = true :=
      fun c hc => h.digits c (List.mem_append_right _ hc)
    have hspan : spanDigits (ds ++ '.' :: es) = (ds, '.' :: es) := by
      rw [spanDigits, List.takeWhile_append_of_pos hdigits, List.dropWhile_append_of_pos hdigits,
        List.takeWhile_cons_of_neg hpoint, List.dropWhile_cons_of_neg hpoint, List.append_nil]
    have hspan' : spanDigits es = (es, []) := by
      rw [spanDigits, List.takeWhile_eq_self_iff.2 hdigits', List.dropWhile_eq_nil_iff.2 hdigits']
    have hmantissa : readMantissa? (ds ++ '.' :: es) = some (ds ++ es, es.length, []) := by
      simp [readMantissa?, hspan, hspan', hds]
    rw [readMagnitude?_of_digits hhead hmantissa, h.naturalOf]

/-- What is read from the text of a decimal has the value of the decimal. -/
theorem Decimal.value_of_written
    (h : n * Nat.pow 10 (-(d.exponent + places)).toNat =
      d.digits * Nat.pow 10 (d.exponent + places).toNat) :
    (Decimal.mk n (-(places : ℤ))).value = d.value := by
  have hten : (10 : ℚ) ≠ 0 := by norm_num
  have hcast : (n : ℚ) * 10 ^ (-(d.exponent + places)).toNat =
      d.digits * 10 ^ (d.exponent + places).toNat := by
    simp only [pow_eq] at h
    exact_mod_cast h
  have hsplit : d.exponent = d.exponent + places + -(places : ℤ) := by omega
  rw [Decimal.value, Decimal.value, hsplit, zpow_add₀ hten, zpow_eq_div 10 (d.exponent + places),
    ← mul_assoc, ← mul_div_assoc, ← hcast, mul_div_cancel_right₀ _ (pow_ne_zero _ hten)]

/-- Text of a shortest decimal is read as the double. It may have other digits than the decimal, but
the double depends on the value alone. -/
theorem Decimal.IsShortest.readMagnitude? {tie : TieRule} (h : d.IsShortest tie m q)
    (hm : BinaryFloat.IsDouble m q) (hcs : d.IsWritten cs) (negative : Bool) :
    (readMagnitude? .double negative cs).map BinaryFloat.toBits =
      some (BinaryFloat.finite negative m q).toBits := by
  obtain ⟨n, places, hpositional, heq⟩ := hcs
  have hvalue := Decimal.value_of_written heq
  rw [hpositional.readMagnitude?, Option.map_some]
  congr 1
  rcases Nat.eq_zero_or_pos m with rfl | hpos
  · -- only zero is nearest to zero
    have hnear := h.nearest ⟨0, d.exponent⟩ (Decimal.readsAs_zero _ q) rfl
    have hnone : (Decimal.mk 0 d.exponent).value = 0 := Decimal.value_eq_zero.2 rfl
    rw [hnone, Nat.cast_zero, zero_mul, sub_zero, sub_zero, abs_zero, abs_nonpos_iff, ← hvalue]
      at hnear
    have hn : n = 0 := Decimal.value_eq_zero.1 hnear
    rw [hn]
    exact Decimal.readsAs_zero _ q negative
  · have hread := (Decimal.readsAs_iff hm hpos).1 h.readsAs
    rw [← hvalue] at hread
    exact (Decimal.readsAs_iff hm hpos).2 hread negative

/-- Reading undoes writing, up to the bits of what is not a number. -/
theorem RealNotation.readDouble?_render_plain (x : Float) :
    (readDouble? (plain.render x).toList).map BinaryFloat.toBits =
      some (BinaryFloat.ofFloat x).toBits := by
  have hwritten := render_plain x
  generalize (plain.render x).toList = cs at hwritten
  cases hx : BinaryFloat.ofFloat x with
  | nan =>
    rw [hx] at hwritten
    cases hwritten
    rfl
  | infinite negative =>
    rw [hx] at hwritten
    cases hwritten <;> rfl
  | finite negative m q =>
    have hm := (BinaryFloat.ofBits_eq_finite hx).1
    rw [hx] at hwritten
    cases hwritten with
    | finite h hcs =>
      obtain ⟨n, places, hpositional, -⟩ := id hcs
      rw [readDouble?, readReal?_of_digits hpositional.head?_isDigit]
      exact h.readMagnitude? hm hcs false
    | negativeFinite h hcs => exact h.readMagnitude? hm hcs true

end ReadingBack

end ModuleCompiler
