import Mathlib.Algebra.Order.Field.Power
import Mathlib.Algebra.Order.Field.Rat
import Mathlib.Data.Nat.Digits.Defs
import Mathlib.Tactic.FieldSimp
import Mathlib.Tactic.GCongr
import Mathlib.Tactic.Linarith
import Mathlib.Tactic.Positivity
import Mathlib.Tactic.Ring
import Mathlib.Tactic.WLOG
import ModuleCompiler.Number.Binary

/-!
Rounding to doubles. The numbers that are rounded to a double are those of an interval around it, so
a decimal is read as the double if and only if it lies in there.
-/

namespace ModuleCompiler

theorem zpow_eq_div (b : ℚ) (k : ℤ) : b ^ k = b ^ k.toNat / b ^ (-k).toNat := by
  rcases Int.le_total 0 k with hk | hk
  · have hneg : (-k).toNat = 0 := by omega
    rw [hneg, pow_zero, div_one, ← zpow_natCast, Int.toNat_of_nonneg hk]
  · have hpos : k.toNat = 0 := by omega
    rw [hpos, pow_zero, one_div, ← zpow_natCast, Int.toNat_of_nonneg (by omega), zpow_neg,
      inv_inv]

theorem pow_eq (b n : ℕ) : Nat.pow b n = b ^ n := rfl

namespace BinaryFloat

/-- Mantissa and exponent of a finite double as its bits give them. -/
structure IsDouble (m : ℕ) (q : ℤ) : Prop where
  bound : m < 2 ^ 53
  least : -1074 ≤ q
  greatest : q ≤ 971
  normal : q ≠ -1074 → 2 ^ 52 ≤ m

/-- A whole number next to another number, the even one if there are two. -/
def IsNearest (x : ℚ) (n : ℕ) : Prop := |x - n| < 1 / 2 ∨ (|x - n| = 1 / 2 ∧ n % 2 = 0)

/-- The power of two of the last mantissa bit of the double next to a number. -/
structure IsLastPlace (x : ℚ) (p : ℤ) : Prop where
  least : -1074 ≤ p
  above : x < 2 ^ (p + 53)
  below : p ≠ -1074 → 2 ^ (p + 52) ≤ x

/-- A mantissa as rounding leaves it may have grown by a bit. -/
def IsSame (n : ℕ) (p : ℤ) (m : ℕ) (q : ℤ) : Prop :=
  (n = m ∧ p = q) ∨ (n = 2 ^ 53 ∧ m = 2 ^ 52 ∧ q = p + 1)

def RoundsTo (x : ℚ) (m : ℕ) (q : ℤ) : Prop :=
  ∃ n p, IsLastPlace x p ∧ IsNearest (x / 2 ^ p) n ∧ IsSame n p m q

/-- Half of the gap to the double below, in units of the last mantissa bit. Below a power of two the
gap is half as wide, except at the least exponent. -/
def gapBelow (m : ℕ) (q : ℤ) : ℚ := if m = 2 ^ 52 ∧ q ≠ -1074 then 1 / 4 else 1 / 2

/-- The interval around a double, with its bounds if the mantissa is even. -/
def IsAround (x : ℚ) (m : ℕ) (q : ℤ) : Prop :=
  (m - gapBelow m q < x / 2 ^ q ∨ m % 2 = 0 ∧ m - gapBelow m q = x / 2 ^ q) ∧
    (x / 2 ^ q < m + 1 / 2 ∨ m % 2 = 0 ∧ x / 2 ^ q = m + 1 / 2)

theorem gapBelow_pos (m : ℕ) (q : ℤ) : 0 < gapBelow m q := by
  unfold gapBelow
  split <;> norm_num

theorem gapBelow_le (m : ℕ) (q : ℤ) : gapBelow m q ≤ 1 / 2 := by
  unfold gapBelow
  split <;> norm_num

section Nearest

variable {x : ℚ} {n n' num den : ℕ}

theorem isNearest_iff : IsNearest x n ↔
    ((n : ℚ) - 1 / 2 < x ∨ n % 2 = 0 ∧ (n : ℚ) - 1 / 2 = x) ∧
      (x < n + 1 / 2 ∨ n % 2 = 0 ∧ x = n + 1 / 2) := by
  unfold IsNearest
  rw [abs_lt, abs_eq (by norm_num)]
  constructor
  · rintro (⟨hlow, hhigh⟩ | ⟨hhigh | hlow, heven⟩)
    · exact ⟨.inl (by linarith), .inl (by linarith)⟩
    · exact ⟨.inl (by linarith), .inr ⟨heven, by linarith⟩⟩
    · exact ⟨.inr ⟨heven, by linarith⟩, .inl (by linarith)⟩
  · rintro ⟨hlow | ⟨heven, hlow⟩, hhigh | ⟨heven', hhigh⟩⟩
    · exact .inl ⟨by linarith, by linarith⟩
    · exact .inr ⟨.inl (by linarith), heven'⟩
    · exact .inr ⟨.inr (by linarith), heven⟩
    · linarith

theorem IsNearest.unique (h : IsNearest x n) (h' : IsNearest x n') : n = n' := by
  wlog hlt : n < n' generalizing n n'
  · rcases Nat.lt_or_eq_of_le (Nat.le_of_not_lt hlt) with hgt | heq
    · exact (this h' h hgt).symm
    · exact heq.symm
  -- they are neighbours then, both at a distance of one half, and both even
  exfalso
  have hstep : (n : ℚ) + 1 ≤ n' := by exact_mod_cast hlt
  have hx := (isNearest_iff.1 h).2
  have hx' := (isNearest_iff.1 h').1
  rcases hx with hx | ⟨heven, hx⟩ <;> rcases hx' with hx' | ⟨heven', hx'⟩ <;> try linarith
  have hsucc : (n' : ℚ) = (n + 1 : ℕ) := by
    push_cast
    linarith
  have hsucc' : n' = n + 1 := by exact_mod_cast hsucc
  omega

theorem div_lt_half_iff (hden : 0 < den) (a : ℕ) : (a : ℚ) / den < 1 / 2 ↔ 2 * a < den := by
  have hpos : (0 : ℚ) < den := by exact_mod_cast hden
  rw [div_lt_div_iff₀ hpos two_pos]
  norm_cast
  omega

theorem half_lt_div_iff (hden : 0 < den) (a : ℕ) : (1 : ℚ) / 2 < a / den ↔ den < 2 * a := by
  have hpos : (0 : ℚ) < den := by exact_mod_cast hden
  rw [div_lt_div_iff₀ two_pos hpos]
  norm_cast
  omega

theorem isNearest_roundHalfEven (hden : 0 < den) :
    IsNearest ((num : ℚ) / den) (roundHalfEven num den) := by
  have hpos : (0 : ℚ) < den := by exact_mod_cast hden
  have hnum : (num : ℚ) = den * (num / den : ℕ) + (num % den : ℕ) := by
    exact_mod_cast (Nat.div_add_mod num den).symm
  have hlow : (num : ℚ) / den - (num / den : ℕ) = (num % den : ℕ) / den := by
    rw [hnum]
    field_simp
    ring
  have hhigh : (num : ℚ) / den - (num / den + 1 : ℕ) = (num % den : ℕ) / den - 1 := by
    rw [← hlow]
    push_cast
    ring
  have hnonneg : (0 : ℚ) ≤ (num % den : ℕ) / den := by positivity
  have hone : ((num % den : ℕ) : ℚ) / den < 1 := by
    rw [div_lt_one hpos]
    exact_mod_cast Nat.mod_lt num hden
  unfold roundHalfEven IsNearest
  dsimp only
  split
  · rename_i h
    rw [hlow, abs_of_nonneg hnonneg]
    exact .inl ((div_lt_half_iff hden _).2 h)
  rename_i hnotless
  split
  · rename_i h
    rw [hhigh, abs_of_nonpos (by linarith)]
    have hlarge := (half_lt_div_iff hden _).2 h
    exact .inl (by linarith)
  rename_i hnotmore
  have heq : ((num % den : ℕ) : ℚ) / den = 1 / 2 :=
    le_antisymm (not_lt.1 fun h => hnotmore ((half_lt_div_iff hden _).1 h))
      (not_lt.1 fun h => hnotless ((div_lt_half_iff hden _).1 h))
  split
  · rename_i heven
    rw [hlow, heq]
    exact .inr ⟨abs_of_pos (by norm_num), heven⟩
  · rename_i hodd
    rw [hhigh, heq]
    exact .inr ⟨by norm_num, by omega⟩

end Nearest

section LastPlace

variable {x : ℚ} {m n num den : ℕ} {p p' q : ℤ}

theorem isLastPlace_iff : IsLastPlace x p ↔
    -1074 ≤ p ∧ x / 2 ^ p < 2 ^ 53 ∧ (p ≠ -1074 → 2 ^ 52 ≤ x / 2 ^ p) := by
  have hpow : (0 : ℚ) < 2 ^ p := by positivity
  have habove : x / 2 ^ p < 2 ^ 53 ↔ x < 2 ^ (p + 53) := by
    rw [div_lt_iff₀ hpow, zpow_add₀ two_ne_zero, mul_comm]
    rfl
  have hbelow : 2 ^ 52 ≤ x / 2 ^ p ↔ (2 : ℚ) ^ (p + 52) ≤ x := by
    rw [le_div_iff₀ hpow, zpow_add₀ two_ne_zero, mul_comm]
    rfl
  rw [habove, hbelow]
  exact ⟨fun h => ⟨h.least, h.above, h.below⟩, fun h => ⟨h.1, h.2.1, h.2.2⟩⟩

theorem IsLastPlace.not_lt (h : IsLastPlace x p) (h' : IsLastPlace x p') : ¬ p < p' := by
  intro hlt
  have hleast := h.least
  have hmono : (2 : ℚ) ^ (p + 53) ≤ 2 ^ (p' + 52) := zpow_le_zpow_right₀ one_le_two (by omega)
  exact absurd (hmono.trans (h'.below (by omega))) (not_le.2 h.above)

theorem IsLastPlace.unique (h : IsLastPlace x p) (h' : IsLastPlace x p') : p = p' :=
  le_antisymm (Int.not_lt.1 (h'.not_lt h)) (Int.not_lt.1 (h.not_lt h'))

/-- Two numbers compared with a power of two, over one denominator. -/
theorem scaled_lt_iff (num : ℕ) (hden : 0 < den) (k : ℤ) :
    num * Nat.pow 2 (-k).toNat < den * Nat.pow 2 k.toNat ↔ (num : ℚ) / den < 2 ^ k := by
  have hpos : (0 : ℚ) < den := by exact_mod_cast hden
  rw [zpow_eq_div, div_lt_div_iff₀ hpos (by positivity), mul_comm _ (den : ℚ), pow_eq, pow_eq]
  norm_cast

theorem log2_bounds (hn : 0 < n) :
    (2 : ℚ) ^ (n.log2 : ℤ) ≤ n ∧ (n : ℚ) < 2 ^ (n.log2 + 1 : ℤ) := by
  constructor
  · exact_mod_cast Nat.log2_self_le hn.ne'
  · exact_mod_cast Nat.lt_log2_self

theorem isLastPlace_lastPlace (hnum : 0 < num) (hden : 0 < den) :
    IsLastPlace ((num : ℚ) / den) (lastPlace .double num den) := by
  have hpos : (0 : ℚ) < den := by exact_mod_cast hden
  obtain ⟨hnumlow, hnumhigh⟩ := log2_bounds hnum
  obtain ⟨hdenlow, hdenhigh⟩ := log2_bounds hden
  generalize hguess : (num.log2 : ℤ) - (den.log2 : ℤ) = guess
  have hupper : (num : ℚ) / den < 2 ^ (guess + 1) := by
    rw [div_lt_iff₀ hpos]
    calc (num : ℚ) < 2 ^ (num.log2 + 1 : ℤ) := hnumhigh
      _ = 2 ^ (guess + 1) * 2 ^ (den.log2 : ℤ) := by
        rw [← zpow_add₀ two_ne_zero]
        congr 1
        omega
      _ ≤ 2 ^ (guess + 1) * den := by gcongr
  have hlower : (2 : ℚ) ^ (guess - 1) ≤ num / den := by
    rw [le_div_iff₀ hpos]
    calc (2 : ℚ) ^ (guess - 1) * den ≤ 2 ^ (guess - 1) * 2 ^ (den.log2 + 1 : ℤ) := by gcongr
      _ = 2 ^ (num.log2 : ℤ) := by
        rw [← zpow_add₀ two_ne_zero]
        congr 1
        omega
      _ ≤ num := hnumlow
  -- the power of two that the number lies below is the guess or the next one
  obtain ⟨e, he, habove, hbelow⟩ : ∃ e : ℤ,
      lastPlace .double num den = max (e - 53) (-1074) ∧ (num : ℚ) / den < 2 ^ e ∧
        (2 : ℚ) ^ (e - 1) ≤ num / den := by
    by_cases hsmall : num * Nat.pow 2 (-guess).toNat < den * Nat.pow 2 guess.toNat
    · refine ⟨guess, ?_, (scaled_lt_iff num hden guess).1 hsmall, hlower⟩
      simp only [lastPlace, hguess, hsmall, if_true]
      rfl
    · refine ⟨guess + 1, ?_, hupper, ?_⟩
      · simp only [lastPlace, hguess, hsmall, if_false]
        rfl
      · rw [scaled_lt_iff num hden guess, not_lt] at hsmall
        rwa [add_sub_cancel_right]
  rw [he]
  refine ⟨le_max_right _ _, habove.trans_le ?_, fun hnormal => ?_⟩
  · exact zpow_le_zpow_right₀ one_le_two (by omega)
  · exact (zpow_le_zpow_right₀ one_le_two (by omega)).trans hbelow

/-- The mantissa that a positive number is rounded to, and the power of two of its last bit. -/
theorem ofRatio_eq (negative : Bool) (hnum : 0 < num) (hden : 0 < den) :
    ∃ n p, IsLastPlace ((num : ℚ) / den) p ∧ IsNearest ((num : ℚ) / den / 2 ^ p) n ∧
      ofRatio .double negative num den =
        if 971 < p ∨ (p = 971 ∧ n = 2 ^ 53) then .infinite negative else .finite negative n p := by
  have hvalue : ofRatio .double negative num den =
      let p := lastPlace .double num den
      let n := roundHalfEven (num * Nat.pow 2 (-p).toNat) (den * Nat.pow 2 p.toNat)
      if 971 < p ∨ (p = 971 ∧ n = 2 ^ 53) then .infinite negative
      else .finite negative n p := by
    simp only [ofRatio, if_neg hnum.ne']
    rfl
  have hplace := isLastPlace_lastPlace hnum hden
  generalize lastPlace .double num den = p at hvalue hplace
  refine ⟨_, p, hplace, ?_, hvalue⟩
  have hscaled : (num : ℚ) / den / 2 ^ p =
      (num * Nat.pow 2 (-p).toNat : ℕ) / (den * Nat.pow 2 p.toNat : ℕ) := by
    rw [zpow_eq_div, pow_eq, pow_eq]
    push_cast
    field_simp
  rw [hscaled]
  exact isNearest_roundHalfEven (Nat.mul_pos hden (Nat.two_pow_pos _))

/-- A mantissa has as many bits as the format has room for, or one more where it was rounded up. -/
theorem mantissa_bounds (hplace : IsLastPlace x p) (hn : IsNearest (x / 2 ^ p) n) :
    n ≤ 2 ^ 53 ∧ (p ≠ -1074 → 2 ^ 52 ≤ n) := by
  obtain ⟨-, habove, hbelow⟩ := isLastPlace_iff.1 hplace
  have hdistance : |x / 2 ^ p - n| ≤ 1 / 2 := hn.elim le_of_lt fun h => h.1.le
  obtain ⟨hlow, hhigh⟩ := abs_le.1 hdistance
  constructor
  · have hlt : (n : ℚ) < 2 ^ 53 + 1 := by linarith
    exact Nat.lt_succ_iff.1 (by exact_mod_cast hlt)
  · intro hnormal
    have hle := hbelow hnormal
    have hlt : (2 ^ 52 : ℚ) < n + 1 := by linarith
    exact Nat.lt_succ_iff.1 (by exact_mod_cast hlt)

/-- From its power of two on, a double has gaps of one width on both sides. -/
theorem isAround_iff_isNearest (h : q ≠ -1074 → 2 ^ 52 ≤ x / 2 ^ q) :
    IsAround x m q ↔ IsNearest (x / 2 ^ q) m := by
  rw [isNearest_iff]
  refine and_congr_left' ?_
  unfold gapBelow
  split
  · rename_i hpow
    have hbelow := h hpow.2
    rw [hpow.1]
    push_cast
    exact iff_of_true (.inl (by linarith)) (.inl (by linarith))
  · exact Iff.rfl

theorem div_zpow_pred (x : ℚ) (q : ℤ) : x / 2 ^ (q - 1) = 2 * (x / 2 ^ q) := by
  rw [zpow_sub_one₀ two_ne_zero]
  field_simp

/-- A number below the power of two is rounded up to it, and on the way it has one more bit. -/
theorem isAround_iff_of_lt (hm : IsDouble m q) (hq : q ≠ -1074) (hsmall : x / 2 ^ q < 2 ^ 52) :
    IsAround x m q ↔ m = 2 ^ 52 ∧ IsNearest (x / 2 ^ (q - 1)) (2 ^ 53) := by
  rw [isNearest_iff, div_zpow_pred]
  push_cast
  constructor
  · rintro ⟨hlow, -⟩
    have hmantissa : m = 2 ^ 52 := by
      by_contra hne
      have hlt := Nat.lt_of_le_of_ne (hm.normal hq) (Ne.symm hne)
      have hnext : (2 : ℚ) ^ 52 + 1 ≤ m := by exact_mod_cast hlt
      rw [gapBelow, if_neg fun h => hne h.1] at hlow
      rcases hlow with hlow | ⟨-, hlow⟩ <;> linarith
    rw [gapBelow, if_pos ⟨hmantissa, hq⟩, hmantissa] at hlow
    push_cast at hlow
    refine ⟨hmantissa, ?_, .inl (by linarith)⟩
    rcases hlow with hlow | ⟨-, hlow⟩
    · exact .inl (by linarith)
    · exact .inr ⟨by norm_num, by linarith⟩
  · rintro ⟨rfl, hlow, -⟩
    rw [IsAround, gapBelow, if_pos ⟨rfl, hq⟩]
    push_cast
    refine ⟨?_, .inl (by linarith)⟩
    rcases hlow with hlow | ⟨-, hlow⟩
    · exact .inl (by linarith)
    · exact .inr ⟨by norm_num, by linarith⟩

theorem roundsTo_iff_isAround (hm : IsDouble m q) : RoundsTo x m q ↔ IsAround x m q := by
  constructor
  · rintro ⟨n, p, hplace, hnear, ⟨rfl, rfl⟩ | ⟨rfl, hmantissa, hq⟩⟩
    · exact (isAround_iff_isNearest (isLastPlace_iff.1 hplace).2.2).2 hnear
    · obtain rfl : p = q - 1 := by omega
      have habove := (isLastPlace_iff.1 hplace).2.1
      have hleast := hplace.least
      rw [div_zpow_pred] at habove
      exact (isAround_iff_of_lt hm (by omega) (by linarith)).2 ⟨hmantissa, hnear⟩
  · intro h
    have htop : x / 2 ^ q < 2 ^ 53 := by
      have hsucc : (m : ℚ) + 1 ≤ 2 ^ 53 := by exact_mod_cast hm.bound
      rcases h.2 with hhigh | ⟨-, hhigh⟩ <;> linarith
    by_cases hplace : q = -1074 ∨ 2 ^ 52 ≤ x / 2 ^ q
    · exact ⟨m, q, isLastPlace_iff.2 ⟨hm.least, htop, hplace.resolve_left⟩,
        (isAround_iff_isNearest hplace.resolve_left).1 h, .inl ⟨rfl, rfl⟩⟩
    · obtain ⟨hq, hsmall⟩ := not_or.1 hplace
      obtain ⟨hmantissa, hnear⟩ := (isAround_iff_of_lt hm hq (not_le.1 hsmall)).1 h
      obtain ⟨hlow, -⟩ := isNearest_iff.1 hnear
      have hleast := hm.least
      push_cast at hlow
      refine ⟨2 ^ 53, q - 1, isLastPlace_iff.2 ⟨by omega, ?_, fun _ => ?_⟩, hnear,
        .inr ⟨rfl, hmantissa, by omega⟩⟩
      · rw [div_zpow_pred]
        linarith
      · rcases hlow with hlow | ⟨-, hlow⟩ <;> linarith

end LastPlace

section Bits

variable {bits : UInt64} {negative : Bool} {m n num den : ℕ} {p q : ℤ}

/-- The bits below the sign. -/
def pattern (m : ℕ) (q : ℤ) : ℕ :=
  if m < 2 ^ 52 then m else (q + 1075).toNat * 2 ^ 52 + (m - 2 ^ 52)

theorem toBits_finite (negative : Bool) (h : pattern m q < 2047 * 2 ^ 52) :
    (finite negative m q).toBits = toBits.sign negative ||| (pattern m q).toUInt64 := by
  unfold pattern at h ⊢
  simp only [toBits, pow_eq]
  split
  · rfl
  · rename_i hm
    rw [if_neg hm] at h
    rw [if_neg (by omega)]

theorem toNat_sign_or (negative : Bool) (h : n < 2 ^ 63) :
    (toBits.sign negative ||| n.toUInt64).toNat = negative.toNat * 2 ^ 63 + n := by
  have hn : n.toUInt64.toNat = n := by
    have hsize : n < UInt64.size := lt_trans h (by decide)
    simp [Nat.toUInt64, Nat.mod_eq_of_lt hsize]
  rw [UInt64.toNat_or, hn]
  cases negative with
  | false => simp [toBits.sign]
  | true =>
    have hsign : (toBits.sign true).toNat = 2 ^ 63 * 1 := rfl
    rw [hsign, ← Nat.two_pow_add_eq_or_of_lt h]
    simp

theorem sign_or_inj (hm : m < 2 ^ 63) (hn : n < 2 ^ 63) :
    toBits.sign negative ||| m.toUInt64 = toBits.sign negative ||| n.toUInt64 ↔ m = n := by
  rw [← UInt64.toNat_inj, toNat_sign_or negative hm, toNat_sign_or negative hn,
    Nat.add_right_inj]

theorem IsDouble.pattern_lt (h : IsDouble m q) : pattern m q < 2047 * 2 ^ 52 := by
  obtain ⟨hbound, hleast, hgreatest, -⟩ := h
  unfold pattern
  split <;> omega

theorem pattern_eq_iff (hm : IsDouble m q) (hn : n ≤ 2 ^ 53) (hp : -1074 ≤ p)
    (hnormal : p ≠ -1074 → 2 ^ 52 ≤ n) : pattern n p = pattern m q ↔ IsSame n p m q := by
  obtain ⟨hbound, hleast, hgreatest, hmnormal⟩ := hm
  unfold pattern IsSame
  split <;> split <;> omega

/-- What rounding leaves has the bits of a double if and only if it is that double. -/
theorem toBits_round_iff (hm : IsDouble m q) (hn : n ≤ 2 ^ 53) (hp : -1074 ≤ p)
    (hnormal : p ≠ -1074 → 2 ^ 52 ≤ n) :
    (if 971 < p ∨ (p = 971 ∧ n = 2 ^ 53) then infinite negative
      else finite negative n p).toBits = (finite negative m q).toBits ↔ IsSame n p m q := by
  have hlt := hm.pattern_lt
  rw [toBits_finite negative hlt]
  split
  · have hbits : (infinite negative).toBits =
      toBits.sign negative ||| (2047 * 2 ^ 52 : ℕ).toUInt64 := rfl
    obtain ⟨hbound, hleast, hgreatest, hmnormal⟩ := hm
    rw [hbits, sign_or_inj (by decide) (by omega)]
    unfold IsSame
    omega
  · have hn' : pattern n p < 2047 * 2 ^ 52 := by
      unfold pattern
      split <;> omega
    rw [toBits_finite negative hn', sign_or_inj (by omega) (by omega),
      pattern_eq_iff hm hn hp hnormal]

theorem ofRatio_toBits_iff (hnum : 0 < num) (hden : 0 < den) (hm : IsDouble m q) :
    (ofRatio .double negative num den).toBits = (finite negative m q).toBits ↔
      RoundsTo ((num : ℚ) / den) m q := by
  obtain ⟨n, p, hplace, hnear, hvalue⟩ := ofRatio_eq negative hnum hden
  obtain ⟨hn, hnormal⟩ := mantissa_bounds hplace hnear
  rw [hvalue, toBits_round_iff hm hn hplace.least hnormal]
  constructor
  · exact fun hsame => ⟨n, p, hplace, hnear, hsame⟩
  · rintro ⟨n', p', hplace', hnear', hsame⟩
    obtain rfl := hplace.unique hplace'
    obtain rfl := hnear.unique hnear'
    exact hsame

theorem toBits_zero_ne (hm : IsDouble m q) (hpos : 0 < m) :
    (finite negative 0 (-1074)).toBits ≠ (finite negative m q).toBits := by
  intro h
  have hsame := (toBits_round_iff hm (Nat.zero_le _) le_rfl fun h => absurd rfl h).1 h
  unfold IsSame at hsame
  omega

theorem toBits_infinite_ne (hm : IsDouble m q) :
    (infinite negative).toBits ≠ (finite negative m q).toBits := by
  intro h
  have hsame := (toBits_round_iff (n := 2 ^ 53) (p := 971) hm le_rfl (by decide)
    fun _ => by decide).1 h
  obtain ⟨hbound, _, hgreatest, _⟩ := hm
  unfold IsSame at hsame
  omega

/-- The three parts of a bit pattern. -/
theorem toNat_bits (bits : UInt64) : bits.toNat = (bits >>> 63 == 1).toNat * 2 ^ 63 +
    (((bits >>> 52) &&& 0x7ff).toNat * 2 ^ 52 + (bits &&& 0xfffffffffffff).toNat) := by
  have hlt := bits.toNat_lt
  have hbiased : ((bits >>> 52) &&& 0x7ff).toNat = bits.toNat / 2 ^ 52 % 2 ^ 11 := by
    rw [UInt64.toNat_and, UInt64.toNat_shiftRight, Nat.shiftRight_eq_div_pow]
    exact Nat.and_two_pow_sub_one_eq_mod _ 11
  have hfraction : (bits &&& 0xfffffffffffff).toNat = bits.toNat % 2 ^ 52 := by
    rw [UInt64.toNat_and]
    exact Nat.and_two_pow_sub_one_eq_mod _ 52
  have hshift : (bits >>> 63).toNat = bits.toNat / 2 ^ 63 := by
    rw [UInt64.toNat_shiftRight, Nat.shiftRight_eq_div_pow]
    rfl
  have hsign : (bits >>> 63 == 1).toNat = bits.toNat / 2 ^ 63 := by
    have hone : bits >>> 63 = 1 ↔ bits.toNat / 2 ^ 63 = 1 := by
      rw [← UInt64.toNat_inj, hshift]
      rfl
    by_cases h : bits >>> 63 = 1
    · rw [beq_iff_eq.2 h, hone.1 h]
      rfl
    · have hzero : bits.toNat / 2 ^ 63 = 0 := by
        rw [hone] at h
        omega
      rw [beq_eq_false_iff_ne.2 h, hzero]
      rfl
  omega

theorem ofBits_eq_finite (h : ofBits bits = .finite negative m q) :
    IsDouble m q ∧ (finite negative m q).toBits = bits := by
  have hbits := toNat_bits bits
  have hfraction : (bits &&& 0xfffffffffffff).toNat < 2 ^ 52 := by
    rw [UInt64.toNat_and]
    exact Nat.lt_of_le_of_lt Nat.and_le_right (by decide)
  have hbiased : ((bits >>> 52) &&& 0x7ff).toNat < 2 ^ 11 := by
    rw [UInt64.toNat_and]
    exact Nat.lt_of_le_of_lt Nat.and_le_right (by decide)
  simp only [ofBits, pow_eq] at h
  generalize (bits >>> 63 == 1) = sign at *
  generalize ((bits >>> 52) &&& 0x7ff).toNat = biased at *
  generalize (bits &&& 0xfffffffffffff).toNat = fraction at *
  have hdouble : IsDouble m q ∧ sign = negative ∧ biased * 2 ^ 52 + fraction = pattern m q := by
    unfold pattern
    split at h
    · split at h <;> cases h
    · split at h
      · cases h
        refine ⟨⟨by omega, by omega, by omega, fun hq => absurd rfl hq⟩, rfl, ?_⟩
        rw [if_pos hfraction]
        omega
      · cases h
        refine ⟨⟨by omega, by omega, by omega, fun _ => by omega⟩, rfl, ?_⟩
        rw [if_neg (by omega)]
        omega
  obtain ⟨hm, rfl, hpattern⟩ := hdouble
  refine ⟨hm, ?_⟩
  have hlt := hm.pattern_lt
  rw [toBits_finite _ hlt, ← UInt64.toNat_inj, toNat_sign_or _ (by omega), ← hpattern, hbits]

end Bits

end BinaryFloat

end ModuleCompiler
