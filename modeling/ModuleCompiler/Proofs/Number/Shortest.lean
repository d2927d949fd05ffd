import Mathlib.Algebra.Order.Floor.Semiring
import Mathlib.Data.Rat.Floor
import ModuleCompiler.Number.Shortest
import ModuleCompiler.Proofs.Number.Rounding

/-!
The shortest decimal of a double. It reads back as the double, no decimal with fewer digits does,
and of those with its last place it is the nearest.
-/

namespace ModuleCompiler

/-- `digits · 10 ^ exponent` as a number. -/
def Decimal.value (d : Decimal) : ℚ := d.digits * 10 ^ d.exponent

/-- The decimal is read as the double `± m · 2 ^ q`, with either sign. -/
def Decimal.ReadsAs (d : Decimal) (m : ℕ) (q : ℤ) : Prop :=
  ∀ negative, (BinaryFloat.ofScientific .double negative d.digits d.exponent).toBits =
    (BinaryFloat.finite negative m q).toBits

/-- What tells two decimals apart that are equally near. -/
def TieRule.Prefers : TieRule → ℕ → ℕ → Prop
  | .upper, n, other => other < n
  | .even, n, _ => n % 2 = 0

/-- The decimal that a double is written as. -/
structure Decimal.IsShortest (tie : TieRule) (d : Decimal) (m : ℕ) (q : ℤ) : Prop where
  readsAs : d.ReadsAs m q
  shortest : ∀ d' : Decimal, d'.ReadsAs m q →
    (Nat.toDigits 10 d.digits).length ≤ (Nat.toDigits 10 d'.digits).length
  nearest : ∀ d' : Decimal, d'.ReadsAs m q → d'.exponent = d.exponent →
    |d.value - m * 2 ^ q| ≤ |d'.value - m * 2 ^ q|
  tied : ∀ d' : Decimal, d'.ReadsAs m q → d'.exponent = d.exponent →
    |d.value - m * 2 ^ q| = |d'.value - m * 2 ^ q| → d'.digits ≠ d.digits →
    tie.Prefers d.digits d'.digits

open BinaryFloat

section Reading

variable {m n : ℕ} {q : ℤ} {d : Decimal}

theorem Decimal.value_eq_zero : d.value = 0 ↔ d.digits = 0 := by
  have hpow : (10 : ℚ) ^ d.exponent ≠ 0 := by positivity
  rw [Decimal.value, mul_eq_zero, or_iff_left hpow, Nat.cast_eq_zero]

theorem Decimal.readsAs_zero (k q : ℤ) : (Decimal.mk 0 k).ReadsAs 0 q :=
  fun _ => by simp [ofScientific, toBits]

theorem toDigits_bounds (hn : 0 < n) :
    10 ^ ((Nat.toDigits 10 n).length - 1) ≤ n ∧ n < 10 ^ (Nat.toDigits 10 n).length := by
  have hlength : 0 < (Nat.toDigits 10 n).length := Nat.length_toDigits_pos
  refine ⟨?_, (Nat.length_toDigits_le_iff (by decide) hlength).1 le_rfl⟩
  rcases Nat.eq_or_lt_of_le (Nat.succ_le_of_lt hlength) with hone | hmany
  · rw [← hone]
    exact hn
  · refine not_lt.1 fun hlt => ?_
    have hshorter := (Nat.length_toDigits_le_iff (by decide) (by omega)).2 hlt
    omega

theorem length_toDigits_of_lt_ten (hn : n < 10) : (Nat.toDigits 10 n).length ≤ 1 :=
  (Nat.length_toDigits_le_iff (by decide) Nat.one_pos).2 hn

/-- A decimal lies between the powers of ten at its first digit. -/
theorem Decimal.value_bounds (hd : 0 < d.digits) :
    (10 : ℚ) ^ (d.exponent + (Nat.toDigits 10 d.digits).length - 1) ≤ d.value ∧
      d.value < 10 ^ (d.exponent + (Nat.toDigits 10 d.digits).length) := by
  have hlength : 0 < (Nat.toDigits 10 d.digits).length := Nat.length_toDigits_pos
  obtain ⟨hlow, hhigh⟩ := toDigits_bounds hd
  generalize (Nat.toDigits 10 d.digits).length = n at *
  obtain ⟨n, rfl⟩ := Nat.exists_eq_succ_of_ne_zero hlength.ne'
  have hten : (10 : ℚ) ≠ 0 := by norm_num
  have hlow' : (10 : ℚ) ^ n ≤ d.digits := by exact_mod_cast hlow
  have hhigh' : (d.digits : ℚ) < 10 ^ (n + 1) := by exact_mod_cast hhigh
  rw [Decimal.value, Nat.succ_eq_add_one]
  constructor
  · have hsplit : d.exponent + (n + 1 : ℕ) - 1 = (n : ℤ) + d.exponent := by
      push_cast
      ring
    rw [hsplit, zpow_add₀ hten, zpow_natCast]
    gcongr
  · rw [add_comm d.exponent, zpow_add₀ hten, zpow_natCast]
    gcongr

theorem BinaryFloat.IsAround.bounds {x : ℚ} (h : IsAround x m q) (hm : IsDouble m q)
    (hpos : 0 < m) : (2 : ℚ) ^ (-1075 : ℤ) ≤ x ∧ x < 2 ^ (1024 : ℤ) := by
  obtain ⟨hbound, hleast, hgreatest, -⟩ := hm
  obtain ⟨hlow, hhigh⟩ := h
  have hpow : (0 : ℚ) < 2 ^ q := by positivity
  have hgap := gapBelow_le m q
  have hone : (1 : ℚ) ≤ m := by exact_mod_cast hpos
  have hsucc : (m : ℚ) + 1 ≤ 2 ^ 53 := by exact_mod_cast hbound
  have hleast' : 1 / 2 ≤ x / 2 ^ q := by rcases hlow with hlow | ⟨-, hlow⟩ <;> linarith
  have hgreatest' : x / 2 ^ q < 2 ^ 53 := by rcases hhigh with hhigh | ⟨-, hhigh⟩ <;> linarith
  rw [le_div_iff₀ hpow] at hleast'
  rw [div_lt_iff₀ hpow] at hgreatest'
  constructor
  · calc (2 : ℚ) ^ (-1075 : ℤ) ≤ 2 ^ (q - 1) := zpow_le_zpow_right₀ one_le_two (by omega)
      _ = 1 / 2 * 2 ^ q := by
        rw [zpow_sub_one₀ two_ne_zero]
        ring
      _ ≤ x := hleast'
  · calc x < 2 ^ 53 * 2 ^ q := hgreatest'
      _ = 2 ^ (53 + q) := by
        rw [zpow_add₀ two_ne_zero]
        rfl
      _ ≤ 2 ^ (1024 : ℤ) := zpow_le_zpow_right₀ one_le_two (by omega)

theorem BinaryFloat.IsAround.digits_pos {k : ℤ} (h : IsAround ((n : ℚ) * 10 ^ k) m q)
    (hm : IsDouble m q) (hpos : 0 < m) : 0 < n := by
  refine Nat.pos_of_ne_zero fun hzero => ?_
  have hbounds := (h.bounds hm hpos).1
  rw [hzero, Nat.cast_zero, zero_mul] at hbounds
  exact absurd hbounds (not_le.2 (by positivity))

/-- A decimal is read as a double if and only if it lies in the interval around it. The decimals
that are settled by their size lie in none. -/
theorem ofScientific_toBits_iff {negative : Bool} (hm : IsDouble m q) (hpos : 0 < m) :
    (ofScientific .double negative d.digits d.exponent).toBits = (finite negative m q).toBits ↔
      IsAround d.value m q := by
  rcases Nat.eq_zero_or_pos d.digits with hzero | hdigits
  · have hresult : ofScientific .double negative 0 d.exponent = .finite negative 0 (-1074) := rfl
    rw [hzero, hresult]
    exact ⟨fun h => absurd h (toBits_zero_ne hm hpos),
      fun h => absurd hzero (IsAround.digits_pos h hm hpos).ne'⟩
  obtain ⟨hlow, hhigh⟩ := Decimal.value_bounds hdigits
  simp only [ofScientific, if_neg hdigits.ne']
  generalize d.exponent + (Nat.toDigits 10 d.digits).length = point at hlow hhigh ⊢
  split
  · rename_i hlarge
    refine ⟨fun h => absurd h (toBits_infinite_ne hm), fun h => ?_⟩
    have hpow : 2 ^ 1024 ≤ 10 ^ 310 := by decide +kernel
    have hpow' : (2 : ℚ) ^ (1024 : ℤ) ≤ 10 ^ (310 : ℤ) := by exact_mod_cast hpow
    have hmono : (10 : ℚ) ^ (310 : ℤ) ≤ 10 ^ (point - 1) :=
      zpow_le_zpow_right₀ (by norm_num) (by omega)
    exact absurd ((hpow'.trans hmono).trans hlow) (not_le.2 (h.bounds hm hpos).2)
  split
  · rename_i hsmall
    refine ⟨fun h => absurd h (toBits_zero_ne hm hpos), fun h => ?_⟩
    have hpow : 2 ^ 1075 ≤ 10 ^ 331 := by decide +kernel
    have hpow' : (10 : ℚ) ^ (-331 : ℤ) ≤ 2 ^ (-1075 : ℤ) := by
      rw [zpow_neg, zpow_neg]
      exact inv_anti₀ (by positivity) (by exact_mod_cast hpow)
    have hmono : (10 : ℚ) ^ point ≤ 10 ^ (-331 : ℤ) :=
      zpow_le_zpow_right₀ (by norm_num) (by omega)
    exact absurd (hhigh.trans_le (hmono.trans hpow')) (not_lt.2 (h.bounds hm hpos).1)
  · rw [pow_eq, pow_eq, ofRatio_toBits_iff (by positivity) (by positivity) hm,
      roundsTo_iff_isAround hm, Decimal.value, zpow_eq_div]
    push_cast
    rw [mul_div_assoc]

theorem Decimal.readsAs_iff (hm : IsDouble m q) (hpos : 0 < m) :
    d.ReadsAs m q ↔ IsAround d.value m q :=
  ⟨fun h => (ofScientific_toBits_iff hm hpos).1 (h true),
    fun h _ => (ofScientific_toBits_iff hm hpos).2 h⟩

end Reading

namespace Shortest

section Interval

variable {m : ℕ} {q : ℤ} {x y z : ℚ}

theorem isAround_iff : IsAround x m q ↔
    (m * 2 ^ q - x < gapBelow m q * 2 ^ q ∨ m % 2 = 0 ∧ m * 2 ^ q - x = gapBelow m q * 2 ^ q) ∧
      (x - m * 2 ^ q < 1 / 2 * 2 ^ q ∨ m % 2 = 0 ∧ x - m * 2 ^ q = 1 / 2 * 2 ^ q) := by
  have hscale : (0 : ℚ) < 2 ^ q := by positivity
  rw [IsAround, lt_div_iff₀ hscale, eq_div_iff hscale.ne', div_lt_iff₀ hscale,
    div_eq_iff hscale.ne', sub_mul, add_mul]
  refine and_congr (or_congr ?_ (and_congr_right' ?_)) (or_congr ?_ (and_congr_right' ?_)) <;>
    constructor <;> intro h <;> linarith

theorem isAround_self : IsAround ((m : ℚ) * 2 ^ q) m q := by
  have hscale : (0 : ℚ) < 2 ^ q := by positivity
  have hgap := gapBelow_pos m q
  rw [isAround_iff, sub_self]
  exact ⟨.inl (by positivity), .inl (by positivity)⟩

theorem isAround_of_between (hx : IsAround x m q) (hz : IsAround z m q) (hxy : x ≤ y)
    (hyz : y ≤ z) : IsAround y m q := by
  rw [isAround_iff] at *
  constructor
  · rcases hx.1 with h | ⟨heven, h⟩
    · exact .inl (by linarith)
    · rcases hxy.lt_or_eq with hlt | rfl
      · exact .inl (by linarith)
      · exact .inr ⟨heven, h⟩
  · rcases hz.2 with h | ⟨heven, h⟩
    · exact .inl (by linarith)
    · rcases hyz.lt_or_eq with hlt | rfl
      · exact .inl (by linarith)
      · exact .inr ⟨heven, h⟩

theorem ofDouble_den_pos (m : ℕ) (q : ℤ) : 0 < (Interval.ofDouble m q).den := by
  simp only [Interval.ofDouble, pow_eq]
  positivity

/-- The double and its gaps, over the denominator of the interval. -/
theorem ofDouble_eq (m : ℕ) (q : ℤ) : let i := Interval.ofDouble m q
    (i.num : ℚ) = m * 2 ^ q * i.den ∧ (i.below : ℚ) = gapBelow m q * 2 ^ q * i.den ∧
      (i.above : ℚ) = 1 / 2 * 2 ^ q * i.den := by
  have hpow : (0 : ℚ) < 2 ^ (-q).toNat := by positivity
  simp only [Interval.ofDouble, pow_eq]
  rw [zpow_eq_div]
  refine ⟨?_, ?_, ?_⟩
  · push_cast
    field_simp
  · unfold gapBelow
    split
    · push_cast
      field_simp
    · push_cast
      field_simp
      ring
  · push_cast
    field_simp
    ring

/-- One side of an interval, over a denominator and without it. -/
theorem side_iff {gap bound : ℕ} {b w : ℚ} {closed : Prop} (hw : 0 < w)
    (hgap : (gap : ℚ) = x * w) (hbound : (bound : ℚ) = b * w) :
    (gap < bound ∨ closed ∧ gap = bound) ↔ (x < b ∨ closed ∧ x = b) := by
  rw [← Nat.cast_lt (α := ℚ), ← Nat.cast_inj (R := ℚ), hgap, hbound,
    mul_lt_mul_iff_of_pos_right hw, mul_left_inj' hw.ne']

theorem ofDouble_value : ((Interval.ofDouble m q).num : ℚ) / (Interval.ofDouble m q).den =
    m * 2 ^ q := by
  have hden : ((Interval.ofDouble m q).den : ℚ) ≠ 0 := by
    exact_mod_cast (ofDouble_den_pos m q).ne'
  rw [(ofDouble_eq m q).1, mul_div_assoc, div_self hden, mul_one]

/-- What is compared for the distance of a decimal, over the denominator that they share. -/
theorem scaled_eq (m : ℕ) (q : ℤ) (d : ℕ) (k : ℤ) : let i := Interval.ofDouble m q
    let w : ℚ := i.den * 10 ^ (-k).toNat
    ((d * 10 ^ k.toNat * i.den : ℕ) : ℚ) = (d : ℚ) * 10 ^ k * w ∧
      ((i.num * 10 ^ (-k).toNat : ℕ) : ℚ) = m * 2 ^ q * w ∧
      ((i.below * 10 ^ (-k).toNat : ℕ) : ℚ) = gapBelow m q * 2 ^ q * w ∧
      ((i.above * 10 ^ (-k).toNat : ℕ) : ℚ) = 1 / 2 * 2 ^ q * w := by
  obtain ⟨hnum, hbelow, habove⟩ := ofDouble_eq m q
  dsimp only
  refine ⟨?_, ?_, ?_, ?_⟩
  · rw [zpow_eq_div]
    push_cast
    field_simp
  · push_cast
    rw [hnum]
    ring
  · push_cast
    rw [hbelow]
    ring
  · push_cast
    rw [habove]
    ring

/-- A decimal has a distance if it lies in the interval. Both are over one denominator. -/
theorem distance?_cases (m : ℕ) (q : ℤ) (d : ℕ) (k : ℤ) :
    (∃ g, (Interval.ofDouble m q).distance? d k = some g ∧ IsAround ((d : ℚ) * 10 ^ k) m q ∧
      (g : ℚ) = |(d : ℚ) * 10 ^ k - m * 2 ^ q| *
        ((Interval.ofDouble m q).den * 10 ^ (-k).toNat)) ∨
    (Interval.ofDouble m q).distance? d k = none ∧ ¬ IsAround ((d : ℚ) * 10 ^ k) m q := by
  have hden : (0 : ℚ) < (Interval.ofDouble m q).den := by exact_mod_cast ofDouble_den_pos m q
  have hclosed : (Interval.ofDouble m q).closed = true ↔ m % 2 = 0 := decide_eq_true_iff
  have hscale : (0 : ℚ) < 2 ^ q := by positivity
  have hgap := gapBelow_pos m q
  obtain ⟨hpoint, hcentre, hbelow, habove⟩ := scaled_eq m q d k
  have hwpos : (0 : ℚ) < (Interval.ofDouble m q).den * 10 ^ (-k).toNat := by positivity
  rw [isAround_iff]
  simp only [Interval.distance?, pow_eq, hclosed]
  generalize Interval.ofDouble m q = i at *
  generalize (i.den : ℚ) * 10 ^ (-k).toNat = w at *
  generalize (d : ℚ) * 10 ^ k = x at *
  generalize d * 10 ^ k.toNat * i.den = point at hpoint ⊢
  generalize i.num * 10 ^ (-k).toNat = centre at hcentre ⊢
  generalize i.below * 10 ^ (-k).toNat = below at hbelow ⊢
  generalize i.above * 10 ^ (-k).toNat = above at habove ⊢
  split
  · rename_i hle
    have hcast : ((centre - point : ℕ) : ℚ) = (m * 2 ^ q - x) * w := by
      rw [Nat.cast_sub hle, hcentre, hpoint]
      ring
    have hnonneg : 0 ≤ m * 2 ^ q - x :=
      nonneg_of_mul_nonneg_left (hcast ▸ Nat.cast_nonneg _) hwpos
    have hupper : x - m * 2 ^ q < 1 / 2 * 2 ^ q := by linarith
    rw [abs_sub_comm, abs_of_nonneg hnonneg, ← side_iff hwpos hcast hbelow]
    by_cases hin : centre - point < below ∨ m % 2 = 0 ∧ centre - point = below
    · exact .inl ⟨_, if_pos hin, ⟨hin, .inl hupper⟩, hcast⟩
    · exact .inr ⟨if_neg hin, fun h => hin h.1⟩
  · rename_i hgt
    have hcast : ((point - centre : ℕ) : ℚ) = (x - m * 2 ^ q) * w := by
      rw [Nat.cast_sub (not_le.1 hgt).le, hcentre, hpoint]
      ring
    have hnonneg : 0 ≤ x - m * 2 ^ q :=
      nonneg_of_mul_nonneg_left (hcast ▸ Nat.cast_nonneg _) hwpos
    have hlower : m * 2 ^ q - x < gapBelow m q * 2 ^ q := by
      have hpos : 0 < gapBelow m q * 2 ^ q := by positivity
      linarith
    rw [abs_of_nonneg hnonneg, ← side_iff hwpos hcast habove]
    by_cases hin : point - centre < above ∨ m % 2 = 0 ∧ point - centre = above
    · exact .inl ⟨_, if_pos hin, ⟨.inl hlower, hin⟩, hcast⟩
    · exact .inr ⟨if_neg hin, fun h => hin h.2⟩

end Interval

section Grid

variable {m : ℕ} {q : ℤ}

/-- The neighbours of a number among the multiples of a power of ten. -/
theorem low_bounds (num : ℕ) {den : ℕ} (hden : 0 < den) (k : ℤ) :
    let low := num * Nat.pow 10 (-k).toNat / (den * Nat.pow 10 k.toNat)
    (low : ℚ) * 10 ^ k ≤ num / den ∧ (num : ℚ) / den < (low + 1 : ℕ) * 10 ^ k := by
  intro low
  have hpos : (0 : ℚ) < den := by exact_mod_cast hden
  have hden' : 0 < den * Nat.pow 10 k.toNat := Nat.mul_pos hden (by rw [pow_eq]; positivity)
  have hlow : low * (den * Nat.pow 10 k.toNat) ≤ num * Nat.pow 10 (-k).toNat :=
    Nat.div_mul_le_self _ _
  have hhigh : num * Nat.pow 10 (-k).toNat < (low + 1) * (den * Nat.pow 10 k.toNat) := by
    rw [Nat.mul_comm (low + 1)]
    exact Nat.lt_mul_div_succ _ hden'
  rw [pow_eq, pow_eq] at hlow hhigh
  have hlow' : (low : ℚ) * (den * 10 ^ k.toNat) ≤ num * 10 ^ (-k).toNat := by exact_mod_cast hlow
  have hhigh' : (num : ℚ) * 10 ^ (-k).toNat < (low + 1 : ℕ) * (den * 10 ^ k.toNat) := by
    exact_mod_cast hhigh
  have hup : (0 : ℚ) < 10 ^ (-k).toNat := by positivity
  rw [zpow_eq_div, ← mul_div_assoc, ← mul_div_assoc, div_le_div_iff₀ hup hpos,
    div_lt_div_iff₀ hpos hup]
  constructor
  · linarith
  · linarith

/-- The best of the multiples of a power of ten that round to a double. -/
structure IsBest (tie : TieRule) (m : ℕ) (q k : ℤ) (n : ℕ) : Prop where
  around : IsAround ((n : ℚ) * 10 ^ k) m q
  nearest : ∀ a : ℕ, IsAround ((a : ℚ) * 10 ^ k) m q →
    |(n : ℚ) * 10 ^ k - m * 2 ^ q| ≤ |(a : ℚ) * 10 ^ k - m * 2 ^ q|
  tied : ∀ a : ℕ, IsAround ((a : ℚ) * 10 ^ k) m q →
    |(n : ℚ) * 10 ^ k - m * 2 ^ q| = |(a : ℚ) * 10 ^ k - m * 2 ^ q| → a ≠ n → tie.Prefers n a

/-- Of the multiples that round to a double, one of the two neighbours is the nearest. -/
theorem exists_neighbour {low a : ℕ} {k : ℤ} (hlow : (low : ℚ) * 10 ^ k ≤ m * 2 ^ q)
    (hhigh : (m : ℚ) * 2 ^ q < (low + 1 : ℕ) * 10 ^ k) (ha : IsAround ((a : ℚ) * 10 ^ k) m q) :
    ∃ b, (b = low ∨ b = low + 1) ∧ IsAround ((b : ℚ) * 10 ^ k) m q ∧
      (b = a ∨ |(b : ℚ) * 10 ^ k - m * 2 ^ q| < |(a : ℚ) * 10 ^ k - m * 2 ^ q|) := by
  have hten : (0 : ℚ) < 10 ^ k := by positivity
  rcases Nat.lt_or_ge low a with hlt | hge
  · have hmono : ((low + 1 : ℕ) : ℚ) * 10 ^ k ≤ a * 10 ^ k := by
      gcongr
      exact hlt
    refine ⟨low + 1, .inr rfl, isAround_of_between isAround_self ha hhigh.le hmono, ?_⟩
    rcases Nat.eq_or_lt_of_le hlt with heq | hlt'
    · exact .inl heq
    · right
      have hstrict : ((low + 1 : ℕ) : ℚ) * 10 ^ k < a * 10 ^ k := by
        gcongr
      rw [abs_of_pos (by linarith), abs_of_pos (by linarith)]
      linarith
  · have hmono : (a : ℚ) * 10 ^ k ≤ low * 10 ^ k := by gcongr
    refine ⟨low, .inl rfl, isAround_of_between ha isAround_self hmono hlow, ?_⟩
    rcases Nat.eq_or_lt_of_le hge with heq | hlt'
    · exact .inl heq.symm
    · right
      have hstrict : (a : ℚ) * 10 ^ k < low * 10 ^ k := by
        gcongr
      rw [abs_of_nonpos (by linarith), abs_of_nonpos (by linarith)]
      linarith

theorem isBest_of_neighbours {tie : TieRule} {low n : ℕ} {k : ℤ}
    (hlow : (low : ℚ) * 10 ^ k ≤ m * 2 ^ q) (hhigh : (m : ℚ) * 2 ^ q < (low + 1 : ℕ) * 10 ^ k)
    (hn : IsAround ((n : ℚ) * 10 ^ k) m q)
    (hbest : ∀ b, b = low ∨ b = low + 1 → IsAround ((b : ℚ) * 10 ^ k) m q → b = n ∨
      |(n : ℚ) * 10 ^ k - m * 2 ^ q| < |(b : ℚ) * 10 ^ k - m * 2 ^ q| ∨
      |(n : ℚ) * 10 ^ k - m * 2 ^ q| = |(b : ℚ) * 10 ^ k - m * 2 ^ q| ∧ tie.Prefers n b) :
    IsBest tie m q k n := by
  refine ⟨hn, fun a ha => ?_, fun a ha heq hne => ?_⟩
  · obtain ⟨b, hb, hin, hnear⟩ := exists_neighbour hlow hhigh ha
    have hle : |(b : ℚ) * 10 ^ k - m * 2 ^ q| ≤ |(a : ℚ) * 10 ^ k - m * 2 ^ q| := by
      rcases hnear with rfl | hlt
      · exact le_rfl
      · exact hlt.le
    rcases hbest b hb hin with rfl | hlt | ⟨heq, -⟩
    · exact hle
    · exact hlt.le.trans hle
    · exact heq.le.trans hle
  · obtain ⟨b, hb, hin, rfl | hlt⟩ := exists_neighbour hlow hhigh ha
    · rcases hbest b hb hin with rfl | hlt | ⟨-, hprefers⟩
      · exact absurd rfl hne
      · exact absurd heq hlt.ne
      · exact hprefers
    · rcases hbest b hb hin with rfl | hlt' | ⟨heq', -⟩
      · exact absurd heq hlt.ne
      · exact absurd heq (hlt'.trans hlt).ne
      · exact absurd (heq.symm.trans heq') hlt.ne'

theorem prefers_of_takesLower {tie : TieRule} {low : ℕ} (h : tie.takesLower low = true) :
    tie.Prefers low (low + 1) := by
  cases tie with
  | upper => cases h
  | even =>
    have heven : low % 2 = 0 := of_decide_eq_true h
    exact heven

theorem prefers_of_not_takesLower {tie : TieRule} {low : ℕ} (h : tie.takesLower low = false) :
    tie.Prefers (low + 1) low := by
  cases tie with
  | upper => exact Nat.lt_succ_self low
  | even =>
    have hodd : low % 2 ≠ 0 := of_decide_eq_false h
    have heven : (low + 1) % 2 = 0 := by omega
    exact heven

/-- Both neighbours round to the double, and the nearer one is taken. Their distances are told over
one denominator. -/
theorem isBest_nearer (tie : TieRule) {low a b : ℕ} {k : ℤ} {w : ℚ} (hw : 0 < w)
    (hlow : (low : ℚ) * 10 ^ k ≤ m * 2 ^ q) (hhigh : (m : ℚ) * 2 ^ q < (low + 1 : ℕ) * 10 ^ k)
    (hain : IsAround ((low : ℚ) * 10 ^ k) m q)
    (hbin : IsAround (((low + 1 : ℕ) : ℚ) * 10 ^ k) m q)
    (ha : (a : ℚ) = |(low : ℚ) * 10 ^ k - m * 2 ^ q| * w)
    (hb : (b : ℚ) = |((low + 1 : ℕ) : ℚ) * 10 ^ k - m * 2 ^ q| * w) :
    IsBest tie m q k (if a < b ∨ (a = b ∧ tie.takesLower low) then low else low + 1) := by
  have hlt : a < b ↔ |(low : ℚ) * 10 ^ k - m * 2 ^ q| <
      |((low + 1 : ℕ) : ℚ) * 10 ^ k - m * 2 ^ q| := by
    rw [← Nat.cast_lt (α := ℚ), ha, hb, mul_lt_mul_iff_of_pos_right hw]
  have hgt : b < a ↔ |((low + 1 : ℕ) : ℚ) * 10 ^ k - m * 2 ^ q| <
      |(low : ℚ) * 10 ^ k - m * 2 ^ q| := by
    rw [← Nat.cast_lt (α := ℚ), ha, hb, mul_lt_mul_iff_of_pos_right hw]
  have heq : a = b ↔ |(low : ℚ) * 10 ^ k - m * 2 ^ q| =
      |((low + 1 : ℕ) : ℚ) * 10 ^ k - m * 2 ^ q| := by
    rw [← Nat.cast_inj (R := ℚ), ha, hb, mul_left_inj' hw.ne']
  split
  · rename_i hchoice
    refine isBest_of_neighbours hlow hhigh hain ?_
    rintro c (rfl | rfl) _
    · exact .inl rfl
    · rcases hchoice with h | ⟨h, htie⟩
      · exact .inr (.inl (hlt.1 h))
      · exact .inr (.inr ⟨heq.1 h, prefers_of_takesLower htie⟩)
  · rename_i hchoice
    refine isBest_of_neighbours hlow hhigh hbin ?_
    rintro c (rfl | rfl) _
    · rcases Nat.lt_trichotomy a b with h | h | h
      · exact absurd (.inl h) hchoice
      · have hupper : tie.takesLower c = false :=
          Bool.eq_false_iff.2 fun htie => hchoice (.inr ⟨h, htie⟩)
        exact .inr (.inr ⟨(heq.1 h).symm, prefers_of_not_takesLower hupper⟩)
      · exact .inr (.inl (hgt.1 h))
    · exact .inl rfl

theorem onGrid?_cases (tie : TieRule) (m : ℕ) (q k : ℤ) :
    (∃ n, (Interval.ofDouble m q).onGrid? tie k = some ⟨n, k⟩ ∧ IsBest tie m q k n) ∨
      (Interval.ofDouble m q).onGrid? tie k = none ∧
        ∀ a : ℕ, ¬ IsAround ((a : ℚ) * 10 ^ k) m q := by
  have hden := ofDouble_den_pos m q
  have hdist := fun d => distance?_cases m q d k
  obtain ⟨hlow, hhigh⟩ := low_bounds (Interval.ofDouble m q).num hden k
  rw [ofDouble_value] at hlow hhigh
  have hw : (0 : ℚ) < (Interval.ofDouble m q).den * 10 ^ (-k).toNat := by positivity
  generalize ((Interval.ofDouble m q).den : ℚ) * 10 ^ (-k).toNat = w at hw hdist
  simp only [Interval.onGrid?]
  generalize (Interval.ofDouble m q).num * Nat.pow 10 (-k).toNat /
    ((Interval.ofDouble m q).den * Nat.pow 10 k.toNat) = low at hlow hhigh ⊢
  rcases hdist low with ⟨a, ha, hain, hacast⟩ | ⟨ha, hain⟩
  · rcases hdist (low + 1) with ⟨b, hb, hbin, hbcast⟩ | ⟨hb, hbin⟩
    · rw [ha, hb]
      exact .inl ⟨_, rfl, isBest_nearer tie hw hlow hhigh hain hbin hacast hbcast⟩
    · rw [ha, hb]
      refine .inl ⟨low, rfl, isBest_of_neighbours hlow hhigh hain ?_⟩
      intro c hc hin
      rcases hc with hc | hc
      · exact .inl hc
      · exact absurd (hc ▸ hin) hbin
  · rcases hdist (low + 1) with ⟨b, hb, hbin, _⟩ | ⟨hb, hbin⟩
    · rw [ha, hb]
      refine .inl ⟨low + 1, rfl, isBest_of_neighbours hlow hhigh hbin ?_⟩
      intro c hc hin
      rcases hc with hc | hc
      · exact absurd (hc ▸ hin) hain
      · exact .inl hc
    · rw [ha, hb]
      refine .inr ⟨rfl, fun c hc => ?_⟩
      obtain ⟨_, rfl | rfl, hin, -⟩ := exists_neighbour hlow hhigh hc
      · exact hain hin
      · exact hbin hin

/-- The first grid with a decimal that rounds to the double is the one that is taken. -/
theorem search_of_exists (tie : TieRule) {first : ℤ} (fuel : ℕ) {n j : ℕ} (hn : n ≤ j)
    (hj : j < n + fuel) (h : ∃ a : ℕ, IsAround ((a : ℚ) * 10 ^ (first - j)) m q) :
    ∃ l d, n ≤ l ∧ l ≤ j ∧ search (Interval.ofDouble m q) tie first fuel n = ⟨d, first - l⟩ ∧
      IsBest tie m q (first - l) d ∧
      ∀ i, n ≤ i → i < l → ∀ a : ℕ, ¬ IsAround ((a : ℚ) * 10 ^ (first - i)) m q := by
  induction fuel generalizing n with
  | zero => omega
  | succ fuel ih =>
    rcases onGrid?_cases tie m q (first - n) with ⟨d, hd, hbest⟩ | ⟨hnone, hmiss⟩
    · refine ⟨n, d, le_rfl, hn, ?_, hbest, fun i hi hlt => absurd hlt (not_lt.2 hi)⟩
      rw [search, hd]
    · have hne : n ≠ j := by
        rintro rfl
        obtain ⟨a, ha⟩ := h
        exact hmiss a ha
      obtain ⟨l, d, hl, hlj, hd, hbest, hbefore⟩ :=
        ih (Nat.lt_of_le_of_ne hn hne) (by omega)
      refine ⟨l, d, by omega, hlj, ?_, hbest, fun i hi hlt => ?_⟩
      · rw [search, hnone, hd]
      · rcases Nat.eq_or_lt_of_le hi with rfl | hgt
        · exact hmiss
        · exact hbefore i hgt hlt

theorem exists_length_quotient {a b : ℕ} (hb : 0 < b) (hle : b ≤ a) :
    ∃ n, (Nat.toDigits 10 (a / b)).length = n + 1 ∧ 10 ^ n * b ≤ a ∧ a < 10 ^ (n + 1) * b := by
  obtain ⟨hlow, hhigh⟩ := toDigits_bounds (Nat.div_pos hle hb)
  have hlength : 0 < (Nat.toDigits 10 (a / b)).length := Nat.length_toDigits_pos
  obtain ⟨n, hn⟩ := Nat.exists_eq_succ_of_ne_zero hlength.ne'
  rw [hn] at hlow hhigh
  exact ⟨n, hn, (Nat.le_div_iff_mul_le hb).1 hlow, (Nat.div_lt_iff_lt_mul hb).1 hhigh⟩

theorem leadingPlace_bounds {num den : ℕ} (hnum : 0 < num) (hden : 0 < den) :
    (10 : ℚ) ^ leadingPlace num den ≤ num / den ∧
      (num : ℚ) / den < 10 ^ (leadingPlace num den + 1) := by
  have hpos : (0 : ℚ) < den := by exact_mod_cast hden
  unfold leadingPlace
  split
  · rename_i hle
    obtain ⟨n, hn, hlow, hhigh⟩ := exists_length_quotient hden hle
    have hplace : ((n + 1 : ℕ) : ℤ) - 1 = (n : ℤ) := by omega
    rw [hn, hplace, le_div_iff₀ hpos, div_lt_iff₀ hpos]
    exact ⟨by exact_mod_cast hlow, by exact_mod_cast hhigh⟩
  · rename_i hlt
    obtain ⟨k, hk, hlow, hhigh⟩ := exists_length_quotient hnum (not_le.1 hlt).le
    have hreaches : ∀ j : ℕ, (10 : ℚ) ^ (-(j : ℤ)) ≤ num / den ↔ den ≤ num * 10 ^ j := by
      intro j
      rw [zpow_neg, zpow_natCast, ← one_div, div_le_div_iff₀ (by positivity) hpos, one_mul]
      norm_cast
    have hsucc : -(((k + 1 : ℕ) : ℤ)) = -(k : ℤ) - 1 := by omega
    dsimp only
    rw [hk, Nat.add_sub_cancel, pow_eq]
    split
    · rename_i hyes
      refine ⟨(hreaches k).2 hyes, ?_⟩
      have hle : (num : ℚ) / den ≤ 10 ^ (-(k : ℤ)) := by
        rw [zpow_neg, zpow_natCast, ← one_div, div_le_div_iff₀ hpos (by positivity), one_mul,
          mul_comm]
        exact_mod_cast hlow
      exact hle.trans_lt (zpow_lt_zpow_right₀ (by norm_num) (by omega))
    · rename_i hno
      rw [← hsucc, hreaches, Nat.mul_comm, hsucc, sub_add_cancel, ← not_le, hreaches]
      exact ⟨hhigh.le, hno⟩

theorem exists_multiple_near {t y : ℚ} (ht : 0 < t) (hy : 0 ≤ y) :
    ∃ a : ℕ, |(a : ℚ) * t - y| ≤ t / 2 := by
  have hquotient : 0 ≤ y / t + 1 / 2 := by positivity
  have hfloor := Nat.floor_le hquotient
  have hfloor' := Nat.lt_floor_add_one (y / t + 1 / 2)
  generalize ⌊y / t + 1 / 2⌋₊ = a at hfloor hfloor'
  have hunit : |(a : ℚ) - y / t| ≤ 1 / 2 := abs_le.2 ⟨by linarith, by linarith⟩
  refine ⟨a, ?_⟩
  calc |(a : ℚ) * t - y| = |a - y / t| * t := by
        rw [← abs_of_pos ht, ← abs_mul, abs_of_pos ht, sub_mul, div_mul_cancel₀ _ ht.ne']
    _ ≤ 1 / 2 * t := by gcongr
    _ = t / 2 := by ring

/-- Seventeen digits are finer than the gaps between doubles. -/
theorem exists_isAround (hm : m < 2 ^ 53) {first : ℤ} (hfirst : (10 : ℚ) ^ first ≤ m * 2 ^ q) :
    ∃ a : ℕ, IsAround ((a : ℚ) * 10 ^ (first - 16)) m q := by
  have hscale : (0 : ℚ) < 2 ^ q := by positivity
  have hten : (0 : ℚ) < 10 ^ (first - 16) := by positivity
  have hfine : (10 : ℚ) ^ (first - 16) * 10 ^ 16 ≤ m * 2 ^ q := by
    have hsplit : (10 : ℚ) ^ (first - 16) * 10 ^ 16 = 10 ^ first := by
      rw [← zpow_natCast, ← zpow_add₀ (by norm_num)]
      congr 1
      push_cast
      ring
    rw [hsplit]
    exact hfirst
  generalize (10 : ℚ) ^ (first - 16) = t at hten hfine ⊢
  obtain ⟨a, hnear⟩ := exists_multiple_near hten (y := m * 2 ^ q) (by positivity)
  have hsmall : t / 2 < gapBelow m q * 2 ^ q := by
    unfold gapBelow
    split
    · rename_i hpow
      rw [hpow.1] at hfine
      push_cast at hfine
      linarith
    · have hbound : (m : ℚ) * 2 ^ q ≤ 2 ^ 53 * 2 ^ q := by
        gcongr
        exact_mod_cast hm.le
      linarith
  have hgap := gapBelow_le m q
  have hhalf : gapBelow m q * 2 ^ q ≤ 1 / 2 * 2 ^ q := by gcongr
  obtain ⟨hlow, hhigh⟩ := abs_le.1 hnear
  exact ⟨a, isAround_iff.2 ⟨.inl (by linarith), .inl (by linarith)⟩⟩

end Grid

end Shortest

open Shortest

section Shortest

variable {m : ℕ} {q : ℤ} {d : Decimal}

theorem Decimal.normalize_of_ne {d : Decimal} (h : d.digits % 10 ≠ 0) (fuel : ℕ) :
    d.normalize fuel = d := by
  cases fuel with
  | zero => rfl
  | succ fuel => rw [normalize, if_neg fun hd => h hd.2]

theorem Decimal.normalize_ten (k : ℤ) : (Decimal.mk 10 k).normalize 20 = ⟨1, k + 1⟩ := by
  have hdivide : (10 : ℕ) / 10 = 1 := rfl
  rw [normalize, if_pos (by simp)]
  dsimp only
  rw [hdivide]
  exact normalize_of_ne (by simp) 19

theorem shortestDecimal_zero (tie : TieRule) (q : ℤ) :
    (shortestDecimal tie 0 q).IsShortest tie 0 q := by
  have hzero : shortestDecimal tie 0 q = ⟨0, 0⟩ := rfl
  have hvalue : (Decimal.mk 0 0).value = 0 := Decimal.value_eq_zero.2 rfl
  rw [hzero]
  refine ⟨Decimal.readsAs_zero 0 q, fun _ _ => Nat.length_toDigits_pos,
    fun _ _ _ => ?_, fun d _ he heq hne => ?_⟩
  · simp only [hvalue, Nat.cast_zero, zero_mul, sub_zero, abs_zero]
    exact abs_nonneg _
  · simp only [hvalue, Nat.cast_zero, zero_mul, sub_zero, abs_zero] at heq
    exact absurd (Decimal.value_eq_zero.1 (abs_eq_zero.1 heq.symm)) hne

theorem isShortest_of_isBest {tie : TieRule} {n : ℕ} {k : ℤ} (hm : IsDouble m q) (hpos : 0 < m)
    (h : IsBest tie m q k n)
    (hshortest : ∀ d' : Decimal, d'.ReadsAs m q →
      (Nat.toDigits 10 n).length ≤ (Nat.toDigits 10 d'.digits).length) :
    (Decimal.mk n k).IsShortest tie m q := by
  refine ⟨(Decimal.readsAs_iff hm hpos).2 h.around, hshortest, fun d hd he => ?_,
    fun d hd he heq hne => ?_⟩
  · rw [Decimal.readsAs_iff hm hpos, Decimal.value, he] at hd
    rw [Decimal.value, Decimal.value, he]
    exact h.nearest _ hd
  · rw [Decimal.readsAs_iff hm hpos, Decimal.value, he] at hd
    rw [Decimal.value, Decimal.value, he] at heq
    exact h.tied _ hd heq hne

theorem mul_zpow_succ (a : ℕ) (k : ℤ) : (a : ℚ) * 10 ^ (k + 1) = (10 * a : ℕ) * 10 ^ k := by
  rw [zpow_add_one₀ (by norm_num)]
  push_cast
  ring

/-- Ten of a power of ten are one of the next. -/
theorem isShortest_of_isBest_ten {tie : TieRule} {k : ℤ} (hm : IsDouble m q) (hpos : 0 < m)
    (h : IsBest tie m q k 10) (hlt : (m : ℚ) * 2 ^ q < 10 ^ (k + 1)) :
    (Decimal.mk 1 (k + 1)).IsShortest tie m q := by
  have hten : (0 : ℚ) < 10 ^ k := by positivity
  have hvalue : ∀ d : Decimal, d.exponent = k + 1 → d.value = (10 * d.digits : ℕ) * 10 ^ k :=
    fun d he => by rw [Decimal.value, he, mul_zpow_succ]
  have hone : (Decimal.mk 1 (k + 1)).value = (10 : ℕ) * 10 ^ k := hvalue ⟨1, k + 1⟩ rfl
  refine ⟨?_, fun d _ => ?_, fun d hd he => ?_, fun d hd he heq hne => ?_⟩
  · rw [Decimal.readsAs_iff hm hpos, hone]
    exact h.around
  · exact (length_toDigits_of_lt_ten (by simp)).trans Nat.length_toDigits_pos
  · rw [Decimal.readsAs_iff hm hpos, hvalue d he] at hd
    rw [hone, hvalue d he]
    exact h.nearest _ hd
  · -- the double lies below, so only nothing at all is as far away from it
    exfalso
    rw [Decimal.readsAs_iff hm hpos, Decimal.value, he] at hd
    simp only [Decimal.value, he, Nat.cast_one, one_mul] at heq
    rcases Nat.lt_or_ge d.digits 1 with hzero | hmany
    · exact absurd (hd.digits_pos hm hpos) (by omega)
    · have htwo : 2 ≤ d.digits := Nat.lt_of_le_of_ne hmany (Ne.symm hne)
      have hdouble : 2 * (10 : ℚ) ^ (k + 1) ≤ d.digits * 10 ^ (k + 1) := by
        gcongr
        exact_mod_cast htwo
      have hnext : (0 : ℚ) < 10 ^ (k + 1) := by positivity
      rw [abs_of_pos (by linarith), abs_of_pos (by linarith)] at heq
      linarith

/-- A shorter decimal lies on a coarser grid or has a power of ten between it and this one. -/
theorem length_le_of_no_coarser {d' : Decimal} (hm : IsDouble m q) (hpos : 0 < m)
    (hd : IsAround d.value m q)
    (hmiss : ∀ a : ℕ, ¬ IsAround ((a : ℚ) * 10 ^ (d.exponent + 1)) m q)
    (hd' : IsAround d'.value m q) :
    (Nat.toDigits 10 d.digits).length ≤ (Nat.toDigits 10 d'.digits).length := by
  have hten : (10 : ℚ) ≠ 0 := by norm_num
  by_contra! hlt
  have hlength : 0 < (Nat.toDigits 10 d'.digits).length := Nat.length_toDigits_pos
  have hlow := (Decimal.value_bounds (IsAround.digits_pos hd hm hpos)).1
  have hhigh := (Decimal.value_bounds (IsAround.digits_pos hd' hm hpos)).2
  generalize (Nat.toDigits 10 d.digits).length = long at *
  generalize (Nat.toDigits 10 d'.digits).length = short at *
  rcases Int.lt_or_le d.exponent d'.exponent with hcoarse | hfine
  · refine hmiss (d'.digits * 10 ^ (d'.exponent - (d.exponent + 1)).toNat) ?_
    have hvalue : ((d'.digits * 10 ^ (d'.exponent - (d.exponent + 1)).toNat : ℕ) : ℚ) *
        10 ^ (d.exponent + 1) = d'.value := by
      rw [Decimal.value]
      push_cast
      rw [mul_assoc, ← zpow_natCast, ← zpow_add₀ hten]
      congr 2
      omega
    rwa [hvalue]
  · refine hmiss (10 ^ (long - 2)) ?_
    have hvalue : ((10 ^ (long - 2) : ℕ) : ℚ) * 10 ^ (d.exponent + 1) =
        10 ^ (d.exponent + long - 1) := by
      push_cast
      rw [← zpow_natCast, ← zpow_add₀ hten]
      congr 1
      omega
    have hmono : (10 : ℚ) ^ (d'.exponent + short) ≤ 10 ^ (d.exponent + long - 1) :=
      zpow_le_zpow_right₀ (by norm_num) (by omega)
    rw [hvalue]
    exact isAround_of_between hd' hd (hhigh.trans_le hmono).le hlow

/-- A single digit, or ten of its unit, is the best that one digit can be. -/
theorem le_ten_of_isBest {tie : TieRule} {n : ℕ} {k : ℤ} (h : IsBest tie m q k n)
    (hlt : (m : ℚ) * 2 ^ q < 10 ^ (k + 1)) : n ≤ 10 := by
  by_contra! hn
  have hten : (0 : ℚ) < 10 ^ k := by positivity
  rw [zpow_add_one₀ (by norm_num)] at hlt
  have hstrict : ((10 : ℕ) : ℚ) * 10 ^ k < n * 10 ^ k := by gcongr
  have hin : IsAround (((10 : ℕ) : ℚ) * 10 ^ k) m q :=
    isAround_of_between isAround_self h.around (by push_cast; linarith) hstrict.le
  have hnear := h.nearest 10 hin
  push_cast at hnear hstrict
  rw [abs_of_pos (by linarith), abs_of_pos (by linarith)] at hnear
  linarith

theorem shortestDecimal_isShortest (tie : TieRule) (hm : IsDouble m q) :
    (shortestDecimal tie m q).IsShortest tie m q := by
  rcases Nat.eq_zero_or_pos m with rfl | hpos
  · exact shortestDecimal_zero tie q
  have hnum : 0 < (Interval.ofDouble m q).num := by
    simp only [Interval.ofDouble, pow_eq]
    positivity
  obtain ⟨hlow, hhigh⟩ := leadingPlace_bounds hnum (ofDouble_den_pos m q)
  rw [ofDouble_value] at hlow hhigh
  simp only [shortestDecimal, if_neg hpos.ne']
  generalize leadingPlace (Interval.ofDouble m q).num (Interval.ofDouble m q).den = first at *
  obtain ⟨l, n, -, hl, hsearch, hbest, hbefore⟩ := search_of_exists tie 17
    (Nat.zero_le 16) (by decide) (exists_isAround hm.bound hlow)
  rw [hsearch]
  obtain _ | l := l
  · rw [Nat.cast_zero, sub_zero] at *
    rcases Nat.lt_or_eq_of_le (le_ten_of_isBest hbest hhigh) with hdigit | rfl
    · have hone : ∀ d' : Decimal, (Nat.toDigits 10 n).length ≤ (Nat.toDigits 10 d'.digits).length :=
        fun d' => (length_toDigits_of_lt_ten hdigit).trans Nat.length_toDigits_pos
      have hpositive := hbest.around.digits_pos hm hpos
      have hn0 : n % 10 ≠ 0 := by omega
      rw [Decimal.normalize_of_ne hn0]
      exact isShortest_of_isBest hm hpos hbest fun d' _ => hone d'
    · rw [Decimal.normalize_ten]
      exact isShortest_of_isBest_ten hm hpos hbest hhigh
  · have hmiss := hbefore l (Nat.zero_le l) (Nat.lt_succ_self l)
    have hnext : first - (l : ℤ) = first - ((l + 1 : ℕ) : ℤ) + 1 := by omega
    rw [hnext] at hmiss
    have hn0 : n % 10 ≠ 0 := by
      intro hzero
      obtain ⟨a, rfl⟩ := Nat.dvd_of_mod_eq_zero hzero
      refine hmiss a ?_
      rw [mul_zpow_succ]
      exact hbest.around
    rw [Decimal.normalize_of_ne hn0]
    exact isShortest_of_isBest hm hpos hbest fun d' hd' =>
      length_le_of_no_coarser (d := ⟨n, first - (l + 1 : ℕ)⟩) hm hpos hbest.around hmiss
        ((Decimal.readsAs_iff hm hpos).1 hd')

end Shortest

end ModuleCompiler
