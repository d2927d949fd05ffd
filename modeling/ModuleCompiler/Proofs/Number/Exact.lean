import Mathlib.Data.Nat.Digits.Defs
import ModuleCompiler.Number.Binary

/-!
Whole numbers that need no rounding: a double holds every one below `2 ^ 53` as it is, and its
products with powers of two, too.
-/

namespace ModuleCompiler.BinaryFloat

theorem roundHalfEven_one (n : Nat) : roundHalfEven n 1 = n := by
  simp [roundHalfEven, Nat.mod_one]

/-- The last place of a whole number lies so far below its first one that it has room for all of
it. -/
theorem lastPlace_natural {n : Nat} (hpos : 0 < n) (hn : n < 2 ^ 53) :
    lastPlace .double n 1 = (n.log2 : Int) - 52 := by
  have hlog : n.log2 < 53 := (Nat.log2_lt (Nat.ne_of_gt hpos)).2 hn
  have hself : 2 ^ n.log2 ≤ n := Nat.log2_self_le (Nat.ne_of_gt hpos)
  have hone : (1 : Nat).log2 = 0 := by decide
  have hguess : (n.log2 : Int) - ((1 : Nat).log2 : Int) = n.log2 := by rw [hone]; omega
  have hneg : (-(n.log2 : Int)).toNat = 0 := by omega
  have hbelow : ¬ n * Nat.pow 2 0 < 1 * Nat.pow 2 n.log2 := by
    have hpow : Nat.pow 2 n.log2 = 2 ^ n.log2 := rfl
    have hzero : Nat.pow 2 0 = 1 := rfl
    rw [hpow, hzero]
    omega
  simp only [lastPlace, hguess, hneg, Int.toNat_natCast, hbelow, if_false, Format.double]
  omega

theorem ofRatio_natural (negative : Bool) {n : Nat} (hpos : 0 < n) (hn : n < 2 ^ 53) :
    ofRatio .double negative n 1 =
      .finite negative (n * 2 ^ (52 - n.log2)) ((n.log2 : Int) - 52) := by
  have hlog : n.log2 < 53 := (Nat.log2_lt (Nat.ne_of_gt hpos)).2 hn
  have hneg : (-((n.log2 : Int) - 52)).toNat = 52 - n.log2 := by omega
  have htoNat : ((n.log2 : Int) - 52).toNat = 0 := by omega
  have hden : 1 * Nat.pow 2 0 = 1 := rfl
  have hnear : ¬ (Format.double.greatest < (n.log2 : Int) - 52 ∨
      ((n.log2 : Int) - 52 = Format.double.greatest ∧
        n * Nat.pow 2 (52 - n.log2) = Nat.pow 2 Format.double.precision)) := by
    have hgreatest : Format.double.greatest = 971 := rfl
    rw [hgreatest]
    omega
  simp only [ofRatio, lastPlace_natural hpos hn, hneg, htoNat, hden, roundHalfEven_one,
    if_neg hnear, if_neg (Nat.ne_of_gt hpos)]
  rfl

theorem ofScientific_natural (negative : Bool) {n : Nat} (hpos : 0 < n) (hn : n < 2 ^ 53) :
    ofScientific .double negative n 0 =
      .finite negative (n * 2 ^ (52 - n.log2)) ((n.log2 : Int) - 52) := by
  have hlength : (Nat.toDigits 10 n).length ≤ 16 :=
    Nat.toDigits_length 10 n 16 (by decide) (Nat.lt_trans hn (by decide))
  have hhigh : ¬ 310 < (0 : Int) + (Nat.toDigits 10 n).length := by omega
  have hlow : ¬ (0 : Int) + (Nat.toDigits 10 n).length < -330 := by omega
  have hnum : n * Nat.pow 10 (0 : Int).toNat = n := Nat.mul_one n
  have hden : Nat.pow 10 (-(0 : Int)).toNat = 1 := rfl
  simp only [ofScientific, if_neg (Nat.ne_of_gt hpos), if_neg hhigh, if_neg hlow, hnum, hden]
  exact ofRatio_natural negative hpos hn

/-- Scaling moves the binary point, so nothing is cut off but what exceeds the bound. -/
theorem scaledFloor_finite (bound k n j : Nat) (negative : Bool) :
    scaledFloor bound k (.finite negative (n * 2 ^ j) (-(j : Int))) = min (n * 2 ^ k) bound := by
  have hvalue : n * 2 ^ j * Nat.pow 2 (-(j : Int) + k).toNat /
      Nat.pow 2 (-(-(j : Int) + k)).toNat = n * 2 ^ k := by
    rcases Nat.le_total j k with hjk | hkj
    · have hup : (-(j : Int) + k).toNat = k - j := by omega
      have hdown : (-(-(j : Int) + k)).toNat = 0 := by omega
      have hpow : (2 : Nat) ^ j * 2 ^ (k - j) = 2 ^ k := by
        rw [← Nat.pow_add, Nat.add_sub_cancel' hjk]
      rw [hup, hdown]
      calc n * 2 ^ j * 2 ^ (k - j) / 2 ^ 0 = n * (2 ^ j * 2 ^ (k - j)) := by
            rw [Nat.pow_zero, Nat.div_one, Nat.mul_assoc]
        _ = n * 2 ^ k := by rw [hpow]
    · have hup : (-(j : Int) + k).toNat = 0 := by omega
      have hdown : (-(-(j : Int) + k)).toNat = j - k := by omega
      have hpow : (2 : Nat) ^ k * 2 ^ (j - k) = 2 ^ j := by
        rw [← Nat.pow_add, Nat.add_sub_cancel' hkj]
      rw [hup, hdown]
      calc n * 2 ^ j * 2 ^ 0 / 2 ^ (j - k) = n * 2 ^ k * 2 ^ (j - k) / 2 ^ (j - k) := by
            rw [Nat.pow_zero, Nat.mul_one, Nat.mul_assoc n (2 ^ k), hpow]
        _ = n * 2 ^ k := Nat.mul_div_cancel _ (Nat.two_pow_pos _)
  simp only [scaledFloor, hvalue]

theorem scaledFloor_natural (bound k : Nat) {n : Nat} (hpos : 0 < n) (hn : n < 2 ^ 53) :
    scaledFloor bound k (ofScientific .double false n 0) = min (n * 2 ^ k) bound := by
  have hlog : n.log2 < 53 := (Nat.log2_lt (Nat.ne_of_gt hpos)).2 hn
  have hplace : (n.log2 : Int) - 52 = -((52 - n.log2 : Nat) : Int) := by omega
  rw [ofScientific_natural false hpos hn, hplace]
  exact scaledFloor_finite bound k n (52 - n.log2) false

theorem isPositive_natural {n : Nat} (hpos : 0 < n) (hn : n < 2 ^ 53) :
    (ofScientific .double false n 0).isPositive = true := by
  have hmantissa : n * 2 ^ (52 - n.log2) ≠ 0 :=
    Nat.ne_of_gt (Nat.mul_pos hpos (Nat.two_pow_pos _))
  simp [ofScientific_natural false hpos hn, isPositive, hmantissa]

end ModuleCompiler.BinaryFloat
