import Mathlib.Data.List.DropRight
import ModuleCompiler.Text.Alphabetic
import ModuleCompiler.Text.Blank
import ModuleCompiler.Text.Upper

/-!
Upper case never makes or loses the first letter of a text: what is no letter has no upper case but
itself, and the upper case of a letter begins with a letter. White space holds no letters.
-/

namespace ModuleCompiler

/-- A set of code points as a number, with a bit for each member. -/
def CodeRanges.bits (rs : CodeRanges) : Nat :=
  rs.foldr (fun r b => (Nat.pow 2 (r.2 + 1 - r.1) - 1) <<< r.1 ||| b) 0

theorem CodeRanges.testBit_bits (rs : CodeRanges) (n : Nat) :
    rs.bits.testBit n = rs.any fun r => r.1 ≤ n && n ≤ r.2 := by
  induction rs with
  | nil => exact Nat.zero_testBit n
  | cons r rs ih =>
    have hones : (Nat.pow 2 (r.2 + 1 - r.1) - 1).testBit (n - r.1) =
        decide (n - r.1 < r.2 + 1 - r.1) := Nat.testBit_two_pow_sub_one _ _
    have hrange : ((Nat.pow 2 (r.2 + 1 - r.1) - 1) <<< r.1).testBit n =
        (decide (r.1 ≤ n) && decide (n ≤ r.2)) := by
      rw [Nat.testBit_shiftLeft, hones, Bool.eq_iff_iff]
      simp only [Bool.and_eq_true, decide_eq_true_eq, ge_iff_le]
      omega
    rw [List.any_cons, ← ih, ← hrange, ← Nat.testBit_or]
    rfl

section Tables

/-- The code points of letters: members of the tables are looked up in it one by one. -/
def letterBits : Nat := alphabeticRanges.bits

theorem letterBits_ascii : ∀ n < 128, letterBits.testBit n = (Char.ofNat n).isAlpha := by
  decide +kernel

theorem toUpper_ascii : ∀ n < 128, letterBits.testBit (Char.ofNat n).toUpper.toNat =
    letterBits.testBit n ∧ (letterBits.testBit n = false → (Char.ofNat n).toUpper = Char.ofNat n) := by
  decide +kernel

def blankRanges : CodeRanges :=
  [(9, 13), (0x20, 0x20), (0x85, 0x85), (0xa0, 0xa0), (0x1680, 0x1680), (0x2000, 0x200a),
    (0x2028, 0x2029), (0x202f, 0x202f), (0x205f, 0x205f), (0x3000, 0x3000)]

theorem letterBits_blank : letterBits &&& blankRanges.bits = 0 := by
  decide +kernel

theorem alphabeticRanges_valid :
    alphabeticRanges.all (fun r => r.2 < 0xd800 || (0xdfff < r.1 && r.2 < 0x110000)) = true := by
  decide +kernel

theorem upperExpansions_letters : upperExpansions.all (fun e =>
    letterBits.testBit e.1 && e.2.head?.any letterBits.testBit) = true := by
  decide +kernel

theorem upperRuns_letters : upperRuns.all (fun r => 0 < r.2.2.1 &&
    (List.range ((r.2.1 - r.1) / r.2.2.1 + 1)).all fun i =>
      letterBits.testBit (r.1 + i * r.2.2.1) &&
        letterBits.testBit (r.2.2.2 + i * r.2.2.1)) = true := by
  decide +kernel

end Tables

section Letters

variable {c : Char}

theorem isAlphabetic_eq_testBit (c : Char) : isAlphabetic c = letterBits.testBit c.toNat := by
  by_cases hc : c.toNat < 128
  · rw [isAlphabetic, if_pos hc, letterBits_ascii c.toNat hc, Char.ofNat_toNat]
  · rw [isAlphabetic, if_neg hc, letterBits, CodeRanges.testBit_bits]
    rfl

theorem isAlphabetic_ofNat {n : Nat} (h : letterBits.testBit n = true) :
    isAlphabetic (Char.ofNat n) = true := by
  have hrange := h
  rw [letterBits, CodeRanges.testBit_bits, List.any_eq_true] at hrange
  obtain ⟨r, hr, hbounds⟩ := hrange
  have hvalid := List.all_eq_true.1 alphabeticRanges_valid r hr
  simp only [Bool.and_eq_true, Bool.or_eq_true, decide_eq_true_eq] at hbounds hvalid
  have hn : n.isValidChar := by
    unfold Nat.isValidChar
    omega
  have hcode : (Char.ofNat n).toNat = n := by
    rw [Char.ofNat, dif_pos hn]
    rfl
  rw [isAlphabetic_eq_testBit, hcode, h]

theorem isAlphabetic_eq_false_of_isBlank (h : isBlank c = true) : isAlphabetic c = false := by
  have hbit : blankRanges.bits.testBit c.toNat = true := by
    simp only [isBlank, Bool.or_eq_true, Bool.and_eq_true, decide_eq_true_eq] at h
    simp only [CodeRanges.testBit_bits, blankRanges, List.any_cons, List.any_nil, Bool.or_eq_true,
      Bool.and_eq_true, decide_eq_true_eq]
    omega
  have hnone := congrArg (Nat.testBit · c.toNat) letterBits_blank
  rw [isAlphabetic_eq_testBit]
  simpa [Nat.testBit_and, hbit] using hnone

theorem isBlank_eq_false_of_isAlphabetic (h : isAlphabetic c = true) : isBlank c = false := by
  cases hblank : isBlank c with
  | false => rfl
  | true => rw [isAlphabetic_eq_false_of_isBlank hblank] at h; cases h

/-- What the upper case of a character can be; the members of the tables are letters. -/
theorem upperChar_cases (c : Char) :
    (isAlphabetic c = false ∧ upperChar c = [c]) ∨
      (isAlphabetic c = true ∧ ∃ d ds, upperChar c = d :: ds ∧ isAlphabetic d = true) := by
  rw [isAlphabetic_eq_testBit c]
  by_cases hascii : c.toNat < 128
  · obtain ⟨hsame, hself⟩ := toUpper_ascii c.toNat hascii
    rw [Char.ofNat_toNat] at hsame hself
    have hupper : upperChar c = [c.toUpper] := by rw [upperChar, if_pos hascii]
    cases hbit : letterBits.testBit c.toNat with
    | false => exact .inl ⟨rfl, by rw [hupper, hself hbit]⟩
    | true => exact .inr ⟨rfl, _, [], hupper, by rw [isAlphabetic_eq_testBit, hsame, hbit]⟩
  · rw [upperChar]
    simp only [if_neg hascii]
    split
    · -- several characters
      rename_i n cs hfind
      have hmem := List.mem_of_find?_eq_some hfind
      have hn : n = c.toNat := by simpa using List.find?_some hfind
      have hletters := List.all_eq_true.1 upperExpansions_letters (n, cs) hmem
      simp only [Bool.and_eq_true, hn] at hletters
      obtain ⟨hkey, hhead⟩ := hletters
      cases cs with
      | nil => simp at hhead
      | cons d ds => exact .inr ⟨hkey, _, _, rfl, isAlphabetic_ofNat (by simpa using hhead)⟩
    · split
      · -- a member of a run
        rename_i lo hi step upper hfind
        have hmem := List.mem_of_find?_eq_some hfind
        have hrun := List.find?_some hfind
        have hletters := List.all_eq_true.1 upperRuns_letters (lo, hi, step, upper) hmem
        simp only [Bool.and_eq_true, decide_eq_true_eq, List.all_eq_true, List.mem_range] at hletters hrun
        obtain ⟨hstep, hmembers⟩ := hletters
        obtain ⟨⟨hlo, hhi⟩, hmod⟩ := hrun
        have hle : (c.toNat - lo) / step < (hi - lo) / step + 1 :=
          Nat.lt_succ_of_le (Nat.div_le_div_right (by omega))
        have hmul : (c.toNat - lo) / step * step = c.toNat - lo :=
          Nat.div_mul_cancel (Nat.dvd_of_mod_eq_zero hmod)
        have hmember := hmembers _ hle
        rw [hmul, Nat.add_sub_cancel' hlo] at hmember
        exact .inr ⟨hmember.1, _, [], rfl, isAlphabetic_ofNat hmember.2⟩
      · cases hbit : letterBits.testBit c.toNat with
        | false => exact .inl ⟨rfl, rfl⟩
        | true => exact .inr ⟨rfl, c, [], rfl, by rw [isAlphabetic_eq_testBit, hbit]⟩

theorem isAlpha_iff_toNat :
    c.isAlpha = true ↔ (65 ≤ c.toNat ∧ c.toNat ≤ 90) ∨ (97 ≤ c.toNat ∧ c.toNat ≤ 122) := by
  have halpha : c.isAlpha = (decide ('A'.val ≤ c.val ∧ c.val ≤ 'Z'.val) ||
      (decide ('a'.val ≤ c.val) && decide (c.val ≤ 'z'.val))) := rfl
  rw [halpha]
  simp only [Bool.or_eq_true, Bool.and_eq_true, decide_eq_true_eq, UInt32.le_iff_toNat_le]
  rfl

theorem isAlphabetic_of_isAlpha (h : c.isAlpha = true) : c.toNat < 128 ∧ isAlphabetic c = true := by
  have hbounds := isAlpha_iff_toNat.1 h
  have hascii : c.toNat < 128 := by omega
  exact ⟨hascii, by rw [isAlphabetic, if_pos hascii, h]⟩

theorem isAlphabetic_eq_false_of_isDigit (h : c.isDigit = true) : isAlphabetic c = false := by
  have hle : c.toNat ≤ 57 := (Char.isDigit_iff_toNat.1 h).2
  cases halpha : isAlphabetic c with
  | false => rfl
  | true =>
    rw [isAlphabetic, if_pos (by omega)] at halpha
    have hbounds := isAlpha_iff_toNat.1 halpha
    omega

theorem upperText_of_no_letters {cs : List Char} (h : ∀ c ∈ cs, isAlphabetic c = false) :
    upperText cs = cs := by
  induction cs with
  | nil => rfl
  | cons c cs ih =>
    obtain ⟨hc, hcs⟩ := List.forall_mem_cons.1 h
    rcases upperChar_cases c with ⟨-, hself⟩ | ⟨hletter, -⟩
    · rw [upperText, List.flatMap_cons, hself, ← upperText, ih hcs, List.singleton_append]
    · rw [hc] at hletter
      cases hletter

theorem upperText_append (cs ds : List Char) : upperText (cs ++ ds) = upperText cs ++ upperText ds :=
  List.flatMap_append

theorem upperText_letter (cs : List Char) (h : isAlphabetic c = true) :
    ∃ d ds, upperText (c :: cs) = d :: ds ∧ isAlphabetic d = true := by
  rcases upperChar_cases c with ⟨hother, -⟩ | ⟨-, d, ds, hupper, hd⟩
  · rw [h] at hother
    cases hother
  · exact ⟨d, ds ++ upperText cs, by rw [upperText, List.flatMap_cons, hupper]; rfl, hd⟩

theorem upperText_ascii {cs : List Char} (h : ∀ c ∈ cs, c.toNat < 128) :
    upperText cs = cs.map Char.toUpper := by
  induction cs with
  | nil => rfl
  | cons c cs ih =>
    obtain ⟨hc, hcs⟩ := List.forall_mem_cons.1 h
    rw [upperText, List.flatMap_cons, upperChar, if_pos hc, ← upperText, ih hcs]
    rfl

end Letters

section Blanks

variable {ws cs ds : List Char} {c : Char}

theorem trimEnd_append_blank (cs : List Char) (h : ∀ c ∈ ws, isBlank c = true) :
    trimEnd (cs ++ ws) = trimEnd cs := by
  have hreverse : ∀ c ∈ ws.reverse, isBlank c = true := fun c hc => h c (List.mem_reverse.1 hc)
  rw [trimEnd, List.reverse_append, List.dropWhile_append_of_pos hreverse, trimEnd]

theorem trimEnd_append_cons (ds : List Char) (h : isBlank c = false) (cs : List Char) :
    trimEnd (ds ++ c :: cs) = ds ++ c :: trimEnd cs := by
  have hkeep : ∀ xs : List Char, ((xs ++ [c]).dropWhile isBlank) = xs.dropWhile isBlank ++ [c] := by
    intro xs
    rw [List.dropWhile_append]
    split
    · rename_i hnil
      rw [List.isEmpty_iff.1 hnil]
      simp [h]
    · rfl
  have hsplit : (ds ++ c :: cs).reverse = (cs.reverse ++ [c]) ++ ds.reverse := by simp
  rw [trimEnd, hsplit, List.dropWhile_append, hkeep]
  simp [trimEnd]

theorem mem_of_mem_trim (h : c ∈ trim cs) : c ∈ cs := by
  have hdrop : c ∈ cs.dropWhile isBlank :=
    List.mem_reverse.1 ((List.dropWhile_sublist _).subset (List.mem_reverse.1 h))
  exact (List.dropWhile_sublist _).subset hdrop

theorem trim_blank_append (cs : List Char) (h : ∀ c ∈ ws, isBlank c = true) :
    trim (ws ++ cs) = trim cs := by
  rw [trim, List.dropWhile_append_of_pos h, trim]

/-- A text is trimmed on both sides of a letter in it. -/
theorem trim_append_cons (ds : List Char) (h : isBlank c = false) (cs : List Char) :
    trim (ds ++ c :: cs) = ds.dropWhile isBlank ++ c :: trimEnd cs := by
  have hdrop : (ds ++ c :: cs).dropWhile isBlank = ds.dropWhile isBlank ++ c :: cs := by
    rw [List.dropWhile_append]
    split
    · rename_i hnil
      rw [List.isEmpty_iff.1 hnil]
      simp [h]
    · rfl
  rw [trim, hdrop, trimEnd_append_cons _ h]

theorem trimEnd_of_no_blanks (h : ∀ c ∈ cs, isBlank c = false) : trimEnd cs = cs := by
  cases hreverse : cs.reverse with
  | nil => rw [trimEnd, hreverse, List.reverse_eq_nil_iff.1 hreverse]; rfl
  | cons c ds =>
    have hc : isBlank c = false := h c (List.mem_reverse.1 (by simp [hreverse]))
    rw [trimEnd, hreverse, List.dropWhile_cons_of_neg (by simp [hc]), ← hreverse,
      List.reverse_reverse]

theorem trim_of_no_blanks (hcs : ∀ c ∈ cs, isBlank c = false) (hws : ∀ c ∈ ws, isBlank c = true)
    (hds : ∀ c ∈ ds, isBlank c = true) : trim (ws ++ cs ++ ds) = cs := by
  rw [List.append_assoc, trim_blank_append _ hws]
  cases cs with
  | nil =>
    have hnil : ds.dropWhile isBlank = [] := List.dropWhile_eq_nil_iff.2 hds
    rw [List.nil_append, trim, hnil]
    rfl
  | cons c cs =>
    have hc : isBlank c = false := hcs c List.mem_cons_self
    rw [List.cons_append, trim, List.dropWhile_cons_of_neg (by simp [hc]), ← List.cons_append,
      trimEnd_append_blank _ hds, trimEnd_of_no_blanks hcs]

theorem trim_dropWhile (cs : List Char) : trim (cs.dropWhile isBlank) = trim cs := by
  rw [trim, List.dropWhile_idempotent isBlank cs, trim]

end Blanks

end ModuleCompiler
