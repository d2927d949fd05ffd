import ModuleCompiler.Proofs.Settings.Layering
import ModuleCompiler.Proofs.Text.Letters

/-!
What the texts of variables are read as. Words stand for themselves but for the two truth values,
and no text stands for nothing, not even inside a table.
-/

namespace ModuleCompiler

/-- No value is nothing. -/
def Entries.NullFree (es : Entries SettingValue) : Prop := ∀ e ∈ es, e.2 ≠ .null

namespace SettingText

variable {fuel : Nat} {cs rest : List Char} {v : SettingValue} {es es' : Entries SettingValue}

theorem bare_cases (cs : List Char) : bare cs ≠ .null ∧ ∀ es, bare cs ≠ .table es := by
  have hinteger : ∀ v, integer? cs = some v → ∃ n minus, v = .integer n minus := by
    intro v hv
    unfold integer? at hv
    split at hv
    · split at hv
      · split at hv
        · exact ⟨_, _, (Option.some.inj hv).symm⟩
        · cases hv
      · cases hv
    · split at hv
      · exact ⟨_, _, (Option.some.inj hv).symm⟩
      · cases hv
  unfold bare
  cases hreal : real? cs with
  | some v =>
    obtain ⟨_, hv⟩ := Option.ite_none_right_eq_some.1 hreal
    obtain ⟨x, -, rfl⟩ := Option.map_eq_some_iff.1 hv
    exact ⟨nofun, nofun⟩
  | none =>
    cases hn : integer? cs with
    | some v =>
      obtain ⟨n, minus, rfl⟩ := hinteger v hn
      exact ⟨nofun, nofun⟩
    | none => exact ⟨nofun, nofun⟩

/-- A value is a table that has been put together from its entries, or something else that is
there. -/
theorem value?_cases (h : value? fuel cs = some (v, rest)) :
    (∃ fuel' cs' es rest', entries? fuel' [] cs' = some (es, rest') ∧ v = .table es) ∨
      v ≠ .null ∧ ∀ es, v ≠ .table es := by
  cases fuel with
  | zero => cases h
  | succ fuel =>
    rw [value?] at h
    obtain ⟨⟨w, after⟩, hw, h⟩ := Option.map_eq_some_iff.1 h
    obtain ⟨rfl, -⟩ := Prod.mk.inj h
    split at hw
    · cases hw
      exact .inr ⟨nofun, nofun⟩
    · cases hw
      exact .inr ⟨nofun, nofun⟩
    · obtain ⟨_, -, hw⟩ := Option.map_eq_some_iff.1 hw
      cases hw
      exact .inr ⟨nofun, nofun⟩
    · obtain ⟨_, hentries, hw⟩ := Option.map_eq_some_iff.1 hw
      cases hw
      exact .inl ⟨_, _, _, _, hentries, rfl⟩
    · obtain ⟨_, -, hw⟩ := Option.map_eq_some_iff.1 hw
      cases hw
      exact .inr ⟨nofun, nofun⟩
    · cases hw
      exact .inr ⟨nofun, nofun⟩
    · cases hw
    · cases hw
      exact .inr (bare_cases _)

/-- No text stands for nothing. -/
theorem ne_null_of_value? (h : value? fuel cs = some (v, rest)) : v ≠ .null := by
  rcases value?_cases h with ⟨_, _, _, _, -, rfl⟩ | ⟨hnull, -⟩
  · exact nofun
  · exact hnull

theorem nullFree_insert (k : String) (hv : v ≠ .null) (hes : Entries.NullFree es) :
    (Entries.insert k v es).NullFree := by
  intro e he
  rcases Entries.mem_insert he with rfl | he
  · exact hv
  · exact hes e he

theorem nullFree_of_entries? (hes : Entries.NullFree es)
    (h : entries? fuel es cs = some (es', rest)) : Entries.NullFree es' := by
  induction fuel generalizing es cs with
  | zero => cases h
  | succ fuel ih =>
    by_cases hend : ∃ after, cs = '\x7d' :: after
    · obtain ⟨after, rfl⟩ := hend
      rw [entries?] at h
      · cases h
        exact hes
      · exact Nat.succ_ne_zero fuel
    · rw [entries?] at h
      · obtain ⟨⟨k, after⟩, -, h⟩ := Option.bind_eq_some_iff.1 h
        dsimp only at h
        split at h
        · obtain ⟨⟨v, after'⟩, hv, h⟩ := Option.bind_eq_some_iff.1 h
          have hinserted := nullFree_insert k (ne_null_of_value? hv) hes
          dsimp only at h
          split at h
          · exact ih hinserted h
          · cases h
            exact hinserted
          · cases h
        · cases h
      · exact fun after hcs => hend ⟨after, hcs⟩

theorem nullFree_of_value? (h : value? fuel cs = some (.table es, rest)) : Entries.NullFree es := by
  rcases value?_cases h with ⟨_, _, _, _, hentries, htable⟩ | ⟨-, htable⟩
  · obtain rfl := SettingValue.table.inj htable
    exact nullFree_of_entries? (List.forall_mem_nil _) hentries
  · exact absurd rfl (htable es)

theorem nullFree_of_read {text : String} (h : read text = .table es) : Entries.NullFree es := by
  unfold read at h
  split at h
  · rename_i v hv
    exact nullFree_of_value? (h ▸ hv)
  · cases h

/-- A character without a meaning in the notation. -/
structure IsPlain (c : Char) : Prop where
  padding : isPadding c = false
  separator : isSeparator c = false
  blank : isBlank c = false
  digit : digitValue? 10 c = none
  plus : c ≠ '+'
  minus : c ≠ '-'
  point : c ≠ '.'
  quote : c ≠ '"'
  apostrophe : c ≠ '\''

theorem isPlain_of_isAlpha {c : Char} (h : c.isAlpha = true) : IsPlain c := by
  have hascii : ∀ n < 128, (Char.ofNat n).isAlpha = true →
      isPadding (Char.ofNat n) = false ∧ isSeparator (Char.ofNat n) = false ∧
        digitValue? 10 (Char.ofNat n) = none ∧ Char.ofNat n ≠ '+' ∧ Char.ofNat n ≠ '-' ∧
        Char.ofNat n ≠ '.' ∧ Char.ofNat n ≠ '"' ∧ Char.ofNat n ≠ '\'' := by decide
  obtain ⟨hbound, halphabetic⟩ := isAlphabetic_of_isAlpha h
  have hc := hascii c.toNat hbound
  rw [Char.ofNat_toNat] at hc
  obtain ⟨hpadding, hseparator, hdigit, hplus, hminus, hpoint, hquote, hapostrophe⟩ := hc h
  exact ⟨hpadding, hseparator, isBlank_eq_false_of_isAlphabetic halphabetic, hdigit, hplus, hminus,
    hpoint, hquote, hapostrophe⟩

theorem bare_of_isPlain {c : Char} {cs : List Char} (h : ∀ d ∈ c :: cs, IsPlain d) :
    bare (c :: cs) = .text (String.ofList (c :: cs)) := by
  have hc := h c List.mem_cons_self
  have hreal : real? (c :: cs) = none := by
    refine if_neg fun hpoint => ?_
    exact (h _ (List.contains_iff_mem.1 hpoint)).point rfl
  have hinteger : integer? (c :: cs) = none := by
    have hunsigned : readUnsigned 10 (wordBound 64 - 1) (c :: cs) = .error .invalidDigit := by
      simp [readUnsigned, hc.plus, readDigits, hc.digit]
    simp [integer?, hc.minus, hunsigned]
  simp [bare, hreal, hinteger]

theorem value?_of_isPlain {c : Char} {cs : List Char} (h : ∀ d ∈ c :: cs, IsPlain d)
    (htrue : ¬ "true".toList <+: c :: cs) (hfalse : ¬ "false".toList <+: c :: cs) (fuel : Nat) :
    value? (fuel + 1) (c :: cs) = some (.text (String.ofList (c :: cs)), []) := by
  have hc := h c List.mem_cons_self
  have hskip : skipPadding (c :: cs) = c :: cs :=
    List.dropWhile_cons_of_neg (by simp [hc.padding])
  have hseparator : ∀ d ∈ c :: cs, (!isSeparator d) = true := fun d hd => by
    simp [(h d hd).separator]
  have htake : (c :: cs).takeWhile (!isSeparator ·) = c :: cs :=
    List.takeWhile_eq_self_iff.2 hseparator
  have hdrop : (c :: cs).dropWhile (!isSeparator ·) = [] := List.dropWhile_eq_nil_iff.2 hseparator
  have htrim : trim (c :: cs) = c :: cs := by
    simpa using trim_of_no_blanks (fun d hd => (h d hd).blank) (List.forall_mem_nil _)
      (List.forall_mem_nil _)
  rw [value?, hskip]
  split
  · rename_i rest heq
    exact absurd ⟨rest, heq.symm⟩ htrue
  · rename_i rest heq
    exact absurd ⟨rest, heq.symm⟩ hfalse
  · rename_i heq
    cases heq
    cases hc.separator
  · rename_i heq
    cases heq
    cases hc.separator
  · rename_i heq
    cases heq
    exact absurd rfl hc.quote
  · rename_i heq
    cases heq
    exact absurd rfl hc.apostrophe
  · rename_i heq
    cases heq
    exact absurd rfl hc.apostrophe
  · rw [htake, hdrop, htrim, bare_of_isPlain h]
    rfl

/-- A text of letters is read as it stands, unless it begins like a truth value. -/
theorem read_letters {s : String} (hne : s ≠ "") (hs : ∀ c ∈ s.toList, c.isAlpha = true)
    (htrue : ¬ "true".toList <+: s.toList) (hfalse : ¬ "false".toList <+: s.toList) :
    read s = .text s := by
  obtain ⟨c, cs, hcs⟩ := List.exists_cons_of_ne_nil fun he => hne (String.toList_eq_nil_iff.1 he)
  have hplain : ∀ d ∈ c :: cs, IsPlain d := fun d hd => isPlain_of_isAlpha (hs d (hcs ▸ hd))
  rw [hcs] at htrue hfalse
  have hself : String.ofList (c :: cs) = s := by rw [← hcs, String.ofList_toList]
  rw [read, hcs, value?_of_isPlain hplain htrue hfalse, hself]

theorem read_truth (b : Bool) : read (toString b) = .bool b := by
  cases b <;> rfl

end SettingText

/-- The names of the formats are read as what they name. -/
theorem OutputFormat.reader_read (f : OutputFormat) :
    reader (SettingText.read f.name) = .ok f := by
  have hletters : f.name.toList.all Char.isAlpha = true := by cases f <;> decide
  have htext : SettingText.read f.name = .text f.name := by
    refine SettingText.read_letters ?_ (List.all_eq_true.1 hletters) ?_ ?_ <;> cases f <;> decide
  rw [htext]
  cases f <;> rfl

theorem SettingReader.bool_read (b : Bool) : bool (SettingText.read (toString b)) = .ok b := by
  rw [SettingText.read_truth]
  rfl

end ModuleCompiler
