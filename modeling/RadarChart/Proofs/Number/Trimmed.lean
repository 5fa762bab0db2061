import Mathlib.Data.List.DropRight
import RadarChart.Proofs.Number.Decimal
import RadarChart.Proofs.Number.Plain

/-!
# Trimmed text

The text of a count of units is the quotient by the number of units in a
whole, a point, and the remainder with all of its places. What is left of it
when the zeros at the end, the point and the sign of a zero are dropped is the
canonical decimal of the same value.
-/

namespace RadarChart.Fixed

open Text

/-! ## Digits of units -/

theorem paddedDigits_succ {w : ℕ} (hw : 0 < w) (n : ℕ) :
    paddedDigits (w + 1) n = paddedDigits w (n / 10) ++ [(n % 10).digitChar] := by
  unfold paddedDigits
  by_cases hn : n < 10
  · obtain ⟨v, rfl⟩ : ∃ v, w = v + 1 := ⟨w - 1, by omega⟩
    rw [Nat.div_eq_of_lt hn, Nat.mod_eq_of_lt hn, Nat.toDigits_of_lt_base hn]
    simp [List.replicate_succ']
  · rw [Nat.toDigits_of_base_le (by decide) (by omega)]
    simp

/-- The digits of units are those of the wholes and a row for the rest. -/
theorem exists_row (p n : ℕ) : ∃ row : List Char,
    paddedDigits (p + 1) n = Nat.toDigits 10 (n / 10 ^ p) ++ row ∧ row.length = p ∧
      (∀ c ∈ row, c.isDigit = true) ∧ Nat.ofDigitChars 10 row 0 = n % 10 ^ p := by
  induction p generalizing n with
  | zero =>
      have hlength : 1 - (Nat.toDigits 10 n).length = 0 := by
        have := Nat.length_toDigits_pos (b := 10) (n := n)
        omega
      refine ⟨[], ?_, rfl, List.forall_mem_nil _, ?_⟩
      · simp [paddedDigits, hlength]
      · rw [Nat.pow_zero, Nat.mod_one]
        rfl
  | succ p ih =>
      obtain ⟨row, hrow, hlength, hdigits, hvalue⟩ := ih (n / 10)
      have hlast : (n % 10).digitChar.isDigit = true := by
        rw [Nat.isDigit_digitChar, decide_eq_true_eq]
        omega
      refine ⟨row ++ [(n % 10).digitChar], ?_, ?_, ?_, ?_⟩
      · rw [paddedDigits_succ (Nat.succ_pos p), hrow, Nat.div_div_eq_div_mul, ← Nat.pow_succ',
          List.append_assoc]
      · rw [List.length_append, hlength, List.length_singleton]
      · exact List.forall_mem_append.mpr ⟨hdigits, List.forall_mem_singleton.mpr hlast⟩
      · rw [ofDigitChars_concat, hvalue, Nat.toNat_digitChar_of_lt_ten (Nat.mod_lt n (by decide)),
          Nat.pow_succ', Nat.mod_mul]
        omega

theorem unitsText_eq (p n : ℕ) : ∃ row : List Char,
    unitsText p n = Nat.toDigits 10 (n / 10 ^ p) ++ (if p = 0 then [] else '.' :: row) ∧
      row.length = p ∧ (∀ c ∈ row, c.isDigit = true) ∧
      Nat.ofDigitChars 10 row 0 = n % 10 ^ p := by
  obtain ⟨row, hrow, hlength, hrest⟩ := exists_row p n
  refine ⟨row, ?_, hlength, hrest⟩
  unfold unitsText
  rw [hrow]
  split
  · rename_i hp
    rw [List.length_eq_zero_iff.mp (hlength.trans hp)]
  · have hwhole : (Nat.toDigits 10 (n / 10 ^ p) ++ row).length - p =
        (Nat.toDigits 10 (n / 10 ^ p)).length := by
      rw [List.length_append, hlength, Nat.add_sub_cancel]
    dsimp only
    rw [hwhole, List.take_left, List.drop_left]

/-! ## Dropping zeros -/

theorem dropTrailing_eq (c : Char) (cs : List Char) :
    dropTrailing c cs = cs.rdropWhile (· == c) :=
  rfl

theorem exists_dropTrailing (c : Char) (cs : List Char) :
    ∃ k, cs = dropTrailing c cs ++ List.replicate k c := by
  induction cs using List.reverseRecOn with
  | nil => exact ⟨0, rfl⟩
  | append_singleton cs a ih =>
      rw [dropTrailing_eq, List.rdropWhile_concat]
      split
      · rename_i ha
        obtain ⟨k, hk⟩ := ih
        refine ⟨k + 1, ?_⟩
        rw [List.replicate_succ', ← List.append_assoc, ← dropTrailing_eq, ← hk, eq_of_beq ha]
      · exact ⟨0, (List.append_nil _).symm⟩

/-- What is dropped ends before any other character. -/
theorem dropTrailing_append_cons {c d : Char} (hd : d ≠ c) (as bs : List Char) :
    dropTrailing c (as ++ d :: bs) = as ++ d :: dropTrailing c bs := by
  induction bs using List.reverseRecOn with
  | nil =>
      rw [dropTrailing_eq, List.rdropWhile_concat_neg _ _ _ (by simpa using hd)]
      rfl
  | append_singleton bs b ih =>
      rw [← List.cons_append, ← List.append_assoc, dropTrailing_eq, dropTrailing_eq,
        List.rdropWhile_concat, List.rdropWhile_concat]
      split
      · exact ih
      · rw [List.append_assoc, List.cons_append]

/-- The text of nothing and of an unsigned zero. -/
theorem trimmedText_of_not_mem {cs : List Char} (h : '.' ∉ cs) :
    trimmedText cs = if cs = ['-', '0'] ∨ cs = [] then ['0'] else cs := by
  unfold trimmedText
  rw [if_neg h]

theorem trimmedText_point {as row : List Char} (hrow : '.' ∉ row) :
    trimmedText (as ++ '.' :: row) =
      if as ++ (if dropTrailing '0' row = [] then [] else '.' :: dropTrailing '0' row) =
          ['-', '0'] ∨
        as ++ (if dropTrailing '0' row = [] then [] else '.' :: dropTrailing '0' row) = []
      then ['0']
      else as ++ if dropTrailing '0' row = [] then [] else '.' :: dropTrailing '0' row := by
  have hmem : '.' ∈ as ++ '.' :: row := by simp
  unfold trimmedText
  rw [if_pos hmem, dropTrailing_append_cons (by decide)]
  rcases List.eq_nil_or_concat' (dropTrailing '0' row) with hnil | ⟨bs, b, hb⟩
  · simp [hnil]
  · have hpoint : b ≠ '.' := by
      rintro rfl
      obtain ⟨k, hk⟩ := exists_dropTrailing '0' row
      rw [hk, hb] at hrow
      simp at hrow
    have hreverse : (as ++ '.' :: dropTrailing '0' row).reverse =
        b :: (as ++ '.' :: bs).reverse := by
      rw [hb]
      simp
    rw [hreverse]
    simp [hb, hpoint]

/-! ## Canonical text -/

theorem places_dropTrailing {row : List Char} (hrow : ∀ c ∈ row, c.isDigit = true) :
    dropTrailing '0' row = [] ∨ ∃ cs c, dropTrailing '0' row = cs ++ [c] ∧
      (∀ b ∈ cs, b.isDigit = true) ∧ c.isDigit = true ∧ c ≠ '0' := by
  rcases List.eq_nil_or_concat' (dropTrailing '0' row) with hnil | ⟨cs, c, hc⟩
  · exact Or.inl hnil
  · have hdigits : ∀ b ∈ cs ++ [c], b.isDigit = true := by
      rw [← hc]
      exact fun b hb => hrow b (mem_of_mem_dropTrailing hb)
    rw [List.forall_mem_append, List.forall_mem_singleton] at hdigits
    refine Or.inr ⟨cs, c, hc, hdigits.1, hdigits.2, ?_⟩
    have hlast := List.rdropWhile_last_not (· == '0') row
      (by rw [← dropTrailing_eq, hc]; exact List.concat_ne_nil _ _)
    simp only [← dropTrailing_eq, hc, List.getLast_append_singleton] at hlast
    simpa using hlast

/-- The zeros at the end of the decimal places do not count. -/
theorem magnitude_dropTrailing (negative : Bool) (p n : ℕ) {row : List Char}
    (hlength : row.length = p) (hvalue : Nat.ofDigitChars 10 row 0 = n % 10 ^ p) :
    Decimal.magnitude ⟨negative, Nat.toDigits 10 (n / 10 ^ p), dropTrailing '0' row⟩ =
      (n : ℚ) / 10 ^ p := by
  obtain ⟨k, hk⟩ := exists_dropTrailing '0' row
  generalize dropTrailing '0' row = kept at hk ⊢
  have hunits : Nat.ofDigitChars 10 (Nat.toDigits 10 (n / 10 ^ p) ++ kept) 0 * 10 ^ k = n := calc
    _ = Nat.ofDigitChars 10 (Nat.toDigits 10 (n / 10 ^ p) ++ kept ++ List.replicate k '0') 0 := by
        rw [ofDigitChars_append _ (List.replicate k '0'), List.length_replicate,
          ofDigitChars_replicate_zero, add_zero]
    _ = n / 10 ^ p * 10 ^ p + n % 10 ^ p := by
        rw [List.append_assoc, ← hk, ofDigitChars_append, Nat.ofDigitChars_ten_toDigits, hlength,
          hvalue]
    _ = n := Nat.div_add_mod' n _
  have hplaces : kept.length + k = p := by
    rw [← hlength, hk, List.length_append, List.length_replicate]
  show ((Nat.ofDigitChars 10 (Nat.toDigits 10 (n / 10 ^ p) ++ kept) 0 : ℕ) : ℚ) / _ = _
  generalize Nat.ofDigitChars 10 (Nat.toDigits 10 (n / 10 ^ p) ++ kept) 0 = units at hunits ⊢
  rw [div_eq_div_iff (by positivity) (by positivity), ← hunits, ← hplaces, pow_add]
  push_cast
  ring

theorem trimmedText_unitsText (negative : Bool) (p n : ℕ) : ∃ row : List Char,
    row.length = p ∧ (∀ c ∈ row, c.isDigit = true) ∧ Nat.ofDigitChars 10 row 0 = n % 10 ^ p ∧
      trimmedText (plain.sign negative ++ unitsText p n) =
        let text :=
          Decimal.text ⟨negative, Nat.toDigits 10 (n / 10 ^ p), dropTrailing '0' row⟩
        if text = ['-', '0'] then ['0'] else text := by
  obtain ⟨row, htext, hlength, hdigits, hvalue⟩ := unitsText_eq p n
  refine ⟨row, hlength, hdigits, hvalue, ?_⟩
  have hpoint : ∀ cs : List Char, (∀ c ∈ cs, c.isDigit = true) → '.' ∉ cs := by
    intro cs hcs hmem
    exact absurd (hcs '.' hmem) (by decide)
  have hwhole := isWhole_toDigits (n / 10 ^ p)
  have hne : ∀ rest, plain.sign negative ++ Nat.toDigits 10 (n / 10 ^ p) ++ rest ≠ [] := by
    intro rest hnil
    simp only [List.append_eq_nil_iff] at hnil
    exact hwhole.ne_nil hnil.1.2
  rw [htext, ← List.append_assoc]
  by_cases hp : p = 0
  · have hsign : '.' ∉ plain.sign negative := by cases negative <;> decide
    have hmem : '.' ∉ plain.sign negative ++ Nat.toDigits 10 (n / 10 ^ p) := by
      rw [List.mem_append, not_or]
      exact ⟨hsign, hpoint _ hwhole.isDigit⟩
    have hrow : row = [] := List.length_eq_zero_iff.mp (hlength.trans hp)
    have hkept : dropTrailing '0' row = [] := by rw [hrow]; rfl
    have hne := hne []
    rw [List.append_nil] at hne
    simp only [if_pos hp, List.append_nil, trimmedText_of_not_mem hmem, Decimal.text, hkept, hne,
      or_false, if_true]
  · simp only [if_neg hp, trimmedText_point (hpoint row hdigits), Decimal.text, hne, or_false]

/-- What is left of the text is canonical, and of the same value. -/
theorem exists_canonical_trimmed (negative : Bool) (p n : ℕ) : ∃ d : Decimal,
    d.Canonical ∧ d.places.length ≤ p ∧ d.whole = Nat.toDigits 10 (n / 10 ^ p) ∧
      d.value = (if negative then -(n / 10 ^ p) else n / 10 ^ p : ℚ) ∧
      trimmedText (plain.sign negative ++ unitsText p n) = d.text := by
  obtain ⟨row, hlength, hdigits, hvalue, htrimmed⟩ := trimmedText_unitsText negative p n
  have hmagnitude := magnitude_dropTrailing negative p n hlength hvalue
  have hwhole := isWhole_toDigits (n / 10 ^ p)
  dsimp only at htrimmed
  split at htrimmed
  · rename_i hzero
    have hd := (Decimal.text_eq_minusZero_iff hwhole).mp hzero
    rw [hd] at hmagnitude
    have hdigits : Nat.toDigits 10 (n / 10 ^ p) = ['0'] := congrArg Decimal.whole hd
    have hnone : Decimal.magnitude ⟨true, ['0'], []⟩ = 0 := by norm_num [Decimal.magnitude]; rfl
    refine ⟨⟨false, ['0'], []⟩, ⟨Or.inl rfl, Or.inl rfl, by decide⟩, Nat.zero_le p, hdigits.symm,
      ?_, htrimmed⟩
    rw [← hmagnitude, hnone, neg_zero, ite_self]
    exact hnone
  · rename_i hzero
    refine ⟨_, ⟨hwhole, places_dropTrailing hdigits, hzero⟩, ?_, rfl, ?_, htrimmed⟩
    · obtain ⟨k, hk⟩ := exists_dropTrailing '0' row
      have hshort := congrArg List.length hk
      rw [List.length_append, hlength] at hshort
      exact Nat.le.intro hshort.symm
    · rw [Decimal.value, hmagnitude]

end RadarChart.Fixed
