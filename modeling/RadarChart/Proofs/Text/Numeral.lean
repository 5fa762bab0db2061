import Mathlib.Algebra.Group.Int.Defs
import Mathlib.Algebra.Group.Nat.Defs
import RadarChart.Proofs.Text.Word
import RadarChart.Text.Numeral

/-!
# Numerals as a relation

`IsNumeral` is the form of an unsigned numeral, whatever its length. A numeral
is read to its value as long as the text has no run of digits beyond the limit.
-/

namespace RadarChart.Text

/-- The text is a row of digits of the given value between ASCII blanks. -/
def IsNumeral (cs : List Char) (n : Nat) : Prop :=
  ∃ ds, Padded isAsciiBlank ds cs ∧ ds ≠ [] ∧ (∀ d ∈ ds, d.isDigit = true) ∧
    n = Nat.ofDigitChars 10 ds 0

/-- No run of digits in the text is longer than the limit. -/
def DigitsWithin (limit : Nat) (cs : List Char) : Prop :=
  ∀ ds, ds <:+: cs → (∀ d ∈ ds, d.isDigit = true) → ds.length ≤ limit

theorem DigitsWithin.mono {limit bound : Nat} {cs : List Char} (h : DigitsWithin limit cs)
    (hle : limit ≤ bound) : DigitsWithin bound cs :=
  fun ds hds hdigits => Nat.le_trans (h ds hds hdigits) hle

theorem digitsWithin_of_length_le {limit : Nat} {cs : List Char} (h : cs.length ≤ limit) :
    DigitsWithin limit cs :=
  fun _ hds _ => Nat.le_trans hds.length_le h

theorem DigitsWithin.of_isInfix {limit : Nat} {as cs : List Char} (h : DigitsWithin limit cs)
    (has : as <:+: cs) : DigitsWithin limit as :=
  fun ds hds hdigits => h ds (hds.trans has) hdigits

/-- Digits do not run across a character that is none. -/
theorem DigitsWithin.append_cons {limit : Nat} {as bs : List Char} {c : Char}
    (has : DigitsWithin limit as) (hbs : DigitsWithin limit bs) (hc : c.isDigit = false) :
    DigitsWithin limit (as ++ c :: bs) := by
  intro ds hds hdigits
  have hmem : c ∉ ds := by
    intro h
    rw [hdigits c h] at hc
    exact Bool.noConfusion hc
  rcases List.infix_append_iff.mp hds with h | h | ⟨left, right, rfl, hleft, hright⟩
  · exact has ds h hdigits
  · rcases List.infix_cons_iff.mp h with h | h
    · rcases List.prefix_cons_iff.mp h with rfl | ⟨rest, rfl, _⟩
      · exact Nat.zero_le limit
      · exact absurd List.mem_cons_self hmem
    · exact hbs ds h hdigits
  · -- the part in the second text would have to start with the character
    rcases List.prefix_cons_iff.mp hright with rfl | ⟨rest, rfl, _⟩
    · rw [List.append_nil] at hdigits ⊢
      exact has left hleft.isInfix hdigits
    · exact absurd (List.mem_append_right left List.mem_cons_self) hmem

theorem digitsWithin_joinWords {limit : Nat} {ws : List (List Char)}
    (h : ∀ w ∈ ws, DigitsWithin limit w) : DigitsWithin limit (joinWords ws) := by
  fun_induction joinWords ws with
  | case1 => exact digitsWithin_of_length_le (Nat.zero_le limit)
  | case2 w => exact h w List.mem_cons_self
  | case3 w ws _ ih =>
      obtain ⟨hword, hwords⟩ := List.forall_mem_cons.mp h
      exact hword.append_cons (ih hwords) (by decide)

theorem toNat_of_isDigit {c : Char} (h : c.isDigit = true) : 48 ≤ c.toNat ∧ c.toNat ≤ 57 := by
  simpa [Char.isDigit, Char.le_def, UInt32.le_iff_toNat_le] using h

theorem isBlank_of_isDigit {c : Char} (h : c.isDigit = true) : isBlank c = false := by
  have hrange := toNat_of_isDigit h
  simp only [isBlank, Bool.or_eq_false_iff, Bool.and_eq_false_iff, decide_eq_false_iff_not,
    beq_eq_false_iff_ne]
  omega

theorem isAsciiBlank_of_isDigit {c : Char} (h : c.isDigit = true) : isAsciiBlank c = false := by
  cases hc : isAsciiBlank c with
  | false => rfl
  | true =>
      have hblank : isBlank c = true := isBlank_of_isAsciiBlank hc
      rw [isBlank_of_isDigit h] at hblank
      exact absurd hblank Bool.false_ne_true

theorem numeralDigits?_eq_some_iff {cs ds : List Char} :
    numeralDigits? cs = some ds ↔
      Padded isAsciiBlank ds cs ∧ ds ≠ [] ∧ ∀ d ∈ ds, d.isDigit = true := by
  have hform : numeralDigits? cs = some ds ↔
      trim isAsciiBlank cs = ds ∧ ds ≠ [] ∧ ∀ d ∈ ds, d.isDigit = true := by
    simp only [numeralDigits?, Option.ite_none_left_eq_some, Bool.or_eq_true, List.isEmpty_iff,
      Bool.not_eq_true', not_or, Bool.not_eq_false, List.all_eq_true, Option.some.injEq]
    constructor
    · rintro ⟨⟨hne, hdigits⟩, rfl⟩
      exact ⟨rfl, hne, hdigits⟩
    · rintro ⟨rfl, hne, hdigits⟩
      exact ⟨⟨hne, hdigits⟩, rfl⟩
  rw [hform]
  constructor
  · rintro ⟨rfl, h⟩
    exact ⟨padded_trim _ _, h⟩
  · rintro ⟨hpadded, hne, hdigits⟩
    have hbare : Bare isAsciiBlank ds :=
      bare_of_forall fun d hd => isAsciiBlank_of_isDigit (hdigits d hd)
    exact ⟨(trim_eq_iff hbare).mpr hpadded, hne, hdigits⟩

theorem isNumeral_iff {cs : List Char} {n : Nat} :
    IsNumeral cs n ↔ ∃ ds, numeralDigits? cs = some ds ∧ n = Nat.ofDigitChars 10 ds 0 := by
  simp only [IsNumeral, numeralDigits?_eq_some_iff, and_assoc]

theorem IsNumeral.unique {cs : List Char} {n m : Nat} (hn : IsNumeral cs n)
    (hm : IsNumeral cs m) : n = m := by
  obtain ⟨ds, hds, rfl⟩ := isNumeral_iff.mp hn
  obtain ⟨es, hes, rfl⟩ := isNumeral_iff.mp hm
  rw [hds] at hes
  rw [Option.some.inj hes]

theorem numeralValue_eq_ok_iff {ds : List Char} {n : Nat} :
    numeralValue ds = .ok n ↔ ds.length ≤ digitLimit ∧ n = Nat.ofDigitChars 10 ds 0 := by
  unfold numeralValue
  split <;> rename_i h
  · simp [h, eq_comm]
  · simp [h]

/-- Of a text with short runs of digits, the digits of a numeral are short. -/
theorem length_le_of_numeralDigits? {limit : Nat} {cs ds : List Char}
    (h : numeralDigits? cs = some ds) (hcs : DigitsWithin limit cs) : ds.length ≤ limit := by
  obtain ⟨⟨before, after, rfl, _⟩, _, hdigits⟩ := numeralDigits?_eq_some_iff.mp h
  exact hcs ds ⟨before, after, rfl⟩ hdigits

theorem isNumeral_of_readNumeral {cs : List Char} {n : Nat}
    (h : readNumeral cs = .ok (some n)) : IsNumeral cs n := by
  rw [isNumeral_iff]
  unfold readNumeral at h
  split at h
  · simp at h
  · rename_i ds hds
    cases hvalue : numeralValue ds with
    | error f => simp [hvalue, Except.map] at h
    | ok m =>
        have hmn : m = n := by simpa [hvalue, Except.map] using h
        exact ⟨ds, hds, hmn ▸ (numeralValue_eq_ok_iff.mp hvalue).2⟩

theorem readNumeral_of_isNumeral {cs : List Char} {n : Nat} (h : IsNumeral cs n)
    (hcs : DigitsWithin digitLimit cs) : readNumeral cs = .ok (some n) := by
  obtain ⟨ds, hds, hn⟩ := isNumeral_iff.mp h
  have hvalue : numeralValue ds = .ok n :=
    numeralValue_eq_ok_iff.mpr ⟨length_le_of_numeralDigits? hds hcs, hn⟩
  rw [readNumeral, hds]
  simp [hvalue, Except.map]

/-- A text is read as no numeral exactly where it is none. -/
theorem readNumeral_eq_ok_none_iff {cs : List Char} :
    readNumeral cs = .ok none ↔ ∀ n, ¬ IsNumeral cs n := by
  constructor
  · intro h n hn
    obtain ⟨ds, hds, _⟩ := isNumeral_iff.mp hn
    rw [readNumeral, hds] at h
    cases hvalue : numeralValue ds <;> simp [hvalue, Except.map] at h
  · intro h
    cases hds : numeralDigits? cs with
    | none => rw [readNumeral, hds]
    | some ds => exact absurd (isNumeral_iff.mpr ⟨ds, hds, rfl⟩) (h _)

theorem IsNumeral.append {cs before after : List Char} {n : Nat} (h : IsNumeral cs n)
    (hbefore : ∀ c ∈ before, isAsciiBlank c = true) (hafter : ∀ c ∈ after, isAsciiBlank c = true) :
    IsNumeral (before ++ cs ++ after) n := by
  obtain ⟨ds, hpadded, hds⟩ := h
  exact ⟨ds, hpadded.append hbefore hafter, hds⟩

/-- A numeral holds digits and ASCII blanks only. -/
theorem IsNumeral.isDigit_or_isAsciiBlank {cs : List Char} {n : Nat} (h : IsNumeral cs n)
    {c : Char} (hc : c ∈ cs) : c.isDigit = true ∨ isAsciiBlank c = true := by
  obtain ⟨ds, ⟨before, after, rfl, hbefore, hafter⟩, _, hdigits, _⟩ := h
  rcases List.mem_append.mp hc with hc | hc
  · rcases List.mem_append.mp hc with hc | hc
    · exact Or.inr (hbefore c hc)
    · exact Or.inl (hdigits c hc)
  · exact Or.inr (hafter c hc)

/-- A text around a word with a character that no numeral has is no numeral. -/
theorem not_isNumeral_of_padded {p : Char → Bool} {word cs : List Char} {c : Char} {n : Nat}
    (h : Padded p word cs) (hc : c ∈ word) (hdigit : c.isDigit = false)
    (hblank : isAsciiBlank c = false) : ¬ IsNumeral cs n := by
  intro hn
  obtain ⟨before, after, rfl, _⟩ := h
  rcases hn.isDigit_or_isAsciiBlank
    (List.mem_append_left after (List.mem_append_right before hc)) with h | h
  · rw [hdigit] at h
    cases h
  · rw [hblank] at h
    cases h

theorem ofDigitChars_lt_pow {ds : List Char} (h : ∀ d ∈ ds, d.isDigit = true) :
    Nat.ofDigitChars 10 ds 0 < 10 ^ ds.length := by
  induction ds with
  | nil => simp
  | cons d ds ih =>
      have hd : d.toNat - '0'.toNat ≤ 9 := by
        have hrange := toNat_of_isDigit (h d List.mem_cons_self)
        have hzero : '0'.toNat = 48 := rfl
        omega
      have hds : Nat.ofDigitChars 10 ds 0 < 10 ^ ds.length :=
        ih fun e he => h e (List.mem_cons_of_mem d he)
      rw [Nat.ofDigitChars_cons, Nat.ofDigitChars_eq_ofDigitChars_zero, Nat.mul_zero,
        Nat.zero_add, List.length_cons, Nat.pow_succ]
      calc 10 ^ ds.length * (d.toNat - '0'.toNat) + Nat.ofDigitChars 10 ds 0
          < 10 ^ ds.length * (d.toNat - '0'.toNat) + 10 ^ ds.length := by omega
        _ = 10 ^ ds.length * (d.toNat - '0'.toNat + 1) := by rw [Nat.mul_succ]
        _ ≤ 10 ^ ds.length * 10 := Nat.mul_le_mul_left _ (by omega)

/-- A numeral of few digits has a small value. -/
theorem IsNumeral.lt_pow {limit : Nat} {cs : List Char} {n : Nat} (h : IsNumeral cs n)
    (hcs : DigitsWithin limit cs) : n < 10 ^ limit := by
  obtain ⟨ds, hds, rfl⟩ := isNumeral_iff.mp h
  have hdigits := (numeralDigits?_eq_some_iff.mp hds).2.2
  exact Nat.lt_of_lt_of_le (ofDigitChars_lt_pow hdigits)
    (Nat.pow_le_pow_right (by decide) (length_le_of_numeralDigits? hds hcs))

/-! ## Written numbers -/

theorem isNumeral_toDigits (n : Nat) : IsNumeral (Nat.toDigits 10 n) n :=
  ⟨Nat.toDigits 10 n, .refl _ _, Nat.toDigits_ne_nil,
    fun _ hd => Nat.isDigit_of_mem_toDigits (by decide) (by decide) hd,
    Nat.ofDigitChars_ten_toDigits.symm⟩

theorem digitsWithin_toDigits {limit n : Nat} (hlimit : 0 < limit) (h : n < 10 ^ limit) :
    DigitsWithin limit (Nat.toDigits 10 n) :=
  digitsWithin_of_length_le ((Nat.length_toDigits_le_iff (by decide) hlimit).mpr h)

end RadarChart.Text
