import Mathlib.Data.Rat.Cast.Order
import Mathlib.Algebra.Order.Field.Rat
import Mathlib.Tactic.Linarith
import Mathlib.Tactic.Positivity
import Mathlib.Tactic.Ring
import RadarChart.Number.Fixed
import RadarChart.Proofs.Text.Digits

/-!
# Canonical decimals

A decimal is canonical if its whole part has no zero at the start that it can
do without, its decimal places do not end with a zero, and zero is unsigned.
No two canonical decimals have the same value.
-/

namespace RadarChart.Fixed

open Text

/-- A sign, the digits of the whole part, and those of the decimal places. -/
structure Decimal where
  negative : Bool
  whole : List Char
  places : List Char
deriving DecidableEq, Repr

namespace Decimal

/-- Without decimal places there is no point. -/
def text (d : Decimal) : List Char :=
  plain.sign d.negative ++ d.whole ++ if d.places = [] then [] else '.' :: d.places

/-- The magnitude in units of the last decimal place. -/
def units (d : Decimal) : ℕ :=
  Nat.ofDigitChars 10 (d.whole ++ d.places) 0

def magnitude (d : Decimal) : ℚ :=
  d.units / 10 ^ d.places.length

def value (d : Decimal) : ℚ :=
  if d.negative then -d.magnitude else d.magnitude

/-- The text is of the form `-?(0|[1-9][0-9]*)(\.[0-9]*[1-9])?`, and it is not `-0`. -/
structure Canonical (d : Decimal) : Prop where
  whole : IsWhole d.whole
  places : d.places = [] ∨ ∃ cs c, d.places = cs ++ [c] ∧ (∀ b ∈ cs, b.isDigit = true) ∧
    c.isDigit = true ∧ c ≠ '0'
  ne_minusZero : d.text ≠ ['-', '0']

variable {d e : Decimal}

theorem magnitude_nonneg (d : Decimal) : 0 ≤ d.magnitude := by
  unfold magnitude
  positivity

theorem Canonical.isDigit_places (h : d.Canonical) : ∀ c ∈ d.places, c.isDigit = true := by
  rcases h.places with hnil | ⟨cs, c, hplaces, hcs, hc, _⟩
  · rw [hnil]
    exact List.forall_mem_nil _
  · rw [hplaces]
    exact List.forall_mem_append.mpr ⟨hcs, List.forall_mem_singleton.mpr hc⟩

/-- The whole part ends where the digits do. -/
theorem eq_of_append_eq {as bs ps qs : List Char} (has : ∀ c ∈ as, c.isDigit = true)
    (hbs : ∀ c ∈ bs, c.isDigit = true)
    (h : (as ++ if ps = [] then [] else '.' :: ps) = bs ++ if qs = [] then [] else '.' :: qs) :
    as = bs ∧ ps = qs := by
  have hend : ∀ rs : List Char,
      (if rs = [] then [] else '.' :: rs).takeWhile Char.isDigit = [] := by
    intro rs
    split <;> rfl
  have hwhole := congrArg (List.takeWhile Char.isDigit) h
  rw [List.takeWhile_append_of_pos has, List.takeWhile_append_of_pos hbs, hend, hend,
    List.append_nil, List.append_nil] at hwhole
  subst hwhole
  have hrest := List.append_cancel_left h
  refine ⟨rfl, ?_⟩
  split at hrest <;> split at hrest <;> simp_all

/-- A canonical decimal is told by its text. -/
theorem Canonical.eq_of_text_eq (hd : d.Canonical) (he : e.Canonical) (h : d.text = e.text) :
    d = e := by
  have hdigits := hd.whole.isDigit
  have hdigits' := he.whole.isDigit
  have hminus : ∀ ds rest cs : List Char, ds ≠ [] → (∀ c ∈ ds, c.isDigit = true) →
      ds ++ rest ≠ '-' :: cs := by
    rintro ds rest cs hne hds heq
    obtain ⟨c, cs, rfl⟩ := List.exists_cons_of_ne_nil hne
    obtain ⟨rfl, _⟩ := List.cons.inj heq
    exact absurd (hds '-' List.mem_cons_self) (by decide)
  obtain ⟨negative, whole, places⟩ := d
  obtain ⟨negative', whole', places'⟩ := e
  cases negative <;> cases negative'
  · obtain ⟨rfl, rfl⟩ := eq_of_append_eq hdigits hdigits' h
    rfl
  · exact absurd h (hminus _ _ _ hd.whole.ne_nil hdigits)
  · exact absurd h.symm (hminus _ _ _ he.whole.ne_nil hdigits')
  · obtain ⟨rfl, rfl⟩ := eq_of_append_eq hdigits hdigits' (List.cons.inj h).2
    rfl

/-- The last decimal place counts. -/
theorem Canonical.units_mod_ne_zero (h : d.Canonical) (hne : d.places ≠ []) :
    d.units % 10 ≠ 0 := by
  obtain ⟨cs, c, hplaces, _, hc, hzero⟩ := h.places.resolve_left hne
  have hrange := toNat_of_isDigit hc
  have hlast : c.toNat ≠ 48 := fun heq => hzero (Char.toNat_inj.mp heq)
  rw [units, hplaces, ← List.append_assoc, ofDigitChars_concat]
  omega

theorem text_eq_minusZero_iff (hwhole : IsWhole d.whole) :
    d.text = ['-', '0'] ↔ d = ⟨true, ['0'], []⟩ := by
  constructor
  · intro htext
    obtain ⟨negative, whole, places⟩ := d
    obtain ⟨c, cs, rfl⟩ := List.exists_cons_of_ne_nil hwhole.ne_nil
    have hc := hwhole.isDigit c List.mem_cons_self
    cases negative with
    | false =>
        obtain ⟨rfl, _⟩ := List.cons.inj htext
        exact absurd hc (by decide)
    | true =>
        obtain ⟨rfl, hrest⟩ := List.cons.inj (List.cons.inj htext).2
        obtain ⟨rfl, hplaces⟩ := List.append_eq_nil_iff.mp hrest
        by_cases hnil : places = []
        · rw [hnil]
        · rw [if_neg hnil] at hplaces
          exact absurd hplaces (List.cons_ne_nil _ _)
  · rintro rfl
    rfl

theorem units_mul_eq (h : d.magnitude = e.magnitude) :
    d.units * 10 ^ e.places.length = e.units * 10 ^ d.places.length := by
  unfold magnitude at h
  rw [div_eq_div_iff (by positivity) (by positivity)] at h
  exact_mod_cast h

theorem Canonical.length_places_le (h : d.Canonical) (heq : d.magnitude = e.magnitude) :
    d.places.length ≤ e.places.length := by
  by_contra hlt
  obtain ⟨k, hk⟩ : ∃ k, d.places.length = e.places.length + (k + 1) :=
    ⟨d.places.length - e.places.length - 1, by omega⟩
  have hne : d.places ≠ [] := by
    rintro hnil
    rw [hnil] at hk
    simp at hk
  have hscaled := units_mul_eq heq
  rw [hk, Nat.pow_add, ← mul_assoc, mul_right_comm] at hscaled
  have hunits := Nat.eq_of_mul_eq_mul_right (Nat.pow_pos (by decide)) hscaled
  refine h.units_mod_ne_zero hne ?_
  rw [hunits, Nat.pow_succ, ← mul_assoc, Nat.mul_mod_left]

theorem Canonical.eq_of_magnitude_eq (hd : d.Canonical) (he : e.Canonical)
    (h : d.magnitude = e.magnitude) : d.whole = e.whole ∧ d.places = e.places := by
  have hlength := le_antisymm (hd.length_places_le h) (he.length_places_le h.symm)
  have hunits := units_mul_eq h
  rw [hlength] at hunits
  have hunits := Nat.eq_of_mul_eq_mul_right (Nat.pow_pos (by decide)) hunits
  have hdlast := ofDigitChars_lt_pow hd.isDigit_places
  have helast := ofDigitChars_lt_pow he.isDigit_places
  rw [units, units, ofDigitChars_append, ofDigitChars_append, hlength] at hunits
  rw [hlength] at hdlast
  have hwhole : Nat.ofDigitChars 10 d.whole 0 = Nat.ofDigitChars 10 e.whole 0 := by
    have hquotient := congrArg (· / 10 ^ e.places.length) hunits
    simpa [Nat.mul_add_div, Nat.div_eq_of_lt, hdlast, helast, mul_comm] using hquotient
  constructor
  · rw [← hd.whole.toDigits_eq, hwhole, he.whole.toDigits_eq]
  · rw [hwhole] at hunits
    exact eq_of_ofDigitChars_eq hd.isDigit_places he.isDigit_places hlength (by omega)

/-- A canonical decimal of value zero has no sign. -/
theorem Canonical.negative_eq_false (h : d.Canonical) (hzero : d.magnitude = 0) :
    d.negative = false := by
  have hunits : d.units = 0 := by
    unfold magnitude at hzero
    rw [div_eq_zero_iff, or_iff_left (by positivity)] at hzero
    exact_mod_cast hzero
  have hplaces : d.places = [] := by
    by_contra hne
    exact h.units_mod_ne_zero hne (by rw [hunits])
  have hwhole := h.whole.toDigits_eq
  rw [units, hplaces, List.append_nil] at hunits
  rw [hunits] at hwhole
  by_contra hnegative
  rw [Bool.not_eq_false] at hnegative
  refine h.ne_minusZero ?_
  rw [text, hnegative, hplaces, ← hwhole]
  rfl

/-- A canonical decimal is told by its value. -/
theorem Canonical.eq_of_value_eq (hd : d.Canonical) (he : e.Canonical) (h : d.value = e.value) :
    d = e := by
  have hdpos := d.magnitude_nonneg
  have hepos := e.magnitude_nonneg
  have hmagnitude : d.magnitude = e.magnitude := by
    unfold value at h
    split at h <;> split at h <;> linarith
  have hsign : d.negative = e.negative := by
    by_cases hzero : d.magnitude = 0
    · rw [hd.negative_eq_false hzero, he.negative_eq_false (hmagnitude ▸ hzero)]
    · have hpos := lt_of_le_of_ne hdpos (Ne.symm hzero)
      unfold value at h
      split at h <;> split at h
      · simp [*]
      · linarith
      · linarith
      · simp_all
  obtain ⟨hwhole, hplaces⟩ := hd.eq_of_magnitude_eq he hmagnitude
  cases d
  cases e
  simp_all

end Decimal

end RadarChart.Fixed
