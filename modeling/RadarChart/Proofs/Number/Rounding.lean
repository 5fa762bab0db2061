import Mathlib.Data.Int.Log
import Mathlib.Algebra.Order.Archimedean.Real.Basic
import Mathlib.Tactic.Positivity
import Mathlib.Tactic.Linarith
import RadarChart.Number.Binary64

/-!
# Rounding to nearest

The values of floats, as if their exponents had no upper bound, are the
multiples of powers of two by significands of 53 bits. A number is rounded to
one of them that no other is closer to: it is a neighbour, with nothing
representable in between, so rounding keeps the order to whatever is
representable. Which way a tie goes does not matter here.
-/

namespace RadarChart.Binary64

/-- The value of a float, as if exponents had no upper bound. -/
structure Representable (r : ℝ) : Prop where
  exists_eq : ∃ m e : ℤ, |m| ≤ 2 ^ 53 ∧ minExponent ≤ e ∧ r = m * 2 ^ e

theorem representable_natCast_mul {m : ℕ} {e : ℤ} (hm : m ≤ 2 ^ 53) (he : minExponent ≤ e) :
    Representable (m * 2 ^ e) :=
  ⟨m, e, by rw [Nat.abs_cast]; exact_mod_cast hm, he, by push_cast; rfl⟩

theorem Representable.neg {r : ℝ} (h : Representable r) : Representable (-r) := by
  obtain ⟨m, e, hm, he, rfl⟩ := h
  exact ⟨-m, e, by rwa [abs_neg], he, by push_cast; ring⟩

theorem representable_zpow {e : ℤ} (he : minExponent ≤ e) : Representable ((2 : ℝ) ^ e) := by
  simpa using representable_natCast_mul (m := 1) (by norm_num) he

theorem representable_pow (k : ℕ) : Representable ((2 : ℝ) ^ k) := by
  have hmin : minExponent = -1074 := rfl
  simpa using @representable_zpow k (by omega)

theorem representable_natCast {n : ℕ} (hn : n ≤ 2 ^ 53) : Representable n := by
  simpa using representable_natCast_mul (e := 0) hn (by decide)

theorem representable_zero : Representable 0 := by
  simpa using representable_natCast (n := 0) (by norm_num)

/-- Nothing is representable between two neighbours. -/
theorem Representable.not_between {w : ℝ} (h : Representable w) {m : ℕ} {e : ℤ}
    (hfit : 2 ^ 52 ≤ m ∨ e = minExponent) : ¬ (m * 2 ^ e < w ∧ w < (m + 1) * 2 ^ e) := by
  obtain ⟨k, f, hk, hf, rfl⟩ := h
  rintro ⟨hlow, hhigh⟩
  have hpos : ∀ a : ℤ, (0 : ℝ) < 2 ^ a := fun a => zpow_pos two_pos a
  rcases le_or_gt e f with hle | hlt
  · -- a multiple of `2 ^ e` between two that follow each other
    obtain ⟨n, rfl⟩ : ∃ n : ℕ, f = e + n := ⟨(f - e).toNat, by omega⟩
    rw [zpow_add₀ two_ne_zero, zpow_natCast, mul_left_comm, mul_comm ((2 : ℝ) ^ e)] at hlow hhigh
    have hlow := lt_of_mul_lt_mul_right hlow (hpos e).le
    have hhigh := lt_of_mul_lt_mul_right hhigh (hpos e).le
    have hlow : (m : ℤ) < k * 2 ^ n := by exact_mod_cast hlow
    have hhigh : k * 2 ^ n < (m : ℤ) + 1 := by exact_mod_cast hhigh
    omega
  · -- the lower neighbour has all 53 bits, and the number a smaller exponent
    have hm : 2 ^ 52 ≤ m := hfit.resolve_right (by omega)
    have hk : (k : ℝ) ≤ 2 ^ 53 := by exact_mod_cast (le_abs_self k).trans hk
    have hle : (2 : ℝ) ^ f * 2 ≤ 2 ^ e := by
      rw [← zpow_add_one₀ two_ne_zero]
      exact zpow_le_zpow_right₀ one_le_two (by omega)
    have hm : (2 : ℝ) ^ 52 ≤ m := by exact_mod_cast hm
    have hsmall : (k : ℝ) * 2 ^ f ≤ m * 2 ^ e := calc
      (k : ℝ) * 2 ^ f ≤ 2 ^ 53 * 2 ^ f := mul_le_mul_of_nonneg_right hk (hpos f).le
      _ = 2 ^ 52 * (2 ^ f * 2) := by ring
      _ ≤ m * 2 ^ e := mul_le_mul hm hle (mul_pos (hpos f) two_pos).le (Nat.cast_nonneg m)
    exact absurd hlow (not_lt.mpr hsmall)

theorem Representable.exists_multiple {r : ℝ} (h : Representable r) :
    ∃ n : ℤ, r = n * 2 ^ minExponent := by
  obtain ⟨m, e, _, he, rfl⟩ := h
  obtain ⟨k, rfl⟩ := Int.le.dest he
  refine ⟨m * 2 ^ k, ?_⟩
  rw [zpow_add₀ two_ne_zero, zpow_natCast]
  push_cast
  ring

/-- Two representable numbers are the least one apart at least. -/
theorem Representable.le_sub_of_lt {r t : ℝ} (hr : Representable r) (ht : Representable t)
    (hlt : r < t) : 2 ^ minExponent ≤ t - r := by
  obtain ⟨m, rfl⟩ := hr.exists_multiple
  obtain ⟨n, rfl⟩ := ht.exists_multiple
  have hpos : (0 : ℝ) < 2 ^ minExponent := zpow_pos two_pos _
  have hle : m + 1 ≤ n := by exact_mod_cast lt_of_mul_lt_mul_right hlt hpos.le
  have hle : (m + 1 : ℝ) ≤ n := by exact_mod_cast hle
  rw [← sub_mul]
  exact le_mul_of_one_le_left hpos.le (by linarith)

/-- The number `v` is what `r` is rounded to: nothing representable is closer. -/
structure Rounds (r v : ℝ) : Prop where
  representable : Representable v
  nearest : ∀ {w : ℝ}, Representable w → |v - r| ≤ |w - r|

theorem Rounds.eq {r v : ℝ} (h : Rounds r v) (hr : Representable r) : v = r := by
  have hle := h.nearest hr
  rw [sub_self, abs_zero] at hle
  exact sub_eq_zero.mp (abs_nonpos_iff.mp hle)

theorem rounds_self {r : ℝ} (h : Representable r) : Rounds r r :=
  ⟨h, fun _ => by rw [sub_self, abs_zero]; exact abs_nonneg _⟩

theorem Rounds.neg {r v : ℝ} (h : Rounds r v) : Rounds (-r) (-v) where
  representable := h.representable.neg
  nearest {w} hw := by
    have hflip : ∀ a : ℝ, |a - -r| = |-a - r| := fun a => by
      rw [← abs_neg]
      congr 1
      ring
    rw [hflip, hflip, neg_neg]
    exact h.nearest hw.neg

theorem Rounds.le_of_le {r v w : ℝ} (h : Rounds r v) (hw : Representable w) (hr : r ≤ w) :
    v ≤ w := by
  have hle := h.nearest hw
  rw [abs_of_nonneg (sub_nonneg.mpr hr)] at hle
  exact (sub_le_sub_iff_right r).mp ((le_abs_self _).trans hle)

theorem Rounds.ge_of_ge {r v w : ℝ} (h : Rounds r v) (hw : Representable w) (hr : w ≤ r) :
    w ≤ v :=
  neg_le_neg_iff.mp (h.neg.le_of_le hw.neg (neg_le_neg hr))

theorem Rounds.abs_le_of_le {r v w : ℝ} (h : Rounds r v) (hw : Representable w) (hr : |r| ≤ w) :
    |v| ≤ w := by
  obtain ⟨hlow, hhigh⟩ := abs_le.mp hr
  exact abs_le.mpr ⟨h.ge_of_ge hw.neg hlow, h.le_of_le hw hhigh⟩

/-- A number between two neighbours is rounded to the closer one. -/
theorem rounds_of_between {r : ℝ} {m k : ℕ} {e : ℤ} (hm : m < 2 ^ 53) (he : minExponent ≤ e)
    (hfit : 2 ^ 52 ≤ m ∨ e = minExponent) (hlow : m * 2 ^ e ≤ r) (hhigh : r < (m + 1) * 2 ^ e)
    (hk : k = m ∧ r ≤ (m + 1 / 2) * 2 ^ e ∨ k = m + 1 ∧ (m + 1 / 2) * 2 ^ e ≤ r) :
    Rounds r (k * 2 ^ e) := by
  refine ⟨representable_natCast_mul (by omega) he, fun {w} hw => ?_⟩
  have hoff : w ≤ m * 2 ^ e ∨ (m + 1) * 2 ^ e ≤ w := by
    by_contra hbetween
    rw [not_or, not_le, not_le] at hbetween
    exact hw.not_between hfit hbetween
  rcases hk with ⟨rfl, hhalf⟩ | ⟨rfl, hhalf⟩
  · rw [abs_of_nonpos (sub_nonpos.mpr hlow), neg_sub]
    rcases hoff with hoff | hoff
    · exact le_abs.mpr (Or.inr (by linarith))
    · exact le_abs.mpr (Or.inl (by linarith))
  · push_cast
    rw [abs_of_nonneg (sub_nonneg.mpr hhigh.le)]
    rcases hoff with hoff | hoff
    · exact le_abs.mpr (Or.inr (by linarith))
    · exact le_abs.mpr (Or.inl (by linarith))

/-- Every number lies between two neighbours. -/
theorem exists_between {r : ℝ} (hr : 0 < r) :
    ∃ (m : ℕ) (e : ℤ), m < 2 ^ 53 ∧ minExponent ≤ e ∧ (2 ^ 52 ≤ m ∨ e = minExponent) ∧
      m * 2 ^ e ≤ r ∧ r < (m + 1) * 2 ^ e := by
  let e := max (Int.log 2 r - 52) minExponent
  have hpos : (0 : ℝ) < 2 ^ e := zpow_pos two_pos e
  have hscaled : 0 ≤ r / 2 ^ e := div_nonneg hr.le hpos.le
  have hsplit : ∀ n : ℕ, (2 : ℝ) ^ n * 2 ^ e = 2 ^ (n + e) := fun n => by
    rw [zpow_add₀ two_ne_zero, zpow_natCast]
  refine ⟨⌊r / 2 ^ e⌋₊, e, ?_, le_max_right _ _, ?_, ?_, ?_⟩
  · rw [Nat.floor_lt hscaled, div_lt_iff₀ hpos, Nat.cast_pow, Nat.cast_two, hsplit]
    refine (Int.lt_zpow_succ_log_self one_lt_two r).trans_le ?_
    have hlog := le_max_left (Int.log 2 r - 52) minExponent
    exact zpow_le_zpow_right₀ one_le_two (by omega)
  · rcases max_choice (Int.log 2 r - 52) minExponent with he | he
    · refine Or.inl (Nat.le_floor ?_)
      rw [le_div_iff₀ hpos, Nat.cast_pow, Nat.cast_two, hsplit]
      refine le_trans ?_ (Int.zpow_log_le_self one_lt_two hr)
      exact zpow_le_zpow_right₀ one_le_two (by change 52 + max _ _ ≤ _; omega)
    · exact Or.inr he
  · rw [← le_div_iff₀ hpos]
    exact Nat.floor_le hscaled
  · rw [← div_lt_iff₀ hpos]
    exact Nat.lt_floor_add_one _

/-- Rounding is off by one unit in the last place at most. -/
theorem Rounds.abs_sub_le {r v : ℝ} (h : Rounds r v) :
    |v - r| ≤ |r| / 2 ^ 52 + 2 ^ minExponent := by
  have hmin : (0 : ℝ) < 2 ^ minExponent := zpow_pos two_pos _
  have hpositive : ∀ {r v : ℝ}, 0 < r → Rounds r v → |v - r| ≤ r / 2 ^ 52 + 2 ^ minExponent := by
    intro r v hr h
    obtain ⟨m, e, hm, he, hfit, hlow, hhigh⟩ := exists_between hr
    have hge := h.ge_of_ge (representable_natCast_mul hm.le he) hlow
    have hle := h.le_of_le (by exact_mod_cast representable_natCast_mul (m := m + 1) hm he) hhigh.le
    have hunit : (2 : ℝ) ^ e ≤ r / 2 ^ 52 + 2 ^ minExponent := by
      rcases hfit with hfit | rfl
      · have hfit : (2 : ℝ) ^ 52 ≤ m := by exact_mod_cast hfit
        have hfull := mul_le_mul_of_nonneg_right hfit (zpow_pos two_pos e).le
        rw [← sub_le_iff_le_add]
        rw [le_div_iff₀ (by positivity)]
        nlinarith
      · have := div_nonneg hr.le (by positivity : (0 : ℝ) ≤ 2 ^ 52)
        linarith
    rw [abs_le]
    constructor <;> linarith
  rcases lt_trichotomy r 0 with hr | rfl | hr
  · have hneg := hpositive (neg_pos.mpr hr) h.neg
    rwa [neg_sub_neg, abs_sub_comm, ← abs_of_neg hr] at hneg
  · rw [h.eq representable_zero]
    simpa using hmin.le
  · rw [abs_of_pos hr]
    exact hpositive hr h

/-- Not far below a representable number there is another one. -/
theorem Representable.exists_lt {r : ℝ} (h : Representable r) (hr : 0 < r) {j : ℤ}
    (hj : minExponent ≤ j) (hle : r ≤ 2 ^ (j + 52)) :
    ∃ w, Representable w ∧ r - 2 ^ j ≤ w ∧ w < r := by
  obtain ⟨m, e, hm, he, rfl⟩ := h
  have hpos : ∀ a : ℤ, (0 : ℝ) < 2 ^ a := fun a => zpow_pos two_pos a
  have hmpos : 0 < m := by exact_mod_cast pos_of_mul_pos_left hr (hpos e).le
  -- the number is a multiple of `2 ^ min e j`, and so is the next one below
  obtain ⟨n, f, hf, hfj, hn, hsame⟩ : ∃ n f : ℤ, minExponent ≤ f ∧ f ≤ j ∧ (0 < n ∧ n ≤ 2 ^ 53) ∧
      (m * 2 ^ e : ℝ) = n * 2 ^ f := by
    rcases le_or_gt e j with hej | hej
    · exact ⟨m, e, he, hej, ⟨hmpos, (le_abs_self m).trans hm⟩, rfl⟩
    · obtain ⟨k, rfl⟩ : ∃ k : ℕ, e = j + k := ⟨(e - j).toNat, by omega⟩
      have hsame : (m * 2 ^ (j + k) : ℝ) = ((m * 2 ^ k : ℤ) : ℝ) * 2 ^ j := by
        push_cast
        rw [zpow_add₀ two_ne_zero, zpow_natCast]
        ring
      refine ⟨m * 2 ^ k, j, hj, le_rfl, ⟨by positivity, ?_⟩, hsame⟩
      rw [hsame, add_comm, zpow_add₀ two_ne_zero] at hle
      have hle : m * 2 ^ k ≤ (2 ^ 52 : ℤ) := by exact_mod_cast le_of_mul_le_mul_right hle (hpos j)
      omega
  rw [hsame]
  have hstep : (2 : ℝ) ^ f ≤ 2 ^ j := zpow_le_zpow_right₀ one_le_two hfj
  refine ⟨((n - 1 : ℤ) : ℝ) * 2 ^ f, ⟨n - 1, f, abs_le.mpr ⟨by omega, by omega⟩, hf, rfl⟩, ?_, ?_⟩
  · push_cast
    linarith
  · push_cast
    linarith [hpos f]

/-- Other representable numbers differ by a share of the number. -/
theorem Representable.le_abs_sub {r w : ℝ} (hr : Representable r) (hw : Representable w)
    (hpos : 0 < r) (hne : w ≠ r) : r / 2 ^ 53 ≤ |w - r| := by
  obtain ⟨m, e, hm, he, hfit, hlow, hhigh⟩ := exists_between hpos
  obtain rfl : r = m * 2 ^ e := by
    by_contra hne
    exact hr.not_between hfit ⟨lt_of_le_of_ne hlow (Ne.symm hne), hhigh⟩
  have hunit : ∀ a : ℤ, (0 : ℝ) < 2 ^ a := fun a => zpow_pos two_pos a
  have hm0 : 0 < m := by exact_mod_cast pos_of_mul_pos_left hpos (hunit e).le
  rcases hne.lt_or_gt with hlt | hgt
  · -- below a power of two the units are half as large
    obtain ⟨n, f, hn, hfit', hsame⟩ : ∃ (n : ℕ) (f : ℤ), n + 1 ≤ 2 ^ 53 ∧
        (2 ^ 52 ≤ n ∨ f = minExponent) ∧ (m * 2 ^ e : ℝ) = (n + 1) * 2 ^ f := by
      by_cases hhalve : m = 2 ^ 52 ∧ minExponent < e
      · refine ⟨2 ^ 53 - 1, e - 1, by norm_num, Or.inl (by norm_num), ?_⟩
        rw [hhalve.1, zpow_sub_one₀ two_ne_zero]
        norm_num
        ring
      · refine ⟨m - 1, e, by omega, by omega, ?_⟩
        rw [← Nat.cast_add_one, Nat.sub_add_cancel hm0]
    rw [hsame] at hlt ⊢
    have hle : w ≤ n * 2 ^ f := by
      by_contra hgt
      exact hw.not_between hfit' ⟨not_le.mp hgt, hlt⟩
    have hn : (n + 1 : ℝ) ≤ 2 ^ 53 := by exact_mod_cast hn
    have hshare : (n + 1) * 2 ^ f / 2 ^ 53 ≤ (2 : ℝ) ^ f := by
      rw [div_le_iff₀ (by positivity), mul_comm]
      exact mul_le_mul_of_nonneg_left hn (hunit f).le
    exact le_abs.mpr (Or.inr (by linarith))
  · have hle : (m + 1) * 2 ^ e ≤ w := by
      by_contra hlt
      exact hw.not_between hfit ⟨hgt, not_le.mp hlt⟩
    have hm : (m : ℝ) ≤ 2 ^ 53 := by exact_mod_cast hm.le
    have hshare : m * 2 ^ e / 2 ^ 53 ≤ (2 : ℝ) ^ e := by
      rw [div_le_iff₀ (by positivity), mul_comm]
      exact mul_le_mul_of_nonneg_left hm (hunit e).le
    exact le_abs.mpr (Or.inl (by linarith))

/-- What is small enough is lost when it is added. -/
theorem Rounds.eq_of_abs_le {r d v : ℝ} (h : Rounds (r + d) v) (hr : Representable r)
    (hpos : 0 < r) (hd : |d| ≤ r / 2 ^ 55) : v = r := by
  by_contra hne
  have hgap := hr.le_abs_sub h.representable hpos hne
  have hnear := h.nearest hr
  rw [sub_add_cancel_left, abs_neg] at hnear
  rw [(by ring : v - r = v - (r + d) + d)] at hgap
  have htriangle := abs_add_le (v - (r + d)) d
  norm_num at hgap hd
  linarith

end RadarChart.Binary64
