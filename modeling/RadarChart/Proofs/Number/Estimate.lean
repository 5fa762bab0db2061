import RadarChart.Proofs.Number.Conversion

/-!
# Estimates of floats

Two estimates are carried through a computation on floats: that a number is
not too large, which keeps it finite, and that it is close to some exact one.
-/

namespace RadarChart.Binary64

/-- The float stands for a number of at most the given power of two. -/
structure IsWithin (x : Float) (k : ℕ) : Prop where
  exists_le : ∃ v, StandsFor x v ∧ |v| ≤ 2 ^ k

/-- The float stands for a number that is off by so much at most. -/
def IsNear (x : Float) (r d : ℝ) : Prop :=
  ∃ v, StandsFor x v ∧ |v - r| ≤ d

/-! ## Magnitudes -/

theorem Rounds.abs_le_pow {r v : ℝ} {k : ℕ} (h : Rounds r v) (hr : |r| ≤ 2 ^ k) : |v| ≤ 2 ^ k :=
  h.abs_le_of_le (representable_pow k) hr

section
variable {x y : Float} {r : ℝ} {j k : ℕ}

theorem le_limit (hk : k ≤ 1023) (hr : |r| ≤ 2 ^ k) : |r| ≤ 2 ^ 1023 :=
  hr.trans (pow_le_pow_right₀ one_le_two hk)

theorem IsWithin.exists_standsFor (hx : IsWithin x k) : ∃ v, StandsFor x v := by
  obtain ⟨v, hv, _⟩ := hx
  exact ⟨v, hv⟩

theorem IsWithin.mono (hx : IsWithin x j) (h : j ≤ k) : IsWithin x k := by
  obtain ⟨v, hv, hle⟩ := hx
  exact ⟨v, hv, hle.trans (pow_le_pow_right₀ one_le_two h)⟩

theorem isWithin_of_rounds {t : ℝ} (h : |t| ≤ 2 ^ 1023 → ∃ v, Rounds t v ∧ StandsFor x v)
    (hk : k ≤ 1023) (ht : |t| ≤ 2 ^ k) : IsWithin x k := by
  obtain ⟨v, hv, hx⟩ := h (le_limit hk ht)
  exact ⟨v, hx, hv.abs_le_pow ht⟩

theorem IsWithin.add (hx : IsWithin x k) (hy : IsWithin y k) (hk : k + 1 ≤ 1023) :
    IsWithin (x + y) (k + 1) := by
  obtain ⟨v, hv, hvle⟩ := hx
  obtain ⟨w, hw, hwle⟩ := hy
  refine isWithin_of_rounds (hv.add hw) hk ((abs_add_le v w).trans ?_)
  rw [pow_succ]
  linarith

theorem IsWithin.sub (hx : IsWithin x k) (hy : IsWithin y k) (hk : k + 1 ≤ 1023) :
    IsWithin (x - y) (k + 1) := by
  obtain ⟨v, hv, hvle⟩ := hx
  obtain ⟨w, hw, hwle⟩ := hy
  refine isWithin_of_rounds (hv.sub hw) hk ((abs_sub v w).trans ?_)
  rw [pow_succ]
  linarith

theorem IsWithin.mul (hx : IsWithin x j) (hy : IsWithin y k) (hk : j + k ≤ 1023) :
    IsWithin (x * y) (j + k) := by
  obtain ⟨v, hv, hvle⟩ := hx
  obtain ⟨w, hw, hwle⟩ := hy
  refine isWithin_of_rounds (hv.mul hw) hk ?_
  rw [abs_mul, pow_add]
  exact mul_le_mul hvle hwle (abs_nonneg w) (by positivity)

theorem IsWithin.half (hx : IsWithin x k) (hk : k ≤ 1023) : IsWithin (x / 2.0) k := by
  obtain ⟨v, hv, hvle⟩ := hx
  refine isWithin_of_rounds (hv.div standsFor_two two_ne_zero) hk ?_
  rw [abs_div, abs_two]
  linarith [abs_nonneg v]

/-- To multiply by one changes nothing. -/
theorem standsFor_mul_one (hx : StandsFor x r) (hr : |r| ≤ 2 ^ 1023) : StandsFor (x * 1.0) r := by
  obtain ⟨v, hv, hx'⟩ := hx.mul standsFor_one (by rwa [mul_one])
  rw [mul_one] at hv
  rwa [hv.eq hx.representable] at hx'

end

/-! ## Errors -/

/-- The error of one rounding of a number that is not large. -/
theorem Rounds.abs_sub_le_of_le {r v b : ℝ} (h : Rounds r v) (hr : |r| ≤ b) :
    |v - r| ≤ (b + 1) / 10 ^ 15 := by
  have hleast : (2 : ℝ) ^ minExponent ≤ 1 / 10 ^ 16 := by
    have hmin : minExponent ≤ -60 := by decide
    calc (2 : ℝ) ^ minExponent ≤ 2 ^ (-60 : ℤ) := zpow_le_zpow_right₀ one_le_two hmin
      _ ≤ 1 / 10 ^ 16 := by norm_num
  have hunit : |r| / 2 ^ 52 ≤ b / 10 ^ 15 :=
    div_le_div₀ ((abs_nonneg r).trans hr) hr (by norm_num) (by norm_num)
  have herror := h.abs_sub_le
  rw [add_div]
  linarith

section
variable {x y : Float} {r t d d' : ℝ}

theorem IsNear.mono (hx : IsNear x r d) (h : d ≤ d') : IsNear x r d' := by
  obtain ⟨v, hv, hle⟩ := hx
  exact ⟨v, hv, hle.trans h⟩

theorem le_limit_of_le {b : ℝ} (hr : |r| ≤ b) (hb : b ≤ 2 ^ 60) : |r| ≤ 2 ^ 1023 :=
  le_limit (k := 60) (by norm_num) (hr.trans hb)

theorem isNear_of_rounds {e b : ℝ} (h : |e| ≤ 2 ^ 1023 → ∃ v, Rounds e v ∧ StandsFor x v)
    (he : |e| ≤ b) (hb : b ≤ 2 ^ 60) (hr : |e - r| ≤ d) : IsNear x r (d + (b + 1) / 10 ^ 15) := by
  obtain ⟨v, hv, hx⟩ := h (le_limit_of_le he hb)
  refine ⟨v, hx, ?_⟩
  have htriangle := abs_sub_le v e r
  have herror := hv.abs_sub_le_of_le he
  linarith

theorem IsNear.add (hx : IsNear x r d) (hy : IsNear y t d') (hr : |r| ≤ 20) (ht : |t| ≤ 20)
    (hd : d ≤ 1) (hd' : d' ≤ 1) : IsNear (x + y) (r + t) (d + d' + 1 / 10 ^ 13) := by
  obtain ⟨v, hv, hvle⟩ := hx
  obtain ⟨w, hw, hwle⟩ := hy
  have hbound : |v + w| ≤ 42 := by
    rw [abs_le] at *
    constructor <;> linarith
  have hsum : |v + w - (r + t)| ≤ d + d' := by
    rw [add_sub_add_comm]
    exact (abs_add_le _ _).trans (add_le_add hvle hwle)
  exact (isNear_of_rounds (hv.add hw) hbound (by norm_num) hsum).mono (by linarith)

theorem IsNear.neg (hx : IsNear x r d) (hr : |r| ≤ 20) (hd : d ≤ 1) : IsNear (-x) (-r) d := by
  obtain ⟨v, hv, hvle⟩ := hx
  have hbound : |v| ≤ 21 := by
    rw [abs_le] at *
    constructor <;> linarith
  refine ⟨-v, hv.neg (le_limit_of_le hbound (by norm_num)), ?_⟩
  rwa [neg_sub_neg, abs_sub_comm]

theorem IsNear.sub (hx : IsNear x r d) (hy : IsNear y t d') (hr : |r| ≤ 20) (ht : |t| ≤ 20)
    (hd : d ≤ 1) (hd' : d' ≤ 1) : IsNear (x - y) (r - t) (d + d' + 1 / 10 ^ 13) := by
  obtain ⟨v, hv, hvle⟩ := hx
  obtain ⟨w, hw, hwle⟩ := hy
  have hbound : |v - w| ≤ 42 := by
    rw [abs_le] at *
    constructor <;> linarith
  have hsum : |v - w - (r - t)| ≤ d + d' := by
    rw [sub_sub_sub_comm]
    exact (abs_sub _ _).trans (add_le_add hvle hwle)
  exact (isNear_of_rounds (hv.sub hw) hbound (by norm_num) hsum).mono (by linarith)

/-- The literal for half the circumference of the unit circle. -/
theorem isNear_pi : IsNear 3.141592653589793 Real.pi (1 / 10 ^ 15) := by
  have h := @standsFor_of_unpack 3.141592653589793 7074237752028440 (-51) (by decide) rfl
    (by norm_num) (by norm_num) (by decide)
  refine ⟨_, h, ?_⟩
  have hlow := Real.pi_gt_d20
  have hhigh := Real.pi_lt_d20
  rw [abs_le]
  norm_num at *
  constructor <;> linarith

end

end RadarChart.Binary64
