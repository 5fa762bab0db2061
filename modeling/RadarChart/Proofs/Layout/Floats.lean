import RadarChart.Proofs.Layout.Total
import RadarChart.Proofs.Number.Estimate

/-!
# The star over floats

Floats with any sine and cosine that are off by little. The angles of the
spokes are those of the exact star up to rounding, so some spoke goes to the
left and some spoke goes up by a share of the shorter side that no rounding
takes away.
-/

namespace RadarChart

open Binary64

/-- Floats as coordinates, with the given sine and cosine. -/
def FloatWith (_sin _cos : Float → Float) : Type := Float

instance (sin cos : Float → Float) : Scalar (FloatWith sin cos) :=
  ({ (inferInstance : Scalar Float) with sin := sin, cos := cos } : Scalar Float)

/-- The function on floats is that on numbers, up to a hundredth. -/
def Computes (f : Float → Float) (g : ℝ → ℝ) : Prop :=
  ∀ x r, StandsFor x r → IsNear (f x) (g r) (1 / 100)

variable {sin cos : Float → Float}

/-! ## Conversions -/

theorem exists_ofInt {n : ℤ} (hn : |(n : ℝ)| ≤ 2 ^ 1023) :
    ∃ (x : FloatWith sin cos) (v : ℝ), Scalar.ofInt n = .ok x ∧ Rounds n v ∧ StandsFor x v := by
  obtain ⟨x, v, hx, hv, hfor⟩ := @exists_ofRat? n (by rwa [Rat.cast_intCast])
  rw [Rat.cast_intCast] at hv
  refine ⟨x, v, ?_, hv, hfor⟩
  unfold Scalar.ofInt
  rw [show Scalar.ofRat? (α := FloatWith sin cos) n = some x from hx]

theorem cast_divInt (a b : ℤ) : ((Rat.divInt a b : ℚ) : ℝ) = a / b := by
  rw [Rat.divInt_eq_div]
  push_cast
  rfl

theorem exists_quotient {a b : ℤ} (hb : b ≠ 0) (hle : |(a / b : ℝ)| ≤ 2 ^ 1023) :
    ∃ (x : FloatWith sin cos) (v : ℝ),
      Scalar.quotient a b = .ok x ∧ Rounds (a / b) v ∧ StandsFor x v := by
  obtain ⟨x, v, hx, hv, hfor⟩ := @exists_ofRat? (Rat.divInt a b) (by rwa [cast_divInt])
  refine ⟨x, v, ?_, cast_divInt a b ▸ hv, hfor⟩
  unfold Scalar.quotient
  rw [if_neg hb, show Scalar.ofRat? (α := FloatWith sin cos) (Rat.divInt a b) = some x from hx]

theorem quotient_eq_error {a b : ℤ} (hb : b ≠ 0) (hle : 2 ^ 1024 ≤ |(a / b : ℝ)|) :
    (Scalar.quotient a b : Except Fault (FloatWith sin cos)) = .error .quotientTooLarge := by
  have hnone := @ofRat?_eq_none (Rat.divInt a b) (by rwa [cast_divInt])
  unfold Scalar.quotient
  rw [if_neg hb, show Scalar.ofRat? (α := FloatWith sin cos) (Rat.divInt a b) = none from hnone]

theorem divide_of_ne_zero {x y : FloatWith sin cos} {t : ℝ} (hy : StandsFor y t) (ht : t ≠ 0) :
    Scalar.divide x y = .ok (x / y) := by
  have hzero : Scalar.isZero y = false := by
    rw [← Bool.not_eq_true]
    exact mt (hy.beq_iff standsFor_zero).mp ht
  rw [Scalar.divide, hzero]
  rfl

/-! ## Angles -/

theorem two_pi_mul_le {n i : ℕ} (hi : i ≤ n) : 2 * Real.pi * i ≤ 7 * n := by
  have hpi := Real.pi_lt_d2
  exact mul_le_mul (by linarith) (Nat.cast_le.mpr hi) (Nat.cast_nonneg i) (by norm_num)

section
variable {n i : ℕ} (hi : i ≤ n) (hpos : 0 < n) (hn : n ≤ 2 ^ 50)

include hpos hn in
theorem isNear_sector :
    IsNear (Scalar.pi / Scalar.ofNat n : FloatWith sin cos) (Real.pi / n) (1 / 10 ^ 13) := by
  obtain ⟨p, hp, hple⟩ := isNear_pi
  have hcount : (1 : ℝ) ≤ n := by exact_mod_cast hpos
  have hpi := Real.pi_lt_four
  have hpi' := Real.pi_pos
  have hbound : |p / n| ≤ 5 := by
    rw [abs_div, Nat.abs_cast, div_le_iff₀ (by linarith)]
    have : |p| ≤ 5 := by
      rw [abs_le] at *
      constructor <;> linarith
    nlinarith
  have herror : |p / n - Real.pi / n| ≤ 1 / 10 ^ 15 := by
    rw [← sub_div, abs_div, Nat.abs_cast]
    exact (div_le_self (abs_nonneg _) hcount).trans hple
  have hdiv := hp.div (standsFor_ofNat (by omega)) (Nat.cast_ne_zero.mpr hpos.ne')
  exact (isNear_of_rounds hdiv hbound (by norm_num) herror).mono (by norm_num)

include hi hpos hn in
theorem isNear_spokeAngle :
    IsNear (spokeAngle n i : FloatWith sin cos) (2 * Real.pi * i / n) (1 / 10 ^ 13) := by
  obtain ⟨p, hp, hple⟩ := isNear_pi
  have hcount : (1 : ℝ) ≤ n := by exact_mod_cast hpos
  have hposition : (i : ℝ) ≤ n := by exact_mod_cast hi
  have hposition' : (0 : ℝ) ≤ i := Nat.cast_nonneg i
  have hlarge : (n : ℝ) ≤ 2 ^ 50 := by exact_mod_cast hn
  have hpi := Real.pi_lt_d2
  have hpi' := Real.pi_gt_three
  rw [abs_le] at hple
  obtain ⟨u, hu, hule⟩ :
      IsNear (2.0 * Scalar.pi : FloatWith sin cos) (2 * Real.pi) (1 / 10 ^ 14) := by
    have hbound : |2 * p| ≤ 7 := by
      rw [abs_le]
      constructor <;> linarith
    have herror : |2 * p - 2 * Real.pi| ≤ 2 / 10 ^ 15 := by
      rw [abs_le]
      constructor <;> linarith
    exact (isNear_of_rounds (standsFor_two.mul hp) hbound (by norm_num) herror).mono (by norm_num)
  have huBound : |u| ≤ 7 := by
    rw [abs_le] at *
    constructor <;> linarith
  -- the error grows with the position and is divided by the count again
  obtain ⟨w, hw, hwle⟩ : IsNear (2.0 * Scalar.pi * Scalar.ofNat i : FloatWith sin cos)
      (2 * Real.pi * i) ((18 * i + 1) / 10 ^ 15) := by
    have hbound : |u * i| ≤ 7 * i := by
      rw [abs_mul, Nat.abs_cast]
      exact mul_le_mul_of_nonneg_right huBound hposition'
    have herror : |u * i - 2 * Real.pi * i| ≤ 1 / 10 ^ 14 * i := by
      rw [← sub_mul, abs_mul, Nat.abs_cast]
      exact mul_le_mul_of_nonneg_right hule hposition'
    have hmul := hu.mul (standsFor_ofNat (n := i) (by omega))
    exact (isNear_of_rounds hmul hbound (by linarith) herror).mono (by linarith)
  have hbound : |w / n| ≤ 8 := by
    have hangle := two_pi_mul_le hi
    have hangle' : 0 ≤ 2 * Real.pi * i := by positivity
    rw [abs_le] at hwle
    rw [abs_div, Nat.abs_cast, div_le_iff₀ (by linarith), abs_le]
    constructor <;> linarith
  have herror : |w / n - 2 * Real.pi * i / n| ≤ 19 / 10 ^ 15 := by
    rw [← sub_div, abs_div, Nat.abs_cast, div_le_iff₀ (by linarith)]
    exact hwle.trans (by linarith)
  have hdiv := hw.div (standsFor_ofNat (n := n) (by omega)) (Nat.cast_ne_zero.mpr hpos.ne')
  exact (isNear_of_rounds hdiv hbound (by norm_num) herror).mono (by norm_num)

end

section
variable {c : Chart} (h : c.WellFormed) (hn : c.radii.length ≤ 2 ^ 50)

include h hn

theorem isNear_turn :
    IsNear (c.top.turn (Scalar.pi / Scalar.ofNat c.radii.length) : FloatWith sin cos)
      (c.top.angle c.radii.length) (1 / 10 ^ 13) := by
  have hthree := h.radii
  have hsector := @isNear_sector sin cos c.radii.length (by omega) hn
  obtain ⟨hpos, hle⟩ := h.sector_le
  have hpi := Real.pi_lt_four
  cases c.top with
  | firstRadius => exact ⟨0, standsFor_zero, by simp [Orientation.angle]⟩
  | lastSide => exact hsector.neg (by rw [abs_of_pos hpos]; linarith) (by norm_num)
  | firstSide => exact hsector
  | named name => exact hsector

/-- The angle of a spoke is off by its roundings only. -/
theorem isNear_angle {i : ℕ} (hi : i ≤ c.radii.length) :
    IsNear (Scalar.pi - spokeAngle c.radii.length i +
      c.top.turn (Scalar.pi / Scalar.ofNat c.radii.length) : FloatWith sin cos)
      (c.direction i) (1 / 10 ^ 12) := by
  have hthree := h.radii
  have hcount : (0 : ℝ) < c.radii.length := by exact_mod_cast (by omega : 0 < c.radii.length)
  have hpi := Real.pi_lt_d2
  have hpi' := Real.pi_pos
  obtain ⟨hpos, hle⟩ := h.sector_le
  have hspoke : |2 * Real.pi * i / c.radii.length| ≤ 7 := by
    rw [abs_of_nonneg (by positivity), div_le_iff₀ hcount]
    exact two_pi_mul_le hi
  have hrest : |Real.pi - 2 * Real.pi * i / c.radii.length| ≤ 20 := by
    rw [abs_le] at *
    constructor <;> linarith
  have hturn : |c.top.angle c.radii.length| ≤ 20 := by
    rw [abs_le]
    cases c.top <;> simp only [Orientation.angle] <;> constructor <;> linarith
  have hdifference := isNear_pi.sub (@isNear_spokeAngle sin cos _ _ hi (by omega) hn)
    (by rw [abs_of_pos hpi']; linarith) (by linarith) (by norm_num) (by norm_num)
  exact (hdifference.add (isNear_turn h hn) hrest hturn (by norm_num) (by norm_num)).mono
    (by norm_num)

end

/-! ## Lengths -/

/-- A function that does not spread its arguments keeps what is near to them. -/
theorem Computes.isNear {f : Float → Float} {g : ℝ → ℝ} (hf : Computes f g)
    (hg : ∀ a b, |g a - g b| ≤ |a - b|) {x : Float} {r : ℝ} (hx : IsNear x r (1 / 10 ^ 12)) :
    IsNear (f x) (g r) (1 / 50) := by
  obtain ⟨v, hv, hvle⟩ := hx
  obtain ⟨w, hw, hwle⟩ := hf x v hv
  refine ⟨w, hw, ?_⟩
  have htriangle := abs_sub_le w (g v) (g r)
  have hspread := hg v r
  norm_num at *
  linarith

theorem isWithin_of_isNear {x : Float} {r : ℝ} (hx : IsNear x r (1 / 50)) (hr : |r| ≤ 1) :
    IsWithin x 1 := by
  obtain ⟨v, hv, hvle⟩ := hx
  refine ⟨v, hv, ?_⟩
  have htriangle := abs_sub_abs_le_abs_sub v r
  norm_num at *
  linarith

section
variable {s l : Float} {t r : ℝ} {k : ℕ} (hs : IsNear s t (1 / 50)) (hl : StandsFor l r)
  (hlow : 2 ^ k ≤ r) (hhigh : r ≤ 2 ^ (k + 1)) (hk : k ≤ 1000)

include hs hl hlow hhigh hk

theorem isWithin_reach (ht : |t| ≤ 1) : IsWithin (s * l) (k + 2) := by
  have hlength : IsWithin l (k + 1) := by
    refine ⟨r, hl, ?_⟩
    rwa [abs_of_nonneg (le_trans (by positivity) hlow)]
  have hmul := (isWithin_of_isNear hs ht).mul hlength (by omega)
  exact hmul.mono (by omega)

/-- A spoke that points far enough to one side goes there by a share of its length. -/
theorem exists_reach_le (ht : t ≤ -(1 / 2)) (ht' : -1 ≤ t) :
    ∃ v, StandsFor (s * l) v ∧ v ≤ -2 ^ ((k : ℤ) - 2) := by
  obtain ⟨u, hu, hule⟩ := hs
  rw [abs_le] at hule
  have hquarter : (2 : ℝ) ^ ((k : ℤ) - 2) = 2 ^ k / 4 := by
    rw [zpow_sub₀ two_ne_zero, zpow_natCast]
    norm_num
  have hkpos : (0 : ℝ) < 2 ^ k := by positivity
  have hbound : |u * r| ≤ 2 ^ (k + 2) := by
    rw [abs_le, pow_add]
    rw [pow_succ] at hhigh
    constructor <;> nlinarith
  obtain ⟨v, hv, hfor⟩ := hu.mul hl (le_limit (by omega) hbound)
  refine ⟨v, hfor, hv.le_of_le (representable_zpow ?_).neg ?_⟩
  · have hmin : minExponent = -1074 := rfl
    omega
  · rw [hquarter]
    nlinarith

end

theorem Chart.star_eq_ok {α : Type} [Scalar α] {c : Chart} {half side factor : α}
    (hhalf : Scalar.share Scalar.pi c.radii.length = .ok half)
    (hside : Scalar.ofInt c.shorterSide = .ok side) :
    c.star factor = .ok ((List.range c.radii.length).map fun i =>
      let angle := Scalar.pi - spokeAngle c.radii.length i + c.top.turn half
      ⟨Scalar.sin angle * (side * factor), Scalar.cos angle * (side * factor)⟩) := by
  rw [Chart.star, hhalf, hside]
  rfl

section
variable {c : Chart} (h : c.WellFormed) (hn : c.radii.length ≤ 2 ^ 50)
  (hsin : Computes sin Real.sin) (hcos : Computes cos Real.cos)

include h hn hsin hcos

/-- The star at full size, where the shorter side has a length between two powers of two. -/
theorem exists_star {k : ℕ} (hk : k ≤ 1000) (hlow : 2 ^ k ≤ (c.shorterSide : ℝ))
    (hhigh : (c.shorterSide : ℝ) ≤ 2 ^ (k + 1)) :
    ∃ offsets : List (Point (FloatWith sin cos)), c.star 1.0 = .ok offsets ∧
      (∀ d ∈ offsets, IsWithin d.x (k + 2) ∧ IsWithin d.y (k + 2)) ∧
      (∃ d ∈ offsets, ∃ v, StandsFor d.x v ∧ v ≤ -2 ^ ((k : ℤ) - 2)) ∧
      ∃ d ∈ offsets, ∃ v, StandsFor d.y v ∧ v ≤ -2 ^ ((k : ℤ) - 2) := by
  have hcount := h.nonzeroDivisors.count
  have hsector : Scalar.share Scalar.pi c.radii.length =
      .ok (Scalar.pi / Scalar.ofNat c.radii.length : FloatWith sin cos) :=
    Scalar.share_eq_ok_iff.mpr ⟨hcount, rfl⟩
  have hnonneg : (0 : ℝ) ≤ c.shorterSide := le_trans (by positivity) hlow
  have hside' : |(c.shorterSide : ℝ)| ≤ 2 ^ (k + 1) := by rwa [abs_of_nonneg hnonneg]
  have hlimit : |(c.shorterSide : ℝ)| ≤ 2 ^ 1023 := le_limit (by omega) hside'
  obtain ⟨side, r, hside, hr, hfor⟩ := @exists_ofInt sin cos _ hlimit
  have hrabs := hr.abs_le_pow hside'
  have hrhigh : r ≤ 2 ^ (k + 1) := (le_abs_self r).trans hrabs
  have hrlow : 2 ^ k ≤ r := hr.ge_of_ge (representable_pow k) hlow
  have hlength : StandsFor (side * (1.0 : FloatWith sin cos)) r :=
    standsFor_mul_one hfor (le_limit (by omega) hrabs)
  have hangle := fun i (hi : i ≤ c.radii.length) => @isNear_angle sin cos c h hn i hi
  have hsine := fun i hi => hsin.isNear Real.abs_sin_sub_sin_le (hangle i hi)
  have hcosine := fun i hi => hcos.isNear Real.abs_cos_sub_cos_le (hangle i hi)
  refine ⟨_, Chart.star_eq_ok hsector hside, ?_, ?_, ?_⟩
  · rw [List.forall_mem_map]
    intro i hi
    have hi := (List.mem_range.mp hi).le
    exact ⟨isWithin_reach (hsine i hi) hlength hrlow hrhigh hk (Real.abs_sin_le_one _),
      isWithin_reach (hcosine i hi) hlength hrlow hrhigh hk (Real.abs_cos_le_one _)⟩
  · obtain ⟨i, hi, hleft⟩ := h.exists_sin_direction
    exact ⟨_, List.mem_map_of_mem (List.mem_range.mpr hi),
      exists_reach_le (hsine i hi.le) hlength hrlow hrhigh hk hleft (Real.neg_one_le_sin _)⟩
  · exact ⟨_, List.mem_map_of_mem (List.mem_range.mpr (Nat.pos_of_ne_zero hcount)),
      exists_reach_le (hcosine 0 (Nat.zero_le _)) hlength hrlow hrhigh hk h.cos_direction_zero
        (Real.neg_one_le_cos _)⟩

end

end RadarChart
