import Mathlib
import RadarChart.Proofs.Number.Rounding

/-!
# Arithmetic on unpacked floats

An unpacked float in canonical form stands for one number. The arithmetic cuts
the exact result off at some exponent, keeps what was cut off in comparison to
a half, and rounds: so sums, differences, products and quotients are rounded to
nearest.
-/

namespace RadarChart.Binary64

open Float.Model Float.Model.UnpackedFloat

/-- A magnitude with its sign. -/
def signed : Sign → ℝ → ℝ
  | .positive, r => r
  | .negative, r => -r

theorem signed_zero (s : Sign) : signed s 0 = 0 := by
  cases s <;> simp [signed]

theorem Rounds.signed {r v : ℝ} (h : Rounds r v) (s : Sign) : Rounds (signed s r) (signed s v) := by
  cases s with
  | positive => exact h
  | negative => exact h.neg

/-- The unpacked float is canonical and stands for the number. -/
inductive Denotes : UnpackedFloat → ℝ → Prop
  | zero (s : Sign) : Denotes (.zero s) 0
  | finite (s : Sign) {m : ℕ} {e : ℤ} (hpos : 0 < m) : m < 2 ^ 53 → minExponent ≤ e →
      (2 ^ 52 ≤ m ∨ e = minExponent) → Denotes (.finite s m e hpos) (signed s (m * 2 ^ e))

/-- The unpacked float stands for what the number is rounded to. -/
def IsRounded (u : UnpackedFloat) (r : ℝ) : Prop :=
  ∃ v, Rounds r v ∧ Denotes u v

theorem Denotes.representable {u : UnpackedFloat} {r : ℝ} (h : Denotes u r) : Representable r := by
  cases h with
  | zero => exact representable_zero
  | finite s hpos hm he =>
      cases s with
      | positive => exact representable_natCast_mul hm.le he
      | negative => exact (representable_natCast_mul hm.le he).neg

theorem Denotes.unique {u : UnpackedFloat} {r t : ℝ} (hr : Denotes u r) (ht : Denotes u t) :
    r = t := by
  cases hr <;> cases ht <;> rfl

theorem Denotes.isRounded {u : UnpackedFloat} {r : ℝ} (h : Denotes u r) : IsRounded u r :=
  ⟨r, rounds_self h.representable, h⟩

/-! ## Cutting off and rounding -/

/-- The mantissa is what is left of the number when the bits below `2 ^ e` are cut off.
The first of these is the round bit, and the sticky bit is set if another one is. -/
structure Truncates (em : ExtendedMantissa) (e : ℤ) (r : ℝ) : Prop where
  exists_rest : ∃ rest : ℝ, 0 ≤ rest ∧ rest < 1 / 2 ∧ (em.stickyBit = false → rest = 0) ∧
    r = (em.mantissa + (if em.roundBit then 1 / 2 else 0) + rest) * 2 ^ e

theorem Truncates.between {em : ExtendedMantissa} {e : ℤ} {r : ℝ} (h : Truncates em e r) :
    em.mantissa * 2 ^ e ≤ r ∧ r < (em.mantissa + 1) * 2 ^ e := by
  obtain ⟨rest, hnonneg, hhalf, _, rfl⟩ := h
  have hpos : (0 : ℝ) < 2 ^ e := zpow_pos two_pos e
  rw [mul_le_mul_iff_left₀ hpos, mul_lt_mul_iff_left₀ hpos]
  split <;> constructor <;> linarith

theorem mantissa_ofMantissaAndAccuracy (m : ℕ) (acc : Accuracy) :
    (ExtendedMantissa.ofMantissaAndAccuracy m acc).mantissa = m := by
  cases acc with
  | «exact» => rfl
  | inexact o => cases o <;> rfl

theorem truncates_exact (m : ℕ) (e : ℤ) :
    Truncates (.ofMantissaAndAccuracy m .exact) e (m * 2 ^ e) :=
  ⟨0, le_rfl, by norm_num, fun _ => rfl, by simp [ExtendedMantissa.ofMantissaAndAccuracy]⟩

theorem Truncates.shiftRightOne {em : ExtendedMantissa} {e : ℤ} {r : ℝ} (h : Truncates em e r) :
    Truncates em.shiftRightOne (e + 1) r := by
  obtain ⟨m, round, sticky⟩ := em
  obtain ⟨rest, hnonneg, hhalf, hsticky, rfl⟩ := h
  simp only at hsticky ⊢
  have hdouble : (2 : ℝ) ^ (e + 1) = 2 * 2 ^ e := by rw [zpow_add_one₀ two_ne_zero, mul_comm]
  -- the round bit moves on to the bits that the sticky one is for
  refine ⟨((if round then 1 / 2 else 0) + rest) / 2, ?_, ?_, ?_, ?_⟩
  · split <;> linarith
  · split <;> linarith
  · show (round || sticky) = false → _
    rw [Bool.or_eq_false_iff]
    rintro ⟨rfl, hclear⟩
    rw [hsticky hclear]
    simp
  · show _ = (((m / 2 : ℕ) : ℝ) + (if (m % 2 != 0) = true then 1 / 2 else 0) + _) * 2 ^ (e + 1)
    have hsplit : (m : ℝ) / 2 = (m / 2 : ℕ) + if (m % 2 != 0) = true then 1 / 2 else 0 := by
      obtain ⟨n, rfl | rfl⟩ := Nat.even_or_odd' m
      · simp
      · rw [(by omega : (2 * n + 1) / 2 = n), (by omega : (2 * n + 1) % 2 = 1)]
        norm_num
        ring
    rw [← hsplit, hdouble]
    ring

theorem Truncates.shiftRight {em : ExtendedMantissa} {e : ℤ} {r : ℝ} (h : Truncates em e r)
    (n : ℕ) : Truncates (em >>> n) (e + n) r := by
  induction n with
  | zero =>
      rw [Nat.cast_zero, add_zero]
      exact h
  | succ n ih =>
      rw [Nat.cast_succ, ← add_assoc]
      exact ih.shiftRightOne

theorem mantissa_shiftRight (em : ExtendedMantissa) (n : ℕ) :
    (em >>> n).mantissa = em.mantissa / 2 ^ n := by
  induction n with
  | zero => simp [HShiftRight.hShiftRight, Nat.repeat]
  | succ n ih =>
      rw [pow_succ, ← Nat.div_div_eq_div_mul, ← ih]
      rfl

theorem Truncates.roundedMantissa {em : ExtendedMantissa} {e : ℤ} {r : ℝ} (h : Truncates em e r) :
    em.roundedMantissa = em.mantissa ∧ r ≤ (em.mantissa + 1 / 2) * 2 ^ e ∨
      em.roundedMantissa = em.mantissa + 1 ∧ (em.mantissa + 1 / 2) * 2 ^ e ≤ r := by
  obtain ⟨m, round, sticky⟩ := em
  obtain ⟨rest, hnonneg, hhalf, hsticky, rfl⟩ := h
  have hpos : (0 : ℝ) < 2 ^ e := zpow_pos two_pos e
  simp only [mul_le_mul_iff_left₀ hpos] at hsticky ⊢
  cases round with
  | false =>
      refine Or.inl ⟨by cases sticky <;> rfl, ?_⟩
      simpa using hhalf.le
  | true =>
      cases sticky with
      | true => exact Or.inr ⟨rfl, by simpa using hnonneg⟩
      | false =>
          -- a tie goes to the even one
          rw [hsticky rfl]
          simp [ExtendedMantissa.roundedMantissa, ExtendedMantissa.accuracy,
            Accuracy.roundToNearestEven]
          omega

theorem targetExponent_binary64 (x : ℤ) :
    Format.binary64.targetExponent x = max (x - 53) minExponent := rfl

/-- The bits that are kept fill a significand, unless the exponent is the least one. -/
theorem fits_of_shiftRight {m : ℕ} {e : ℤ} {n : ℕ}
    (h : e + n = Format.binary64.targetExponent (totalExponent m e)) :
    m / 2 ^ n < 2 ^ 53 ∧ (2 ^ 52 ≤ m / 2 ^ n ∨ e + n = minExponent) := by
  rw [targetExponent_binary64, totalExponent] at h
  constructor
  · rw [Nat.div_lt_iff_lt_mul (by positivity), ← pow_add]
    exact Nat.lt_log2_self.trans_le (Nat.pow_le_pow_right (by norm_num) (by omega))
  · rcases max_choice ((m.log2 : ℤ) + 1 + e - 53) minExponent with hmax | hmax
    · left
      have hm : m ≠ 0 := by
        rintro rfl
        simp only [Nat.log2_zero] at hmax h
        omega
      rw [Nat.le_div_iff_mul_le (by positivity), ← pow_add, ← Nat.le_log2 hm]
      omega
    · exact Or.inr (h.trans hmax)

theorem denotes_mantissa (s : Sign) {m : ℕ} {e : ℤ} (hm : m < 2 ^ 53) (he : minExponent ≤ e)
    (hfit : 2 ^ 52 ≤ m ∨ e = minExponent) :
    Denotes (if h : m = 0 then .zero s else .finite s m e (Nat.pos_of_ne_zero h))
      (signed s (m * 2 ^ e)) := by
  split
  · rename_i hzero
    rw [hzero, Nat.cast_zero, zero_mul, signed_zero]
    exact .zero s
  · exact .finite s _ hm he hfit

/-- A rounded mantissa that is one bit too long ends in a zero, so that nothing more is lost. -/
theorem denotes_shiftToTargetExponent (s : Sign) {k : ℕ} {e : ℤ} (hk : k ≤ 2 ^ 53)
    (he : minExponent ≤ e) (hfit : 2 ^ 52 ≤ k ∨ e = minExponent) :
    Denotes
      (let (em, e) := shiftToTargetExponent Format.binary64 k e .exact
      if h : em.mantissa = 0 then .zero s else .finite s em.mantissa e (Nat.pos_of_ne_zero h))
      (signed s (k * 2 ^ e)) := by
  have hshift : ∀ n : ℕ, (Format.binary64.targetExponent (totalExponent k e) - e).toNat = n →
      (shiftToTargetExponent Format.binary64 k e .exact).1.mantissa = k / 2 ^ n ∧
        (shiftToTargetExponent Format.binary64 k e .exact).2 = e + n := by
    rintro n rfl
    exact ⟨mantissa_shiftRight _ _, rfl⟩
  rcases hk.lt_or_eq with hlt | rfl
  · have hlog : k.log2 < 53 := by
      by_cases hzero : k = 0
      · rw [hzero]
        decide
      · exact (Nat.log2_lt hzero).mpr hlt
    obtain ⟨hmantissa, hexponent⟩ := hshift 0 (by
      rw [targetExponent_binary64, totalExponent]
      omega)
    simp only [hmantissa, hexponent, pow_zero, Nat.div_one, Nat.cast_zero, add_zero]
    exact denotes_mantissa s hlt he hfit
  · obtain ⟨hmantissa, hexponent⟩ := hshift 1 (by
      rw [targetExponent_binary64, totalExponent, Nat.log2_two_pow]
      omega)
    have hsame : ((2 ^ 53 : ℕ) * 2 ^ e : ℝ) = (2 ^ 52 : ℕ) * 2 ^ (e + 1) := by
      rw [zpow_add_one₀ two_ne_zero]
      push_cast
      ring
    simp only [hmantissa, hexponent, hsame, Nat.cast_one]
    exact denotes_mantissa s (by norm_num) (by omega) (Or.inl le_rfl)

theorem isRounded_roundWithAccuracy (s : Sign) {m : ℕ} {e : ℤ} {acc : Accuracy} {r : ℝ}
    (h : Truncates (.ofMantissaAndAccuracy m acc) e r)
    (he : e ≤ Format.binary64.targetExponent (totalExponent m e)) :
    IsRounded (roundWithAccuracy Format.binary64 s m e acc) (signed s r) := by
  obtain ⟨n, hn⟩ := Int.le.dest he
  have hfirst : shiftToTargetExponent Format.binary64 m e acc =
      (ExtendedMantissa.ofMantissaAndAccuracy m acc >>> n, e + n) := by
    rw [shiftToTargetExponent, shiftToExponent, ← hn, add_sub_cancel_left, Int.toNat_natCast]
  have hmin : minExponent ≤ e + n := hn ▸ le_max_right _ _
  obtain ⟨hlt, hfit⟩ := fits_of_shiftRight hn
  have hem := h.shiftRight n
  have hmantissa : (ExtendedMantissa.ofMantissaAndAccuracy m acc >>> n).mantissa = m / 2 ^ n := by
    rw [mantissa_shiftRight, mantissa_ofMantissaAndAccuracy]
  have hrounded := hem.roundedMantissa
  obtain ⟨hlow, hhigh⟩ := hem.between
  rw [hmantissa] at hrounded hlow hhigh
  have hmore : ∀ {k : ℕ}, k = m / 2 ^ n ∨ k = m / 2 ^ n + 1 →
      k ≤ 2 ^ 53 ∧ (2 ^ 52 ≤ k ∨ e + n = minExponent) := by
    rintro k (rfl | rfl) <;> omega
  obtain ⟨hk, hkfit⟩ := hmore (hrounded.imp And.left And.left)
  refine ⟨_, (rounds_of_between hlt hmin hfit hlow hhigh hrounded).signed s, ?_⟩
  simp only [roundWithAccuracy, hfirst]
  exact denotes_shiftToTargetExponent s hk hmin hkfit

theorem decreaseExponent_eq {m : ℕ} {e t : ℤ} (ht : t ≤ e) :
    ∃ n : ℕ, e = t + n ∧ decreaseExponent m e t = (m * 2 ^ n, t) := by
  obtain ⟨n, rfl⟩ := Int.le.dest ht
  refine ⟨n, rfl, ?_⟩
  rw [decreaseExponent, add_sub_cancel_left, Int.toNat_natCast, Nat.shiftLeft_eq,
    add_sub_cancel_right]

theorem decreaseExponent_of_le {m : ℕ} {e t : ℤ} (ht : e ≤ t) :
    decreaseExponent m e t = (m, e) := by
  rw [decreaseExponent, Int.toNat_of_nonpos (by omega), Nat.shiftLeft_zero, Nat.cast_zero, sub_zero]

theorem log2_mul_two_pow {m : ℕ} (hm : 0 < m) (n : ℕ) : (m * 2 ^ n).log2 = m.log2 + n := by
  induction n with
  | zero => simp
  | succ n ih =>
      rw [pow_succ', mul_left_comm, Nat.log2_two_mul (by positivity), ih, add_assoc]

theorem isRounded_round (s : Sign) {m : ℕ} (hm : 0 < m) (e : ℤ) :
    IsRounded (UnpackedFloat.round Format.binary64 s m e) (signed s (m * 2 ^ e)) := by
  simp only [UnpackedFloat.round]
  rcases le_total e (Format.binary64.targetExponent (totalExponent m e)) with he | he
  · rw [decreaseExponent_of_le he]
    exact isRounded_roundWithAccuracy s (truncates_exact m e) he
  · obtain ⟨n, hn, hdecrease⟩ := @decreaseExponent_eq m _ _ he
    rw [hdecrease]
    generalize ht : Format.binary64.targetExponent (totalExponent m e) = t at *
    have hsame : (m * 2 ^ e : ℝ) = (m * 2 ^ n : ℕ) * 2 ^ t := by
      rw [hn, zpow_add₀ two_ne_zero, zpow_natCast]
      push_cast
      ring
    have htotal : totalExponent (m * 2 ^ n) t = totalExponent m e := by
      rw [totalExponent, totalExponent, log2_mul_two_pow hm, hn]
      push_cast
      ring
    rw [hsame]
    exact isRounded_roundWithAccuracy s (truncates_exact _ t) (by rw [htotal, ht])

theorem isRounded_normalize (m e : ℤ) (s : Sign) :
    IsRounded (UnpackedFloat.normalize Format.binary64 m e s) (m * 2 ^ e) := by
  unfold UnpackedFloat.normalize
  rcases lt_trichotomy m 0 with hm | rfl | hm
  · rw [Int.compare_eq_lt.mpr hm]
    have h := isRounded_round .negative (m := (-m).toNat) (by omega) e
    have hcast : (((-m).toNat : ℕ) : ℝ) = -m := by
      exact_mod_cast Int.toNat_of_nonneg (by omega : 0 ≤ -m)
    rwa [signed, hcast, neg_mul, neg_neg] at h
  · rw [Int.compare_eq_eq.mpr rfl, Int.cast_zero, zero_mul]
    exact (Denotes.zero s).isRounded
  · rw [Int.compare_eq_gt.mpr hm]
    have h := isRounded_round .positive (m := m.toNat) (by omega) e
    have hcast : ((m.toNat : ℕ) : ℝ) = m := by
      exact_mod_cast Int.toNat_of_nonneg hm.le
    rwa [signed, hcast] at h

/-! ## The operations -/

section
variable {u w : UnpackedFloat} {r t : ℝ}

/-- Two finite numbers at one exponent. -/
theorem signed_decreaseExponent (s : Sign) (m : ℕ) {e f : ℤ} (hf : f ≤ e) :
    ((s.apply (decreaseExponent m e f).1 : ℤ) : ℝ) * 2 ^ f = signed s (m * 2 ^ e) := by
  obtain ⟨n, rfl, hdecrease⟩ := @decreaseExponent_eq m _ _ hf
  rw [hdecrease, zpow_add₀ two_ne_zero, zpow_natCast]
  cases s <;> simp only [Sign.apply, signed] <;> push_cast <;> ring

theorem signed_neg (s : Sign) (r : ℝ) : signed (-s) r = -signed s r := by
  cases s with
  | positive => rfl
  | negative => exact (neg_neg r).symm

theorem isRounded_add (hu : Denotes u r) (hw : Denotes w t) :
    IsRounded (UnpackedFloat.add Format.binary64 u w) (r + t) := by
  cases hu with
  | zero s =>
      cases hw with
      | zero s' =>
          simp only [UnpackedFloat.add, add_zero]
          split <;> exact (Denotes.zero _).isRounded
      | finite s' hpos hm he hfit =>
          rw [zero_add]
          exact (Denotes.finite s' hpos hm he hfit).isRounded
  | @finite s m e hpos hm he hfit =>
      cases hw with
      | zero s' =>
          rw [add_zero]
          exact (Denotes.finite s hpos hm he hfit).isRounded
      | @finite s' m' e' hpos' hm' he' hfit' =>
          have h := isRounded_normalize
            (s.apply (decreaseExponent m e (min e e')).1 +
              s'.apply (decreaseExponent m' e' (min e e')).1) (min e e') .positive
          rwa [Int.cast_add, add_mul, signed_decreaseExponent s m (min_le_left _ _),
            signed_decreaseExponent s' m' (min_le_right _ _)] at h

theorem isRounded_sub (hu : Denotes u r) (hw : Denotes w t) :
    IsRounded (UnpackedFloat.sub Format.binary64 u w) (r - t) := by
  cases hu with
  | zero s =>
      cases hw with
      | zero s' =>
          simp only [UnpackedFloat.sub, sub_zero]
          split <;> exact (Denotes.zero _).isRounded
      | finite s' hpos hm he hfit =>
          rw [zero_sub, ← signed_neg]
          exact (Denotes.finite (-s') hpos hm he hfit).isRounded
  | @finite s m e hpos hm he hfit =>
      cases hw with
      | zero s' =>
          rw [sub_zero]
          exact (Denotes.finite s hpos hm he hfit).isRounded
      | @finite s' m' e' hpos' hm' he' hfit' =>
          have h := isRounded_normalize
            (s.apply (decreaseExponent m e (min e e')).1 -
              s'.apply (decreaseExponent m' e' (min e e')).1) (min e e') .positive
          rwa [Int.cast_sub, sub_mul, signed_decreaseExponent s m (min_le_left _ _),
            signed_decreaseExponent s' m' (min_le_right _ _)] at h

theorem signed_mul (s s' : Sign) (r t : ℝ) :
    signed (s * s') (r * t) = signed s r * signed s' t := by
  cases s with
  | positive =>
      cases s' with
      | positive => rfl
      | negative => exact (mul_neg r t).symm
  | negative =>
      cases s' with
      | positive => exact (neg_mul r t).symm
      | negative => exact (neg_mul_neg r t).symm

/-- Of two canonical factors one has all its bits, or both have the least exponent. -/
theorem add_le_targetExponent {m m' : ℕ} {e e' : ℤ} (hpos : 0 < m) (hpos' : 0 < m')
    (hfit : 2 ^ 52 ≤ m ∨ e = minExponent) (hfit' : 2 ^ 52 ≤ m' ∨ e' = minExponent) :
    e + e' ≤ Format.binary64.targetExponent (totalExponent (m * m') (e + e')) := by
  rw [targetExponent_binary64, totalExponent]
  have hlog : 2 ^ 52 ≤ m * m' → 52 ≤ (m * m').log2 :=
    (Nat.le_log2 (Nat.mul_pos hpos hpos').ne').mpr
  rcases hfit with hfit | rfl
  · have := hlog (hfit.trans (Nat.le_mul_of_pos_right m hpos'))
    omega
  · rcases hfit' with hfit' | rfl
    · have := hlog (hfit'.trans (Nat.le_mul_of_pos_left m' hpos))
      omega
    · exact le_max_of_le_right (by decide)

theorem isRounded_mul (hu : Denotes u r) (hw : Denotes w t) :
    IsRounded (UnpackedFloat.mul Format.binary64 u w) (r * t) := by
  cases hu with
  | zero s =>
      rw [zero_mul]
      cases hw with
      | zero s' => exact (Denotes.zero _).isRounded
      | finite s' => exact (Denotes.zero _).isRounded
  | @finite s m e hpos hm he hfit =>
      cases hw with
      | zero s' =>
          rw [mul_zero]
          exact (Denotes.zero _).isRounded
      | @finite s' m' e' hpos' hm' he' hfit' =>
          have hsame : (m * 2 ^ e * (m' * 2 ^ e') : ℝ) = (m * m' : ℕ) * 2 ^ (e + e') := by
            rw [zpow_add₀ two_ne_zero]
            push_cast
            ring
          rw [← signed_mul, hsame]
          exact isRounded_roundWithAccuracy _ (truncates_exact _ _)
            (add_le_targetExponent hpos hpos' hfit hfit')

/-- A quotient is its whole part and the share that is left. -/
theorem natCast_div_eq (n : ℕ) {d : ℕ} (hd : 0 < d) :
    (n / d : ℝ) = (n / d : ℕ) + (n % d : ℕ) / d := by
  have hsplit : (n : ℝ) = (n / d : ℕ) * d + (n % d : ℕ) := by
    exact_mod_cast (Nat.div_add_mod' n d).symm
  rw [div_eq_iff (Nat.cast_pos.mpr hd).ne', add_mul, div_mul_cancel₀ _ (Nat.cast_pos.mpr hd).ne']
  exact hsplit

/-- The whole part of a quotient, and how what is left compares to a half. -/
theorem truncates_accuracyOfFraction (n : ℕ) {d : ℕ} (hd : 0 < d) (e : ℤ) :
    Truncates (.ofMantissaAndAccuracy (n / d) (accuracyOfFraction (n % d) d)) e
      (n / d * 2 ^ e) := by
  have hpos : (0 : ℝ) < d := Nat.cast_pos.mpr hd
  have hrest : ((n % d : ℕ) : ℝ) < d := Nat.cast_lt.mpr (Nat.mod_lt n hd)
  rw [natCast_div_eq n hd, accuracyOfFraction]
  by_cases hr : n % d = 0
  · rw [if_pos hr, hr, Nat.cast_zero, zero_div, add_zero]
    exact truncates_exact _ e
  · rw [if_neg hr]
    rcases lt_trichotomy (2 * (n % d)) d with h | h | h
    · have h' : (2 * (n % d : ℕ) : ℝ) < d := by exact_mod_cast h
      rw [Nat.compare_eq_lt.mpr h]
      refine ⟨(n % d : ℕ) / d, by positivity, ?_, nofun, by
        simp [ExtendedMantissa.ofMantissaAndAccuracy]⟩
      rw [div_lt_iff₀ hpos]
      linarith
    · have h' : (2 * (n % d : ℕ) : ℝ) = d := by exact_mod_cast h
      rw [Nat.compare_eq_eq.mpr h]
      refine ⟨0, le_rfl, by norm_num, fun _ => rfl, ?_⟩
      rw [(div_eq_iff hpos.ne').mpr (by linarith : ((n % d : ℕ) : ℝ) = 1 / 2 * d)]
      simp [ExtendedMantissa.ofMantissaAndAccuracy]
    · have h' : (d : ℝ) < 2 * (n % d : ℕ) := by exact_mod_cast h
      rw [Nat.compare_eq_gt.mpr h]
      refine ⟨(n % d : ℕ) / d - 1 / 2, ?_, ?_, nofun, by
        simp [ExtendedMantissa.ofMantissaAndAccuracy]⟩
      · rw [sub_nonneg, le_div_iff₀ hpos]
        linarith
      · rw [sub_lt_iff_lt_add, div_lt_iff₀ hpos]
        linarith

theorem signed_div (s s' : Sign) (r t : ℝ) :
    signed (s / s') (r / t) = signed s r / signed s' t := by
  cases s with
  | positive =>
      cases s' with
      | positive => rfl
      | negative => exact (div_neg r).symm
  | negative =>
      cases s' with
      | positive => exact (neg_div t r).symm
      | negative => exact (neg_div_neg_eq r t).symm

/-- The dividend is given so many bits that the quotient has all of its own. -/
theorem isRounded_div_finite (s s' : Sign) {m m' : ℕ} (e e' : ℤ) (hpos : 0 < m) (hpos' : 0 < m') :
    IsRounded (UnpackedFloat.div Format.binary64 (.finite s m e hpos) (.finite s' m' e' hpos'))
      (signed (s / s') (m * 2 ^ e / (m' * 2 ^ e'))) := by
  simp only [UnpackedFloat.div, divCore]
  generalize htarget : Format.binary64.targetExponent (totalExponent m e - totalExponent m' e') = x
  obtain ⟨n, hn⟩ := Int.le.dest (min_le_left (e - e') x)
  generalize ht : min (e - e') x = t at *
  rw [← hn, add_sub_cancel_left, Int.toNat_natCast, Nat.shiftLeft_eq]
  have hsame : (m * 2 ^ e / (m' * 2 ^ e') : ℝ) = (m * 2 ^ n : ℕ) / m' * 2 ^ t := by
    have he : e = t + n + e' := by omega
    rw [he, zpow_add₀ two_ne_zero, zpow_add₀ two_ne_zero, zpow_natCast]
    push_cast
    field_simp
  rw [hsame]
  refine isRounded_roundWithAccuracy _ (truncates_accuracyOfFraction _ hpos' t) ?_
  rw [targetExponent_binary64, totalExponent, totalExponent] at htarget
  rw [targetExponent_binary64, totalExponent]
  rcases max_choice ((m.log2 : ℤ) + 1 + e - (m'.log2 + 1 + e') - 53) minExponent with hmax | hmax
  · have hlog := log2_mul_two_pow hpos n
    have hlow : 2 ^ (53 + m'.log2) ≤ m * 2 ^ n := by
      rw [← Nat.le_log2 (by positivity), hlog]
      omega
    have hquotient : 2 ^ 52 ≤ m * 2 ^ n / m' := by
      rw [Nat.le_div_iff_mul_le hpos']
      have hm' : m' < 2 ^ (m'.log2 + 1) := Nat.lt_log2_self
      calc 2 ^ 52 * m' ≤ 2 ^ 52 * 2 ^ (m'.log2 + 1) := Nat.mul_le_mul_left _ hm'.le
        _ = 2 ^ (53 + m'.log2) := by rw [← pow_add]; congr 1; omega
        _ ≤ m * 2 ^ n := hlow
    have := (Nat.le_log2 (by omega)).mpr hquotient
    omega
  · omega

theorem isRounded_div (hu : Denotes u r) (hw : Denotes w t) (ht : t ≠ 0) :
    IsRounded (UnpackedFloat.div Format.binary64 u w) (r / t) := by
  cases hw with
  | zero => exact absurd rfl ht
  | @finite s' m' e' hpos' =>
      cases hu with
      | zero s =>
          rw [zero_div]
          exact (Denotes.zero _).isRounded
      | @finite s m e hpos =>
          rw [← signed_div]
          exact isRounded_div_finite s s' e e' hpos hpos'

/-- In canonical form the larger exponent belongs to the larger magnitude. -/
theorem mul_zpow_lt {m m' : ℕ} {e e' : ℤ} (hm : m < 2 ^ 53) (he : minExponent ≤ e)
    (hfit' : 2 ^ 52 ≤ m' ∨ e' = minExponent) (hlt : e < e') : (m * 2 ^ e : ℝ) < m' * 2 ^ e' := by
  have hm' : (2 : ℝ) ^ 52 ≤ m' := by exact_mod_cast hfit'.resolve_right (by omega)
  have hm : (m : ℝ) < 2 ^ 53 := by exact_mod_cast hm
  have hpos : (0 : ℝ) < 2 ^ e := zpow_pos two_pos e
  have hdouble : (2 : ℝ) * 2 ^ e ≤ 2 ^ e' := by
    rw [mul_comm, ← zpow_add_one₀ two_ne_zero]
    exact zpow_le_zpow_right₀ one_le_two (by omega)
  calc (m * 2 ^ e : ℝ) < 2 ^ 53 * 2 ^ e := mul_lt_mul_of_pos_right hm hpos
    _ = 2 ^ 52 * (2 * 2 ^ e) := by ring
    _ ≤ m' * 2 ^ e' := mul_le_mul hm' hdouble (by positivity) (by positivity)

theorem compare_magnitudes {m m' : ℕ} {e e' : ℤ} (hm : m < 2 ^ 53) (hm' : m' < 2 ^ 53)
    (he : minExponent ≤ e) (he' : minExponent ≤ e') (hfit : 2 ^ 52 ≤ m ∨ e = minExponent)
    (hfit' : 2 ^ 52 ≤ m' ∨ e' = minExponent) :
    (compare e e').then (compare m m') = compare (m * 2 ^ e : ℝ) (m' * 2 ^ e') := by
  rcases lt_trichotomy e e' with hlt | rfl | hgt
  · rw [compare_lt_iff_lt.mpr hlt, compare_lt_iff_lt.mpr (mul_zpow_lt hm he hfit' hlt)]
    rfl
  · have hpos : (0 : ℝ) < 2 ^ e := zpow_pos two_pos e
    rw [compare_eq_iff_eq.mpr rfl]
    show compare m m' = _
    rcases lt_trichotomy m m' with hlt | rfl | hgt
    · rw [compare_lt_iff_lt.mpr hlt, eq_comm, compare_lt_iff_lt]
      exact mul_lt_mul_of_pos_right (Nat.cast_lt.mpr hlt) hpos
    · rw [compare_eq_iff_eq.mpr rfl, compare_eq_iff_eq.mpr rfl]
    · rw [compare_gt_iff_gt.mpr hgt, eq_comm, compare_gt_iff_gt]
      exact mul_lt_mul_of_pos_right (Nat.cast_lt.mpr hgt) hpos
  · rw [compare_gt_iff_gt.mpr hgt, compare_gt_iff_gt.mpr (mul_zpow_lt hm' he' hfit hgt)]
    rfl

theorem compare_neg_neg (r t : ℝ) : compare (-r) (-t) = (compare r t).swap := by
  rcases lt_trichotomy r t with h | rfl | h
  · rw [compare_lt_iff_lt.mpr h, compare_gt_iff_gt.mpr (neg_lt_neg h)]
    rfl
  · rw [compare_eq_iff_eq.mpr rfl, compare_eq_iff_eq.mpr rfl]
    rfl
  · rw [compare_gt_iff_gt.mpr h, compare_lt_iff_lt.mpr (neg_lt_neg h)]
    rfl

theorem Denotes.compare_eq (hu : Denotes u r) (hw : Denotes w t) :
    u.compare w = some (compare r t) := by
  have hpos : ∀ {m : ℕ} (e : ℤ), 0 < m → (0 : ℝ) < m * 2 ^ e := fun e hm =>
    mul_pos (Nat.cast_pos.mpr hm) (zpow_pos two_pos e)
  cases hu with
  | zero s =>
      cases hw with
      | zero s' =>
          rw [compare_eq_iff_eq.mpr rfl]
          cases s <;> rfl
      | @finite s' m' e' hm' =>
          cases s' with
          | positive =>
              rw [signed, compare_lt_iff_lt.mpr (hpos e' hm')]
              cases s <;> rfl
          | negative =>
              rw [signed, compare_gt_iff_gt.mpr (neg_neg_of_pos (hpos e' hm'))]
              cases s <;> rfl
  | @finite s m e hm hlt he hfit =>
      cases hw with
      | zero s' =>
          cases s with
          | positive => rw [signed, compare_gt_iff_gt.mpr (hpos e hm)]; rfl
          | negative => rw [signed, compare_lt_iff_lt.mpr (neg_neg_of_pos (hpos e hm))]; rfl
      | @finite s' m' e' hm' hlt' he' hfit' =>
          have hsame := compare_magnitudes hlt hlt' he he' hfit hfit'
          cases s with
          | positive =>
              cases s' with
              | positive => exact congrArg some hsame
              | negative =>
                  rw [signed, signed, compare_gt_iff_gt.mpr]
                  · rfl
                  · exact (neg_neg_of_pos (hpos e' hm')).trans (hpos e hm)
          | negative =>
              cases s' with
              | positive =>
                  rw [signed, signed, compare_lt_iff_lt.mpr]
                  · rfl
                  · exact (neg_neg_of_pos (hpos e hm)).trans (hpos e' hm')
              | negative =>
                  rw [signed, signed, compare_neg_neg, ← hsame]
                  rfl

end

end RadarChart.Binary64
