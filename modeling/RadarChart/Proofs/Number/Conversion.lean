import RadarChart.Number.Scalar
import RadarChart.Proofs.Number.Packed

/-!
# Conversions to floats

A rational is rounded to a neighbour, and where its magnitude is not too large
there is a float for that. Counts that have a significand's bits are not
rounded at all.
-/

namespace RadarChart.Binary64

open Float.Model (Format UnpackedFloat)
open Float.Model.UnpackedFloat

theorem roundDiv_cases (n d : ℕ) :
    roundDiv n d = n / d ∧ 2 * (n % d) ≤ d ∨ roundDiv n d = n / d + 1 ∧ d ≤ 2 * (n % d) := by
  simp only [roundDiv]
  split
  · exact Or.inl ⟨rfl, by omega⟩
  · split
    · exact Or.inr ⟨rfl, by omega⟩
    · omega

/-- The whole number that is closest to a quotient. -/
theorem roundDiv_spec (n : ℕ) {d : ℕ} (hd : 0 < d) :
    ((n / d : ℕ) : ℝ) ≤ n / d ∧ (n / d : ℝ) < (n / d : ℕ) + 1 ∧
      (roundDiv n d = n / d ∧ (n / d : ℝ) ≤ (n / d : ℕ) + 1 / 2 ∨
        roundDiv n d = n / d + 1 ∧ ((n / d : ℕ) : ℝ) + 1 / 2 ≤ n / d) := by
  have hpos : (0 : ℝ) < d := Nat.cast_pos.mpr hd
  have hrest : ((n % d : ℕ) : ℝ) < d := Nat.cast_lt.mpr (Nat.mod_lt n hd)
  rw [natCast_div_eq n hd]
  refine ⟨le_add_of_nonneg_right (by positivity), ?_, (roundDiv_cases n d).imp ?_ ?_⟩
  · rw [add_lt_add_iff_left, div_lt_one hpos]
    exact hrest
  · rintro ⟨hdown, hhalf⟩
    have hhalf : (2 * (n % d : ℕ) : ℝ) ≤ d := by exact_mod_cast hhalf
    refine ⟨hdown, ?_⟩
    rw [add_le_add_iff_left, div_le_iff₀ hpos]
    linarith
  · rintro ⟨hup, hhalf⟩
    have hhalf : (d : ℝ) ≤ 2 * (n % d : ℕ) := by exact_mod_cast hhalf
    refine ⟨hup, ?_⟩
    rw [add_le_add_iff_left, le_div_iff₀ hpos]
    linarith

theorem unscale_pos {n d : ℕ} (hd : 0 < d) (e : ℤ) : 0 < (unscale n d e).2 := by
  unfold unscale
  split
  · exact Nat.mul_pos hd (Nat.pow_pos two_pos)
  · exact hd

theorem unscale_eq (n : ℕ) {d : ℕ} (hd : 0 < d) (e : ℤ) :
    ((unscale n d e).1 / (unscale n d e).2 : ℝ) * 2 ^ e = n / d := by
  have hd : (d : ℝ) ≠ 0 := Nat.cast_ne_zero.mpr hd.ne'
  unfold unscale
  split
  · obtain ⟨k, rfl⟩ := Int.eq_ofNat_of_zero_le ‹0 ≤ e›
    rw [Int.toNat_natCast, Nat.pow_eq, zpow_natCast]
    push_cast
    field_simp
  · obtain ⟨k, hk⟩ := Int.eq_ofNat_of_zero_le (by omega : 0 ≤ -e)
    obtain rfl : e = -k := by omega
    rw [neg_neg, Int.toNat_natCast, Nat.pow_eq, zpow_neg, zpow_natCast]
    push_cast
    field_simp

theorem lt_unscale_iff {n d : ℕ} (hd : 0 < d) {e : ℤ} :
    (unscale n d e).1 < Nat.pow 2 53 * (unscale n d e).2 ↔ (n / d : ℝ) < 2 ^ 53 * 2 ^ e := by
  have hq : (0 : ℝ) < (unscale n d e).2 := Nat.cast_pos.mpr (unscale_pos hd e)
  rw [← unscale_eq n hd e, mul_lt_mul_iff_left₀ (zpow_pos two_pos e), div_lt_iff₀ hq, Nat.pow_eq]
  exact_mod_cast Iff.rfl

/-- At the fitting exponent the significand has its bits and no more. -/
theorem fittingExponent_spec {n d : ℕ} (hn : 0 < n) (hd : 0 < d) :
    minExponent ≤ fittingExponent n d ∧ (n / d : ℝ) < 2 ^ 53 * 2 ^ fittingExponent n d ∧
      (2 ^ 52 * 2 ^ fittingExponent n d ≤ (n / d : ℝ) ∨ fittingExponent n d = minExponent) := by
  have hn' : (0 : ℝ) < n := Nat.cast_pos.mpr hn
  have hd' : (0 : ℝ) < d := Nat.cast_pos.mpr hd
  obtain ⟨hnlow, hnhigh⟩ := (Nat.log2_eq_iff hn.ne').mp rfl
  obtain ⟨hdlow, hdhigh⟩ := (Nat.log2_eq_iff hd.ne').mp rfl
  have hnlow : (2 : ℝ) ^ n.log2 ≤ n := by exact_mod_cast hnlow
  have hnhigh : (n : ℝ) < 2 ^ (n.log2 + 1) := by exact_mod_cast hnhigh
  have hdlow : (2 : ℝ) ^ d.log2 ≤ d := by exact_mod_cast hdlow
  have hdhigh : (d : ℝ) < 2 ^ (d.log2 + 1) := by exact_mod_cast hdhigh
  generalize he : (n.log2 : ℤ) - d.log2 - 53 = e
  have hmerge : ∀ a b : ℕ, ∀ f : ℤ, (2 : ℝ) ^ a * 2 ^ f * 2 ^ b = 2 ^ (a + f + b) := fun a b f => by
    rw [zpow_add₀ two_ne_zero, zpow_add₀ two_ne_zero, zpow_natCast, zpow_natCast]
  have hpos : ∀ f : ℤ, (0 : ℝ) < 2 ^ f := fun f => zpow_pos two_pos f
  have hlow : (2 : ℝ) ^ 52 * 2 ^ e ≤ n / d := by
    rw [le_div_iff₀ hd']
    calc (2 : ℝ) ^ 52 * 2 ^ e * d ≤ 2 ^ 52 * 2 ^ e * 2 ^ (d.log2 + 1) :=
          mul_le_mul_of_nonneg_left hdhigh.le (mul_pos (by norm_num) (hpos e)).le
      _ = 2 ^ n.log2 := by
          rw [hmerge, ← zpow_natCast]
          congr 1
          push_cast
          omega
      _ ≤ n := hnlow
  have hhigh : (n / d : ℝ) < 2 ^ 53 * 2 ^ (e + 1) := by
    rw [div_lt_iff₀ hd']
    calc (n : ℝ) < 2 ^ (n.log2 + 1) := hnhigh
      _ = 2 ^ 53 * 2 ^ (e + 1) * 2 ^ d.log2 := by
          rw [hmerge, ← zpow_natCast]
          congr 1
          push_cast
          omega
      _ ≤ 2 ^ 53 * 2 ^ (e + 1) * d :=
          mul_le_mul_of_nonneg_left hdlow (mul_pos (by norm_num) (hpos (e + 1))).le
  have hdouble : (2 : ℝ) ^ 53 * 2 ^ e = 2 ^ 52 * 2 ^ (e + 1) := by
    rw [zpow_add_one₀ two_ne_zero]
    ring
  -- the estimate from the lengths is right or one too small
  obtain ⟨f, hf, hflow, hfhigh⟩ : ∃ f : ℤ, fittingExponent n d = max f minExponent ∧
      (2 : ℝ) ^ 52 * 2 ^ f ≤ n / d ∧ (n / d : ℝ) < 2 ^ 53 * 2 ^ f := by
    simp only [fittingExponent, he, lt_unscale_iff hd]
    by_cases hlt : (n / d : ℝ) < 2 ^ 53 * 2 ^ e
    · exact ⟨e, by rw [if_pos hlt], hlow, hlt⟩
    · exact ⟨e + 1, by rw [if_neg hlt], hdouble ▸ not_lt.mp hlt, hhigh⟩
  rw [hf]
  refine ⟨le_max_right _ _, hfhigh.trans_le ?_, ?_⟩
  · exact mul_le_mul_of_nonneg_left (zpow_le_zpow_right₀ one_le_two (le_max_left _ _)) (by norm_num)
  · rcases max_choice f minExponent with hmax | hmax
    · rw [hmax]
      exact Or.inl hflow
    · exact Or.inr hmax

/-- The bits are those of what the quotient is rounded to. -/
theorem exists_magnitudeBits (n : ℕ) {d : ℕ} (hd : 0 < d) :
    ∃ k m : ℕ, magnitudeBits n d = k * 2 ^ 52 + m ∧ m ≤ 2 ^ 53 ∧ (2 ^ 52 ≤ m ∨ k = 0) ∧
      Rounds (n / d) (m * 2 ^ (minExponent + k)) := by
  unfold magnitudeBits
  split
  · rename_i hn
    refine ⟨0, 0, rfl, by norm_num, Or.inr rfl, ?_⟩
    rw [hn, Nat.cast_zero, zero_div, zero_mul]
    exact rounds_self representable_zero
  · rename_i hn
    obtain ⟨hmin, hhigh, hlow⟩ := fittingExponent_spec (Nat.pos_of_ne_zero hn) hd
    have hq := unscale_pos hd (fittingExponent n d) (n := n)
    have hsame := unscale_eq n hd (fittingExponent n d)
    obtain ⟨k, hk⟩ := Int.le.dest hmin
    have hplace : (fittingExponent n d - minExponent).toNat = k := by omega
    simp only [hplace]
    rw [← hk] at hmin hhigh hlow hq hsame ⊢
    generalize unscale n d (minExponent + k) = pq at *
    obtain ⟨p, q⟩ := pq
    simp only at hq hsame ⊢
    obtain ⟨hfloor, hceil, hcases⟩ := roundDiv_spec p hq
    have hpos : (0 : ℝ) < 2 ^ (minExponent + k) := zpow_pos two_pos _
    have hqpos : (0 : ℝ) < q := Nat.cast_pos.mpr hq
    rw [← hsame] at hhigh hlow ⊢
    have hshort : p / q < 2 ^ 53 := by
      have h := lt_of_mul_lt_mul_right hhigh hpos.le
      exact_mod_cast hfloor.trans_lt h
    have hfit : 2 ^ 52 ≤ p / q ∨ minExponent + k = minExponent := by
      refine hlow.imp_left fun hlow => ?_
      have h := le_of_mul_le_mul_right hlow hpos
      rw [le_div_iff₀ hqpos] at h
      rw [Nat.le_div_iff_mul_le hq]
      exact_mod_cast h
    have hup := hcases.imp And.left And.left
    refine ⟨k, roundDiv p q, rfl, by omega, by omega, ?_⟩
    refine rounds_of_between hshort hmin hfit (mul_le_mul_of_nonneg_right hfloor hpos.le)
      (mul_lt_mul_of_pos_right hceil hpos) (hcases.imp (And.imp_right fun h => ?_)
        (And.imp_right fun h => ?_))
    · exact mul_le_mul_of_nonneg_right h hpos.le
    · exact mul_le_mul_of_nonneg_right h hpos.le

/-- The bits of infinity come where the magnitudes of floats end. -/
theorem bits_lt_iff {k m : ℕ} (hm : m ≤ 2 ^ 53) (hfit : 2 ^ 52 ≤ m ∨ k = 0) :
    k * 2 ^ 52 + m < 2047 * 2 ^ 52 ↔ (m * 2 ^ (minExponent + k) : ℝ) < 2 ^ 1024 := by
  have hsplit : ∀ a : ℕ, ∀ b : ℤ, a + b = 1024 → (2 : ℝ) ^ 1024 = 2 ^ a * 2 ^ b := by
    intro a b hab
    rw [← zpow_natCast 2 a, ← zpow_add₀ two_ne_zero, hab]
    norm_num
  have hmin : minExponent = -1074 := rfl
  have hpow : ∀ {a b : ℤ}, a ≤ b → (2 : ℝ) ^ a ≤ 2 ^ b := zpow_le_zpow_right₀ one_le_two
  have hm' : (m : ℝ) ≤ 2 ^ 53 := by exact_mod_cast hm
  have hpos : ∀ a : ℤ, (0 : ℝ) < 2 ^ a := fun a => zpow_pos two_pos a
  constructor
  · intro hlt
    rw [hsplit 53 971 rfl]
    rcases (by omega : k ≤ 2044 ∨ k = 2045 ∧ m < 2 ^ 53) with hk | ⟨hk, hlt⟩
    · exact (mul_le_mul hm' (hpow (by omega)) (hpos _).le (by norm_num)).trans_lt
        (mul_lt_mul_of_pos_left (zpow_lt_zpow_right₀ one_lt_two (by norm_num : (970 : ℤ) < 971))
          (by norm_num))
    · rw [hk]
      exact mul_lt_mul_of_pos_right (by exact_mod_cast hlt) (hpos _)
  · intro hlt
    by_contra hge
    rcases (by omega : 2046 ≤ k ∨ k = 2045 ∧ m = 2 ^ 53) with hk | ⟨rfl, rfl⟩
    · have hm' : (2 : ℝ) ^ 52 ≤ m := by exact_mod_cast hfit.resolve_right (by omega)
      rw [hsplit 52 972 rfl] at hlt
      have hplace : (972 : ℤ) ≤ minExponent + k := by omega
      have hge := mul_le_mul hm' (hpow hplace) (hpos _).le (Nat.cast_nonneg m)
      exact absurd hlt (not_lt.mpr hge)
    · rw [hsplit 53 971 rfl, Nat.cast_pow, Nat.cast_two] at hlt
      exact absurd hlt (lt_irrefl _)

/-- The float of given bits, where these come before those of infinity. -/
theorem standsFor_ofMagnitude (negative : Bool) {k m : ℕ} (hm : m ≤ 2 ^ 53)
    (hfit : 2 ^ 52 ≤ m ∨ k = 0) (hlt : k * 2 ^ 52 + m < 2047 * 2 ^ 52) :
    StandsFor (ofMagnitude negative (k * 2 ^ 52 + m))
      (signed (if negative then .negative else .positive) (m * 2 ^ (minExponent + k))) := by
  have hbits : (UInt64.ofNat (if negative then Nat.pow 2 63 + (k * 2 ^ 52 + m) else
      k * 2 ^ 52 + m)).toBitVec.toNat =
      encoding (if negative then .negative else .positive) k m := by
    show (if negative then 2 ^ 63 + (k * 2 ^ 52 + m) else k * 2 ^ 52 + m) % 2 ^ 64 = _
    cases negative with
    | true =>
        show _ = 1 * 2 ^ 63 + (k * 2 ^ 52 + m)
        rw [if_pos rfl]
        omega
    | false =>
        show _ = 0 * 2 ^ 63 + (k * 2 ^ 52 + m)
        rw [if_neg Bool.false_ne_true]
        omega
  refine standsFor_pack (denotes_unpack hbits hm hfit hlt) ?_
  rw [abs_signed, abs_of_nonneg (mul_nonneg (Nat.cast_nonneg m) (zpow_pos two_pos _).le)]
  exact (bits_lt_iff hm hfit).mp hlt

theorem natAbs_div_den (r : Rat) : ((r.num.natAbs : ℝ) / r.den) = |(r : ℝ)| := by
  rw [Rat.cast_def, abs_div, Nat.cast_natAbs, Int.cast_abs, Nat.abs_cast]

theorem signed_abs (r : Rat) :
    signed (if r.num < 0 then .negative else .positive) |(r : ℝ)| = r := by
  split
  · rename_i hneg
    have hr : (r : ℝ) < 0 := Rat.cast_lt_zero.mpr (Rat.num_neg.mp hneg)
    rw [signed, abs_of_neg hr, neg_neg]
  · rename_i hneg
    have hr : (0 : ℝ) ≤ r := Rat.cast_nonneg.mpr (Rat.num_nonneg.mp (not_lt.mp hneg))
    rw [signed, abs_of_nonneg hr]

/-- A rational that is not too large has a float that it is rounded to. -/
theorem exists_ofRat? {r : Rat} (hr : |(r : ℝ)| ≤ 2 ^ 1023) :
    ∃ x v, ofRat? r = some x ∧ Rounds r v ∧ StandsFor x v := by
  obtain ⟨k, m, hbits, hm, hfit, hrounds⟩ := exists_magnitudeBits r.num.natAbs r.den_pos
  rw [natAbs_div_den] at hrounds
  have hsmall : (m * 2 ^ (minExponent + k) : ℝ) < 2 ^ 1024 := by
    refine (hrounds.le_of_le (representable_pow 1023) hr).trans_lt ?_
    exact pow_lt_pow_right₀ one_lt_two (by norm_num)
  have hlt := (bits_lt_iff hm hfit).mpr hsmall
  have hsigned := hrounds.signed (if r.num < 0 then .negative else .positive)
  rw [signed_abs] at hsigned
  have hfloat := standsFor_ofMagnitude (decide (r.num < 0)) hm hfit hlt
  simp only [decide_eq_true_eq] at hfloat
  exact ⟨_, _, if_pos (hbits ▸ hlt), hsigned, hbits ▸ hfloat⟩

/-- A rational that is too large has none. -/
theorem ofRat?_eq_none {r : Rat} (hr : 2 ^ 1024 ≤ |(r : ℝ)|) : ofRat? r = none := by
  obtain ⟨k, m, hbits, hm, hfit, hrounds⟩ := exists_magnitudeBits r.num.natAbs r.den_pos
  rw [natAbs_div_den] at hrounds
  have hlarge := hrounds.ge_of_ge (representable_pow 1024) hr
  have hge := mt (bits_lt_iff hm hfit).mp (not_lt.mpr hlarge)
  exact if_neg (hbits ▸ hge)

/-! ## Literals and counts -/

theorem standsFor_of_unpack {x : Float} {m : ℕ} {e : ℤ} {hpos : 0 < m}
    (h : x.toModel.unpack = .finite .positive m e hpos) (hm : m < 2 ^ 53) (hfit : 2 ^ 52 ≤ m)
    (he : minExponent ≤ e) : StandsFor x (m * 2 ^ e) := by
  unfold StandsFor
  rw [h]
  exact .finite .positive hpos hm he (Or.inl hfit)

theorem standsFor_zero : StandsFor 0.0 0 :=
  Denotes.zero .positive

theorem standsFor_one : StandsFor 1.0 1 := by
  have h := @standsFor_of_unpack 1.0 (2 ^ 52) (-52) (by decide) rfl (by norm_num) le_rfl (by decide)
  norm_num at h
  exact h

theorem standsFor_two : StandsFor 2.0 2 := by
  have h := @standsFor_of_unpack 2.0 (2 ^ 52) (-51) (by decide) rfl (by norm_num) le_rfl (by decide)
  norm_num at h
  exact h

/-- A count is converted as a machine word, which is then multiplied by one. -/
theorem ofNat_eq {n : ℕ} (hn : n < 2 ^ 53) :
    Float.ofNat n =
      .ofModel (.pack (UnpackedFloat.normalize Format.binary64 n 0 .positive)) * 1.0 := by
  have hword : n.toUInt64.toNat = n := by
    rw [Nat.toUInt64_eq, UInt64.toNat_ofNat', Nat.mod_eq_of_lt (by omega)]
  have hscientific : Float.ofNat n = n.toUInt64.toFloat * 1.0 := by
    show Float.ofScientific n false 0 = _
    rw [Float.ofScientific, dif_pos ⟨hn, by norm_num⟩]
    rfl
  rw [hscientific, UInt64.toFloat, Float.Model.ofUInt64, UnpackedFloat.ofUInt64, hword]
  rfl

theorem standsFor_ofNat {n : ℕ} (hn : n < 2 ^ 53) : StandsFor (Float.ofNat n) n := by
  have hn' : (n : ℝ) ≤ 2 ^ 53 := by exact_mod_cast hn.le
  have hsmall : |(n : ℝ)| ≤ 2 ^ 1023 := by
    rw [Nat.abs_cast]
    exact hn'.trans (pow_le_pow_right₀ one_le_two (by norm_num))
  have hrep := representable_natCast hn.le
  obtain ⟨v, hv, hx⟩ := (isRounded_normalize n 0 .positive).exists_standsFor (by simpa using hsmall)
  rw [zpow_zero, mul_one, Int.cast_natCast] at hv
  rw [hv.eq hrep] at hx
  obtain ⟨w, hw, hy⟩ := hx.mul standsFor_one (by rwa [mul_one])
  rw [mul_one] at hw
  rw [hw.eq hrep] at hy
  rwa [ofNat_eq hn]

end RadarChart.Binary64
