import RadarChart.Proofs.Number.Unpacked

/-!
# What floats stand for

The bits of a float hold its sign, its exponent counted from the least one, and
its significand, whose leading bit carries into the exponent. Reading them
back gives what was packed, so that the arithmetic of floats is that of
unpacked ones wherever the result is not too large.
-/

namespace RadarChart.Binary64

open Float.Model (Format UnpackedFloat)
open Float.Model.UnpackedFloat

/-- The bits of a float with the given sign, place of the exponent and significand. -/
def encoding (s : Sign) (place significand : ℕ) : ℕ :=
  s.toBitVec.toNat * 2 ^ 63 + (place * 2 ^ 52 + significand)

theorem toNat_unpackMantissa (b : BitVec 64) :
    (@unpackMantissa Format.binary64 b).toNat = b.toNat % 2 ^ 52 := by
  simp [unpackMantissa]

theorem toNat_unpackExponent (b : BitVec 64) :
    (@unpackExponent Format.binary64 b).toNat = b.toNat / 2 ^ 52 % 2 ^ 11 := by
  simp [unpackExponent, Nat.shiftRight_eq_div_pow]

theorem toNat_unpackSign (b : BitVec 64) :
    (@unpackSign Format.binary64 b).toNat = b.toNat / 2 ^ 63 % 2 := by
  simp [unpackSign, Nat.shiftRight_eq_div_pow]

theorem toNat_packComponents (s : Sign) (x : BitVec 11) (f : BitVec 52) :
    (packComponents Format.binary64 s x f).toNat =
      s.toBitVec.toNat * 2 ^ 63 + x.toNat * 2 ^ 52 + f.toNat := by
  have hs := s.toBitVec.isLt
  have hx := x.isLt
  have hf := f.isLt
  rw [packComponents, BitVec.toNat_append, BitVec.toNat_append, ← Nat.shiftLeft_add_eq_or_of_lt hx,
    ← Nat.shiftLeft_add_eq_or_of_lt hf, Nat.shiftLeft_eq, Nat.shiftLeft_eq]
  omega

theorem toNat_toBitVec_le (s : Sign) : s.toBitVec.toNat ≤ 1 := by
  cases s <;> decide

theorem toNat_unpackMantissa_lt (b : BitVec 64) :
    (@unpackMantissa Format.binary64 b).toNat < 2 ^ 52 :=
  BitVec.isLt _

theorem toNat_implicit (f : BitVec 52) : (1#1 ++ f).toNat = 2 ^ 52 + f.toNat := by
  rw [BitVec.toNat_append, ← Nat.shiftLeft_add_eq_or_of_lt f.isLt, Nat.shiftLeft_eq]
  rfl

section
variable {b : BitVec 64} {s : Sign} (hsign : @unpackSign Format.binary64 b = s.toBitVec)

include hsign

theorem denotes_unpack_subnormal (hexponent : (@unpackExponent Format.binary64 b).toNat = 0) :
    Denotes (unpack Format.binary64 b)
      (signed s ((@unpackMantissa Format.binary64 b).toNat * 2 ^ minExponent)) := by
  have hfield : @unpackExponent Format.binary64 b = 0#11 := BitVec.eq_of_toNat_eq hexponent
  simp only [unpack, hsign, Sign.ofBitVec_toBitVec, hfield]
  rw [if_neg (by decide), if_pos trivial]
  by_cases hzero : @unpackMantissa Format.binary64 b = 0#52
  · rw [dif_pos hzero, hzero]
    simpa [signed_zero] using Denotes.zero s
  · rw [dif_neg hzero]
    have hlt := toNat_unpackMantissa_lt b
    exact .finite s _ (by omega) le_rfl (Or.inr rfl)

theorem denotes_unpack_normal {x : ℕ}
    (hexponent : (@unpackExponent Format.binary64 b).toNat = x + 1) (hx : x + 1 < 2047) :
    Denotes (unpack Format.binary64 b)
      (signed s ((2 ^ 52 + (@unpackMantissa Format.binary64 b).toNat : ℕ) *
        2 ^ (minExponent + x))) := by
  have hones : @unpackExponent Format.binary64 b ≠ -1#11 := by
    intro h
    rw [h] at hexponent
    have : (-1#11).toNat = 2047 := rfl
    omega
  have hzero : @unpackExponent Format.binary64 b ≠ 0#11 := by
    intro h
    rw [h] at hexponent
    simp at hexponent
  simp only [unpack, hsign, Sign.ofBitVec_toBitVec]
  rw [if_neg hones, if_neg hzero]
  have hplace : ((@unpackExponent Format.binary64 b).toNat : ℤ) -
      (Format.binary64.exponentBias + Format.binary64.mantissaBitsWithoutImplicit) =
      minExponent + x := by
    rw [hexponent]
    simp [Format.exponentBias, minExponent]
    omega
  have hlt := toNat_unpackMantissa_lt b
  have h := Denotes.finite s (m := 2 ^ 52 + (@unpackMantissa Format.binary64 b).toNat)
    (e := minExponent + x) (by omega) (by omega) (by omega) (Or.inl (by omega))
  convert h using 2
  · exact toNat_implicit _

end

/-- What the bits are read as. -/
theorem denotes_unpack {b : BitVec 64} {s : Sign} {k m : ℕ} (hb : b.toNat = encoding s k m)
    (hm : m ≤ 2 ^ 53) (hfit : 2 ^ 52 ≤ m ∨ k = 0) (hlt : k * 2 ^ 52 + m < 2047 * 2 ^ 52) :
    Denotes (UnpackedFloat.unpack Format.binary64 b) (signed s (m * 2 ^ (minExponent + k))) := by
  have hbit := toNat_toBitVec_le s
  have hsign : @unpackSign Format.binary64 b = s.toBitVec := by
    apply BitVec.eq_of_toNat_eq
    rw [toNat_unpackSign, hb, encoding]
    omega
  have hmantissa := toNat_unpackMantissa b
  have hexponent := toNat_unpackExponent b
  rw [hb, encoding] at hmantissa hexponent
  -- the significand is short, has all its bits, or has carried into the next place
  rcases lt_or_ge m (2 ^ 52) with hshort | hlong
  · obtain rfl : k = 0 := hfit.resolve_left (not_le.mpr hshort)
    have h := denotes_unpack_subnormal hsign (by omega)
    have hsame : (@unpackMantissa Format.binary64 b).toNat = m := by omega
    rwa [hsame, ← add_zero minExponent] at h
  · rcases hm.lt_or_eq with hfull | rfl
    · have h := denotes_unpack_normal hsign (x := k) (by omega) (by omega)
      have hsame : 2 ^ 52 + (@unpackMantissa Format.binary64 b).toNat = m := by omega
      rwa [hsame] at h
    · have h := denotes_unpack_normal hsign (x := k + 1) (by omega) (by omega)
      have hsame : 2 ^ 52 + (@unpackMantissa Format.binary64 b).toNat = 2 ^ 52 := by omega
      have hcarry : ((2 ^ 52 : ℕ) * 2 ^ (minExponent + (k + 1 : ℕ)) : ℝ) =
          (2 ^ 53 : ℕ) * 2 ^ (minExponent + k) := by
        rw [Nat.cast_succ, ← add_assoc, zpow_add_one₀ two_ne_zero]
        push_cast
        ring
      rwa [hsame, hcarry] at h

theorem toNat_pack (s : Sign) {m : ℕ} {e : ℤ} (hpos : 0 < m) (hm : m < 2 ^ 53)
    (he : minExponent ≤ e) (hfit : 2 ^ 52 ≤ m ∨ e = minExponent) (hmax : e ≤ 971) :
    (UnpackedFloat.pack Format.binary64 (.finite s m e hpos)).toNat =
      encoding s (e - minExponent).toNat m := by
  have hmin : minExponent = -1074 := rfl
  have hbiased :
      (e + Format.binary64.exponentBias + Format.binary64.mantissaBitsWithoutImplicit).toNat =
        (e - minExponent).toNat + 1 := by
    simp [Format.exponentBias]
    omega
  simp only [UnpackedFloat.pack, hbiased, encoding]
  rw [if_neg (by simp; omega)]
  split
  · rename_i hlog
    have hlong : 2 ^ 52 ≤ m := by
      rw [← Nat.le_log2 hpos.ne']
      simp [Format.mantissaBits] at hlog
      omega
    rw [toNat_packComponents, BitVec.toNat_ofNat, BitVec.toNat_ofNat]
    omega
  · rename_i hlog
    have hshort : m < 2 ^ 52 := by
      by_contra hlong
      have := (Nat.le_log2 hpos.ne').mpr (not_lt.mp hlong)
      have := (Nat.log2_lt hpos.ne').mpr hm
      simp [Format.mantissaBits] at hlog
      omega
    obtain rfl : e = minExponent := hfit.resolve_left (not_le.mpr hshort)
    rw [toNat_packComponents, BitVec.toNat_ofNat, BitVec.toNat_ofNat]
    omega

/-- The float stands for the number. -/
def StandsFor (x : Float) (r : ℝ) : Prop :=
  Denotes x.toModel.unpack r

theorem abs_signed (s : Sign) (r : ℝ) : |signed s r| = |r| := by
  cases s with
  | positive => rfl
  | negative => exact abs_neg r

theorem exponent_le_of_lt {m : ℕ} {e : ℤ} (hfit : 2 ^ 52 ≤ m ∨ e = minExponent)
    (h : (m * 2 ^ e : ℝ) < 2 ^ 1024) : e ≤ 971 := by
  by_contra hlt
  have hmin : minExponent = -1074 := rfl
  have hm : (2 : ℝ) ^ 52 ≤ m := by exact_mod_cast hfit.resolve_right (by omega)
  have hsplit : (2 : ℝ) ^ 1024 = 2 ^ 52 * 2 ^ (972 : ℤ) := by
    rw [← zpow_natCast, ← zpow_natCast, ← zpow_add₀ two_ne_zero]
    rfl
  have he : (2 : ℝ) ^ (972 : ℤ) ≤ 2 ^ e := zpow_le_zpow_right₀ one_le_two (by omega)
  rw [hsplit] at h
  exact absurd h (not_lt.mpr (mul_le_mul hm he (zpow_pos two_pos _).le (Nat.cast_nonneg m)))

/-- What is not too large can be packed. -/
theorem standsFor_pack {u : UnpackedFloat} {r : ℝ} (h : Denotes u r) (hr : |r| < 2 ^ 1024) :
    StandsFor (.ofModel (.pack u)) r := by
  cases h with
  | zero s =>
      have h := @denotes_unpack (UnpackedFloat.pack Format.binary64 (.zero s)) s 0 0
        (by cases s <;> rfl) (by norm_num) (Or.inr rfl) (by norm_num)
      rwa [Nat.cast_zero, zero_mul, signed_zero] at h
  | @finite s m e hpos hm he hfit =>
      have hmin : minExponent = -1074 := rfl
      have hmagnitude : (0 : ℝ) ≤ m * 2 ^ e :=
        mul_nonneg (Nat.cast_nonneg m) (zpow_pos two_pos e).le
      rw [abs_signed, abs_of_nonneg hmagnitude] at hr
      have hmax := exponent_le_of_lt hfit hr
      have h := denotes_unpack (toNat_pack s hpos hm he hfit hmax) hm.le (by omega) (by omega)
      rwa [Int.toNat_of_nonneg (by omega), add_sub_cancel] at h

/-- What is not too large can be rounded and packed. -/
theorem IsRounded.exists_standsFor {u : UnpackedFloat} {r : ℝ} (h : IsRounded u r)
    (hr : |r| ≤ 2 ^ 1023) : ∃ v, Rounds r v ∧ StandsFor (.ofModel (.pack u)) v := by
  obtain ⟨v, hv, hu⟩ := h
  refine ⟨v, hv, standsFor_pack hu ((hv.abs_le_of_le (representable_pow 1023) hr).trans_lt ?_)⟩
  exact pow_lt_pow_right₀ one_lt_two (by norm_num)

/-! ## The operations of floats -/

section
variable {x y : Float} {r t : ℝ}

theorem StandsFor.representable (h : StandsFor x r) : Representable r :=
  Denotes.representable h

theorem StandsFor.unique (hr : StandsFor x r) (ht : StandsFor x t) : r = t :=
  Denotes.unique hr ht

theorem StandsFor.add (hx : StandsFor x r) (hy : StandsFor y t) (h : |r + t| ≤ 2 ^ 1023) :
    ∃ v, Rounds (r + t) v ∧ StandsFor (x + y) v :=
  (isRounded_add hx hy).exists_standsFor h

theorem StandsFor.sub (hx : StandsFor x r) (hy : StandsFor y t) (h : |r - t| ≤ 2 ^ 1023) :
    ∃ v, Rounds (r - t) v ∧ StandsFor (x - y) v :=
  (isRounded_sub hx hy).exists_standsFor h

theorem StandsFor.mul (hx : StandsFor x r) (hy : StandsFor y t) (h : |r * t| ≤ 2 ^ 1023) :
    ∃ v, Rounds (r * t) v ∧ StandsFor (x * y) v :=
  (isRounded_mul hx hy).exists_standsFor h

theorem StandsFor.div (hx : StandsFor x r) (hy : StandsFor y t) (ht : t ≠ 0)
    (h : |r / t| ≤ 2 ^ 1023) : ∃ v, Rounds (r / t) v ∧ StandsFor (x / y) v :=
  (isRounded_div hx hy ht).exists_standsFor h

theorem denotes_neg {u : UnpackedFloat} (h : Denotes u r) : Denotes u.neg (-r) := by
  cases h with
  | zero s =>
      rw [neg_zero]
      exact .zero (-s)
  | finite s hpos hm he hfit =>
      rw [← signed_neg]
      exact .finite (-s) hpos hm he hfit

theorem StandsFor.neg (hx : StandsFor x r) (h : |r| ≤ 2 ^ 1023) : StandsFor (-x) (-r) := by
  refine standsFor_pack (denotes_neg hx) ?_
  rw [abs_neg]
  exact h.trans_lt (pow_lt_pow_right₀ one_lt_two (by norm_num))

theorem StandsFor.beq_iff (hx : StandsFor x r) (hy : StandsFor y t) : (x == y) = true ↔ r = t := by
  show UnpackedFloat.beq x.toModel.unpack y.toModel.unpack = true ↔ _
  rw [UnpackedFloat.beq, hx.compare_eq hy, beq_iff_eq, Option.some.injEq, compare_eq_iff_eq]

end

end RadarChart.Binary64
