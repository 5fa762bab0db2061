import RadarChart.Proofs.Number.Conversion
import RadarChart.Proofs.Number.Trimmed

/-!
# Numbers are written rounded

A float is written as the canonical decimal of the multiple of the last
decimal place that is nearest to what it stands for, or of the even one of two.
So two floats have the same text if they are rounded to the same multiple.
-/

namespace RadarChart.Fixed

open Binary64 Text

/-! ## The nearest multiple -/

/-- The multiple of the last of `p` decimal places that is nearest to the number, and even
if another one is as near. -/
structure IsNearest (p : ℕ) (r : ℝ) (k : ℤ) : Prop where
  nearest : ∀ j : ℤ, |r - k / 10 ^ p| ≤ |r - j / 10 ^ p|
  even : ∀ j : ℤ, j ≠ k → |r - j / 10 ^ p| = |r - k / 10 ^ p| → Even k

theorem abs_sub_div_pow (p : ℕ) (r : ℝ) (k : ℤ) :
    |r - k / 10 ^ p| = |r * 10 ^ p - k| / 10 ^ p := by
  have hpos : (0 : ℝ) < 10 ^ p := by positivity
  rw [eq_div_iff hpos.ne', ← abs_of_pos hpos, ← abs_mul, abs_of_pos hpos]
  congr 1
  field_simp

theorem one_le_abs_sub {j k : ℤ} (h : j ≠ k) : (1 : ℝ) ≤ |(j : ℝ) - k| := by
  have h : 1 ≤ |j - k| := Int.one_le_abs (sub_ne_zero.mpr h)
  exact_mod_cast h

/-- The nearest multiple is at most half a unit away, and even if it is half a unit. -/
theorem isNearest_iff {p : ℕ} {r : ℝ} {k : ℤ} :
    IsNearest p r k ↔ |r * 10 ^ p - k| ≤ 1 / 2 ∧ (|r * 10 ^ p - k| = 1 / 2 → Even k) := by
  have hpos : (0 : ℝ) < 10 ^ p := by positivity
  have hle : ∀ i j : ℤ, |r - i / 10 ^ p| ≤ |r - j / 10 ^ p| ↔
      |r * 10 ^ p - i| ≤ |r * 10 ^ p - j| := fun i j => by
    rw [abs_sub_div_pow, abs_sub_div_pow, div_le_div_iff_of_pos_right hpos]
  constructor
  · rintro ⟨hnearest, heven⟩
    have hnearest : ∀ j : ℤ, |r * 10 ^ p - k| ≤ |r * 10 ^ p - j| := fun j =>
      (hle k j).mp (hnearest j)
    have heven : ∀ j : ℤ, j ≠ k → |r * 10 ^ p - j| = |r * 10 ^ p - k| → Even k := fun j hj h =>
      heven j hj (by rw [abs_sub_div_pow, abs_sub_div_pow, h])
    generalize r * 10 ^ p = t at *
    have hup := hnearest (k + 1)
    have hdown := hnearest (k - 1)
    push_cast at hup hdown
    constructor
    · rcases abs_cases (t - k) with h | h <;> rcases abs_cases (t - (k + 1)) with h' | h' <;>
        rcases abs_cases (t - (k - 1)) with h'' | h'' <;> linarith
    · intro hhalf
      rcases (abs_eq (by norm_num : (0 : ℝ) ≤ 1 / 2)).mp hhalf with h | h
      · refine heven (k + 1) (by omega) ?_
        rw [hhalf, ← abs_neg, abs_of_nonneg] <;> push_cast <;> linarith
      · refine heven (k - 1) (by omega) ?_
        rw [hhalf, abs_of_nonneg] <;> push_cast <;> linarith
  · rintro ⟨hhalf, heven⟩
    have hother : ∀ j : ℤ, j ≠ k → 1 / 2 ≤ |r * 10 ^ p - j| := by
      intro j hj
      have hgap := one_le_abs_sub hj
      have htriangle := abs_sub_le (j : ℝ) (r * 10 ^ p) k
      rw [abs_sub_comm (j : ℝ) (r * 10 ^ p)] at htriangle
      linarith
    constructor
    · intro j
      rw [hle]
      by_cases hj : j = k
      · rw [hj]
      · exact hhalf.trans (hother j hj)
    · intro j hj h
      have hsame := le_antisymm ((hle j k).mp h.le) ((hle k j).mp h.ge)
      exact heven (le_antisymm hhalf (hsame ▸ hother j hj))

theorem IsNearest.unique {p : ℕ} {r : ℝ} {j k : ℤ} (hj : IsNearest p r j) (hk : IsNearest p r k) :
    j = k := by
  by_contra hne
  have hsame := le_antisymm (hj.nearest k) (hk.nearest j)
  obtain ⟨i, rfl⟩ := hj.even k (Ne.symm hne) hsame.symm
  obtain ⟨l, rfl⟩ := hk.even _ hne hsame
  -- two even ones are at least two units apart
  have hgap : (2 : ℝ) ≤ |((i + i : ℤ) : ℝ) - (l + l : ℤ)| := by
    have h : 2 ≤ |i + i - (l + l)| := by
      rcases abs_cases (i + i - (l + l)) with h | h <;> omega
    exact_mod_cast h
  have hi := (isNearest_iff.mp hj).1
  have hl := (isNearest_iff.mp hk).1
  have htriangle := abs_sub_le ((i + i : ℤ) : ℝ) (r * 10 ^ p) (l + l : ℤ)
  rw [abs_sub_comm ((i + i : ℤ) : ℝ) (r * 10 ^ p)] at htriangle
  linarith

theorem IsNearest.neg {p : ℕ} {r : ℝ} {k : ℤ} (h : IsNearest p r k) : IsNearest p (-r) (-k) := by
  rw [isNearest_iff] at h ⊢
  have hflip : |-r * 10 ^ p - (-k : ℤ)| = |r * 10 ^ p - k| := by
    rw [← abs_neg]
    congr 1
    push_cast
    ring
  rwa [hflip, even_neg]

/-- A quotient is rounded to the nearest whole number, and to the even one of two. -/
theorem abs_sub_roundDiv (n : ℕ) {d : ℕ} (hd : 0 < d) :
    |(n / d : ℝ) - roundDiv n d| ≤ 1 / 2 ∧
      (|(n / d : ℝ) - roundDiv n d| = 1 / 2 → Even (roundDiv n d)) := by
  have hpos : (0 : ℝ) < d := Nat.cast_pos.mpr hd
  have hrest : ((n % d : ℕ) : ℝ) < d := Nat.cast_lt.mpr (Nat.mod_lt n hd)
  have hscale : ∀ q : ℕ, (n / d : ℝ) - q = ((n / d : ℕ) : ℝ) - q + (n % d : ℕ) / d := fun q => by
    rw [natCast_div_eq n hd]
    ring
  have hnonneg : (0 : ℝ) ≤ (n % d : ℕ) / d := by positivity
  have hone : ((n % d : ℕ) : ℝ) / d < 1 := (div_lt_one hpos).mpr hrest
  rw [hscale, roundDiv]
  split
  · rename_i hlt
    have hlt : (2 * (n % d : ℕ) : ℝ) < d := by exact_mod_cast hlt
    have hhalf : ((n % d : ℕ) : ℝ) / d < 1 / 2 := by
      rw [div_lt_iff₀ hpos]
      linarith
    rw [sub_self, zero_add, abs_of_nonneg hnonneg]
    exact ⟨hhalf.le, fun h => absurd h hhalf.ne⟩
  · split
    · rename_i hlt
      have hlt : (d : ℝ) < 2 * (n % d : ℕ) := by exact_mod_cast hlt
      have hhalf : 1 / 2 < ((n % d : ℕ) : ℝ) / d := by
        rw [lt_div_iff₀ hpos]
        linarith
      rw [abs_of_nonpos] <;> push_cast
      · exact ⟨by linarith, fun h => by linarith⟩
      · linarith
    · have htie : 2 * (n % d) = d := by omega
      have hhalf : ((n % d : ℕ) : ℝ) / d = 1 / 2 := by
        rw [div_eq_div_iff hpos.ne' two_ne_zero, one_mul]
        exact_mod_cast (mul_comm _ 2).trans htie
      rw [hhalf]
      have heven : Even (n / d + n / d % 2) := by
        rw [Nat.even_iff]
        omega
      refine ⟨?_, fun _ => heven⟩
      push_cast
      rcases Nat.mod_two_eq_zero_or_one (n / d) with h | h <;> rw [h] <;> norm_num

/-- The count of units is the nearest one. -/
theorem isNearest_units (p m : ℕ) (e : ℤ) : IsNearest p (m * 2 ^ e) (units p m e) := by
  rw [isNearest_iff, units]
  split
  · obtain ⟨k, rfl⟩ := Int.eq_ofNat_of_zero_le ‹0 ≤ e›
    have hexact : (m * 2 ^ (k : ℤ) * 10 ^ p : ℝ) -
        ((m * Nat.pow 2 (k : ℤ).toNat * Nat.pow 10 p : ℕ) : ℤ) = 0 := by
      rw [Int.toNat_natCast, Nat.pow_eq, Nat.pow_eq, zpow_natCast]
      push_cast
      ring
    rw [hexact, abs_zero]
    exact ⟨by norm_num, fun h => absurd h (by norm_num)⟩
  · obtain ⟨k, hk⟩ := Int.eq_ofNat_of_zero_le (by omega : 0 ≤ -e)
    obtain rfl : e = -k := by omega
    have hquotient : (m * 2 ^ (-k : ℤ) * 10 ^ p : ℝ) =
        (m * Nat.pow 10 p : ℕ) / (Nat.pow 2 k : ℕ) := by
      rw [zpow_neg, zpow_natCast, Nat.pow_eq, Nat.pow_eq]
      push_cast
      ring
    rw [neg_neg, Int.toNat_natCast, hquotient, Int.cast_natCast, Int.even_coe_nat]
    exact abs_sub_roundDiv _ (Nat.pow_pos two_pos)

/-! ## What a float stands for -/

/-- A finite float stands for what is read off its bits. -/
theorem ofFloat_cases (x : Float) :
    (∃ negative m e, Datum.ofFloat x = .finite negative m e ∧
      StandsFor x (signed (if negative then .negative else .positive) (m * 2 ^ e))) ∨
      x.isFinite = false := by
  have hbits : x.toBits.toNat = x.toModel.toBits.toBitVec.toNat := rfl
  have hfinite : x.isFinite =
      (Float.Model.UnpackedFloat.unpack .binary64 x.toModel.toBits.toBitVec).isFinite := rfl
  unfold StandsFor Float.Model.unpack
  rw [hfinite, Datum.ofFloat, hbits]
  generalize x.toModel.toBits.toBitVec = b
  have hsign : @Float.Model.UnpackedFloat.unpackSign .binary64 b =
      Float.Model.UnpackedFloat.Sign.toBitVec
        (if b.toNat / 2 ^ 63 % 2 == 1 then .negative else .positive) := by
    apply BitVec.eq_of_toNat_eq
    rw [toNat_unpackSign]
    rcases Nat.mod_two_eq_zero_or_one (b.toNat / 2 ^ 63) with h | h <;> rw [h] <;> rfl
  have hexponent := toNat_unpackExponent b
  have hmantissa := toNat_unpackMantissa b
  simp only [Datum.ofBits, Nat.pow_eq]
  by_cases hones : b.toNat / 2 ^ 52 % 2 ^ 11 = 2047
  · right
    have hfield : @Float.Model.UnpackedFloat.unpackExponent .binary64 b = -1#11 :=
      BitVec.eq_of_toNat_eq (hexponent.trans hones)
    simp only [Float.Model.UnpackedFloat.unpack, hfield]
    rw [if_pos trivial]
    split <;> rfl
  · left
    rw [if_neg hones]
    by_cases hzero : b.toNat / 2 ^ 52 % 2 ^ 11 = 0
    · rw [if_pos hzero]
      refine ⟨_, _, _, rfl, ?_⟩
      rw [← hmantissa]
      exact denotes_unpack_subnormal hsign (hexponent.trans hzero)
    · rw [if_neg hzero]
      refine ⟨_, _, _, rfl, ?_⟩
      obtain ⟨k, hk⟩ := Nat.exists_eq_succ_of_ne_zero hzero
      have h := denotes_unpack_normal hsign (hexponent.trans hk) (by omega)
      have hplace : ((b.toNat / 2 ^ 52 % 2 ^ 11 : ℕ) : ℤ) - 1075 = minExponent + k := by
        have hmin : minExponent = -1074 := rfl
        omega
      rwa [hplace, ← hmantissa]

theorem isFinite_iff {x : Float} : x.isFinite = true ↔ ∃ r, StandsFor x r := by
  constructor
  · intro hfinite
    rcases ofFloat_cases x with ⟨_, _, _, _, h⟩ | h
    · exact ⟨_, h⟩
    · rw [h] at hfinite
      cases hfinite
  · rintro ⟨r, h⟩
    have hfinite : ∀ u t, Denotes u t → u.isFinite = true := by
      rintro _ _ (_ | _) <;> rfl
    exact hfinite _ _ h

/-! ## What is written -/

/-- The text is the number's canonical decimal, which has at most `p` decimal places. -/
def Spells (p : ℕ) (v : ℚ) (s : String) : Prop :=
  ∃ d : Decimal, d.Canonical ∧ d.places.length ≤ p ∧ d.value = v ∧ s.toList = d.text

theorem Spells.unique {p : ℕ} {v : ℚ} {s t : String} (hs : Spells p v s) (ht : Spells p v t) :
    s = t := by
  obtain ⟨d, hd, _, rfl, hstext⟩ := hs
  obtain ⟨e, he, _, hvalue, httext⟩ := ht
  rw [← String.toList_inj, hstext, httext, hd.eq_of_value_eq he hvalue.symm]

theorem Spells.value_eq {p : ℕ} {v w : ℚ} {s : String} (hv : Spells p v s) (hw : Spells p w s) :
    v = w := by
  obtain ⟨d, hd, _, rfl, hdtext⟩ := hv
  obtain ⟨e, he, _, rfl, hetext⟩ := hw
  rw [hd.eq_of_text_eq he (hdtext.symm.trans hetext)]

theorem spells_zero (p : ℕ) : Spells p 0 "0" :=
  ⟨⟨false, ['0'], []⟩, ⟨Or.inl rfl, Or.inl rfl, by decide⟩, Nat.zero_le p,
    by norm_num [Decimal.value, Decimal.magnitude]; rfl, rfl⟩

/-- What is kept of the places spells the nearest multiple, and the digits of its whole part are
all kept. -/
theorem exists_trimmed (p : ℕ) {x : Float} {r : ℝ} (hx : StandsFor x r) :
    ∃ k : ℤ, IsNearest p r k ∧ Spells p (k / 10 ^ p) (String.ofList (trimmed p x)) ∧
      ∃ d : Decimal, d.Canonical ∧ (String.ofList (trimmed p x)).toList = d.text ∧
        d.whole = Nat.toDigits 10 (k.natAbs / 10 ^ p) := by
  rcases ofFloat_cases x with ⟨negative, m, e, hdatum, hvalue⟩ | hinfinite
  · obtain rfl := hx.unique hvalue
    obtain ⟨d, hd, hplaces, hwhole, hdvalue, htext⟩ :=
      exists_canonical_trimmed negative p (units p m e)
    have hnearest := isNearest_units p m e
    have htrimmed : (String.ofList (trimmed p x)).toList = d.text := by
      rw [String.toList_ofList, trimmed, plain, hdatum, htext]
    cases negative with
    | false =>
        exact ⟨units p m e, hnearest, ⟨d, hd, hplaces, hdvalue, htrimmed⟩, d, hd, htrimmed, hwhole⟩
    | true =>
        refine ⟨-units p m e, hnearest.neg, ⟨d, hd, hplaces, ?_, htrimmed⟩, d, hd, htrimmed, ?_⟩
        · rw [hdvalue, Int.cast_neg, neg_div]
          rfl
        · rw [Int.natAbs_neg]
          exact hwhole
  · rw [isFinite_iff.mpr ⟨r, hx⟩] at hinfinite
    cases hinfinite

theorem div_pow_inj {p : ℕ} {j k : ℤ} : (j / 10 ^ p : ℚ) = k / 10 ^ p ↔ j = k := by
  rw [div_left_inj' (by positivity), Int.cast_inj]

section
variable {precision : ℤ} (x : Float)

theorem write_eq_ok (hmin : 0 ≤ precision) (hmax : precision ≤ maxPlaces) :
    write x precision = .ok (String.ofList (trimmed precision.toNat x)) := by
  have hcount : maxPlaces ≤ maxCount := by decide
  rw [write, places, if_neg (not_lt.mpr hmin), if_neg (not_lt.mpr (hmax.trans hcount)),
    if_neg (not_lt.mpr hmax)]
  rfl

theorem write_tooLarge (hmax : maxPlaces < precision) (hcount : precision ≤ maxCount) :
    write x precision = .error .precisionTooLarge := by
  have hpos : (0 : ℤ) ≤ maxPlaces := by decide
  rw [write, places, if_neg (not_lt.mpr (hpos.trans hmax.le)), if_neg (not_lt.mpr hcount),
    if_pos hmax]
  rfl

theorem write_tooLong (hcount : maxCount < precision) :
    write x precision = .error .precisionTooLong := by
  have hpos : (0 : ℤ) ≤ maxCount := by decide
  rw [write, places, if_neg (not_lt.mpr (hpos.trans hcount.le)), if_pos hcount]
  rfl

end

/-- A finite float is written as the one canonical decimal of the nearest multiple of the
last decimal place. More places than can be laid out are refused, and so are more than can be
counted. -/
theorem write_nearest {precision : ℤ} (hmin : 0 ≤ precision) :
    (precision ≤ maxPlaces →
      (∀ x : Float, x.isFinite = true → ∃ r k s, StandsFor x r ∧
        (∀ j, IsNearest precision.toNat r j ↔ j = k) ∧ write x precision = .ok s ∧
        (∀ t, Spells precision.toNat (k / 10 ^ precision.toNat) t ↔ t = s) ∧
        (∃ d : Decimal, d.Canonical ∧ s.toList = d.text ∧
          d.whole = Nat.toDigits 10 (k.natAbs / 10 ^ precision.toNat)) ∧
        (r < 0 → k = 0 → s = "0")) ∧
      ∀ x y : Float, x.isFinite = true → y.isFinite = true →
        (write x precision = write y precision ↔ ∃ r t k, StandsFor x r ∧ StandsFor y t ∧
          IsNearest precision.toNat r k ∧ IsNearest precision.toNat t k)) ∧
    (maxPlaces < precision → precision ≤ maxCount →
      ∀ x, write x precision = .error .precisionTooLarge) ∧
    (maxCount < precision → ∀ x, write x precision = .error .precisionTooLong) := by
  generalize hp : precision.toNat = p
  refine ⟨fun hmax => ⟨?_, ?_⟩, fun hmax hcount x => write_tooLarge x hmax hcount,
    fun hcount x => write_tooLong x hcount⟩
  · intro x hx
    obtain ⟨r, hr⟩ := isFinite_iff.mp hx
    obtain ⟨k, hk, hspells, hwhole⟩ := exists_trimmed p hr
    refine ⟨r, k, String.ofList (trimmed p x), hr, ?_, ?_, ?_, hwhole, ?_⟩
    · intro j
      constructor
      · intro hj
        exact hj.unique hk
      · rintro rfl
        exact hk
    · rw [write_eq_ok x hmin hmax, hp]
    · intro t
      constructor
      · intro ht
        exact ht.unique hspells
      · rintro rfl
        exact hspells
    · rintro _ rfl
      rw [Int.cast_zero, zero_div] at hspells
      exact hspells.unique (spells_zero p)
  · intro x y hx hy
    obtain ⟨r, hr⟩ := isFinite_iff.mp hx
    obtain ⟨t, ht⟩ := isFinite_iff.mp hy
    obtain ⟨k, hk, hspells, _⟩ := exists_trimmed p hr
    obtain ⟨j, hj, hspells', _⟩ := exists_trimmed p ht
    rw [write_eq_ok x hmin hmax, write_eq_ok y hmin hmax, hp, Except.ok.injEq]
    constructor
    · intro hsame
      rw [hsame] at hspells
      have hmultiple : k = j := div_pow_inj.mp (hspells.value_eq hspells')
      exact ⟨r, t, k, hr, ht, hk, hmultiple ▸ hj⟩
    · rintro ⟨r', t', i, hr', ht', hi, hi'⟩
      obtain rfl := hr.unique hr'
      obtain rfl := ht.unique ht'
      obtain rfl := hi.unique hk
      obtain rfl := hi'.unique hj
      exact hspells.unique hspells'

/-- A tie, and what is said of precisions that are too large. -/
theorem write_two_and_a_half : (2.5 : Float).isFinite = true ∧ (0 : ℤ) ≤ 0 ∧ 0 ≤ maxPlaces ∧
    (∃ r k, StandsFor 2.5 r ∧ (∀ j, IsNearest 0 r j ↔ j = k) ∧
      ∀ t, Spells 0 (k / 10 ^ 0) t ↔ t = "2") ∧
    maxPlaces < 2 ^ 31 ∧ 2 ^ 31 ≤ maxCount ∧
    write 2.5 (2 ^ 31) = .error .precisionTooLarge ∧
    Fault.message .precisionTooLarge = "precision too big" ∧
    maxCount < 2 ^ 63 ∧ write 2.5 (2 ^ 63) = .error .precisionTooLong ∧
    Fault.message .precisionTooLong = "Too many decimal digits in format string" := by
  have hfinite : (2.5 : Float).isFinite = true := by decide +kernel
  have hzero : (0 : ℤ) ≤ maxPlaces := by decide
  have hlarge : maxPlaces < 2 ^ 31 := by decide
  have hcounted : 2 ^ 31 ≤ maxCount := by decide
  have hlong : maxCount < 2 ^ 63 := by decide
  have hwrite : write 2.5 0 = .ok "2" := by decide +kernel
  obtain ⟨r, k, s, hr, hk, hs, hspells, _⟩ := ((write_nearest le_rfl).1 hzero).1 2.5 hfinite
  rw [hwrite] at hs
  obtain rfl := Except.ok.inj hs
  have hmin : (0 : ℤ) ≤ 2 ^ 31 := by decide
  have hmin' : (0 : ℤ) ≤ 2 ^ 63 := by decide
  exact ⟨hfinite, le_rfl, hzero, ⟨r, k, hr, hk, hspells⟩, hlarge, hcounted,
    (write_nearest hmin).2.1 hlarge hcounted 2.5, rfl, hlong,
    (write_nearest hmin').2.2 hlong 2.5, rfl⟩

theorem write_one_refused : (1.0 : Float).isFinite = true ∧ (0 : ℤ) ≤ 2 ^ 31 ∧
    ∀ s, write 1.0 (2 ^ 31) ≠ .ok s := by
  refine ⟨by decide +kernel, by decide, fun s hs => ?_⟩
  rw [write_tooLarge 1.0 (by decide) (by decide)] at hs
  cases hs

end RadarChart.Fixed
