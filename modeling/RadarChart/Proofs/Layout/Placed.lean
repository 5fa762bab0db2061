import RadarChart.Proofs.Layout.Floats
import RadarChart.Proofs.Number.Extended

/-!
# Boxes over floats

The sides of a box around finite floats are found among them. A tip is placed
by adding its offset to the middle: an offset that is a large enough share of
the middle moves it, and one that is too small a share is lost in the rounding,
so that the box has no extent.
-/

namespace RadarChart

open Binary64

/-! ## Extrema of floats -/

variable {sin cos : Float → Float}

/-- From infinity on, the least of finite floats is found. -/
theorem leastFrom_highest {xs : List (FloatWith sin cos)} (hne : xs ≠ [])
    (hxs : ∀ x ∈ xs, ∃ v, StandsFor x v) :
    ∃ l ∈ xs, ∃ v, leastFrom Ordered.highest? xs = some l ∧ StandsFor l v ∧
      ∀ x ∈ xs, ∀ t, StandsFor x t → v ≤ t := by
  have hfinite : ∀ x ∈ xs, floatReading.IsFinite x := by
    intro x hx
    obtain ⟨_, h⟩ := hxs x hx
    exact h.isFinite
  obtain ⟨l, hl, hfound, hle⟩ := LinearReading.leastFrom_highest (α := Float) hne hfinite
  obtain ⟨v, hv⟩ := hxs l hl
  refine ⟨l, hl, v, hfound, hv, fun x hx t ht => ?_⟩
  have hvt := hle x hx
  rwa [hv.value_eq, ht.value_eq, EReal.coe_le_coe_iff] at hvt

/-- There is a box around points that are finite sideways. -/
theorem exists_ofPoints {ps : List (Point (FloatWith sin cos))} (hne : ps ≠ [])
    (hx : ∀ p ∈ ps, ∃ v, StandsFor p.x v) :
    ∃ e, Extrema.ofPoints ps = .ok e ∧
      leastFrom Ordered.highest? (ps.map (·.x)) = some e.left ∧
      leastFrom Ordered.highest? (ps.map (·.y)) = some e.top := by
  have hfinite : ∀ p ∈ ps, floatReading.IsFinite p.x := fun p hp =>
    (hx p hp).elim fun _ h => h.isFinite
  obtain ⟨e, he⟩ := LinearReading.exists_ofPoints (α := Float) hne hfinite
  obtain ⟨hleft, _, htop, _, _⟩ := Extrema.ofPoints_eq_ok_iff.mp he
  exact ⟨e, he, hleft, htop⟩

/-! ## Placed tips -/

theorem placeAll_eq_map {α : Type} [Scalar α] (center : Point α) (offsets : List (Point α)) :
    placeAll center offsets =
      offsets.map fun d => ⟨center.x + d.x * 1.0, center.y + d.y * 1.0⟩ := by
  unfold placeAll place
  apply List.ext_getElem
  · simp
  · intro i _ _
    simp only [List.getElem_zipWith, List.getElem_replicate, List.getElem_map]

theorem map_x_placeAll {α : Type} [Scalar α] (center : Point α) (offsets : List (Point α)) :
    (placeAll center offsets).map Point.x =
      (offsets.map Point.x).map fun d => center.x + d * 1.0 := by
  rw [placeAll_eq_map, List.map_map, List.map_map]
  rfl

theorem map_y_placeAll {α : Type} [Scalar α] (center : Point α) (offsets : List (Point α)) :
    (placeAll center offsets).map Point.y =
      (offsets.map Point.y).map fun d => center.y + d * 1.0 := by
  rw [placeAll_eq_map, List.map_map, List.map_map]
  rfl

section
variable {a d : Float} {r v : ℝ} {j k : ℕ} (hj : j + 1 ≤ 1023)

include hj

theorem isWithin_placed (ha : IsWithin a j) (hd : IsWithin d j) :
    IsWithin (a + d * 1.0) (j + 1) := by
  obtain ⟨v, hv, hvle⟩ := hd
  exact ha.add ⟨v, standsFor_mul_one hv (le_limit (by omega) hvle), hvle⟩ hj

theorem exists_rounds_placed (ha : StandsFor a r) (hr : |r| ≤ 2 ^ j) (hd : StandsFor d v)
    (hv : |v| ≤ 2 ^ j) : ∃ u, Rounds (r + v) u ∧ StandsFor (a + d * 1.0) u := by
  have hsum : |r + v| ≤ 2 ^ (j + 1) := by
    refine (abs_add_le r v).trans ?_
    rw [pow_succ]
    linarith
  exact ha.add (standsFor_mul_one hd (le_limit (by omega) hv)) (le_limit hj hsum)

/-- An offset that is a large enough share of the middle is not lost when it is added. -/
theorem exists_placed_lt (ha : StandsFor a r) (hpos : 0 < r) (hr : r ≤ 2 ^ (k + 50))
    (hr' : |r| ≤ 2 ^ j) (hd : StandsFor d v) (hd' : |v| ≤ 2 ^ j) (hv : v ≤ -2 ^ ((k : ℤ) - 2)) :
    ∃ w, StandsFor (a + d * 1.0) w ∧ w < r := by
  have hmin : minExponent = -1074 := rfl
  have hle : r ≤ 2 ^ ((k : ℤ) - 2 + 52) := by
    have hexp : (k : ℤ) - 2 + 52 = (k + 50 : ℕ) := by
      push_cast
      ring
    rw [hexp, zpow_natCast]
    exact hr
  obtain ⟨w, hw, hlow, hlt⟩ := ha.representable.exists_lt hpos (by omega) hle
  obtain ⟨u, hu, hfor⟩ := exists_rounds_placed hj ha hr' hd hd'
  exact ⟨u, hfor, (hu.le_of_le hw (by linarith)).trans_lt hlt⟩

/-- An offset that is too small a share of the middle is lost. -/
theorem standsFor_placed_of_small (ha : StandsFor a r) (hr : 2 ^ (k + 57) ≤ r) (hr' : |r| ≤ 2 ^ j)
    (hd : StandsFor d v) (hv : |v| ≤ 2 ^ (k + 2)) (hv' : |v| ≤ 2 ^ j) :
    StandsFor (a + d * 1.0) r := by
  obtain ⟨u, hu, hfor⟩ := exists_rounds_placed hj ha hr' hd hv'
  have hshare : |v| ≤ r / 2 ^ 55 := by
    rw [le_div_iff₀ (by positivity)]
    calc |v| * 2 ^ 55 ≤ 2 ^ (k + 2) * 2 ^ 55 := mul_le_mul_of_nonneg_right hv (by positivity)
      _ = 2 ^ (k + 57) := by rw [← pow_add]
      _ ≤ r := hr
  have hpos : 0 < r := lt_of_lt_of_le (by positivity) hr
  rwa [hu.eq_of_abs_le ha.representable hpos hshare] at hfor

end

section
variable {a : FloatWith sin cos} {r : ℝ} {j k : ℕ} {ds : List (FloatWith sin cos)}
  (hj : j + 1 ≤ 1023) (ha : StandsFor a r) (hr : |r| ≤ 2 ^ j) (hk : k + 2 ≤ j)
  (hds : ∀ d ∈ ds, IsWithin d (k + 2))

include hj ha hr hk hds

theorem exists_least_placed_lt (hpos : 0 < r) (hrk : r ≤ 2 ^ (k + 50))
    (hd : ∃ d ∈ ds, ∃ v, StandsFor d v ∧ v ≤ -2 ^ ((k : ℤ) - 2)) :
    ∃ l t, leastFrom Ordered.highest? (ds.map fun d => a + d * 1.0) = some l ∧
      StandsFor l t ∧ t < r ∧ |t| ≤ 2 ^ (j + 1) := by
  have hplaced : ∀ x ∈ ds.map fun d => a + d * 1.0, IsWithin x (j + 1) :=
    List.forall_mem_map.mpr fun d hd => isWithin_placed hj ⟨r, ha, hr⟩ ((hds d hd).mono hk)
  obtain ⟨d, hd, v, hv, hvle⟩ := hd
  obtain ⟨u, hu, hule⟩ := (hds d hd).mono hk
  rw [← hv.unique hu] at hule
  obtain ⟨w, hw, hwr⟩ := exists_placed_lt hj ha hpos hrk hr hv hule hvle
  obtain ⟨l, hl, t, hfound, hfor, hle⟩ := leastFrom_highest
    (List.ne_nil_of_mem (List.mem_map_of_mem hd)) fun x hx => (hplaced x hx).exists_standsFor
  obtain ⟨b, hb, hble⟩ := hplaced l hl
  rw [← hfor.unique hb] at hble
  exact ⟨l, t, hfound, hfor, (hle _ (List.mem_map_of_mem hd) w hw).trans_lt hwr, hble⟩

theorem exists_least_placed_eq (hrk : 2 ^ (k + 57) ≤ r) (hne : ds ≠ []) :
    ∃ l, leastFrom Ordered.highest? (ds.map fun d => a + d * 1.0) = some l ∧
      StandsFor l r := by
  have hplaced : ∀ x ∈ ds.map fun d => a + d * 1.0, StandsFor x r := by
    refine List.forall_mem_map.mpr fun d hd => ?_
    obtain ⟨v, hv, hvle⟩ := hds d hd
    exact standsFor_placed_of_small hj ha hrk hr hv hvle
      (hvle.trans (pow_le_pow_right₀ one_le_two hk))
  obtain ⟨l, hl, _, hfound, _⟩ := leastFrom_highest (by simpa using hne)
    fun x hx => ⟨r, hplaced x hx⟩
  exact ⟨l, hfound, hplaced l hl⟩

end

/-! ## Labels -/

theorem exists_ofInt_within {n : ℤ} {j : ℕ} (hj : j ≤ 1023) (hpos : 0 ≤ n) (hn : n ≤ 2 ^ j) :
    ∃ x : FloatWith sin cos, Scalar.ofInt n = .ok x ∧ IsWithin x j := by
  have hn' : |(n : ℝ)| ≤ 2 ^ j := by
    rw [abs_of_nonneg (by exact_mod_cast hpos)]
    exact_mod_cast hn
  obtain ⟨x, v, hx, hv, hfor⟩ := @exists_ofInt sin cos n (le_limit hj hn')
  exact ⟨x, hx, v, hfor, hv.abs_le_pow hn'⟩

theorem isWithin_defaultCharWidth : IsWithin (defaultCharWidth : FloatWith sin cos) 0 := by
  have h := @standsFor_of_unpack 0.6 5404319552844595 (-53) (by decide) rfl (by norm_num)
    (by norm_num) (by decide)
  refine ⟨_, h, ?_⟩
  norm_num [abs_le]

/-- The width that is estimated for a text. -/
theorem exists_estimateWidth {text : String} {size : ℤ} {j : ℕ} (hj : j ≤ 1023) (hpos : 0 ≤ size)
    (hsize : text.length * size ≤ 2 ^ j) :
    ∃ width : FloatWith sin cos, estimateWidth defaultCharWidth text (.whole size) = .ok width ∧
      IsWithin width j := by
  obtain ⟨x, hx, hwithin⟩ := @exists_ofInt_within sin cos _ j hj (by positivity) hsize
  refine ⟨x * defaultCharWidth, ?_, hwithin.mul isWithin_defaultCharWidth hj⟩
  rw [estimateWidth, hx]
  rfl

section
variable {c : Chart} {j : ℕ} (hsin : Computes sin Real.sin) (hj : j + 3 ≤ 1023)
  (hpos : 0 < c.radii.length) (hn : c.radii.length ≤ 2 ^ 50)

include hsin hj hpos hn

theorem isWithin_corners {i : ℕ} (hi : i ≤ c.radii.length) (text : String)
    (height : FloatWith sin cos) {width : FloatWith sin cos} {tip : Point (FloatWith sin cos)}
    (hwidth : IsWithin width j) (htip : IsWithin tip.x (j + 1)) :
    ∀ p ∈ (axisLabel c.radii.length i text height width tip).corners, IsWithin p.x (j + 3) := by
  have hangle := @isNear_spokeAngle sin cos _ i hi hpos hn
  have hsine := isWithin_of_isNear (hsin.isNear Real.abs_sin_sub_sin_le (hangle.mono (by norm_num)))
    (Real.abs_sin_le_one _)
  have hhalf := hwidth.half (by omega)
  have hlabel := htip.add (hhalf.mul hsine (by omega)) (by omega)
  have hhalf' := hhalf.mono (by omega : j ≤ j + 2)
  simp only [AxisLabel.corners, List.forall_mem_cons]
  exact ⟨hlabel.sub hhalf' (by omega), hlabel.add hhalf' (by omega), fun _ h => nomatch h⟩

theorem isWithin_axisLabelsFrom {height : FloatWith sin cos} {i : ℕ} {texts : List String}
    {tips : List (Point (FloatWith sin cos))} {labels : List (AxisLabel (FloatWith sin cos))}
    (hi : i + texts.length ≤ c.radii.length) (hsize : 0 ≤ c.textSize)
    (htexts : ∀ text ∈ texts, text.length * c.textSize ≤ 2 ^ j)
    (htips : ∀ tip ∈ tips, IsWithin tip.x (j + 1))
    (h : axisLabelsFrom c (estimateWidth defaultCharWidth) height i texts tips = .ok labels) :
    ∀ p ∈ labels.flatMap AxisLabel.corners, IsWithin p.x (j + 3) := by
  induction texts generalizing i tips labels with
  | nil =>
      cases h
      exact fun _ hp => nomatch hp
  | cons text texts ih =>
      cases tips with
      | nil =>
          cases h
          exact fun _ hp => nomatch hp
      | cons tip tips =>
          rw [List.forall_mem_cons] at htexts htips
          rw [List.length_cons] at hi
          obtain ⟨width, hwidth, hwithin⟩ :=
            @exists_estimateWidth sin cos text c.textSize j (by omega) hsize htexts.1
          simp only [axisLabelsFrom, bind_eq_ok_iff, pure_eq_ok_iff] at h
          obtain ⟨width', hwidth', labels, hlabels, rfl⟩ := h
          obtain rfl : width = width' := Except.ok.inj (hwidth.symm.trans hwidth')
          rw [List.flatMap_cons, List.forall_mem_append]
          exact ⟨isWithin_corners hsin hj hpos hn (by omega) text height hwithin htips.1,
            ih (by omega) htexts.2 htips.2 hlabels⟩

end

end RadarChart
