import RadarChart.Proofs.Layout.Overhang

/-!
# What a fit is

The fit of a chart, taken apart: its boxes are those of the tips and of the
labels at full size, and both axes are treated alike.
-/

namespace RadarChart

section
variable {c : Chart}

theorem toReal_overflow (length fraction low high : Exact) :
    (overflow length fraction low high).toReal =
      max (max 0 (high.toReal - length.toReal * (1 - fraction.toReal)))
        (length.toReal * fraction.toReal - low.toReal) := by
  simp [overflow, Scalar.larger_exact, Exact.toReal_max]

/-- A factor takes the overflow from the distance between the middle and the tip. -/
theorem shrinkFactor_eq_ok_iff {half low reach x : Exact} :
    shrinkFactor half low reach = .ok x ↔ half.toReal - low.toReal ≠ 0 ∧
      x = ⟨1 - reach.toReal / (half.toReal - low.toReal)⟩ := by
  rw [shrinkFactor, Scalar.divide_eq_ok_iff]
  refine and_congr_right fun hreach => ?_
  have hreach' : half.toReal - low.toReal ≠ 0 := hreach
  have hvalue : ((half - (low + reach)) / (half - low)).toReal =
      1 - reach.toReal / (half.toReal - low.toReal) := by
    simp only [Exact.toReal_div, Exact.toReal_sub, Exact.toReal_add]
    field_simp
    ring
  rw [Exact.ext_iff, hvalue]
  exact Exact.ext_iff.symm

theorem Chart.fitExtrema_eq_ok_iff {points labels : Extrema Exact} {f : Fit Exact} :
    c.fitExtrema points labels = .ok f ↔
      c.shorterSide ≠ 0 ∧ (c.width / 2 - points.left.toReal : ℝ) ≠ 0 ∧
      (c.height / 2 - points.top.toReal : ℝ) ≠ 0 ∧
      f.xOverflow = overflow ⟨c.width⟩ ⟨c.marginShare⟩ labels.left labels.right ∧
      f.yOverflow = overflow ⟨c.height⟩ ⟨c.marginShare⟩ labels.top labels.bottom ∧
      f.xFactor = ⟨1 - f.xOverflow.toReal / (c.width / 2 - points.left.toReal)⟩ ∧
      f.yFactor = ⟨1 - f.yOverflow.toReal / (c.height / 2 - points.top.toReal)⟩ := by
  have hhalf : ∀ {n : Int} {x : Exact}, Scalar.quotient n 2 = .ok x ↔ x = ⟨n / 2⟩ := by
    intro n x
    rw [Scalar.quotient_eq_ok_iff]
    norm_num
  simp only [Chart.fitExtrema, bind_eq_ok_iff, Chart.marginFraction_eq_ok_iff, Scalar.ofInt_exact,
    hhalf, shrinkFactor_eq_ok_iff, pure_eq_ok_iff, Except.ok.injEq, exists_eq_left']
  constructor
  · rintro ⟨_, ⟨hside, rfl⟩, _, rfl, _, rfl, _, ⟨hx, rfl⟩, _, ⟨hy, rfl⟩, rfl⟩
    exact ⟨hside, hx, hy, rfl, rfl, rfl, rfl⟩
  · rintro ⟨hside, hx, hy, hxo, hyo, hxf, hyf⟩
    obtain ⟨xo, yo, xf, yf⟩ := f
    simp only at hxo hyo hxf hyf
    subst hxo hyo hxf hyf
    exact ⟨_, ⟨hside, rfl⟩, _, rfl, _, rfl, _, ⟨hx, rfl⟩, _, ⟨hy, rfl⟩, rfl⟩

theorem Chart.exists_fitExtrema {points : Extrema Exact} (hside : c.shorterSide ≠ 0)
    (hx : (c.width / 2 - points.left.toReal : ℝ) ≠ 0)
    (hy : (c.height / 2 - points.top.toReal : ℝ) ≠ 0) (labels : Extrema Exact) :
    ∃ f, c.fitExtrema points labels = .ok f := by
  let xOverflow : Exact := overflow ⟨c.width⟩ ⟨c.marginShare⟩ labels.left labels.right
  let yOverflow : Exact := overflow ⟨c.height⟩ ⟨c.marginShare⟩ labels.top labels.bottom
  refine ⟨⟨xOverflow, yOverflow, ⟨1 - xOverflow.toReal / (c.width / 2 - points.left.toReal)⟩,
    ⟨1 - yOverflow.toReal / (c.height / 2 - points.top.toReal)⟩⟩, ?_⟩
  exact Chart.fitExtrema_eq_ok_iff.mpr ⟨hside, hx, hy, rfl, rfl, rfl, rfl⟩

end

theorem Exact.lt_spec (a b : Exact) : Ordered.lt a b = true ↔ a < b := by
  simp [Ordered.lt]

theorem Extrema.isBoxOf_exact {ps : List (Point Exact)} {e : Extrema Exact}
    (h : Extrema.ofPoints ps = .ok e) : e.IsBoxOf ps :=
  Extrema.isBoxOf_of_ofPoints Exact.lt_spec rfl rfl h

section
variable {c : Chart} {measure : TextMeasurer Exact}

theorem Chart.fit_eq_ok_iff {f : Fit Exact} :
    c.fit measure = .ok f ↔ ∃ center tips points labels box, c.center = .ok center ∧
      c.star 1.0 = .ok tips ∧ Extrema.ofPoints (placeAll center tips) = .ok points ∧
      c.axisLabels measure center tips = .ok labels ∧
      Extrema.ofPoints (labels.flatMap AxisLabel.corners) = .ok box ∧
      c.fitExtrema points box = .ok f := by
  simp only [Chart.fit, bind_eq_ok_iff]
  constructor
  · rintro ⟨center, hcenter, tips, htips, points, hpoints, labels, hlabels, box, hbox, hf⟩
    exact ⟨center, tips, points, labels, box, hcenter, htips, hpoints, hlabels, hbox, hf⟩
  · rintro ⟨center, tips, points, labels, box, hcenter, htips, hpoints, hlabels, hbox, hf⟩
    exact ⟨center, hcenter, tips, htips, points, hpoints, labels, hlabels, box, hbox, hf⟩

/-- The left and the top side of the box around the tips are those of the farthest spokes. -/
theorem Chart.exists_isFarthest {points : Extrema Exact}
    (h : points.IsBoxOf ((List.range c.radii.length).map (c.tip 1))) :
    (∃ i, c.IsFarthest .left i ∧
      Side.left.reach (c.spoke i) = c.width / 2 - points.left.toReal) ∧
    ∃ i, c.IsFarthest .top i ∧ Side.top.reach (c.spoke i) = c.height / 2 - points.top.toReal := by
  have hleft := h.left_mem
  have htop := h.top_mem
  have hleftLe := h.left_le
  have htopLe := h.top_le
  simp only [List.map_map, List.mem_map, List.mem_range, Function.comp_apply] at hleft htop
  simp only [List.forall_mem_map, List.mem_range, Exact.le_iff] at hleftLe htopLe
  obtain ⟨i, hi, hx⟩ := hleft
  obtain ⟨j, hj, hy⟩ := htop
  rw [← hx] at hleftLe
  rw [← hy] at htopLe
  refine ⟨⟨i, ⟨hi, ?_⟩, ?_⟩, ⟨j, ⟨hj, ?_⟩, ?_⟩⟩
  · intro k hk
    have hle := hleftLe k hk
    simp only [Chart.tip] at hle
    simp only [Side.reach]
    linarith
  · rw [← hx]
    simp [Side.reach, Chart.tip]
  · intro k hk
    have hle := htopLe k hk
    simp only [Chart.tip] at hle
    simp only [Side.reach]
    linarith
  · rw [← hy]
    simp [Side.reach, Chart.tip]

/-- How far a point lies over the margin, and how much is left if that is negative. -/
noncomputable def Chart.excess (c : Chart) (p : Point Exact) : Side → ℝ
  | .left => c.width * c.marginShare - p.x.toReal
  | .right => p.x.toReal - c.width * (1 - c.marginShare)
  | .top => c.height * c.marginShare - p.y.toReal
  | .bottom => p.y.toReal - c.height * (1 - c.marginShare)

/-- A point in the box lies over no margin by more than the overflow. -/
theorem Chart.excess_le_overflow {box : Extrema Exact} {ps : List (Point Exact)}
    (hbox : box.IsBoxOf ps) {p : Point Exact} (hp : p ∈ ps) {f : Fit Exact}
    (hx : f.xOverflow = overflow ⟨c.width⟩ ⟨c.marginShare⟩ box.left box.right)
    (hy : f.yOverflow = overflow ⟨c.height⟩ ⟨c.marginShare⟩ box.top box.bottom) (side : Side) :
    c.excess p side ≤ f.overflowAt side := by
  cases side with
  | left =>
      rw [Fit.overflowAt, hx, toReal_overflow]
      exact (sub_le_sub_left (Exact.le_iff.mp (hbox.left_le p hp)) _).trans (le_max_right _ _)
  | right =>
      rw [Fit.overflowAt, hx, toReal_overflow]
      exact (sub_le_sub_right (Exact.le_iff.mp (hbox.le_right p hp)) _).trans
        ((le_max_right _ _).trans (le_max_left _ _))
  | top =>
      rw [Fit.overflowAt, hy, toReal_overflow]
      exact (sub_le_sub_left (Exact.le_iff.mp (hbox.top_le p hp)) _).trans (le_max_right _ _)
  | bottom =>
      rw [Fit.overflowAt, hy, toReal_overflow]
      exact (sub_le_sub_right (Exact.le_iff.mp (hbox.le_bottom p hp)) _).trans
        ((le_max_right _ _).trans (le_max_left _ _))

/-- A label in the box reaches over no margin by more than the overflow. -/
theorem Chart.overhang_le_overflow {box : Extrema Exact} {l : AxisLabel Exact}
    {labels : List (AxisLabel Exact)} (hbox : box.IsBoxOf (labels.flatMap AxisLabel.corners))
    (hl : l ∈ labels) {f : Fit Exact}
    (hx : f.xOverflow = overflow ⟨c.width⟩ ⟨c.marginShare⟩ box.left box.right)
    (hy : f.yOverflow = overflow ⟨c.height⟩ ⟨c.marginShare⟩ box.top box.bottom) (side : Side) :
    c.overhang l.label l.width side ≤ f.overflowAt side := by
  have hcorner : ∀ p ∈ l.corners, c.excess p side ≤ f.overflowAt side := fun p hp =>
    Chart.excess_le_overflow hbox (List.mem_flatMap.mpr ⟨l, hl, hp⟩) hx hy side
  have hfirst := hcorner _ List.mem_cons_self
  have hsecond := hcorner _ (List.mem_cons_of_mem _ List.mem_cons_self)
  -- the first corner is the one toward the left and the top
  cases side <;>
    simp only [Chart.excess, Exact.toReal_sub, Exact.toReal_add, Exact.toReal_div, Exact.toReal_two]
      at hfirst hsecond
  · exact hfirst
  · exact hsecond
  · exact hfirst
  · exact hsecond

/-- What a label has to one side of its position and to the other, bounds the overflow if each end
of the box belongs to some label. -/
theorem toReal_overflow_le {α : Type} {ls : List α} {position half : α → ℝ}
    {length fraction low high : Exact} {bound : ℝ} (hbound : 0 ≤ bound)
    (hhalf : ∀ l ∈ ls, 0 ≤ half l)
    (hlow : ∃ l ∈ ls, low.toReal = position l - half l ∨ low.toReal = position l + half l)
    (hhigh : ∃ l ∈ ls, high.toReal = position l - half l ∨ high.toReal = position l + half l)
    (hbelow : ∀ l ∈ ls, length.toReal * fraction.toReal - (position l - half l) ≤ bound)
    (habove : ∀ l ∈ ls, position l + half l - length.toReal * (1 - fraction.toReal) ≤ bound) :
    (overflow length fraction low high).toReal ≤ bound := by
  rw [toReal_overflow]
  refine max_le (max_le hbound ?_) ?_
  · obtain ⟨l, hl, hend⟩ := hhigh
    have hnonneg := hhalf l hl
    have hover := habove l hl
    rcases hend with hend | hend <;> linarith
  · obtain ⟨l, hl, hend⟩ := hlow
    have hnonneg := hhalf l hl
    have hover := hbelow l hl
    rcases hend with hend | hend <;> linarith

/-- A corner lies half the width and half the size of some label away from its position. -/
theorem exists_of_mem_corners {labels : List (AxisLabel Exact)} {p : Point Exact}
    (h : p ∈ labels.flatMap AxisLabel.corners) : ∃ l ∈ labels,
      (p.x.toReal = l.label.x.toReal - l.width.toReal / 2 ∨
        p.x.toReal = l.label.x.toReal + l.width.toReal / 2) ∧
      (p.y.toReal = l.label.y.toReal - l.label.size.toReal / 2 ∨
        p.y.toReal = l.label.y.toReal + l.label.size.toReal / 2) := by
  obtain ⟨l, hl, hp⟩ := List.mem_flatMap.mp h
  refine ⟨l, hl, ?_⟩
  rcases List.mem_cons.mp hp with rfl | hp
  · simp
  · rw [List.mem_singleton.mp hp]
    simp

/-- What no label exceeds on either side of an axis, the overflow of the axis does not exceed. -/
theorem Chart.overflow_le {box : Extrema Exact} {labels : List (AxisLabel Exact)}
    (hbox : box.IsBoxOf (labels.flatMap AxisLabel.corners)) {f : Fit Exact}
    (hx : f.xOverflow = overflow ⟨c.width⟩ ⟨c.marginShare⟩ box.left box.right)
    (hy : f.yOverflow = overflow ⟨c.height⟩ ⟨c.marginShare⟩ box.top box.bottom)
    (hextent : ∀ l ∈ labels, 0 ≤ l.width.toReal ∧ 0 ≤ l.label.size.toReal) {side : Side}
    {bound : ℝ} (hbound : 0 ≤ bound)
    (h : ∀ l ∈ labels, ∀ s : Side, s.near = side.near → c.overhang l.label l.width s ≤ bound) :
    f.overflowAt side ≤ bound := by
  have hcolumns : ∀ {a : Exact}, a ∈ (labels.flatMap AxisLabel.corners).map (·.x) → ∃ l ∈ labels,
      a.toReal = l.label.x.toReal - l.width.toReal / 2 ∨
        a.toReal = l.label.x.toReal + l.width.toReal / 2 := by
    intro a ha
    obtain ⟨p, hp, rfl⟩ := List.mem_map.mp ha
    obtain ⟨l, hl, hpx, _⟩ := exists_of_mem_corners hp
    exact ⟨l, hl, hpx⟩
  have hrows : ∀ {a : Exact}, a ∈ (labels.flatMap AxisLabel.corners).map (·.y) → ∃ l ∈ labels,
      a.toReal = l.label.y.toReal - l.label.size.toReal / 2 ∨
        a.toReal = l.label.y.toReal + l.label.size.toReal / 2 := by
    intro a ha
    obtain ⟨p, hp, rfl⟩ := List.mem_map.mp ha
    obtain ⟨l, hl, _, hpy⟩ := exists_of_mem_corners hp
    exact ⟨l, hl, hpy⟩
  have hxBound : side.near = .left → f.xOverflow.toReal ≤ bound := by
    intro hside
    rw [hx]
    exact toReal_overflow_le hbound (fun l hl => div_nonneg (hextent l hl).1 (by norm_num))
      (hcolumns hbox.left_mem) (hcolumns hbox.right_mem) (fun l hl => h l hl .left hside.symm)
      (fun l hl => h l hl .right hside.symm)
  have hyBound : side.near = .top → f.yOverflow.toReal ≤ bound := by
    intro hside
    rw [hy]
    exact toReal_overflow_le hbound (fun l hl => div_nonneg (hextent l hl).2 (by norm_num))
      (hrows hbox.top_mem) (hrows hbox.bottom_mem) (fun l hl => h l hl .top hside.symm)
      (fun l hl => h l hl .bottom hside.symm)
  cases side with
  | left => exact hxBound rfl
  | right => exact hxBound rfl
  | top => exact hyBound rfl
  | bottom => exact hyBound rfl

theorem Chart.isFit_of_fit {f : Fit Exact} (h : c.fit measure = .ok f) : c.IsFit measure f := by
  obtain ⟨center, tips, points, labels, box, hcenter, htips, hpoints, hlabels, hbox, hf⟩ :=
    Chart.fit_eq_ok_iff.mp h
  obtain ⟨_, hxne, hyne, hxo, hyo, hxf, hyf⟩ := Chart.fitExtrema_eq_ok_iff.mp hf
  have hpointsBox := Extrema.isBoxOf_exact hpoints
  rw [Chart.placeAll_star hcenter htips, Exact.toReal_one] at hpointsBox
  have hlabelsBox := Extrema.isBoxOf_exact hbox
  obtain ⟨⟨i, hi, hreachi⟩, ⟨j, hj, hreachj⟩⟩ := Chart.exists_isFarthest hpointsBox
  refine ⟨?_, ?_, ?_⟩
  · intro side
    cases side <;>
      simp only [Fit.overflowAt, hxo, hyo, toReal_overflow, le_max_iff, le_refl, true_or]
  · intro side k text width htext hwidth
    obtain ⟨w, hw, hlabel⟩ := Chart.getElem?_axisLabels hcenter htips hlabels htext
    rw [hwidth] at hw
    cases hw
    rw [Exact.toReal_one] at hlabel
    exact Chart.overhang_le_overflow hlabelsBox (List.mem_of_getElem? hlabel) hxo hyo side
  · intro side
    cases side with
    | left => exact ⟨i, hi, hreachi ▸ hxne, by rw [Fit.factorAt, hxf, Side.near, hreachi]; rfl⟩
    | right => exact ⟨i, hi, hreachi ▸ hxne, by rw [Fit.factorAt, hxf, Side.near, hreachi]; rfl⟩
    | top => exact ⟨j, hj, hreachj ▸ hyne, by rw [Fit.factorAt, hyf, Side.near, hreachj]; rfl⟩
    | bottom => exact ⟨j, hj, hreachj ▸ hyne, by rw [Fit.factorAt, hyf, Side.near, hreachj]; rfl⟩

/-- The overflow is the least that no label exceeds, if widths are not negative. -/
theorem Chart.overflowAt_le_of_fit {f : Fit Exact} (h : c.fit measure = .ok f)
    (hsize : 0 ≤ c.textSize)
    (hwidth : ∀ text width, measure text (.whole c.textSize) = .ok width → 0 ≤ width.toReal)
    {side : Side} {bound : ℝ} (hbound : 0 ≤ bound)
    (hall : ∀ s i text width, s.near = side.near → c.radii[i]? = some text →
      measure text (.whole c.textSize) = .ok width →
      c.overhang (c.labelOf 1 i text width).label width s ≤ bound) :
    f.overflowAt side ≤ bound := by
  obtain ⟨center, tips, points, labels, box, hcenter, htips, _, hlabels, hbox, hf⟩ :=
    Chart.fit_eq_ok_iff.mp h
  obtain ⟨_, _, _, hxo, hyo, _⟩ := Chart.fitExtrema_eq_ok_iff.mp hf
  have hlabelsBox := Extrema.isBoxOf_exact hbox
  have hform : ∀ l ∈ labels, ∃ k text width, c.radii[k]? = some text ∧
      measure text (.whole c.textSize) = .ok width ∧ l = c.labelOf 1 k text width := by
    intro l hl
    rw [← Exact.toReal_one]
    exact Chart.exists_of_mem_axisLabels hcenter htips hlabels hl
  refine Chart.overflow_le hlabelsBox hxo hyo ?_ hbound ?_
  · intro l hl
    obtain ⟨k, text, width, _, hmeasured, rfl⟩ := hform l hl
    exact ⟨hwidth text width hmeasured, Int.cast_nonneg hsize⟩
  · intro l hl s hs
    obtain ⟨k, text, width, htext, hmeasured, rfl⟩ := hform l hl
    exact hall s k text width hs htext hmeasured

end

end RadarChart
