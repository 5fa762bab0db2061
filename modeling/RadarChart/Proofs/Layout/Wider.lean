import RadarChart.Proofs.Layout.Canvas
import RadarChart.Proofs.Layout.Factor

/-!
# Wider texts

The same chart with two fonts. The rows of the labels' boxes are the same. A
label of a wider text reaches at least as far to either side of its tip,
although its middle may move inward, so the box around the labels grows
sideways only and the chart is no larger. This is for widths that are not
negative: a box of a negative width is turned inside out, and reaches the
farther the narrower its text is.
-/

namespace RadarChart

/-! ## Rows -/

/-- The vertical coordinates of the corners of the labels' boxes. -/
def cornerRows {α : Type} [Scalar α] (labels : List (AxisLabel α)) : List α :=
  (labels.flatMap AxisLabel.corners).map (·.y)

section
variable {α : Type} [Scalar α] {c : Chart} {measure measure' : TextMeasurer α}

theorem cornerRows_axisLabelsFrom {height : α} {k : Nat} {texts : List String}
    {tips : List (Point α)} {labels labels' : List (AxisLabel α)}
    (h : axisLabelsFrom c measure height k texts tips = .ok labels)
    (h' : axisLabelsFrom c measure' height k texts tips = .ok labels') :
    cornerRows labels = cornerRows labels' := by
  induction texts generalizing k tips labels labels' with
  | nil =>
      cases h
      cases h'
      rfl
  | cons text texts ih =>
      cases tips with
      | nil =>
          cases h
          cases h'
          rfl
      | cons tip tips =>
          simp only [axisLabelsFrom, bind_eq_ok_iff, pure_eq_ok_iff] at h h'
          obtain ⟨_, _, rest, hrest, rfl⟩ := h
          obtain ⟨_, _, rest', hrest', rfl⟩ := h'
          have hrows := ih hrest hrest'
          simp only [cornerRows, List.flatMap_cons, List.map_append] at hrows ⊢
          rw [hrows]
          rfl

/-- The measurer has no part in the rows. -/
theorem Chart.cornerRows_axisLabels {center : Point α} {offsets : List (Point α)}
    {labels labels' : List (AxisLabel α)} (h : c.axisLabels measure center offsets = .ok labels)
    (h' : c.axisLabels measure' center offsets = .ok labels') :
    cornerRows labels = cornerRows labels' := by
  simp only [Chart.axisLabels, bind_eq_ok_iff] at h h'
  obtain ⟨height, hheight, h⟩ := h
  obtain ⟨height', hheight', h'⟩ := h'
  obtain rfl : height = height' := Except.ok.inj (hheight.symm.trans hheight')
  exact cornerRows_axisLabelsFrom h h'

end

/-! ## Columns -/

/-- The label reaches at least as far as the other one to the left and to the right. -/
def AxisLabel.Spans (l' l : AxisLabel Exact) : Prop :=
  l'.label.x - l'.width / 2.0 ≤ l.label.x - l.width / 2.0 ∧
    l.label.x + l.width / 2.0 ≤ l'.label.x + l'.width / 2.0

/-- A wider text moves the middle of its label by half of what it is wider at most. -/
theorem Chart.spans_labelOf (c : Chart) (factor : ℝ) (i : Nat) (text : String)
    {width width' : Exact} (h : width ≤ width') :
    (c.labelOf factor i text width').Spans (c.labelOf factor i text width) := by
  have hwider : 0 ≤ width'.toReal - width.toReal := sub_nonneg.mpr (Exact.le_iff.mp h)
  have hlow := Real.neg_one_le_sin (2 * Real.pi * i / c.radii.length)
  have hhigh := Real.sin_le_one (2 * Real.pi * i / c.radii.length)
  have hleft := mul_nonneg hwider (sub_nonneg.mpr hhigh)
  have hright := mul_nonneg hwider (sub_nonneg.mpr hlow)
  simp only [AxisLabel.Spans, Exact.le_iff, Exact.toReal_sub, Exact.toReal_add, Exact.toReal_div,
    Exact.toReal_two, Chart.width_labelOf, Chart.toReal_labelOf_x]
  constructor <;> linarith

theorem sub_half_le_add_half (x : Exact) {width : Exact} (h : 0 ≤ width.toReal) :
    x - width / 2.0 ≤ x + width / 2.0 := by
  simp only [Exact.le_iff, Exact.toReal_sub, Exact.toReal_add, Exact.toReal_div, Exact.toReal_two]
  linarith

section
variable {labels labels' : List (AxisLabel Exact)} {box box' : Extrema Exact}
  (hbox : box.IsBoxOf (labels.flatMap AxisLabel.corners))
  (hbox' : box'.IsBoxOf (labels'.flatMap AxisLabel.corners))

include hbox in
theorem columns_of_mem {l : AxisLabel Exact} (hl : l ∈ labels) :
    box.left ≤ l.label.x - l.width / 2.0 ∧ l.label.x + l.width / 2.0 ≤ box.right := by
  have hcorner : ∀ p ∈ l.corners, p ∈ labels.flatMap AxisLabel.corners :=
    fun p hp => List.mem_flatMap.mpr ⟨l, hl, hp⟩
  exact ⟨hbox.left_le _ (hcorner _ List.mem_cons_self),
    hbox.le_right _ (hcorner _ (List.mem_cons_of_mem _ List.mem_cons_self))⟩

include hbox hbox'

/-- Labels on the same rows, each of which is spanned by another one, have a smaller box. -/
theorem inside_of_spans (hrows : cornerRows labels = cornerRows labels')
    (hwidth : ∀ l ∈ labels, 0 ≤ l.width.toReal)
    (hspans : ∀ l ∈ labels, ∃ l' ∈ labels', l'.Spans l) : box.Inside box' := by
  -- a corner is between the sides of its label, and these are between those of the other label
  have hcolumns : ∀ p ∈ labels.flatMap AxisLabel.corners, box'.left ≤ p.x ∧ p.x ≤ box'.right := by
    intro p hp
    obtain ⟨l, hl, hp⟩ := List.mem_flatMap.mp hp
    obtain ⟨l', hl', hleft, hright⟩ := hspans l hl
    obtain ⟨hlow, hhigh⟩ := columns_of_mem hbox' hl'
    have hsides := sub_half_le_add_half l.label.x (hwidth l hl)
    rcases List.mem_cons.mp hp with rfl | hp
    · exact ⟨hlow.trans hleft, hsides.trans (hright.trans hhigh)⟩
    · obtain rfl := List.mem_singleton.mp hp
      exact ⟨(hlow.trans hleft).trans hsides, hright.trans hhigh⟩
  have hmem : ∀ y ∈ cornerRows labels, ∃ p ∈ labels'.flatMap AxisLabel.corners, p.y = y := by
    intro y hy
    rw [hrows] at hy
    exact List.mem_map.mp hy
  constructor
  · obtain ⟨p, hp, hleft⟩ := List.mem_map.mp hbox.left_mem
    exact hleft ▸ (hcolumns p hp).1
  · obtain ⟨p, hp, hright⟩ := List.mem_map.mp hbox.right_mem
    exact hright ▸ (hcolumns p hp).2
  · obtain ⟨p, hp, htop⟩ := hmem _ hbox.top_mem
    exact htop ▸ hbox'.top_le p hp
  · obtain ⟨p, hp, hbottom⟩ := hmem _ hbox.bottom_mem
    exact hbottom ▸ hbox'.le_bottom p hp

end

/-! ## Fits -/

/-- In the second font every text is at least as wide as in the first one, where no text has a
negative width. -/
def IsWider (measure measure' : TextMeasurer Exact) : Prop :=
  ∀ text size, ∃ width width', measure text size = .ok width ∧ measure' text size = .ok width' ∧
    0 ≤ width.toReal ∧ width.toReal ≤ width'.toReal

theorem Chart.WellFormed.factor_le_of_isWider {c : Chart} (h : c.WellFormed)
    {measure measure' : TextMeasurer Exact} (hwider : IsWider measure measure') {f f' : Fit Exact}
    (hf : c.fit measure = .ok f) (hf' : c.fit measure' = .ok f') :
    f'.factor.toReal ≤ f.factor.toReal := by
  obtain ⟨center, tips, points, labels, box, hcenter, htips, hpoints, hlabels, hbox, hfit⟩ :=
    Chart.fit_eq_ok_iff.mp hf
  obtain ⟨center', tips', points', labels', box', hcenter', htips', hpoints', hlabels', hbox',
    hfit'⟩ := Chart.fit_eq_ok_iff.mp hf'
  -- up to the measuring of texts the two fits are one
  obtain rfl : center = center' := Except.ok.inj (hcenter.symm.trans hcenter')
  obtain rfl : tips = tips' := Except.ok.inj (htips.symm.trans htips')
  obtain rfl : points = points' := Except.ok.inj (hpoints.symm.trans hpoints')
  have hform : ∀ l ∈ labels, 0 ≤ l.width.toReal ∧ ∃ l' ∈ labels', l'.Spans l := by
    intro l hl
    obtain ⟨i, text, width, htext, hwidth, rfl⟩ :=
      Chart.exists_of_mem_axisLabels hcenter htips hlabels hl
    obtain ⟨width', hwidth', hlabel'⟩ := Chart.getElem?_axisLabels hcenter htips hlabels' htext
    obtain ⟨w, w', hw, hw', hnonneg, hle⟩ := hwider text (.whole c.textSize)
    obtain rfl : w = width := Except.ok.inj (hw.symm.trans hwidth)
    obtain rfl : w' = width' := Except.ok.inj (hw'.symm.trans hwidth')
    exact ⟨hnonneg, _, List.mem_of_getElem? hlabel', c.spans_labelOf _ i text hle⟩
  have hinside : box.Inside box' := inside_of_spans
    (Extrema.isBoxOf_exact hbox) (Extrema.isBoxOf_exact hbox')
    (Chart.cornerRows_axisLabels hlabels hlabels') (fun l hl => (hform l hl).1)
    fun l hl => (hform l hl).2
  obtain ⟨hleft, htop⟩ := h.off_middle hcenter htips hpoints
  exact Chart.factor_le_of_inside h.width h.height hleft htop le_rfl hinside hfit hfit'

/-- Of a chart that was read, the layout in the wider one of two fonts is no larger. And in any two
fonts the boxes of the labels have the same rows, at full size as at any other, and over any
coordinates. -/
theorem Chart.layout_of_isWider {text : String} {c : Chart} (hparse : Chart.parse text = .ok c)
    {measure measure' : TextMeasurer Exact} (hwider : IsWider measure measure') :
    (∃ g g', c.layout measure = .ok g ∧ c.layout measure' = .ok g' ∧
      g'.scaleFactor.toReal ≤ g.scaleFactor.toReal) ∧
    ∀ {α : Type} [Scalar α] (font font' : TextMeasurer α) (center : Point α)
      (tips : List (Point α)) (labels labels' : List (AxisLabel α)),
      c.axisLabels font center tips = .ok labels → c.axisLabels font' center tips = .ok labels' →
      cornerRows labels = cornerRows labels' := by
  refine ⟨?_, fun _ _ _ _ _ _ hlabels hlabels' => Chart.cornerRows_axisLabels hlabels hlabels'⟩
  have hwell := Chart.wellFormed_of_parse hparse
  have hmeasure : ∀ t size, ∃ width, measure t size = .ok width := by
    intro t size
    obtain ⟨width, _, hwidth, _⟩ := hwider t size
    exact ⟨width, hwidth⟩
  have hmeasure' : ∀ t size, ∃ width, measure' t size = .ok width := by
    intro t size
    obtain ⟨_, width, _, hwidth, _⟩ := hwider t size
    exact ⟨width, hwidth⟩
  obtain ⟨g, hg⟩ := hwell.exists_layout hmeasure
  obtain ⟨g', hg'⟩ := hwell.exists_layout hmeasure'
  obtain ⟨f, hf, _, hscale, _⟩ := Chart.layout_cases hg
  obtain ⟨f', hf', _, hscale', _⟩ := Chart.layout_cases hg'
  refine ⟨g, g', hg, hg', ?_⟩
  rw [hscale, hscale']
  exact hwell.factor_le_of_isWider hwider hf hf'

/-- A font all whose characters are of the given width. -/
def monospaced (width : ℝ) : TextMeasurer Exact := fun text _ => .ok ⟨width * text.length⟩

theorem layout_of_isWider_narrowChart :
    Chart.parse narrowDocument = .ok narrowChart ∧ IsWider (monospaced 6) (monospaced 9) ∧
      (∃ g g', narrowChart.layout (monospaced 6) = .ok g ∧
        narrowChart.layout (monospaced 9) = .ok g' ∧
        g'.scaleFactor.toReal ≤ g.scaleFactor.toReal) ∧
      ∃ center tips labels labels', narrowChart.center = .ok center ∧
        narrowChart.star 1.0 = .ok tips ∧
        narrowChart.axisLabels (monospaced 6) center tips = .ok labels ∧
        narrowChart.axisLabels (monospaced (-16)) center tips = .ok labels' ∧
        cornerRows labels = cornerRows labels' := by
  have hmeasure : ∀ w t size, ∃ width, monospaced w t size = .ok width := fun _ _ _ => ⟨_, rfl⟩
  have hwider : IsWider (monospaced 6) (monospaced 9) := by
    intro t size
    have hlength : (0 : ℝ) ≤ t.length := Nat.cast_nonneg _
    exact ⟨_, _, rfl, rfl, by positivity, by show 6 * _ ≤ 9 * _; linarith⟩
  obtain ⟨hfactor, hrows⟩ := Chart.layout_of_isWider parse_narrowDocument hwider
  have hwell := Chart.wellFormed_of_parse parse_narrowDocument
  obtain ⟨f, hf⟩ := hwell.exists_fit (hmeasure 6)
  obtain ⟨f', hf'⟩ := hwell.exists_fit (hmeasure (-16))
  obtain ⟨center, tips, _, labels, _, hcenter, htips, _, hlabels, _⟩ := Chart.fit_eq_ok_iff.mp hf
  obtain ⟨center', tips', _, labels', _, hcenter', htips', _, hlabels', _⟩ :=
    Chart.fit_eq_ok_iff.mp hf'
  obtain rfl : center = center' := Except.ok.inj (hcenter.symm.trans hcenter')
  obtain rfl : tips = tips' := Except.ok.inj (htips.symm.trans htips')
  exact ⟨parse_narrowDocument, hwider, hfactor, center, tips, labels, labels', hcenter, htips,
    hlabels, hlabels', hrows _ _ _ _ _ _ hlabels hlabels'⟩

/-! ## Negative widths -/

/-- The first label stands at the right edge. At a width of -160 its box reaches 80 beyond. -/
theorem factor_fit_narrowChart_negative {f : Fit Exact}
    (h : narrowChart.fit (monospaced (-16)) = .ok f) : f.factor.toReal ≤ 1 / 5 := by
  obtain ⟨center, tips, _, labels, box, hcenter, htips, _, hlabels, hbox, hfit⟩ :=
    Chart.fit_eq_ok_iff.mp h
  obtain ⟨_, _, _, hxo, hyo, _, _⟩ := Chart.fitExtrema_eq_ok_iff.mp hfit
  have hcanvas : narrowChart.width = 100 := rfl
  have hmeasured : monospaced (-16) "aaaaaaaaaa" (.whole narrowChart.textSize) = .ok ⟨-160⟩ := by
    rw [monospaced, show "aaaaaaaaaa".length = 10 by decide]
    norm_num
  obtain ⟨width, hwidth, hlabel⟩ := Chart.getElem?_axisLabels hcenter htips hlabels
    (show narrowChart.radii[0]? = some "aaaaaaaaaa" from rfl)
  obtain rfl : ⟨-160⟩ = width := Except.ok.inj (hmeasured.symm.trans hwidth)
  have hcorner : _ ∈ labels.flatMap AxisLabel.corners :=
    List.mem_flatMap.mpr ⟨_, List.mem_of_getElem? hlabel, List.mem_cons_self⟩
  have hexcess := Chart.excess_le_overflow (Extrema.isBoxOf_exact hbox)
    hcorner hxo hyo .right
  have hover : 80 ≤ f.overflowAt .left := by
    refine le_trans ?_ hexcess
    simp only [Chart.excess, Exact.toReal_sub, Exact.toReal_div, Exact.toReal_two, Exact.toReal_one,
      Chart.toReal_labelOf_x, Chart.width_labelOf, Chart.spoke, sin_direction_narrowChart_zero,
      shorterSide_narrowChart, marginShare_narrowChart, hcanvas, Nat.cast_zero, mul_zero, zero_div,
      Real.sin_zero]
    norm_num
  obtain ⟨i, hi, _, hfactor⟩ := (Chart.isFit_of_fit h).factor_eq .left
  rw [Side.near, reach_narrowChart hi] at hfactor
  have hle := f.factor_le .left
  linarith

/-- Where widths may be negative, the wider one of two fonts can give the larger chart. -/
theorem not_forall_wider_le :
    ¬ ∀ (text : String) (c : Chart) (measure measure' : TextMeasurer Exact) (g g' : Geometry Exact),
      Chart.parse text = .ok c →
      (∀ t size, ∃ width width', measure t size = .ok width ∧ measure' t size = .ok width' ∧
        width.toReal ≤ width'.toReal) →
      c.layout measure = .ok g → c.layout measure' = .ok g' →
      g'.scaleFactor.toReal ≤ g.scaleFactor.toReal := by
  intro hall
  have hmeasure : ∀ w t size, ∃ width, monospaced w t size = .ok width := fun _ _ _ => ⟨_, rfl⟩
  have hwell := Chart.wellFormed_of_parse parse_narrowDocument
  obtain ⟨g, hg⟩ := hwell.exists_layout (hmeasure (-16))
  obtain ⟨g', hg'⟩ := hwell.exists_layout (hmeasure 6)
  obtain ⟨f, hf, _, hscale, _⟩ := Chart.layout_cases hg
  obtain ⟨f', hf', _, hscale', _⟩ := Chart.layout_cases hg'
  have hwider : ∀ t size, ∃ width width', monospaced (-16) t size = .ok width ∧
      monospaced 6 t size = .ok width' ∧ width.toReal ≤ width'.toReal := by
    intro t size
    have hlength : (0 : ℝ) ≤ t.length := Nat.cast_nonneg _
    exact ⟨_, _, rfl, rfl, by show -16 * _ ≤ 6 * _; linarith⟩
  have hle := hall _ _ _ _ g g' parse_narrowDocument hwider hg hg'
  have hsmall := factor_fit_narrowChart_negative hf
  have hlarge := factor_fit_narrowChart hf'
  rw [hscale, hscale'] at hle
  linarith

end RadarChart
