import RadarChart.Proofs.Document.Line
import RadarChart.Proofs.Layout.Total

/-!
# Labels and the canvas

How much of a label can be left over the margin of the canvas after the chart
has shrunk. The factor makes up for the overflow of the farthest spoke to the
left and to the top, so a label is inside on every side toward which its own
spoke reaches as far. Labels of other spokes move less, and may be left over
the margin although the factor is positive.
-/

namespace RadarChart

/-- Every label's box lies within the margins of the canvas. -/
def Geometry.LabelsInside (g : Geometry Exact) (measure : TextMeasurer Exact) : Prop :=
  ∀ l ∈ g.axisLabels, ∀ width, measure l.text (.whole g.chart.textSize) = .ok width →
    ∀ side, g.chart.overhang l width side ≤ 0

section
variable {c : Chart} {measure : TextMeasurer Exact} {g : Geometry Exact}

/-- What a layout takes from the fit. -/
theorem Chart.layout_cases (h : c.layout measure = .ok g) :
    ∃ f, c.fit measure = .ok f ∧ g.chart = c ∧ g.scaleFactor = f.factor ∧
      g.axisLabels.length = c.radii.length ∧
      ∀ i text, c.radii[i]? = some text → ∃ width,
        measure text (.whole c.textSize) = .ok width ∧
        g.axisLabels[i]? = some (c.labelOf f.factor.toReal i text width).label := by
  simp only [Chart.layout, Chart.geometryAt, bind_eq_ok_iff, pure_eq_ok_iff] at h
  obtain ⟨f, hf, center, hcenter, _, _, _, _, _, _, _, _, _, _, tips, htips, labels, hlabels,
    rfl⟩ := h
  refine ⟨f, hf, rfl, rfl, ?_, ?_⟩
  · rw [List.length_map, Chart.length_axisLabels hcenter htips hlabels]
  · intro i text htext
    obtain ⟨width, hwidth, hlabel⟩ := Chart.getElem?_axisLabels hcenter htips hlabels htext
    exact ⟨width, hwidth, by rw [List.getElem?_map, hlabel, Option.map_some]⟩

theorem Chart.WellFormed.factor_le_one (hwell : c.WellFormed) {f : Fit Exact}
    (hf : c.IsFit measure f) : f.factor.toReal ≤ 1 := by
  obtain ⟨k, hk, _, hfactor⟩ := hf.factor_eq .left
  have hreach := hwell.reach_pos .left hk
  have hoverflow := div_nonneg (hf.overflow_nonneg .left) hreach.le
  have hle := f.factor_le .left
  linarith

/-- At the factor of the fit a label is over the margin by no more than its spoke falls short
of the farthest one, in proportion to how much the chart has shrunk. -/
theorem Chart.WellFormed.overhang_le (hwell : c.WellFormed) {f : Fit Exact}
    (hf : c.IsFit measure f) {i : Nat} {text : String} {width : Exact}
    (htext : c.radii[i]? = some text) (hwidth : measure text (.whole c.textSize) = .ok width)
    (side : Side) {k : Nat} (hk : c.IsFarthest side.near k) :
    c.overhang (c.labelOf f.factor.toReal i text width).label width side ≤
      (1 - f.factor.toReal) * (side.near.reach (c.spoke k) - side.reach (c.spoke i)) := by
  obtain ⟨m, hm, _, hfactor⟩ := hf.factor_eq side
  have hreach := hwell.reach_pos side hm
  have hsame : side.near.reach (c.spoke m) = side.near.reach (c.spoke k) :=
    le_antisymm (hk.2 m hm.1) (hm.2 k hk.1)
  have hover := hf.overhang_le side i text width htext hwidth
  have hfactorLe := f.factor_le side
  rw [hfactor] at hfactorLe
  have hmoved : f.overflowAt side ≤ (1 - f.factor.toReal) * side.near.reach (c.spoke m) := by
    rw [← div_le_iff₀ hreach]
    linarith
  rw [Chart.overhang_labelOf, ← hsame]
  linarith

end

/-! ## A narrow chart -/

/-- A chart with a long label, on a spoke that goes half as far to the right as another goes to
the left. -/
def narrowLines : List String :=
  [ "size: 100 x 300", "margin: 0", "background: white", "text color: black", "     size: 10",
    "stroke color: black", "main stroke width: 1", "entry stroke width: 1", "filled entries: no",
    "scale: 1", "intervals: none", "top: last side", "radii: 6", "radius 1: aaaaaaaaaa",
    " 2:", " 3:", " 4:", " 5:", " 6:", "entries: 1", "entry 1 data: 1 1 1 1 1 1",
    " color: red" ]

def narrowDocument : String :=
  String.join (narrowLines.map (· ++ "\n"))

def narrowChart : Chart :=
  { width := 100, height := 300, margin := 0, background := "white", textColor := "black"
    strokeColor := "black", intervalBackground := "white", intervalStrokeColor := "black"
    textSize := 10, mainStrokeWidth := 1, entryStrokeWidth := 1, filledEntries := false
    scale := 1, intervals := none, top := .lastSide
    radii := ["aaaaaaaaaa", "", "", "", "", ""]
    entries := [⟨"red", [1, 1, 1, 1, 1, 1]⟩], intervalLabels := [], hideLabels := false }

theorem parse_narrowDocument : Chart.parse narrowDocument = .ok narrowChart := by
  rw [Chart.parse, readItems, readLines, narrowDocument, ← document, toList_document]
  decide +kernel

/-! Its first spoke points to the upper right and its fifth one to the left. -/

theorem sin_direction_narrowChart_zero : Real.sin (narrowChart.direction 0) = 1 / 2 := by
  have hdirection : narrowChart.direction 0 = Real.pi - Real.pi / 6 := by
    simp only [Chart.direction, Orientation.angle, narrowChart, List.length_cons, List.length_nil]
    push_cast
    ring
  rw [hdirection, Real.sin_pi_sub, Real.sin_pi_div_six]

theorem sin_direction_narrowChart_four : Real.sin (narrowChart.direction 4) = -1 := by
  have hdirection : narrowChart.direction 4 = -(Real.pi / 2) := by
    simp only [Chart.direction, Orientation.angle, narrowChart, List.length_cons, List.length_nil]
    push_cast
    ring
  rw [hdirection, Real.sin_neg, Real.sin_pi_div_two]

theorem shorterSide_narrowChart : narrowChart.shorterSide = 100 := rfl

theorem marginShare_narrowChart : narrowChart.marginShare = 0 := by
  simp [Chart.marginShare, narrowChart]

theorem isFarthest_narrowChart : narrowChart.IsFarthest .left 4 := by
  refine ⟨by decide, fun k _ => ?_⟩
  have hsin := Real.neg_one_le_sin (narrowChart.direction k)
  simp only [Side.reach, Chart.spoke, shorterSide_narrowChart, sin_direction_narrowChart_four]
  push_cast
  linarith

theorem reach_narrowChart {i : Nat} (h : narrowChart.IsFarthest .left i) :
    Side.left.reach (narrowChart.spoke i) = 100 := by
  have hsame : Side.left.reach (narrowChart.spoke i) = Side.left.reach (narrowChart.spoke 4) :=
    le_antisymm (isFarthest_narrowChart.2 i h.1) (h.2 4 isFarthest_narrowChart.1)
  rw [hsame]
  simp [Side.reach, Chart.spoke, shorterSide_narrowChart, sin_direction_narrowChart_four]

/-- A font all whose characters are as wide as the estimate for a size of 10. -/
def typewriter : TextMeasurer Exact := fun text _ => .ok ⟨6 * text.length⟩

/-- Only the first spoke has a text. -/
theorem text_narrowChart {i : Nat} {text : String} (h : narrowChart.radii[i]? = some text) :
    i = 0 ∧ text.length = 10 ∨ text.length = 0 := by
  cases i with
  | zero =>
      cases h
      exact .inl ⟨rfl, by decide⟩
  | succ i =>
      have hmem : text ∈ List.replicate 5 "" := List.mem_of_getElem? h
      rw [List.eq_of_mem_replicate hmem]
      exact .inr rfl

/-- No label reaches farther over the left or the right margin than a tip can. -/
theorem overhang_narrowChart_sideways {side : Side} (hside : side.near = .left) {i : Nat}
    {text : String} {width : Exact} (htext : narrowChart.radii[i]? = some text)
    (hwidth : typewriter text (.whole narrowChart.textSize) = .ok width) :
    narrowChart.overhang (narrowChart.labelOf 1 i text width).label width side ≤ 50 := by
  obtain rfl : ⟨6 * text.length⟩ = width := Except.ok.inj hwidth
  have hcanvas : narrowChart.width = 100 := rfl
  have hlabel := text_narrowChart htext
  -- the one label that has a width stands in the middle of its tip
  have hx : (narrowChart.labelOf 1 i text ⟨6 * text.length⟩).label.x.toReal =
      50 + Real.sin (narrowChart.direction i) * 100 := by
    rw [Chart.toReal_labelOf_x, Chart.spoke, shorterSide_narrowChart, hcanvas]
    push_cast
    rcases hlabel with ⟨rfl, _⟩ | hlength
    · rw [Nat.cast_zero, mul_zero, zero_div, Real.sin_zero]
      ring
    · rw [hlength, Nat.cast_zero]
      ring
  have hreach : |Real.sin (narrowChart.direction i)| * 100 + 6 * text.length / 2 ≤ 100 := by
    rcases hlabel with ⟨rfl, hlength⟩ | hlength
    · rw [sin_direction_narrowChart_zero, hlength, abs_of_pos (by norm_num)]
      norm_num
    · have hle := Real.abs_sin_le_one (narrowChart.direction i)
      rw [hlength, Nat.cast_zero]
      linarith
  have hhigh := le_abs_self (Real.sin (narrowChart.direction i))
  have hlow := neg_abs_le (Real.sin (narrowChart.direction i))
  cases side with
  | left =>
      simp only [Chart.overhang, hx, hcanvas, marginShare_narrowChart]
      push_cast
      linarith
  | right =>
      simp only [Chart.overhang, hx, hcanvas, marginShare_narrowChart]
      push_cast
      linarith
  | top => cases hside
  | bottom => cases hside

/-- No label reaches over the top or the bottom margin. -/
theorem overhang_narrowChart_upright {side : Side} (hside : side.near = .top) (i : Nat)
    (text : String) (width : Exact) :
    narrowChart.overhang (narrowChart.labelOf 1 i text width).label width side ≤ 0 := by
  have hcanvas : narrowChart.height = 300 := rfl
  have hsize : narrowChart.textSize = 10 := rfl
  have hlow := Real.neg_one_le_cos (narrowChart.direction i)
  have hhigh := Real.cos_le_one (narrowChart.direction i)
  have hmoveLow := Real.neg_one_le_cos (2 * Real.pi * i / narrowChart.radii.length)
  have hmoveHigh := Real.cos_le_one (2 * Real.pi * i / narrowChart.radii.length)
  cases side with
  | left => cases hside
  | right => cases hside
  | top =>
      simp only [Chart.overhang, Chart.toReal_labelOf_y, Chart.toReal_labelOf_size, Chart.spoke,
        shorterSide_narrowChart, hcanvas, hsize, marginShare_narrowChart]
      push_cast
      linarith
  | bottom =>
      simp only [Chart.overhang, Chart.toReal_labelOf_y, Chart.toReal_labelOf_size, Chart.spoke,
        shorterSide_narrowChart, hcanvas, hsize, marginShare_narrowChart]
      push_cast
      linarith

/-- The chart shrinks by half at most: no label is over the margin by more than half of what the
fifth spoke goes to the left. -/
theorem factor_fit_narrowChart {f : Fit Exact} (h : narrowChart.fit typewriter = .ok f) :
    1 / 2 ≤ f.factor.toReal := by
  have hf := Chart.isFit_of_fit h
  have hwidths : ∀ text width, typewriter text (.whole narrowChart.textSize) = .ok width →
      0 ≤ width.toReal := by
    intro text width hwidth
    obtain rfl : ⟨6 * text.length⟩ = width := Except.ok.inj hwidth
    positivity
  have hx : f.overflowAt .left ≤ 50 := by
    refine Chart.overflowAt_le_of_fit h (by decide) hwidths (by norm_num) ?_
    intro side i text width hside htext hwidth
    exact overhang_narrowChart_sideways hside htext hwidth
  have hy : f.overflowAt .top ≤ 0 := by
    refine Chart.overflowAt_le_of_fit h (by decide) hwidths le_rfl ?_
    intro side i text width hside _ _
    exact overhang_narrowChart_upright hside i text width
  obtain ⟨i, hi, _, hleft⟩ := hf.factor_eq .left
  obtain ⟨j, hj, _, htop⟩ := hf.factor_eq .top
  rw [Side.near, reach_narrowChart hi] at hleft
  rw [le_antisymm hy (hf.overflow_nonneg .top), zero_div] at htop
  rw [f.toReal_factor, hleft, htop]
  refine le_min ?_ ?_ <;> linarith

/-- The first label, at some scale: it is 30 over the right margin at full size, and shrinking
moves it half as far as it moves the fifth tip. -/
theorem overhang_narrowChart_right (factor : ℝ) (text : String) :
    narrowChart.overhang (narrowChart.labelOf factor 0 text ⟨60⟩).label ⟨60⟩ .right =
      30 - (1 - factor) * 50 := by
  have hcanvas : narrowChart.width = 100 := rfl
  rw [Chart.overhang, Chart.toReal_labelOf_x, Chart.spoke, sin_direction_narrowChart_zero,
    shorterSide_narrowChart, marginShare_narrowChart, hcanvas, Nat.cast_zero, mul_zero, zero_div,
    Real.sin_zero]
  push_cast
  ring

/-- The factor is positive, but the first label is left over the right margin. -/
theorem overhang_layout_narrowChart {g : Geometry Exact}
    (h : narrowChart.layout typewriter = .ok g) :
    1 / 2 ≤ g.scaleFactor.toReal ∧ ∃ l, g.axisLabels[0]? = some l ∧
      typewriter l.text (.whole g.chart.textSize) = .ok ⟨60⟩ ∧
      5 ≤ g.chart.overhang l ⟨60⟩ .right := by
  obtain ⟨f, hfit, hchart, hscale, _, hlabels⟩ := Chart.layout_cases h
  have hfactor := factor_fit_narrowChart hfit
  have hsixty : typewriter "aaaaaaaaaa" (.whole narrowChart.textSize) = .ok ⟨60⟩ := by
    have hlength : "aaaaaaaaaa".length = 10 := by decide
    rw [typewriter, hlength]
    norm_num
  obtain ⟨width, hwidth, hlabel⟩ := hlabels 0 "aaaaaaaaaa" rfl
  obtain rfl : ⟨60⟩ = width := Except.ok.inj (hsixty.symm.trans hwidth)
  refine ⟨hscale ▸ hfactor, _, hlabel, hchart ▸ hwidth, ?_⟩
  rw [hchart, overhang_narrowChart_right]
  linarith

/-! ## What is left over the margins -/

/-- A chart that is read has a layout in exact coordinates, which at most shrinks it. A label is
left over a margin by no more than its spoke falls short of the farthest one to the left or to
the top, in proportion to how much the chart has shrunk. -/
theorem Chart.layout_overhang_le {text : String} {c : Chart} (hparse : Chart.parse text = .ok c)
    {measure : TextMeasurer Exact} (hmeasure : ∀ t size, ∃ width, measure t size = .ok width) :
    ∃ g, c.layout measure = .ok g ∧ g.scaleFactor.toReal ≤ 1 ∧
      g.axisLabels.length = c.radii.length ∧
      ∀ i l width, g.axisLabels[i]? = some l →
        measure l.text (.whole c.textSize) = .ok width →
        ∀ side k, c.IsFarthest side.near k → c.overhang l width side ≤
          (1 - g.scaleFactor.toReal) * (side.near.reach (c.spoke k) - side.reach (c.spoke i)) := by
  have hwell := Chart.wellFormed_of_parse hparse
  obtain ⟨g, hg⟩ := hwell.exists_layout hmeasure
  obtain ⟨f, hfit, _, hscale, hlength, hlabels⟩ := Chart.layout_cases hg
  have hf := Chart.isFit_of_fit hfit
  refine ⟨g, hg, ?_, hlength, ?_⟩
  · rw [hscale]
    exact hwell.factor_le_one hf
  · intro i l width hl hwidth side k hk
    obtain ⟨hi, _⟩ := List.getElem?_eq_some_iff.mp hl
    rw [hlength] at hi
    have htext : c.radii[i]? = some c.radii[i] := List.getElem?_eq_getElem hi
    obtain ⟨w, hw, hlabel⟩ := hlabels i _ htext
    rw [hl, Option.some.injEq] at hlabel
    subst hlabel
    obtain rfl : w = width := Except.ok.inj (hw.symm.trans hwidth)
    rw [hscale]
    exact hwell.overhang_le hf htext hw side hk

theorem overhang_le_narrowChart :
    Chart.parse narrowDocument = .ok narrowChart ∧
    (∀ t size, ∃ width, typewriter t size = .ok width) ∧
    ∃ g, narrowChart.layout typewriter = .ok g ∧ g.scaleFactor.toReal ≤ 1 ∧
      g.axisLabels.length = 6 ∧
      ∀ i l width, g.axisLabels[i]? = some l → typewriter l.text (.whole 10) = .ok width →
        narrowChart.overhang l width .right ≤
          (1 - g.scaleFactor.toReal) * (100 - Side.right.reach (narrowChart.spoke i)) := by
  have hmeasure : ∀ t size, ∃ width, typewriter t size = .ok width := fun _ _ => ⟨_, rfl⟩
  refine ⟨parse_narrowDocument, hmeasure, ?_⟩
  obtain ⟨g, hg, hscale, hlength, hall⟩ :=
    Chart.layout_overhang_le parse_narrowDocument hmeasure
  refine ⟨g, hg, hscale, hlength, ?_⟩
  intro i l width hl hwidth
  have hover := hall i l width hl hwidth .right 4 isFarthest_narrowChart
  rwa [show Side.right.near = .left from rfl, reach_narrowChart isFarthest_narrowChart] at hover

/-- So labels may be left over a margin although the factor is positive: the fit goes by the
farthest spokes, and a label of another spoke moves less. -/
theorem not_forall_labelsInside :
    ¬ ∀ (text : String) (c : Chart) (measure : TextMeasurer Exact) (g : Geometry Exact),
      Chart.parse text = .ok c →
      (∀ t size, ∃ width, measure t size = .ok width ∧ 0 ≤ width.toReal) →
      c.layout measure = .ok g → 0 < g.scaleFactor.toReal → g.LabelsInside measure := by
  intro hall
  have hmeasure : ∀ t size, ∃ width, typewriter t size = .ok width ∧ 0 ≤ width.toReal := by
    intro t size
    exact ⟨_, rfl, by positivity⟩
  have hwell := Chart.wellFormed_of_parse parse_narrowDocument
  obtain ⟨g, hg⟩ := hwell.exists_layout fun t size => (hmeasure t size).imp fun _ => And.left
  obtain ⟨hfactor, l, hl, hwidth, hover⟩ := overhang_layout_narrowChart hg
  have hinside := hall narrowDocument narrowChart typewriter g parse_narrowDocument hmeasure hg
    (by linarith) l (List.mem_of_getElem? hl) ⟨60⟩ hwidth .right
  linarith

end RadarChart
