import RadarChart.Proofs.Layout.Exact
import RadarChart.Proofs.Layout.Extrema

/-!
# How far labels reach over the margins

A label moves with the tip of its spoke, so how far it reaches over a margin
changes with the scale of the chart in proportion to how far the spoke reaches
toward that side. The fit knows the largest overhang at full size and the
spokes that reach farthest to the left and to the top.
-/

namespace RadarChart

theorem Chart.placeAll_star {c : Chart} {factor : Exact} {center : Point Exact}
    {offsets : List (Point Exact)} (hcenter : c.center = .ok center)
    (hoffsets : c.star factor = .ok offsets) :
    placeAll center offsets = (List.range c.radii.length).map (c.tip factor.toReal) := by
  rw [c.center_exact] at hcenter
  cases hcenter
  obtain ⟨_, rfl⟩ := Chart.star_eq_ok_iff.mp hoffsets
  apply List.ext_getElem
  · simp [placeAll, place]
  · intro i h₁ h₂
    simp only [placeAll, place, List.getElem_zipWith, List.getElem_map, List.getElem_range,
      List.getElem_replicate, Chart.tip, Point.mk.injEq, Exact.ext_iff, Exact.toReal_add,
      Exact.toReal_mul, Exact.toReal_one, mul_one, and_self]

/-! ## Labels -/

section
variable {c : Chart} {measure : TextMeasurer Exact}

/-- The label at a spoke, for a text of the width. -/
noncomputable def Chart.labelOf (c : Chart) (factor : ℝ) (i : Nat) (text : String)
    (width : Exact) : AxisLabel Exact :=
  axisLabel c.radii.length i text ⟨c.textSize⟩ width (c.tip factor i)

theorem Chart.toReal_labelOf_x (c : Chart) (factor : ℝ) (i : Nat) (text : String)
    (width : Exact) : (c.labelOf factor i text width).label.x.toReal =
      c.width / 2 + (c.spoke i).x * factor +
        width.toReal / 2 * Real.sin (2 * Real.pi * i / c.radii.length) := by
  simp [Chart.labelOf, axisLabel, Chart.tip, toReal_spokeAngle]

theorem Chart.toReal_labelOf_y (c : Chart) (factor : ℝ) (i : Nat) (text : String)
    (width : Exact) : (c.labelOf factor i text width).label.y.toReal =
      c.height / 2 + (c.spoke i).y * factor -
        c.textSize / 2 * (Real.cos (2 * Real.pi * i / c.radii.length) - 1 / 2) := by
  simp [Chart.labelOf, axisLabel, Chart.tip, toReal_spokeAngle]

theorem Chart.toReal_labelOf_size (c : Chart) (factor : ℝ) (i : Nat) (text : String)
    (width : Exact) : (c.labelOf factor i text width).label.size.toReal = c.textSize := rfl

theorem Chart.width_labelOf (c : Chart) (factor : ℝ) (i : Nat) (text : String) (width : Exact) :
    (c.labelOf factor i text width).width = width := rfl

theorem getElem?_axisLabelsFrom {height : Exact} {k : Nat} {texts : List String}
    {tips : List (Point Exact)} {labels : List (AxisLabel Exact)}
    (h : axisLabelsFrom c measure height k texts tips = .ok labels) {i : Nat} {text : String}
    {tip : Point Exact} (htext : texts[i]? = some text) (htip : tips[i]? = some tip) :
    ∃ width, measure text (.whole c.textSize) = .ok width ∧
      labels[i]? = some (axisLabel c.radii.length (k + i) text height width tip) := by
  induction texts generalizing k tips labels i with
  | nil => simp at htext
  | cons t texts ih =>
      cases tips with
      | nil => simp at htip
      | cons p tips =>
          simp only [axisLabelsFrom, bind_eq_ok_iff, pure_eq_ok_iff] at h
          obtain ⟨width, hwidth, rest, hrest, rfl⟩ := h
          cases i with
          | zero =>
              cases htext
              cases htip
              exact ⟨width, hwidth, rfl⟩
          | succ i =>
              obtain ⟨w, hw, hl⟩ := ih hrest htext htip
              refine ⟨w, hw, ?_⟩
              rw [List.getElem?_cons_succ, hl, Nat.add_right_comm, Nat.add_assoc]

theorem length_axisLabelsFrom {height : Exact} {k : Nat} {texts : List String}
    {tips : List (Point Exact)} {labels : List (AxisLabel Exact)}
    (h : axisLabelsFrom c measure height k texts tips = .ok labels) :
    labels.length = min texts.length tips.length := by
  induction texts generalizing k tips labels with
  | nil =>
      cases h
      simp
  | cons t texts ih =>
      cases tips with
      | nil =>
          cases h
          simp
      | cons p tips =>
          simp only [axisLabelsFrom, bind_eq_ok_iff, pure_eq_ok_iff] at h
          obtain ⟨_, _, rest, hrest, rfl⟩ := h
          rw [List.length_cons, ih hrest, List.length_cons, List.length_cons,
            Nat.add_min_add_right]

/-- The labels of a star are those of its spokes. -/
theorem Chart.getElem?_axisLabels {factor : Exact} {center : Point Exact}
    {offsets : List (Point Exact)} {labels : List (AxisLabel Exact)}
    (hcenter : c.center = .ok center) (hoffsets : c.star factor = .ok offsets)
    (h : c.axisLabels measure center offsets = .ok labels) {i : Nat} {text : String}
    (htext : c.radii[i]? = some text) :
    ∃ width, measure text (.whole c.textSize) = .ok width ∧
      labels[i]? = some (c.labelOf factor.toReal i text width) := by
  simp only [Chart.axisLabels, Scalar.ofInt_exact, bind_eq_ok_iff, Except.ok.injEq,
    exists_eq_left', Chart.placeAll_star hcenter hoffsets] at h
  obtain ⟨hi, _⟩ := List.getElem?_eq_some_iff.mp htext
  have htip : ((List.range c.radii.length).map (c.tip factor.toReal))[i]? =
      some (c.tip factor.toReal i) := by
    rw [List.getElem?_map, List.getElem?_range hi, Option.map_some]
  obtain ⟨width, hwidth, hlabel⟩ := getElem?_axisLabelsFrom h htext htip
  rw [Nat.zero_add] at hlabel
  exact ⟨width, hwidth, hlabel⟩

theorem Chart.length_axisLabels {factor : Exact} {center : Point Exact}
    {offsets : List (Point Exact)} {labels : List (AxisLabel Exact)}
    (hcenter : c.center = .ok center) (hoffsets : c.star factor = .ok offsets)
    (h : c.axisLabels measure center offsets = .ok labels) :
    labels.length = c.radii.length := by
  simp only [Chart.axisLabels, Scalar.ofInt_exact, bind_eq_ok_iff, Except.ok.injEq,
    exists_eq_left', Chart.placeAll_star hcenter hoffsets] at h
  rw [length_axisLabelsFrom h, List.length_map, List.length_range, Nat.min_self]

theorem Chart.exists_of_mem_axisLabels {factor : Exact} {center : Point Exact}
    {offsets : List (Point Exact)} {labels : List (AxisLabel Exact)}
    (hcenter : c.center = .ok center) (hoffsets : c.star factor = .ok offsets)
    (h : c.axisLabels measure center offsets = .ok labels) {l : AxisLabel Exact} (hl : l ∈ labels) :
    ∃ i text width, c.radii[i]? = some text ∧ measure text (.whole c.textSize) = .ok width ∧
      l = c.labelOf factor.toReal i text width := by
  obtain ⟨i, hi, rfl⟩ := List.mem_iff_getElem.mp hl
  have hi' : i < c.radii.length := Chart.length_axisLabels hcenter hoffsets h ▸ hi
  have htext : c.radii[i]? = some c.radii[i] := List.getElem?_eq_getElem hi'
  obtain ⟨width, hwidth, hlabel⟩ := Chart.getElem?_axisLabels hcenter hoffsets h htext
  rw [List.getElem?_eq_getElem hi, Option.some.injEq] at hlabel
  exact ⟨i, _, width, htext, hwidth, hlabel⟩

/-- A label follows its spoke when the chart shrinks. -/
theorem Chart.overhang_labelOf (c : Chart) (factor : ℝ) (i : Nat) (text : String) (width : Exact)
    (side : Side) :
    c.overhang (c.labelOf factor i text width).label width side =
      c.overhang (c.labelOf 1 i text width).label width side
        - (1 - factor) * side.reach (c.spoke i) := by
  cases side <;>
    simp only [Chart.overhang, Side.reach, Chart.toReal_labelOf_x, Chart.toReal_labelOf_y,
      Chart.toReal_labelOf_size] <;>
    ring

end

/-! ## The fit -/

/-- The side whose farthest spoke the fit goes by. -/
def Side.near : Side → Side
  | .left | .right => .left
  | .top | .bottom => .top

noncomputable def Fit.overflowAt (f : Fit Exact) : Side → ℝ
  | .left | .right => f.xOverflow.toReal
  | .top | .bottom => f.yOverflow.toReal

noncomputable def Fit.factorAt (f : Fit Exact) : Side → ℝ
  | .left | .right => f.xFactor.toReal
  | .top | .bottom => f.yFactor.toReal

theorem Fit.toReal_factor (f : Fit Exact) :
    f.factor.toReal = min (f.factorAt .left) (f.factorAt .top) := by
  rw [Fit.factor, Scalar.smaller_exact, Exact.toReal_min]
  rfl

theorem Fit.factor_le (f : Fit Exact) (side : Side) : f.factor.toReal ≤ f.factorAt side := by
  rw [f.toReal_factor]
  cases side
  · exact min_le_left _ _
  · exact min_le_left _ _
  · exact min_le_right _ _
  · exact min_le_right _ _

/-- The spoke reaches as far toward the side as any. -/
def Chart.IsFarthest (c : Chart) (side : Side) (i : Nat) : Prop :=
  i < c.radii.length ∧ ∀ k < c.radii.length, side.reach (c.spoke k) ≤ side.reach (c.spoke i)

/-- What a fit is: no label reaches over a margin by more than the overflow of that axis,
and the factor takes the overflow from the farthest spoke to the left or to the top. -/
structure Chart.IsFit (c : Chart) (measure : TextMeasurer Exact) (f : Fit Exact) : Prop where
  overflow_nonneg : ∀ side, 0 ≤ f.overflowAt side
  overhang_le : ∀ side i text width, c.radii[i]? = some text →
    measure text (.whole c.textSize) = .ok width →
    c.overhang (c.labelOf 1 i text width).label width side ≤ f.overflowAt side
  factor_eq : ∀ side, ∃ i, c.IsFarthest side.near i ∧ side.near.reach (c.spoke i) ≠ 0 ∧
    f.factorAt side = 1 - f.overflowAt side / side.near.reach (c.spoke i)

end RadarChart
