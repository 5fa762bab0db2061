import RadarChart.Layout.Star
import RadarChart.Layout.TextMeasure

/-!
# Labels of the spokes

A label sits just outside the tip of its spoke: it is moved away from the tip
by half its width and half its height, as far as the direction of the spoke
asks for, and half its height is shifted once more because text stands on its
baseline.
-/

namespace RadarChart

/-- A text, anchored at the middle of its baseline. -/
structure TextLabel (α : Type) where
  text : String
  x : α
  y : α
  size : α
deriving DecidableEq, Repr

/-- A label together with the width of its text. -/
structure AxisLabel (α : Type) where
  label : TextLabel α
  width : α
deriving DecidableEq, Repr

variable {α : Type} [Scalar α]

/-- The label at a tip, for the spoke at a position among `count` spokes. -/
def axisLabel (count position : Nat) (text : String) (height width : α) (tip : Point α) :
    AxisLabel α :=
  let angle := spokeAngle count position
  let x := tip.x + width / 2.0 * Scalar.sin angle
  let y := tip.y - height / 2.0 * (Scalar.cos angle - 0.5)
  ⟨⟨text, x, y, height⟩, width⟩

/-- The top left and the bottom right corner of a label's box. -/
def AxisLabel.corners (l : AxisLabel α) : List (Point α) :=
  [ ⟨l.label.x - l.width / 2.0, l.label.y - l.label.size / 2.0⟩,
    ⟨l.label.x + l.width / 2.0, l.label.y + l.label.size / 2.0⟩ ]

/-- The labels from a position on, as long as there are texts and tips. -/
def axisLabelsFrom (c : Chart) (measure : TextMeasurer α) (height : α) (position : Nat) :
    List String → List (Point α) → Except Fault (List (AxisLabel α))
  | text :: texts, tip :: tips => do
    let width ← measure text (.whole c.textSize)
    let label := axisLabel c.radii.length position text height width tip
    return label :: (← axisLabelsFrom c measure height (position + 1) texts tips)
  | _, _ => pure []

/-- The labels of the spokes whose tips lie off the center by the offsets. -/
def Chart.axisLabels (c : Chart) (measure : TextMeasurer α) (center : Point α)
    (offsets : List (Point α)) : Except Fault (List (AxisLabel α)) := do
  let height ← Scalar.ofInt c.textSize
  axisLabelsFrom c measure height 0 c.radii (placeAll center offsets)

end RadarChart
