import RadarChart.Layout.AxisLabel
import RadarChart.Layout.Extrema

/-!
# Fitting a chart onto its canvas

The chart is first laid out at full size, with spokes as long as the shorter
side of the canvas, and the box around its labels is compared with the canvas
less its margins. On each axis the overflow, the larger one of its two sides,
says by which factor the star must shrink; the smaller factor is the scale of
the chart. It is not positive where the labels leave no room at all.
-/

namespace RadarChart

/-- The overflow on each axis and the factor that makes up for it. -/
structure Fit (α : Type) where
  xOverflow : α
  yOverflow : α
  xFactor : α
  yFactor : α
deriving DecidableEq, Repr

variable {α : Type} [Scalar α]

/-- The factor by which the chart shrinks. -/
def Fit.factor (f : Fit α) : α :=
  Scalar.smaller f.xFactor f.yFactor

/-- Whether the labels leave no room for the chart. -/
def Fit.isTooLarge (f : Fit α) : Bool :=
  Scalar.notPositive f.factor

/-- How far the box from `low` to `high` reaches over the margins of a side of
the given length. -/
def overflow (length fraction low high : α) : α :=
  Scalar.larger (Scalar.larger 0.0 (high - length * (1.0 - fraction))) (length * fraction - low)

/-- The factor that moves a tip at `low` away from the edge by the overflow. -/
def shrinkFactor (half low reach : α) : Except Fault α :=
  Scalar.divide (half - (low + reach)) (half - low)

/-- The fit for a star and labels within the given boxes. -/
def Chart.fitExtrema (c : Chart) (points labels : Extrema α) : Except Fault (Fit α) := do
  let fraction ← c.marginFraction
  let width ← Scalar.ofInt c.width
  let xOverflow := overflow width fraction labels.left labels.right
  let height ← Scalar.ofInt c.height
  let yOverflow := overflow height fraction labels.top labels.bottom
  let halfWidth ← Scalar.quotient c.width 2
  let halfHeight ← Scalar.quotient c.height 2
  let xFactor ← shrinkFactor halfWidth points.left xOverflow
  let yFactor ← shrinkFactor halfHeight points.top yOverflow
  return ⟨xOverflow, yOverflow, xFactor, yFactor⟩

/-- The middle of the canvas. -/
def Chart.center (c : Chart) : Except Fault (Point α) := do
  let x ← Scalar.quotient c.width 2
  let y ← Scalar.quotient c.height 2
  return ⟨x, y⟩

/-- The fit of a chart, from its layout at full size. -/
def Chart.fit (c : Chart) (measure : TextMeasurer α) : Except Fault (Fit α) := do
  let center ← c.center
  let tips ← c.star 1.0
  let points ← Extrema.ofPoints (placeAll center tips)
  let labels ← c.axisLabels measure center tips
  let box ← Extrema.ofPoints (labels.flatMap AxisLabel.corners)
  c.fitExtrema points box

end RadarChart
