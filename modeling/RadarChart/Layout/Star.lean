import RadarChart.Chart.Basic
import RadarChart.Layout.Point

/-!
# The star of spokes

Spokes run clockwise from the top of the canvas, at equal angles. For the
side orientations the whole star is turned by half a sector. A star is given
by the offsets of its tips from the center, in units of the shorter side of
the canvas.
-/

namespace RadarChart

def Chart.shorterSide (c : Chart) : Int :=
  min c.width c.height

variable {α : Type} [Scalar α]

/-- The margin as a share of the shorter side. -/
def Chart.marginFraction (c : Chart) : Except Fault α := do
  let kept ← Scalar.quotient (c.shorterSide - c.margin) c.shorterSide
  return 1.0 - kept

/-- The angle of the spoke at a position, counted from 0, among `count` spokes. -/
def spokeAngle (count position : Nat) : α :=
  2.0 * Scalar.pi * Scalar.ofNat position / Scalar.ofNat count

/-- The angle by which the star is turned, where `half` is half a sector. -/
def Orientation.turn (o : Orientation) (half : α) : α :=
  match o with
  | .firstRadius => 0.0
  | .lastSide => -half
  | .firstSide | .named _ => half

/-- The offsets of the tips, for spokes as long as `factor` times the shorter side. -/
def Chart.star (c : Chart) (factor : α) : Except Fault (List (Point α)) := do
  let count := c.radii.length
  let half ← Scalar.share Scalar.pi count
  let turn := c.top.turn half
  let side ← Scalar.ofInt c.shorterSide
  let length := side * factor
  return (List.range count).map fun i =>
    let angle := Scalar.pi - spokeAngle count i + turn
    ⟨Scalar.sin angle * length, Scalar.cos angle * length⟩

end RadarChart
