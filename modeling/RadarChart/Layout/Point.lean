import RadarChart.Number.Scalar

/-!
# Points of the canvas

The vertical coordinate grows downwards.
-/

namespace RadarChart

structure Point (α : Type) where
  x : α
  y : α
deriving DecidableEq, Repr

/-- The points that lie off the center by each offset times its ratio, as long
as there are both. -/
def place {α : Type} [Scalar α] (center : Point α) (offsets : List (Point α)) (ratios : List α) :
    List (Point α) :=
  List.zipWith (fun d r => ⟨center.x + d.x * r, center.y + d.y * r⟩) offsets ratios

/-- The points that lie off the center by the offsets. -/
def placeAll {α : Type} [Scalar α] (center : Point α) (offsets : List (Point α)) :
    List (Point α) :=
  place center offsets (List.replicate offsets.length 1.0)

end RadarChart
