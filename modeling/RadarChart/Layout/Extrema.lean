import RadarChart.Layout.Point

/-!
# Extrema

The box around points. Each side is found by going through the points once,
from a limit that every point is expected to pass: the highest element for
the sides that take the least coordinate, the lowest for the others. Where an
order has no such limits, the first point stands in for them.
-/

namespace RadarChart

structure Extrema (α : Type) where
  left : α
  right : α
  top : α
  bottom : α
deriving DecidableEq, Repr

variable {α : Type} [Ordered α]

/-- The earliest coordinate that no later one is below, from a limit on. -/
def leastFrom (limit : Option α) (xs : List α) : Option α :=
  xs.foldl (fun m x => match m with
    | none => some x
    | some m => if Ordered.lt x m then some x else some m) limit

/-- The earliest coordinate that no later one is above, from a limit on. -/
def greatestFrom (limit : Option α) (xs : List α) : Option α :=
  xs.foldl (fun m x => match m with
    | none => some x
    | some m => if Ordered.lt m x then some x else some m) limit

/-- Whether a least coordinate was found, and not the limit itself. -/
def isFound (x : α) : Bool :=
  match Ordered.highest? (α := α) with
  | none => true
  | some limit => Ordered.lt x limit

/-- The box around the points. That there are points is told by the left side. -/
def Extrema.ofPoints (ps : List (Point α)) : Except Fault (Extrema α) :=
  let xs := ps.map (·.x)
  let ys := ps.map (·.y)
  match leastFrom Ordered.highest? xs, greatestFrom Ordered.lowest? xs,
      leastFrom Ordered.highest? ys, greatestFrom Ordered.lowest? ys with
  | some left, some right, some top, some bottom =>
    if isFound left then .ok ⟨left, right, top, bottom⟩ else .error .noPoints
  | _, _, _, _ => .error .noPoints

end RadarChart
