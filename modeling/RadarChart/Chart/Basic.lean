import RadarChart.Fault

/-!
# Radar charts

A chart as its document describes it: the canvas, the colors and sizes, the
scale with its rings, the spokes and the entries drawn over them. The numbers
are integers without bounds. A chart need not come from a document, so
nothing here says that its lists match each other.
-/

namespace RadarChart

/-- Which way the star of spokes points: a spoke at the top, or the side after
the first spoke, or the side before it. A direction known by its name alone
turns the star like `firstSide`. -/
inductive Orientation where
  | firstRadius
  | firstSide
  | lastSide
  | named (name : String)
deriving DecidableEq, Repr

def Orientation.name : Orientation → String
  | .firstRadius => "first_radius"
  | .firstSide => "first_side"
  | .lastSide => "last_side"
  | .named name => name

def Orientation.ofName (name : String) : Orientation :=
  if name = "first_radius" then .firstRadius
  else if name = "first_side" then .firstSide
  else if name = "last_side" then .lastSide
  else .named name

/-- One series of values, a number for each spoke. -/
structure Entry where
  color : String
  data : List Int
deriving DecidableEq, Repr

structure Chart where
  width : Int
  height : Int
  margin : Int
  background : String
  textColor : String
  strokeColor : String
  intervalBackground : String
  intervalStrokeColor : String
  textSize : Int
  mainStrokeWidth : Int
  entryStrokeWidth : Int
  filledEntries : Bool
  scale : Int
  /-- how far apart the rings are, or `none` for a chart without rings -/
  intervals : Option Int
  top : Orientation
  /-- the label of each spoke -/
  radii : List String
  entries : List Entry
  /-- the label of each ring -/
  intervalLabels : List String
  hideLabels : Bool
deriving DecidableEq, Repr

/-- How many of the numbers `0, step, 2 * step, …` do not pass `last`, for a
positive step. -/
def stepCount (last step : Int) : Nat :=
  (last / step + 1).toNat

/-- The multiples of `step` from 0 on that come before `scale + 1`; a negative
step counts down, and then they stay above `scale + 1`. -/
def ringSteps (scale step : Int) : List Int :=
  let count := if 0 < step then stepCount scale step else stepCount (-(scale + 2)) (-step)
  (List.range count).map fun (i : Nat) => i * step

/-- The values that get a ring. -/
def Chart.ringValues (c : Chart) : Except Fault (List Int) :=
  match c.intervals with
  | none => .ok []
  | some step => if step = 0 then .error .zeroStep else .ok (ringSteps c.scale step)

end RadarChart
