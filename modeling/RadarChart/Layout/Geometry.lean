import RadarChart.Layout.Fit

/-!
# The geometry of a chart

Everything that is drawn, with its position. The body of the chart, that is
the spokes, the rings and the entries, is a little smaller than the fit, and
the labels of the spokes stand where the fit puts them. The labels of the
rings run down the first spoke.
-/

namespace RadarChart

structure Box (α : Type) where
  x : α
  y : α
  width : α
  height : α
deriving DecidableEq, Repr

/-- The label of a ring and the box behind it. -/
structure IntervalLabel (α : Type) where
  value : Int
  box : Box α
  label : TextLabel α
deriving DecidableEq, Repr

structure Ring (α : Type) where
  value : Int
  points : List (Point α)
deriving DecidableEq, Repr

/-- The polygon of an entry. -/
structure Polygon (α : Type) where
  color : String
  points : List (Point α)
deriving DecidableEq, Repr

structure Geometry (α : Type) where
  chart : Chart
  center : Point α
  scaleFactor : α
  spokes : List (Point α)
  rings : List (Ring α)
  entries : List (Polygon α)
  intervalLabels : List (IntervalLabel α)
  axisLabels : List (TextLabel α)
deriving DecidableEq, Repr

variable {α : Type} [Scalar α]

/-- The size of the body, as a share of the fit. -/
def bodyShrink : α := 0.9

/-- The space around the label of a ring. -/
def boxPadding : α := 2.0

/-- The opacity of the entries' areas. -/
def Chart.fillOpacity (c : Chart) : α :=
  if c.filledEntries then 0.5 else 0.0

/-- The ring at a value: the body shrunk by one ratio. -/
def Chart.ring (c : Chart) (center : Point α) (body : List (Point α)) (value : Int) :
    Except Fault (Ring α) := do
  let ratio ← Scalar.quotient value c.scale
  return ⟨value, place center body (List.replicate body.length ratio)⟩

/-- The polygon of an entry: each spoke of the body shrunk by its own ratio. -/
def Chart.polygon (c : Chart) (center : Point α) (body : List (Point α)) (entry : Entry) :
    Except Fault (Polygon α) := do
  let ratios ← entry.data.mapM fun value => Scalar.quotient value c.scale
  return ⟨entry.color, place center body ratios⟩

/-- The label of the ring at a value. `reach` is how far down the outermost ring is,
and `size` the size of the text. -/
def Chart.intervalLabel (c : Chart) (measure : TextMeasurer α) (center : Point α)
    (textSize size reach : α) (value : Int) (text : String) :
    Except Fault (IntervalLabel α) := do
  let width := (← measure text (.scaled size)) + boxPadding
  let height := size + boxPadding
  let offset := (← Scalar.quotient value c.scale) * reach
  return {
    value := value
    box := ⟨center.x - width / 2.0, center.y + offset - height / 2.0, width, height⟩
    label := ⟨text, center.x, center.y + offset + textSize * 0.25 - boxPadding / 2.0, size⟩ }

/-- The labels of the rings, in the order of the rings. -/
def Chart.labelRings (c : Chart) (measure : TextMeasurer α) (center : Point α)
    (body : List (Point α)) (values : List Int) : Except Fault (List (IntervalLabel α)) :=
  if c.hideLabels then pure []
  else do
    let textSize ← Scalar.ofInt c.textSize
    match body with
    | [] => throw .noSuchElement
    | first :: _ =>
      values.zipIdx.mapM fun (value, position) =>
        match c.intervalLabels[position]? with
        | none => throw .noSuchElement
        | some text =>
          c.intervalLabel measure center textSize (textSize * 0.5) first.y value text

/-- The geometry of a chart at a given scale factor. -/
def Chart.geometryAt (c : Chart) (measure : TextMeasurer α) (factor : α) :
    Except Fault (Geometry α) := do
  let center ← c.center
  let body ← c.star (factor * bodyShrink)
  let values ← c.ringValues
  let rings ← values.mapM (c.ring center body)
  let entries ← c.entries.mapM (c.polygon center body)
  let intervalLabels ← c.labelRings measure center body values
  let tips ← c.star factor
  let axisLabels ← c.axisLabels measure center tips
  return {
    chart := c, center := center, scaleFactor := factor
    spokes := placeAll center body, rings := rings, entries := entries
    intervalLabels := intervalLabels, axisLabels := axisLabels.map (·.label) }

/-- The geometry of a chart that fits onto its canvas. -/
def Chart.layout (c : Chart) (measure : TextMeasurer α) : Except Fault (Geometry α) := do
  let fit ← c.fit measure
  c.geometryAt measure fit.factor

end RadarChart
