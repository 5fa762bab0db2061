import RadarChart.Drawing.Markup
import RadarChart.Layout.Geometry
import RadarChart.Number.Fixed
import RadarChart.Text.Numeral

/-!
# Drawing a chart

The geometry of a chart as an SVG drawing, painted from back to front: the
background, the rings, the spokes, the entries in their order, the labels of
the rings over their boxes, and the labels of the spokes. Coordinates have at
most as many decimal places as the precision says.
-/

namespace RadarChart

/-- The precision where nothing else is asked for. -/
def defaultPrecision : Int := 3

/-- The points of a polygon as the value of an attribute. -/
def pointsText (precision : Int) (points : List (Point Float)) : Except Fault String := do
  let pairs ← points.mapM fun p => do
    let x ← Fixed.write p.x precision
    let y ← Fixed.write p.y precision
    return x ++ "," ++ y
  return String.intercalate " " pairs

/-- A text element, of the given class or of none. -/
def TextLabel.element (precision : Int) (className : Option String) (l : TextLabel Float) :
    Except Fault Element := do
  let x ← Fixed.write l.x precision
  let y ← Fixed.write l.y precision
  return {
    name := "text"
    attributes := (className.map fun c => ⟨"class", c⟩).toList ++ [⟨"x", x⟩, ⟨"y", y⟩]
    content := some l.text }

def Ring.element (precision : Int) (r : Ring Float) : Except Fault Element := do
  let points ← pointsText precision r.points
  return ⟨"polygon", [⟨"class", "stroke"⟩, ⟨"points", points⟩], none⟩

/-- The line of a spoke from the center to its tip. -/
def spokeElement (precision : Int) (center tip : Point Float) : Except Fault Element := do
  let x1 ← Fixed.write center.x precision
  let y1 ← Fixed.write center.y precision
  let x2 ← Fixed.write tip.x precision
  let y2 ← Fixed.write tip.y precision
  return ⟨"line", [⟨"class", "stroke"⟩, ⟨"x1", x1⟩, ⟨"y1", y1⟩, ⟨"x2", x2⟩, ⟨"y2", y2⟩], none⟩

def Polygon.element (precision : Int) (p : Polygon Float) : Except Fault Element := do
  let points ← pointsText precision p.points
  let style := "stroke: " ++ p.color ++ "; fill: " ++ p.color ++ ";"
  return ⟨"polygon", [⟨"class", "entry"⟩, ⟨"style", style⟩, ⟨"points", points⟩], none⟩

/-- The box of a ring's label and the label over it. -/
def IntervalLabel.elements (precision : Int) (l : IntervalLabel Float) :
    Except Fault (List Element) := do
  let x ← Fixed.write l.box.x precision
  let y ← Fixed.write l.box.y precision
  let width ← Fixed.write l.box.width precision
  let height ← Fixed.write l.box.height precision
  let box : Element :=
    ⟨"rect", [⟨"class", "desc-box"⟩, ⟨"x", x⟩, ⟨"y", y⟩, ⟨"width", width⟩, ⟨"height", height⟩],
      none⟩
  return [box, ← l.label.element precision (some "desc-text")]

/-- The style sheet of a chart. -/
def Chart.style (c : Chart) (precision : Int) : Except Fault (List StyleRule) := do
  let textSize ← Text.writeInteger c.textSize
  let opacity ← Fixed.write (c.fillOpacity * 100.0) precision
  let entryStrokeWidth ← Text.writeInteger c.entryStrokeWidth
  let mainStrokeWidth ← Text.writeInteger c.mainStrokeWidth
  let halfSize ← Scalar.quotient c.textSize 2
  let smallSize ← Fixed.write halfSize precision
  return [
    ⟨"svg", [⟨"font", textSize ++ "px sans-serif"⟩]⟩,
    ⟨"text", [⟨"text-anchor", "middle"⟩, ⟨"fill", c.textColor⟩]⟩,
    ⟨".entry", [⟨"fill-opacity", opacity ++ "%"⟩, ⟨"stroke-width", entryStrokeWidth⟩]⟩,
    ⟨".stroke", [⟨"stroke", c.strokeColor⟩, ⟨"fill", "none"⟩, ⟨"stroke-width", mainStrokeWidth⟩]⟩,
    ⟨".desc-box", [⟨"fill", c.intervalBackground⟩, ⟨"stroke", c.intervalStrokeColor⟩,
      ⟨"stroke-width", mainStrokeWidth⟩]⟩,
    ⟨".desc-text", [⟨"font-size", smallSize ++ "px"⟩]⟩ ]

/-- The drawing of a chart. -/
def Geometry.draw (g : Geometry Float) (precision : Int) : Except Fault Drawing := do
  let c := g.chart
  let width ← Text.writeInteger c.width
  let height ← Text.writeInteger c.height
  let style ← c.style precision
  let rings ← g.rings.mapM (·.element precision)
  let spokes ← g.spokes.mapM (spokeElement precision g.center)
  let entries ← g.entries.mapM (·.element precision)
  let intervalLabels ← g.intervalLabels.mapM (·.elements precision)
  let axisLabels ← g.axisLabels.mapM (·.element precision none)
  let background : Element :=
    ⟨"rect", [⟨"width", width⟩, ⟨"height", height⟩, ⟨"fill", c.background⟩], none⟩
  return {
    attributes := [
      ⟨"xmlns", "http://www.w3.org/2000/svg"⟩, ⟨"version", "1.1"⟩,
      ⟨"viewBox", "0 0 " ++ width ++ " " ++ height⟩, ⟨"width", width⟩, ⟨"height", height⟩]
    style := style
    elements :=
      background :: rings ++ spokes ++ entries ++ intervalLabels.flatten ++ axisLabels }

/-- The SVG text of a chart. -/
def Geometry.toSvg (g : Geometry Float) (precision : Int) : Except Fault String :=
  (g.draw precision).map Drawing.text

end RadarChart
