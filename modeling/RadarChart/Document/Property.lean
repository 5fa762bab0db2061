/-!
# The properties of a chart document

Eighteen properties have a name of their own. They are grouped by the form of
their values: a size, quantities with a least value, colors, yes-or-no flags,
and three properties with forms of their own.
-/

namespace RadarChart

/-- A property whose value is a number with a least value. -/
inductive Quantity where
  | margin
  | textSize
  | mainStrokeWidth
  | entryStrokeWidth
  | scale
  | radii
  | entries
deriving DecidableEq, Repr

/-- A property whose value is a color, or any other text that a drawing passes on. -/
inductive Paint where
  | background
  | text
  | stroke
  | intervalBackground
  | intervalStroke
deriving DecidableEq, Repr

/-- A property whose value is yes or no. -/
inductive Flag where
  | filledEntries
  | hideLabels
deriving DecidableEq, Repr

inductive Property where
  | size
  | quantity (q : Quantity)
  | paint (p : Paint)
  | flag (f : Flag)
  | intervals
  | top
  | intervalLabels
deriving DecidableEq, Repr

def Quantity.name : Quantity → String
  | .margin => "margin"
  | .textSize => "text size"
  | .mainStrokeWidth => "main stroke width"
  | .entryStrokeWidth => "entry stroke width"
  | .scale => "scale"
  | .radii => "radii"
  | .entries => "entries"

/-- The least value that a quantity may have. -/
def Quantity.minimum : Quantity → Nat
  | .margin => 0
  | .textSize => 8
  | .mainStrokeWidth => 1
  | .entryStrokeWidth => 1
  | .scale => 1
  | .radii => 3
  | .entries => 1

def Paint.name : Paint → String
  | .background => "background"
  | .text => "text color"
  | .stroke => "stroke color"
  | .intervalBackground => "interval background"
  | .intervalStroke => "interval stroke color"

def Flag.name : Flag → String
  | .filledEntries => "filled entries"
  | .hideLabels => "hide labels"

/-- The key under which a document states the property. -/
def Property.name : Property → String
  | .size => "size"
  | .quantity q => q.name
  | .paint p => p.name
  | .flag f => f.name
  | .intervals => "intervals"
  | .top => "top"
  | .intervalLabels => "interval labels"

/-- Every property, each once. -/
def Property.all : List Property :=
  [.size, .quantity .margin, .paint .background, .paint .text, .quantity .textSize,
    .paint .stroke, .quantity .mainStrokeWidth, .quantity .entryStrokeWidth,
    .flag .filledEntries, .quantity .scale, .intervals, .top, .quantity .radii,
    .quantity .entries, .paint .intervalBackground, .paint .intervalStroke,
    .flag .hideLabels, .intervalLabels]

/-- The property that a document states under the key. -/
def Property.ofName? (key : String) : Option Property :=
  Property.all.find? fun p => p.name == key

theorem Property.mem_all (p : Property) : p ∈ Property.all := by
  rcases p with _ | q | c | f | _ | _ | _
  all_goals first | decide | (cases q <;> decide) | (cases c <;> decide) | (cases f <;> decide)

/-- A property is found under its own name. -/
theorem Property.ofName?_name (p : Property) : Property.ofName? p.name = some p := by
  rcases p with _ | q | c | f | _ | _ | _
  all_goals first | decide | (cases q <;> decide) | (cases c <;> decide) | (cases f <;> decide)

/-- What is found under a key has that name. -/
theorem Property.name_of_ofName? {key : String} {p : Property}
    (h : Property.ofName? key = some p) : p.name = key := by
  simpa using List.find?_some h

end RadarChart
