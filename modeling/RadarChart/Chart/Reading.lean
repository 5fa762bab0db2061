import RadarChart.Document.Statement

/-!
# From a document to a chart

The statements of a document are put together in four steps, and the first
thing found wrong ends the reading:

* every required property must be stated;
* the distance of the rings must divide the scale;
* the radii and the entries that are defined must be those that are counted;
* the rings must have their labels, and every entry its color and its data.

Where several statements speak of the same thing, the first one counts for
the label of a radius and the last one for the color of an entry.
-/

namespace RadarChart

/-- A value and the line that states it. -/
structure Stated (α : Type) where
  line : Int
  value : α
deriving DecidableEq, Repr

/-! ## What a fact says about one thing -/

def Fact.size? : Fact → Option (Nat × Nat)
  | .size width height => some (width, height)
  | _ => none

def Fact.quantity? (q : Quantity) : Fact → Option Nat
  | .quantity r value => if r = q then some value else none
  | _ => none

def Fact.paint? (p : Paint) : Fact → Option String
  | .paint r value => if r = p then some value else none
  | _ => none

def Fact.flag? (f : Flag) : Fact → Option Bool
  | .flag r value => if r = f then some value else none
  | _ => none

def Fact.intervals? : Fact → Option (Option Nat)
  | .intervals step => some step
  | _ => none

def Fact.top? : Fact → Option Orientation
  | .top orientation => some orientation
  | _ => none

def Fact.intervalLabels? : Fact → Option (List String)
  | .intervalLabels labels => some labels
  | _ => none

def Fact.radius? (number : Nat) : Fact → Option String
  | .radius n label => if n = number then some label else none
  | _ => none

def Fact.entryData? (number : Nat) : Fact → Option (List Nat)
  | .entryData n values => if n = number then some values else none
  | _ => none

def Fact.entryColor? (number : Nat) : Fact → Option String
  | .entryColor n color => if n = number then some color else none
  | _ => none

/-- The radius that a fact is about. -/
def Fact.radiusNumber? : Fact → Option Nat
  | .radius n _ => some n
  | _ => none

/-- The entry that a fact is about. -/
def Fact.entryNumber? : Fact → Option Nat
  | .entryData n _ => some n
  | .entryColor n _ => some n
  | _ => none

/-! ## Looking things up -/

/-- What one statement says through `f`, with its line. -/
def Statement.stated? {α : Type} (f : Fact → Option α) (s : Statement) : Option (Stated α) :=
  (f s.fact).map (⟨s.line, ·⟩)

/-- What the first statement says that says anything through `f`. -/
def firstStated? {α : Type} (f : Fact → Option α) (ss : List Statement) : Option (Stated α) :=
  ss.findSome? (·.stated? f)

/-- What the last statement says that says anything through `f`. -/
def lastStated? {α : Type} (f : Fact → Option α) (ss : List Statement) : Option (Stated α) :=
  firstStated? f ss.reverse

/-- The largest line of a document, and 1 for a document that states nothing. -/
def lastLine (ss : List Statement) : Int :=
  match ss with
  | [] => 1
  | s :: ss => ss.foldl (fun line s => max line s.line) s.line

/-- What the statements say through `f` about a property that must be stated. -/
def required {α : Type} (p : Property) (f : Fact → Option α) (ss : List Statement) :
    Except Failure (Stated α) :=
  match firstStated? f ss with
  | some stated => pure stated
  | none => reject (.missingProperty p) (lastLine ss)

/-- The values of the properties that every document states. -/
structure Outline where
  size : Nat × Nat
  margin : Nat
  background : String
  textColor : String
  textSize : Nat
  strokeColor : String
  mainStrokeWidth : Nat
  entryStrokeWidth : Nat
  filledEntries : Bool
  scale : Nat
  intervals : Stated (Option Nat)
  top : Orientation
  radii : Stated Nat
  entries : Stated Nat
deriving DecidableEq, Repr

/-- The required properties; the order is that in which a missing one is reported. -/
def Outline.ofStatements (ss : List Statement) : Except Failure Outline := do
  let size ← required .size (·.size?) ss
  let margin ← quantity .margin
  let background ← paint .background
  let textColor ← paint .text
  let textSize ← quantity .textSize
  let strokeColor ← paint .stroke
  let mainStrokeWidth ← quantity .mainStrokeWidth
  let entryStrokeWidth ← quantity .entryStrokeWidth
  let filledEntries ← required (.flag .filledEntries) (·.flag? .filledEntries) ss
  let scale ← quantity .scale
  let intervals ← required .intervals (·.intervals?) ss
  let top ← required .top (·.top?) ss
  let radii ← quantity .radii
  let entries ← quantity .entries
  return {
    size := size.value, margin := margin.value, background := background.value
    textColor := textColor.value, textSize := textSize.value, strokeColor := strokeColor.value
    mainStrokeWidth := mainStrokeWidth.value, entryStrokeWidth := entryStrokeWidth.value
    filledEntries := filledEntries.value, scale := scale.value, intervals := intervals
    top := top.value, radii := radii, entries := entries }
where
  quantity (q : Quantity) := required (.quantity q) (·.quantity? q) ss
  paint (p : Paint) := required (.paint p) (·.paint? p) ss

/-! ## Checks across properties -/

/-- Whether rings at this distance are at least two steps and end at the scale. -/
def fitsScale (scale : Nat) : Option Nat → Bool
  | none => true
  | some step => step < scale && scale % step == 0

def Outline.checkIntervals (o : Outline) : Except Failure Unit :=
  if fitsScale o.scale o.intervals.value then pure ()
  else reject .unevenIntervals o.intervals.line

/-- Whether `numbers` are the numbers from 1 to `count`, in any order and with
any repetition. The second test follows from the third and keeps it short. -/
def covers (numbers : List Nat) (count : Nat) : Bool :=
  numbers.all (fun n => 1 ≤ n && n ≤ count) && count ≤ numbers.length &&
    (List.range' 1 count).all (numbers.contains ·)

/-- The labels of the radii from 1 on. -/
def radiusLabels (ss : List Statement) (radii : Stated Nat) : Except Failure (List String) :=
  if covers (ss.filterMap (·.fact.radiusNumber?)) radii.value then
    pure ((List.range' 1 radii.value).filterMap fun n =>
      (firstStated? (·.radius? n) ss).map (·.value))
  else reject .radiiMismatch radii.line

def checkEntries (ss : List Statement) (entries : Stated Nat) : Except Failure Unit :=
  if covers (ss.filterMap (·.fact.entryNumber?)) entries.value then pure ()
  else reject .entriesMismatch entries.line

/-- The labels of the rings: those given, whose number must be that of the
rings, or else the values of the rings. -/
def ringLabels (scale : Nat) (intervals : Option Nat) (given : Option (Stated (List String))) :
    Except Failure (List String) :=
  match intervals, given with
  | none, none => pure []
  | none, some labels => pure labels.value
  | some step, none => pure ((ringSteps scale step).map toString)
  | some step, some labels => do
    let expected := scale / step + 1
    let _ ← orFault (Text.writeInteger expected)
    if labels.value.length = expected then pure labels.value
    else reject (.labelCount expected) labels.line

/-- The entry with the given number. Its color is the last one stated. -/
def readEntry (ss : List Statement) (entries radii : Stated Nat) (number : Nat) :
    Except Failure Entry :=
  match lastStated? (·.entryColor? number) ss, firstStated? (·.entryData? number) ss with
  | none, none => reject .entriesMismatch entries.line
  | none, some data => reject .partialEntry data.line
  | some color, none => reject .partialEntry color.line
  | some color, some data =>
    if data.value.length = radii.value then pure ⟨color.value, data.value.map Int.ofNat⟩
    else reject .dataCount data.line

/-- The chart of an outline with the labels and entries found for it. What
need not be stated follows the background, the text color, and `no`. -/
def Outline.chart (o : Outline) (ss : List Statement) (radii labels : List String)
    (entries : List Entry) : Chart :=
  let paintOr (p : Paint) (default : String) :=
    ((firstStated? (·.paint? p) ss).map (·.value)).getD default
  { width := o.size.1, height := o.size.2, margin := o.margin
    background := o.background, textColor := o.textColor, strokeColor := o.strokeColor
    intervalBackground := paintOr .intervalBackground o.background
    intervalStrokeColor := paintOr .intervalStroke o.textColor
    textSize := o.textSize, mainStrokeWidth := o.mainStrokeWidth
    entryStrokeWidth := o.entryStrokeWidth, filledEntries := o.filledEntries
    scale := o.scale, intervals := o.intervals.value.map Int.ofNat, top := o.top
    radii := radii, entries := entries, intervalLabels := labels
    hideLabels := ((firstStated? (·.flag? .hideLabels) ss).map (·.value)).getD false }

/-- The chart that the statements describe. -/
def Chart.ofStatements (ss : List Statement) : Except Failure Chart := do
  let o ← Outline.ofStatements ss
  o.checkIntervals
  let radii ← radiusLabels ss o.radii
  checkEntries ss o.entries
  let labels ← ringLabels o.scale o.intervals.value (firstStated? (·.intervalLabels?) ss)
  let entries ← (List.range' 1 o.entries.value).mapM (readEntry ss o.entries o.radii)
  return o.chart ss radii labels entries

/-- The chart that the items describe. -/
def Chart.ofItems (items : List Item) : Except Failure Chart := do
  Chart.ofStatements (← readStatements items)

/-- The items of a document. -/
def readItems (text : String) : Except Failure (List Item) :=
  orProblem (resolve (readLines text))

/-- The chart that a document describes. -/
def Chart.parse (text : String) : Except Failure Chart := do
  Chart.ofItems (← readItems text)

end RadarChart
