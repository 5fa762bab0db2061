import RadarChart.Chart.Basic
import RadarChart.Document.KeyPath
import RadarChart.Text.Numeral

/-!
# Statements

An item of a document makes one statement about the chart. Its key is read
first and says what the statement is about; its value is read after that, in
the form which the key demands. Reading is item by item, and the only thing
that an item needs to know about those before it is which entries have been
given data.
-/

namespace RadarChart

open Text

/-- What a key is about. Radii and entries are numbered from 1. -/
inductive Target where
  | property (p : Property)
  | radius (number : Nat)
  | entryData (number : Nat)
  | entryColor (number : Nat)
deriving DecidableEq, Repr

/-- What an item says. -/
inductive Fact where
  | size (width height : Nat)
  | quantity (q : Quantity) (value : Nat)
  | paint (p : Paint) (value : String)
  | flag (f : Flag) (value : Bool)
  | intervals (step : Option Nat)
  | top (orientation : Orientation)
  | intervalLabels (labels : List String)
  | radius (number : Nat) (label : String)
  | entryData (number : Nat) (values : List Nat)
  | entryColor (number : Nat) (color : String)
deriving DecidableEq, Repr

/-- A fact and the line that states it. -/
structure Statement where
  line : Int
  fact : Fact
deriving DecidableEq, Repr

/-! ## Keys -/

/-- The number in the key of a radius or an entry. -/
def readNumber (what : Numbered) (cs : List Char) (line : Int) : Except Failure Nat := do
  match ← orFault (readNumeral cs) with
  | none => reject (.invalidSpec what) line
  | some 0 => reject (.specOutOfRange what) line
  | some (n + 1) => pure (n + 1)

/-- What a key is about. A key that is no property has its parts divided by
single spaces; the first one says what the rest must be. -/
def Target.read (key : String) (line : Int) : Except Failure Target :=
  match Property.ofName? key with
  | some p => pure (.property p)
  | none =>
    match (splitAt ' ' key.toList).map String.ofList with
    | "radius" :: number :: rest =>
      match rest with
      | [] => do return .radius (← readNumber .radius number.toList line)
      | _ => reject (.invalidSpec .radius) line
    | "entry" :: number :: rest =>
      match rest with
      | [characteristic] => do
        let n ← readNumber .entry number.toList line
        match characteristic with
        | "data" => pure (.entryData n)
        | "color" => pure (.entryColor n)
        | other => reject (.unknownCharacteristic other) line
      | _ => reject (.invalidSpec .entry) line
    | _ => reject (.unknownProperty key) line

/-! ## Values -/

/-- A canvas: two numerals around an `x`, both at least 1. -/
def readSize (cs : List Char) (line : Int) : Except Failure Fact :=
  match (splitAt 'x' cs).map numeralDigits? with
  | [some width, some height] => do
    let width ← orFault (numeralValue width)
    let height ← orFault (numeralValue height)
    if 1 ≤ width ∧ 1 ≤ height then pure (.size width height)
    else reject (.belowMinimum .size 1) line
  | _ => reject (.improperValue .size) line

/-- A number that has a least value, for the given property. -/
def readAtLeast (minimum : Nat) (p : Property) (n : Nat) (line : Int) : Except Failure Nat :=
  if minimum ≤ n then pure n else reject (.belowMinimum p minimum) line

def readQuantity (q : Quantity) (cs : List Char) (line : Int) : Except Failure Fact := do
  match ← orFault (readNumeral cs) with
  | none => reject (.improperValue (.quantity q)) line
  | some n => return .quantity q (← readAtLeast q.minimum (.quantity q) n line)

/-- The distance of the rings, at least 1, or the word `none`. -/
def readIntervals (cs : List Char) (line : Int) : Except Failure Fact := do
  match ← orFault (readNumeral cs) with
  | none =>
    if trim isBlank cs = "none".toList then pure (.intervals none)
    else reject (.improperValue .intervals) line
  | some n => return .intervals (some (← readAtLeast 1 .intervals n line))

def readFlag (f : Flag) (cs : List Char) (line : Int) : Except Failure Fact :=
  match String.ofList (trim isBlank cs) with
  | "yes" => pure (.flag f true)
  | "no" => pure (.flag f false)
  | _ => reject (.improperValue (.flag f)) line

def readTop (cs : List Char) (line : Int) : Except Failure Fact :=
  match String.ofList (trim isBlank cs) with
  | "first radius" => pure (.top .firstRadius)
  | "first side" => pure (.top .firstSide)
  | "last side" => pure (.top .lastSide)
  | _ => reject (.improperValue .top) line

/-- The words of a list value. A value without words counts as one empty word. -/
def listWords (cs : List Char) : List (List Char) :=
  match words cs with
  | [] => [[]]
  | ws => ws

/-- The first place, counted from `position`, that holds no number; or else
all the numbers. -/
def allNumbers (position : Nat) : List (Option Nat) → Except Nat (List Nat)
  | [] => .ok []
  | none :: _ => .error position
  | some n :: ns => (allNumbers (position + 1) ns).map (n :: ·)

/-- The data of an entry. Every word is read before any is found to be no number. -/
def readData (cs : List Char) (line : Int) : Except Failure (List Nat) := do
  let numbers ← (listWords cs).mapM fun w => orFault (readNumeral w)
  match allNumbers 1 numbers with
  | .ok ns => pure ns
  | .error position => reject (.notANumber position) line

/-- The value of a property. -/
def Property.readValue (p : Property) (value : String) (line : Int) : Except Failure Fact :=
  match p with
  | .size => readSize value.toList line
  | .quantity q => readQuantity q value.toList line
  | .paint p => pure (.paint p value)
  | .flag f => readFlag f value.toList line
  | .intervals => readIntervals value.toList line
  | .top => readTop value.toList line
  | .intervalLabels => pure (.intervalLabels ((listWords value.toList).map String.ofList))

/-- What the value says about the target, where `withData` are the entries that
have been given data. -/
def Target.readValue (t : Target) (withData : List Nat) (value : String) (line : Int) :
    Except Failure Fact :=
  match t with
  | .property p => p.readValue value line
  | .radius n => pure (.radius n value)
  | .entryColor n => pure (.entryColor n value)
  | .entryData n =>
    if n ∈ withData then reject (.repeatedData n) line
    else do return .entryData n (← readData value.toList line)

/-! ## Items -/

/-- What one item states. -/
def Item.read (withData : List Nat) (item : Item) : Except Failure Statement := do
  let target ← Target.read item.key item.line
  return ⟨item.line, ← target.readValue withData item.value item.line⟩

/-- The entries that have data once the fact is known too. -/
def Fact.addData (withData : List Nat) : Fact → List Nat
  | .entryData n _ => n :: withData
  | _ => withData

/-- What the items state, one statement each, where `withData` are the entries
that have been given data before. -/
def readStatementsFrom (withData : List Nat) : List Item → Except Failure (List Statement)
  | [] => pure []
  | item :: items => do
    let statement ← item.read withData
    let statements ← readStatementsFrom (statement.fact.addData withData) items
    return statement :: statements

def readStatements (items : List Item) : Except Failure (List Statement) :=
  readStatementsFrom [] items

end RadarChart
