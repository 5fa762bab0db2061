import RadarChart.Layout.Fit
import RadarChart.Number.Fixed

/-!
# Log records

What the program tells about its work. Records that only follow the work are
told when it is asked to be verbose; a warning is told always, and in fewer
words when it is not.

The time of day, with which a verbose log begins each of its lines, is left
out of the lines here. Nothing that the program works out depends on it.
-/

namespace RadarChart

inductive Record where
  | resolved (keys : Nat)
  | validated (chart : Chart)
  | fitted (fit : Fit Float)
  /-- the labels leave no room for the chart -/
  | tooLarge (chart : Chart) (factor : Float)
  | laidOut (factor : Float) (rings entries : Nat)

def Record.isWarning : Record → Bool
  | .tooLarge _ _ => true
  | _ => false

/-- A number with all of the given decimal places. -/
def decimals (places : Nat) (x : Float) : String :=
  String.ofList (Fixed.plain places x)

def Record.message : Record → String
  | .resolved keys => "resolved " ++ toString keys ++ " keys"
  | .validated c =>
    "validated chart: " ++ toString c.width ++ "x" ++ toString c.height ++ ", "
      ++ toString c.radii.length ++ " radii, " ++ toString c.entries.length
      ++ " entries, scale=" ++ toString c.scale
      ++ " intervals=" ++ c.intervals.elim "None" toString
  | .fitted f =>
    "label overflow x=" ++ decimals 3 f.xOverflow ++ " y=" ++ decimals 3 f.yOverflow
      ++ " -> x_fac=" ++ decimals 4 f.xFactor ++ " y_fac=" ++ decimals 4 f.yFactor
  | .tooLarge c factor =>
    "labels too large for a " ++ toString c.width ++ "x" ++ toString c.height
      ++ " canvas (scale factor " ++ decimals 4 factor ++ ")"
  | .laidOut factor rings entries =>
    "layout done: factor=" ++ decimals 4 factor ++ " rings=" ++ toString rings
      ++ " entries=" ++ toString entries

/-- The line that tells a record, if it is told. -/
def Record.line? (verbose : Bool) (r : Record) : Option String :=
  if verbose then
    let level := if r.isWarning then "WARNING" else "DEBUG"
    some ("spider_chart - " ++ level ++ " - " ++ r.message ++ "\n")
  else if r.isWarning then some (r.message ++ "\n")
  else none

end RadarChart
