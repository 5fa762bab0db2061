import RadarChart.Number.Scalar

/-!
# Measuring text

A measurer gives the width of a text in a font of some size. A size comes
either as the whole number that a chart states or as a coordinate computed
from it, and the two can round differently. The estimator takes all
characters to be of one width.
-/

namespace RadarChart

inductive FontSize (α : Type) where
  | whole (size : Int)
  | scaled (size : α)
deriving DecidableEq, Repr

abbrev TextMeasurer (α : Type) := String → FontSize α → Except Fault α

variable {α : Type} [Scalar α]

/-- The width of a character, as a share of the font size, where nothing else
is asked for. -/
def defaultCharWidth : α := 0.6

/-- The measurer that takes every character to be `charWidth` font sizes wide.
With a whole size the product with the count of characters is exact. -/
def estimateWidth (charWidth : α) : TextMeasurer α := fun text size =>
  match size with
  | .whole size => (Scalar.ofInt (text.length * size)).map (· * charWidth)
  | .scaled size => .ok (Scalar.ofNat text.length * size * charWidth)

/-- The most characters times font sizes that can be counted. -/
def countLimit : Int := Int.pow 2 63 - 1

/-- The measurer for a width that was left empty: it measures nothing. -/
def noWidth : TextMeasurer α := fun text size =>
  match size with
  | .whole size =>
    if countLimit < text.length * size then .error .countTooLarge else .error .missingWidth
  | .scaled _ => .error .missingWidth

end RadarChart
