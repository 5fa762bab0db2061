import RadarChart.Fault
import RadarChart.Number.Binary64

/-!
# Numbers in fixed notation

A number is written with a given count of decimal places, rounded to the
nearest multiple of the last one, where the exact value of the float counts
and a tie goes to the even multiple. `plain` keeps every place; `trimmed`,
which coordinates are written in, leaves out zeros at the end, a point that
nothing follows, and the sign of a zero.
-/

namespace RadarChart.Fixed

open Binary64

/-- The magnitude `significand * 2 ^ exponent` in units of the last of `places`
decimal places. -/
def units (places significand : Nat) (exponent : Int) : Nat :=
  if 0 ≤ exponent then significand * Nat.pow 2 exponent.toNat * Nat.pow 10 places
  else roundDiv (significand * Nat.pow 10 places) (Nat.pow 2 (-exponent).toNat)

/-- The digits of `n`, filled up with zeros on the left to at least `width`. -/
def paddedDigits (width n : Nat) : List Char :=
  let ds := Nat.toDigits 10 n
  List.replicate (width - ds.length) '0' ++ ds

/-- The decimal text of `n` units of the last of `places` places. -/
def unitsText (places n : Nat) : List Char :=
  let ds := paddedDigits (places + 1) n
  if places = 0 then ds
  else ds.take (ds.length - places) ++ '.' :: ds.drop (ds.length - places)

/-- The number with all of its decimal places. -/
def plain (places : Nat) (x : Float) : List Char :=
  match Datum.ofFloat x with
  | .nan => ['n', 'a', 'n']
  | .infinite negative => sign negative ++ ['i', 'n', 'f']
  | .finite negative significand exponent =>
    sign negative ++ unitsText places (units places significand exponent)
where
  sign (negative : Bool) : List Char := if negative then ['-'] else []

/-- The text without the zeros that it ends with. -/
def dropTrailing (c : Char) (cs : List Char) : List Char :=
  (cs.reverse.dropWhile (· == c)).reverse

/-- The text of a number without zeros and a point at the end of its decimal
places, and with zero unsigned. -/
def trimmedText (cs : List Char) : List Char :=
  let cs :=
    if '.' ∈ cs then
      match (dropTrailing '0' cs).reverse with
      | '.' :: rest => rest.reverse
      | rest => rest.reverse
    else cs
  if cs = ['-', '0'] ∨ cs = [] then ['0'] else cs

/-- The number in at most `places` decimal places. -/
def trimmed (places : Nat) (x : Float) : List Char :=
  trimmedText (plain places x)

/-- The most decimal places that can be laid out. -/
def maxPlaces : Int := Int.pow 2 31 - 1

/-- The most decimal places that can be counted. -/
def maxCount : Int := Int.pow 2 63 - 1

/-- A precision as a number of decimal places. -/
def places (precision : Int) : Except Fault Nat :=
  if precision < 0 then .error .missingPrecision
  else if maxCount < precision then .error .precisionTooLong
  else if maxPlaces < precision then .error .precisionTooLarge
  else .ok precision.toNat

/-- The number in at most `precision` decimal places. -/
def write (x : Float) (precision : Int) : Except Fault String :=
  (places precision).map fun n => String.ofList (trimmed n x)

end RadarChart.Fixed
