import RadarChart.Fault
import RadarChart.Text.Blank

/-!
# Decimal numerals

Unsigned numerals in ASCII digits, with ASCII blanks around them, as they
stand in a document; and integers in decimal digits, as they are written.
Neither may have more than `digitLimit` digits, leading zeros included.
-/

namespace RadarChart.Text

/-- The digits of a numeral that stands between blanks, and `none` for any
other text. -/
def numeralDigits? (cs : List Char) : Option (List Char) :=
  let ds := trim isAsciiBlank cs
  if ds.isEmpty || !ds.all Char.isDigit then none else some ds

/-- The value of a row of digits. -/
def numeralValue (ds : List Char) : Except Fault Nat :=
  if ds.length ≤ digitLimit then .ok (Nat.ofDigitChars 10 ds 0)
  else .error (.numeralTooLong ds.length)

/-- The value of an unsigned numeral, and `none` for a text that is none. -/
def readNumeral (cs : List Char) : Except Fault (Option Nat) :=
  match numeralDigits? cs with
  | none => .ok none
  | some ds => (numeralValue ds).map some

/-- The decimal text of an integer. -/
def writeInteger (n : Int) : Except Fault String :=
  if n.natAbs < Nat.pow 10 digitLimit then .ok (toString n) else .error .integerTooLong

end RadarChart.Text
