import RadarChart.Text.Utf8

/-!
# Faults

What can go wrong in computing or writing a chart that is not a mistake at a
line of its document. Each fault is a cause; `Fault.message` words it.
-/

namespace RadarChart

inductive Fault where
  /-- an exact quotient with divisor zero -/
  | zeroDivisor
  /-- a coordinate divided by zero -/
  | vanishingDivisor
  /-- an exact quotient beyond the largest coordinate -/
  | quotientTooLarge
  /-- an integer beyond the largest coordinate -/
  | integerTooLarge
  /-- a position past the end of a list -/
  | noSuchElement
  /-- rings that are no distance apart -/
  | zeroStep
  /-- extrema of nothing -/
  | noPoints
  /-- a number of decimal places that is negative or was left empty -/
  | missingPrecision
  /-- more decimal places than can be laid out -/
  | precisionTooLarge
  /-- more decimal places than can be counted -/
  | precisionTooLong
  /-- a numeral of so many digits, too long to be read -/
  | numeralTooLong (digits : Nat)
  /-- an integer too long to be written -/
  | integerTooLong
  /-- a file that is not UTF-8 -/
  | undecodable (fault : Text.Utf8Fault)
  /-- a path that holds a NUL character -/
  | nulInPath
  /-- a path that was left empty -/
  | missingPath
  /-- a width that was left empty -/
  | missingWidth
  /-- a width that was left empty, of more text than can be counted -/
  | countTooLarge
deriving DecidableEq, Repr

/-- The most digits that an integer may have when it is read or written. -/
def digitLimit : Nat := 4300

def Fault.message : Fault → String
  | .zeroDivisor => "division by zero"
  | .vanishingDivisor => "float division by zero"
  | .quotientTooLarge => "integer division result too large for a float"
  | .integerTooLarge => "int too large to convert to float"
  | .noSuchElement => "list index out of range"
  | .zeroStep => "range() arg 3 must not be zero"
  | .noPoints => "get_extrema() called with no points"
  | .missingPrecision => "Format specifier missing precision"
  | .precisionTooLarge => "precision too big"
  | .precisionTooLong => "Too many decimal digits in format string"
  | .numeralTooLong digits => limit ++ ": value has " ++ toString digits ++ " digits" ++ remedy
  | .integerTooLong => limit ++ remedy
  | .undecodable fault => fault.message
  | .nulInPath => "embedded null byte"
  | .missingPath => "expected str, bytes or os.PathLike object, not list"
  | .missingWidth => "unsupported operand type(s) for /: 'list' and 'int'"
  | .countTooLarge => "cannot fit 'int' into an index-sized integer"
where
  limit := "Exceeds the limit (" ++ toString digitLimit
    ++ " digits) for integer string conversion"
  remedy := "; use sys.set_int_max_str_digits() to increase the limit"

end RadarChart
