import RadarChart.Fault
import RadarChart.Number.Binary64
import RadarChart.Text.Blank
import RadarChart.Text.Digit

/-!
# Numbers on a command line

Numbers on a command line may be written more freely than in a document: in
the digits of any script, between blanks, with a sign, and with single
underscores between digits. A whole number has digits only; a real number may
have a point and an exponent, or be one of the words for infinity and for no
number at all.
-/

namespace RadarChart.NumberArgument

open Text

/-- The character in ASCII, as far as numbers go: digits of other scripts become
digits, and blanks become spaces. -/
def toAscii (c : Char) : Char :=
  if c.toNat < 128 then c
  else if isBlank c then ' '
  else
    match digitValue? c with
    | some n => n.digitChar
    | none => '?'

/-- The text of a number in ASCII and without the blanks around it. -/
def normalize (cs : List Char) : List Char :=
  trim isAsciiBlank (cs.map toAscii)

/-- The sign in front of a number, and the rest. -/
def takeSign : List Char → Bool × List Char
  | '-' :: cs => (true, cs)
  | '+' :: cs => (false, cs)
  | cs => (false, cs)

/-- The text without its underscores, each of which must stand between digits. -/
def dropUnderscores (afterDigit : Bool) : List Char → Option (List Char)
  | [] => some []
  | '_' :: cs =>
    if afterDigit && cs.head?.any Char.isDigit then dropUnderscores false cs else none
  | c :: cs => (dropUnderscores c.isDigit cs).map (c :: ·)

/-- Whether the text is a row of digits, with at least one. -/
def isDigits (cs : List Char) : Bool :=
  !cs.isEmpty && cs.all Char.isDigit

/-- A whole number, with no more digits than can be read. -/
def readInt? (s : String) : Option Int := do
  let (negative, cs) := takeSign (normalize s.toList)
  let ds ← dropUnderscores false cs
  guard (isDigits ds && ds.length ≤ digitLimit)
  let n := Nat.ofDigitChars 10 ds 0
  return if negative then -(n : Int) else n

/-- An exponent: nothing, or a letter, a sign if any, and digits. -/
def readExponent? : List Char → Option Int
  | [] => some 0
  | c :: cs => do
    guard (c = 'e' || c = 'E')
    let (negative, ds) := takeSign cs
    guard (isDigits ds)
    let n := Nat.ofDigitChars 10 ds 0
    return if negative then -(n : Int) else n

/-- The decimal places after a point, if there is one, and the rest. -/
def takePlaces : List Char → List Char × List Char
  | '.' :: cs => cs.span Char.isDigit
  | cs => ([], cs)

/-- An unsigned number in decimal notation, with the sign given. -/
def readDecimal? (negative : Bool) (cs : List Char) : Option Float := do
  let (whole, rest) := cs.span Char.isDigit
  let (decimals, rest) := takePlaces rest
  guard (!(whole ++ decimals).isEmpty)
  let exponent ← readExponent? rest
  return Binary64.ofDecimal negative (Nat.ofDigitChars 10 (whole ++ decimals) 0)
    (exponent - decimals.length)

/-- A real number, rounded to the nearest float. -/
def readFloat? (s : String) : Option Float := do
  let cs ← dropUnderscores false (normalize s.toList)
  let (negative, cs) := takeSign cs
  match String.ofList (cs.map Char.toLower) with
  | "inf" | "infinity" => return Binary64.infinity negative
  | "nan" => return 0.0 / 0.0
  | _ => readDecimal? negative cs

end RadarChart.NumberArgument
