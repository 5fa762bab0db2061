import RadarChart.Text.Blank
import RadarChart.Text.LineEnd

/-!
# The lines of a document

Lines are numbered from 1. Blank lines and comments, whose first character
that is not blank is `#`, are numbered but not kept.
-/

namespace RadarChart

open Text

structure Line where
  number : Int
  text : String
deriving DecidableEq, Repr

/-- Whether a line says something: it is neither blank nor a comment. -/
def isMeaningful (cs : List Char) : Bool :=
  match trimLeft isBlank cs with
  | [] => false
  | c :: _ => c != '#'

/-- The meaningful lines of a text that starts at line `first`. -/
def numberLines (first : Nat) : List (List Char) → List Line
  | [] => []
  | l :: ls =>
    if isMeaningful l then ⟨first, String.ofList l⟩ :: numberLines (first + 1) ls
    else numberLines (first + 1) ls

/-- The meaningful lines of a document. -/
def readLines (text : String) : List Line :=
  numberLines 1 (splitLines text.toList)

end RadarChart
