import RadarChart.Document.Line
import RadarChart.Document.Problem

/-!
# Key paths

A line has key words, a colon and a value. The words of a line that is not
indented are its key path. An indented line continues the line above: its
words replace the same number of words at the end of the path that is active,
and the path grows where it has not as many. `resolve` gives every line its
full key; a line without a colon or with a key already seen ends the reading.
-/

namespace RadarChart

open Text

/-- A key, the line that states it, and its value. -/
structure Item where
  key : String
  line : Int
  value : String
deriving DecidableEq, Repr

/-- What a line is made of. -/
structure LineParts where
  indented : Bool
  words : List (List Char)
  value : List Char
deriving DecidableEq, Repr

/-- The parts of a line, which is divided at its first colon. -/
def LineParts.ofText? (cs : List Char) : Option LineParts :=
  if ':' ∈ cs then
    some {
      indented := cs.head?.any isBlank
      words := Text.words (cs.takeWhile (· != ':'))
      value := trimLeft isBlank ((cs.dropWhile (· != ':')).drop 1) }
  else none

/-- The path after a line with the given words. -/
def extendPath (path : List (List Char)) (p : LineParts) : List (List Char) :=
  if p.indented then path.take (path.length - p.words.length) ++ p.words else p.words

/-- Resolves the lines that follow the active path and the keys seen so far. -/
def resolveFrom (path : List (List Char)) (seen : List String) :
    List Line → Except Problem (List Item)
  | [] => .ok []
  | l :: ls =>
    match LineParts.ofText? l.text.toList with
    | none => .error ⟨.noColon, l.number⟩
    | some p =>
      let path := extendPath path p
      let key := String.ofList (joinWords path)
      if key ∈ seen then .error ⟨.repeatedKey, l.number⟩
      else
        (resolveFrom path (key :: seen) ls).map
          (⟨key, l.number, String.ofList p.value⟩ :: ·)

/-- The items that the lines state, one for each line. -/
def resolve (lines : List Line) : Except Problem (List Item) :=
  resolveFrom [] [] lines

end RadarChart
