import RadarChart.Document.Property
import RadarChart.Fault

/-!
# Problems of a document

A problem is a cause at a line. Causes fall into seven categories. A reading
that fails does so with a problem of the document or, where a number is too
long to be read or written, with a fault.
-/

namespace RadarChart

/-- What a document numbers from 1. -/
inductive Numbered where
  | radius
  | entry
deriving DecidableEq, Repr

def Numbered.name : Numbered → String
  | .radius => "radius"
  | .entry => "entry"

def Numbered.title : Numbered → String
  | .radius => "Radius"
  | .entry => "Entry"

inductive Cause where
  /-- a line without a colon -/
  | noColon
  /-- a key that an earlier line has -/
  | repeatedKey
  /-- a key that names nothing -/
  | unknownProperty (key : String)
  /-- a value that has not the form of the property -/
  | improperValue (property : Property)
  | belowMinimum (property : Property) (minimum : Nat)
  /-- a key of the wrong form -/
  | invalidSpec (what : Numbered)
  /-- the number 0 -/
  | specOutOfRange (what : Numbered)
  /-- data of an entry that has them already -/
  | repeatedData (entry : Nat)
  | notANumber (position : Nat)
  | unknownCharacteristic (name : String)
  | missingProperty (property : Property)
  | unevenIntervals
  | radiiMismatch
  | entriesMismatch
  | labelCount (expected : Nat)
  /-- an entry without color or without data -/
  | partialEntry
  | dataCount
deriving DecidableEq, Repr

inductive Category where
  | form
  | duplicateKey
  | improperValue
  | valueRange
  | consistency
  | missingProperty
  | unknownProperty
deriving DecidableEq, Repr

def Cause.category : Cause → Category
  | .noColon => .form
  | .repeatedKey | .repeatedData _ => .duplicateKey
  | .improperValue _ | .invalidSpec _ | .notANumber _ => .improperValue
  | .belowMinimum _ _ | .specOutOfRange _ => .valueRange
  | .missingProperty _ => .missingProperty
  | .unknownProperty _ | .unknownCharacteristic _ => .unknownProperty
  | .unevenIntervals | .radiiMismatch | .entriesMismatch | .labelCount _ | .partialEntry
  | .dataCount => .consistency

def Cause.message : Cause → String
  | .noColon => "Parsing error"
  | .repeatedKey => "Duplicate key"
  | .unknownProperty key => "Invalid property '" ++ key ++ "'"
  | .improperValue p => "Improper " ++ p.name ++ " declaration"
  | .belowMinimum p minimum => "Value for " ++ p.name ++ " must be at least " ++ toString minimum
  | .invalidSpec what => "Invalid " ++ what.name ++ " spec"
  | .specOutOfRange what => what.title ++ " spec out of range"
  | .repeatedData entry => "Duplicate definition of entry " ++ toString entry ++ "'s data."
  | .notANumber position => "Data property " ++ toString position ++ " is not a number."
  | .unknownCharacteristic name => "Unknown characteristic '" ++ name ++ "' of entry."
  | .missingProperty p => "Missing property '" ++ p.name ++ "'"
  | .unevenIntervals => "Intervals do not evenly fit into scale"
  | .radiiMismatch => "Number of radii does not match defined radii"
  | .entriesMismatch => "Number of entries does not match defined entries"
  | .labelCount expected =>
    "Incorrect number of interval labels (expected " ++ toString expected ++ ")"
  | .partialEntry => "Partially undefined graph entry"
  | .dataCount => "Number of data items does not match defined radii"

/-- A cause and the line that it is found at. -/
structure Problem where
  cause : Cause
  line : Int
deriving DecidableEq, Repr

def Problem.message (p : Problem) : String :=
  p.cause.message ++ " at ln. " ++ toString p.line

/-- Why a document gives no chart. -/
inductive Failure where
  | problem (p : Problem)
  | fault (f : Fault)
deriving DecidableEq, Repr

/-- A problem of the given cause at the given line. -/
def reject {α : Type} (cause : Cause) (line : Int) : Except Failure α :=
  .error (.problem ⟨cause, line⟩)

/-- A result whose errors are faults, as part of a reading. -/
def orFault {α : Type} : Except Fault α → Except Failure α
  | .ok a => .ok a
  | .error f => .error (.fault f)

/-- A result whose errors are problems, as part of a reading. -/
def orProblem {α : Type} : Except Problem α → Except Failure α
  | .ok a => .ok a
  | .error p => .error (.problem p)

end RadarChart
