import RadarChart.Fault
import RadarChart.Number.Binary64

/-!
# Coordinates

A layout is computed over any kind of number that has the operations of
`Scalar`, so that it can be run on floats and studied on exact numbers.
Integers and their quotients become coordinates by one rounding of their
exact value, and fail where that is too large; a quotient of two coordinates
fails where the divisor is zero, and a share of one where the count is.
-/

namespace RadarChart

/-- An order that may have a highest and a lowest element beyond all others. -/
class Ordered (α : Type) where
  lt : α → α → Bool
  highest? : Option α
  lowest? : Option α

class Scalar (α : Type) extends Ordered α, Add α, Sub α, Mul α, Div α, Neg α, OfScientific α where
  /-- a count as a coordinate -/
  ofNat : Nat → α
  /-- the coordinate nearest to an exact value, if that is not too large -/
  ofRat? : Rat → Option α
  isZero : α → Bool
  pi : α
  sin : α → α
  cos : α → α

instance : Scalar Float where
  lt a b := a < b
  highest? := some (Binary64.infinity false)
  lowest? := some (Binary64.infinity true)
  ofNat := Float.ofNat
  ofRat? := Binary64.ofRat?
  isZero x := x == 0.0
  pi := 3.141592653589793
  sin := Float.sin
  cos := Float.cos

namespace Scalar

variable {α : Type} [Scalar α]

/-- An integer as a coordinate. -/
def ofInt (n : Int) : Except Fault α :=
  match ofRat? (α := α) n with
  | some x => .ok x
  | none => .error .integerTooLarge

/-- The quotient of two integers as a coordinate, rounded once. -/
def quotient (a b : Int) : Except Fault α :=
  if b = 0 then .error .zeroDivisor
  else
    match ofRat? (α := α) (Rat.divInt a b) with
    | some x => .ok x
    | none => .error .quotientTooLarge

/-- The quotient of two coordinates. -/
def divide (a b : α) : Except Fault α :=
  if isZero b then .error .vanishingDivisor else .ok (a / b)

/-- A coordinate divided by a count. No other count than zero becomes a coordinate that is zero. -/
def share (a : α) (count : Nat) : Except Fault α :=
  if count = 0 then .error .vanishingDivisor else .ok (a / ofNat count)

theorem share_eq_ok_iff {a x : α} {count : Nat} :
    share a count = .ok x ↔ count ≠ 0 ∧ x = a / ofNat count := by
  unfold share
  by_cases hcount : count = 0
  · simp [hcount]
  · simp [hcount, eq_comm]

/-- The larger one, and the first of two that are not in order. -/
def larger (a b : α) : α :=
  if Ordered.lt a b then b else a

/-- The smaller one, and the first of two that are not in order. -/
def smaller (a b : α) : α :=
  if Ordered.lt b a then b else a

/-- Whether a coordinate is at most zero. -/
def notPositive (a : α) : Bool :=
  Ordered.lt a 0.0 || isZero a

end Scalar

end RadarChart
