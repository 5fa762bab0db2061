/-!
# Binary floating-point numbers and exact values

A `Float` stands for an exact value, and every rational has a nearest `Float`.
`Datum.ofFloat` reads the exact value off the bits. `ofRat?` goes the other
way in integer arithmetic: the magnitudes of non-negative floats are in the
order of their bits, so rounding a quotient to a whole significand and adding
the exponent's place gives the bits, and a carry out of the significand needs
no case of its own.
-/

namespace RadarChart.Binary64

/-- The quotient rounded to the nearest integer, a tie going to the even one. -/
def roundDiv (n d : Nat) : Nat :=
  let q := n / d
  let r := n % d
  if 2 * r < d then q
  else if d < 2 * r then q + 1
  else q + q % 2

/-- What a float stands for; a finite one for `significand * 2 ^ exponent`, with
its sign. -/
inductive Datum where
  | finite (negative : Bool) (significand : Nat) (exponent : Int)
  | infinite (negative : Bool)
  | nan
deriving DecidableEq, Repr

def Datum.ofBits (bits : Nat) : Datum :=
  let negative := bits / Nat.pow 2 63 % 2 == 1
  let field : Nat := bits / Nat.pow 2 52 % Nat.pow 2 11
  let fraction : Nat := bits % Nat.pow 2 52
  if field = 2047 then
    if fraction = 0 then .infinite negative else .nan
  else if field = 0 then .finite negative fraction (-1074)
  else .finite negative (Nat.pow 2 52 + fraction) ((field : Int) - 1075)

def Datum.ofFloat (x : Float) : Datum :=
  .ofBits x.toBits.toNat

/-- The bits of infinity. All smaller numbers are bits of finite magnitudes. -/
def infinityBits : Nat := 2047 * Nat.pow 2 52

/-- The least exponent of a float. -/
def minExponent : Int := -1074

/-- The fraction `n / d` divided by `2 ^ e`, as numerator and denominator. -/
def unscale (n d : Nat) (e : Int) : Nat × Nat :=
  if 0 ≤ e then (n, d * Nat.pow 2 e.toNat) else (n * Nat.pow 2 (-e).toNat, d)

/-- The exponent at which `n / d` has a significand of 53 bits, or the least one. -/
def fittingExponent (n d : Nat) : Int :=
  let e : Int := (Nat.log2 n : Int) - Nat.log2 d - 53
  let (p, q) := unscale n d e
  max (if p < Nat.pow 2 53 * q then e else e + 1) minExponent

/-- The bits of the magnitude nearest to `n / d`, as if the exponents had no
upper bound. -/
def magnitudeBits (n d : Nat) : Nat :=
  if n = 0 then 0
  else
    let e := fittingExponent n d
    let (p, q) := unscale n d e
    (e - minExponent).toNat * Nat.pow 2 52 + roundDiv p q

/-- The float with the given sign and bits of magnitude. -/
def ofMagnitude (negative : Bool) (bits : Nat) : Float :=
  Float.ofBits (UInt64.ofNat (if negative then Nat.pow 2 63 + bits else bits))

def infinity (negative : Bool) : Float :=
  ofMagnitude negative infinityBits

/-- The float nearest to a rational, or `none` where that is an infinity. -/
def ofRat? (r : Rat) : Option Float :=
  let bits := magnitudeBits r.num.natAbs r.den
  if bits < infinityBits then some (ofMagnitude (r.num < 0) bits) else none

/-- The float nearest to `significand * 10 ^ exponent`, with the given sign. What
is certainly too large or too small is told by the number of its bits, before
any power of ten is taken. -/
def ofDecimal (negative : Bool) (significand : Nat) (exponent : Int) : Float :=
  if significand = 0 then ofMagnitude negative 0
  else if 400 < exponent then infinity negative
  else if exponent + Nat.log2 significand + 1 < -400 then ofMagnitude negative 0
  else
    let bits :=
      if 0 ≤ exponent then magnitudeBits (significand * Nat.pow 10 exponent.toNat) 1
      else magnitudeBits significand (Nat.pow 10 (-exponent).toNat)
    ofMagnitude negative (min bits infinityBits)

end RadarChart.Binary64
