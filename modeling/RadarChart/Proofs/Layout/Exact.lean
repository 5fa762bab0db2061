import Mathlib.Analysis.SpecialFunctions.Trigonometric.Basic
import RadarChart.Layout.Geometry
import RadarChart.Proofs.Document.Success

/-!
# Exact coordinates

The real numbers as coordinates: nothing is rounded, and sine and cosine are
those of analysis. A layout over them is what the layout over floats
approximates. Each part of a layout is described here by its real coordinates.
-/

namespace RadarChart

/-- A real number as a coordinate. -/
@[ext] structure Exact where
  toReal : ℝ

noncomputable instance : LinearOrder Exact :=
  LinearOrder.lift' Exact.toReal fun _ _ => Exact.ext

noncomputable instance : Scalar Exact where
  lt a b := decide (a < b)
  highest? := none
  lowest? := none
  add a b := ⟨a.toReal + b.toReal⟩
  sub a b := ⟨a.toReal - b.toReal⟩
  mul a b := ⟨a.toReal * b.toReal⟩
  div a b := ⟨a.toReal / b.toReal⟩
  neg a := ⟨-a.toReal⟩
  ofScientific mantissa negative exponent := ⟨OfScientific.ofScientific mantissa negative exponent⟩
  ofNat n := ⟨n⟩
  ofRat? r := some ⟨r⟩
  isZero a := decide (a.toReal = 0)
  pi := ⟨Real.pi⟩
  sin a := ⟨Real.sin a.toReal⟩
  cos a := ⟨Real.cos a.toReal⟩

namespace Exact

theorem le_iff {a b : Exact} : a ≤ b ↔ a.toReal ≤ b.toReal := Iff.rfl

theorem toReal_max (a b : Exact) : (max a b).toReal = max a.toReal b.toReal :=
  Monotone.map_max fun _ _ h => h

theorem toReal_min (a b : Exact) : (min a b).toReal = min a.toReal b.toReal :=
  Monotone.map_min fun _ _ h => h

@[simp] theorem toReal_add (a b : Exact) : (a + b).toReal = a.toReal + b.toReal := rfl

@[simp] theorem toReal_sub (a b : Exact) : (a - b).toReal = a.toReal - b.toReal := rfl

@[simp] theorem toReal_mul (a b : Exact) : (a * b).toReal = a.toReal * b.toReal := rfl

@[simp] theorem toReal_div (a b : Exact) : (a / b).toReal = a.toReal / b.toReal := rfl

@[simp] theorem toReal_neg (a : Exact) : (-a).toReal = -a.toReal := rfl

theorem toReal_ofScientific (m : Nat) (s : Bool) (e : Nat) :
    (OfScientific.ofScientific m s e : Exact).toReal = OfScientific.ofScientific m s e := rfl

@[simp] theorem toReal_zero : (0.0 : Exact).toReal = 0 := by
  rw [toReal_ofScientific]
  norm_num

@[simp] theorem toReal_half : (0.5 : Exact).toReal = 1 / 2 := by
  rw [toReal_ofScientific]
  norm_num

@[simp] theorem toReal_one : (1.0 : Exact).toReal = 1 := by
  rw [toReal_ofScientific]
  norm_num

@[simp] theorem toReal_two : (2.0 : Exact).toReal = 2 := by
  rw [toReal_ofScientific]
  norm_num

@[simp] theorem toReal_ofNat (n : Nat) : (Scalar.ofNat n : Exact).toReal = n := rfl

@[simp] theorem toReal_pi : (Scalar.pi : Exact).toReal = Real.pi := rfl

@[simp] theorem toReal_sin (a : Exact) : (Scalar.sin a).toReal = Real.sin a.toReal := rfl

@[simp] theorem toReal_cos (a : Exact) : (Scalar.cos a).toReal = Real.cos a.toReal := rfl

end Exact

namespace Scalar

@[simp] theorem ofInt_exact (n : Int) : (ofInt n : Except Fault Exact) = .ok ⟨n⟩ := by
  simp [ofInt, ofRat?]

theorem quotient_eq_ok_iff {a b : Int} {x : Exact} :
    quotient a b = .ok x ↔ b ≠ 0 ∧ x = ⟨a / b⟩ := by
  unfold quotient
  by_cases hb : b = 0
  · simp [hb]
  · simp [hb, ofRat?, Rat.divInt_eq_div, eq_comm]

theorem divide_eq_ok_iff {a b x : Exact} :
    divide a b = .ok x ↔ b.toReal ≠ 0 ∧ x = a / b := by
  unfold divide
  by_cases hb : b.toReal = 0
  · simp [hb, isZero]
  · simp [hb, isZero, eq_comm]

theorem larger_exact (a b : Exact) : larger a b = max a b := by
  simp only [larger, Ordered.lt, decide_eq_true_eq]
  rcases lt_or_ge a b with h | h
  · rw [if_pos h, max_eq_right h.le]
  · rw [if_neg (not_lt.mpr h), max_eq_left h]

theorem smaller_exact (a b : Exact) : smaller a b = min a b := by
  simp only [smaller, Ordered.lt, decide_eq_true_eq]
  rcases lt_or_ge b a with h | h
  · rw [if_pos h, min_eq_right h.le]
  · rw [if_neg (not_lt.mpr h), min_eq_left h]

end Scalar

/-! ## The canvas and the star -/

theorem Chart.center_exact (c : Chart) :
    (c.center : Except Fault (Point Exact)) = .ok ⟨⟨c.width / 2⟩, ⟨c.height / 2⟩⟩ := by
  have hhalf : ∀ n : Int, (Scalar.quotient n 2 : Except Fault Exact) = .ok ⟨n / 2⟩ := by
    intro n
    rw [Scalar.quotient_eq_ok_iff]
    exact ⟨by decide, by norm_num⟩
  rw [Chart.center, hhalf, hhalf]
  rfl

/-- The margin as a share of the shorter side. -/
noncomputable def Chart.marginShare (c : Chart) : ℝ :=
  c.margin / c.shorterSide

theorem Chart.marginFraction_eq_ok_iff {c : Chart} {m : Exact} :
    c.marginFraction = .ok m ↔ c.shorterSide ≠ 0 ∧ m = ⟨c.marginShare⟩ := by
  simp only [Chart.marginFraction, bind_eq_ok_iff, Scalar.quotient_eq_ok_iff, pure_eq_ok_iff]
  constructor
  · rintro ⟨_, ⟨hside, rfl⟩, rfl⟩
    refine ⟨hside, Exact.ext ?_⟩
    have hside' : (c.shorterSide : ℝ) ≠ 0 := Int.cast_ne_zero.mpr hside
    simp only [Exact.toReal_sub, Exact.toReal_one, Chart.marginShare]
    push_cast
    field_simp
    ring
  · rintro ⟨hside, rfl⟩
    refine ⟨_, ⟨hside, rfl⟩, Exact.ext ?_⟩
    have hside' : (c.shorterSide : ℝ) ≠ 0 := Int.cast_ne_zero.mpr hside
    simp only [Exact.toReal_sub, Exact.toReal_one, Chart.marginShare]
    push_cast
    field_simp
    ring

/-- The angle by which a star of so many spokes is turned. -/
noncomputable def Orientation.angle (o : Orientation) (count : Nat) : ℝ :=
  match o with
  | .firstRadius => 0
  | .lastSide => -(Real.pi / count)
  | .firstSide | .named _ => Real.pi / count

theorem Orientation.toReal_turn (o : Orientation) (count : Nat) :
    (o.turn (⟨Real.pi / count⟩ : Exact)).toReal = o.angle count := by
  cases o with
  | firstRadius => simp [Orientation.turn, Orientation.angle]
  | _ => rfl

/-- The angle at which a spoke points, from straight down against the clock. -/
noncomputable def Chart.direction (c : Chart) (i : Nat) : ℝ :=
  Real.pi - 2 * Real.pi * i / c.radii.length + c.top.angle c.radii.length

/-- The offset of the tip of a spoke from the center, at full size. -/
noncomputable def Chart.spoke (c : Chart) (i : Nat) : Point ℝ :=
  ⟨Real.sin (c.direction i) * c.shorterSide, Real.cos (c.direction i) * c.shorterSide⟩

/-- The tip of a spoke at some scale. -/
noncomputable def Chart.tip (c : Chart) (factor : ℝ) (i : Nat) : Point Exact :=
  ⟨⟨c.width / 2 + (c.spoke i).x * factor⟩, ⟨c.height / 2 + (c.spoke i).y * factor⟩⟩

theorem toReal_spokeAngle (count i : Nat) :
    (spokeAngle count i : Exact).toReal = 2 * Real.pi * i / count := by
  simp [spokeAngle]

theorem Chart.star_eq_ok_iff {c : Chart} {factor : Exact} {offsets : List (Point Exact)} :
    c.star factor = .ok offsets ↔ c.radii.length ≠ 0 ∧
      offsets = (List.range c.radii.length).map fun i =>
        ⟨⟨(c.spoke i).x * factor.toReal⟩, ⟨(c.spoke i).y * factor.toReal⟩⟩ := by
  have hangle : ∀ i : Nat, (Scalar.pi - spokeAngle c.radii.length i +
      c.top.turn (Scalar.pi / Scalar.ofNat c.radii.length) : Exact).toReal = c.direction i := by
    intro i
    have hturn := c.top.toReal_turn c.radii.length
    simp only [Exact.toReal_add, Exact.toReal_sub, Exact.toReal_pi, toReal_spokeAngle,
      Chart.direction]
    rw [← hturn]
    rfl
  have hpoint : ∀ i : Nat, (⟨Scalar.sin (Scalar.pi - spokeAngle c.radii.length i +
        c.top.turn (Scalar.pi / Scalar.ofNat c.radii.length)) * (⟨c.shorterSide⟩ * factor),
      Scalar.cos (Scalar.pi - spokeAngle c.radii.length i +
        c.top.turn (Scalar.pi / Scalar.ofNat c.radii.length)) * (⟨c.shorterSide⟩ * factor)⟩ :
        Point Exact) =
      ⟨⟨(c.spoke i).x * factor.toReal⟩, ⟨(c.spoke i).y * factor.toReal⟩⟩ := by
    intro i
    simp only [Point.mk.injEq, Exact.ext_iff, Exact.toReal_mul, Exact.toReal_sin, Exact.toReal_cos,
      hangle, Chart.spoke]
    exact ⟨by ring, by ring⟩
  simp only [Chart.star, bind_eq_ok_iff, Scalar.share_eq_ok_iff, Scalar.ofInt_exact,
    pure_eq_ok_iff, Except.ok.injEq, exists_eq_left']
  constructor
  · rintro ⟨_, ⟨hcount, rfl⟩, rfl⟩
    exact ⟨hcount, List.map_congr_left fun i _ => hpoint i⟩
  · rintro ⟨hcount, rfl⟩
    exact ⟨_, ⟨hcount, rfl⟩, List.map_congr_left fun i _ => hpoint i⟩

/-! ## The sides of the canvas -/

inductive Side where
  | left
  | right
  | top
  | bottom
deriving DecidableEq, Repr

/-- How far an offset from the center goes toward the side. -/
def Side.reach : Side → Point ℝ → ℝ
  | .left, p => -p.x
  | .right, p => p.x
  | .top, p => -p.y
  | .bottom, p => p.y

/-- How far the box of a label reaches over the margin, and how much is left if that is negative. -/
noncomputable def Chart.overhang (c : Chart) (l : TextLabel Exact) (width : Exact) : Side → ℝ
  | .left => c.width * c.marginShare - (l.x.toReal - width.toReal / 2)
  | .right => l.x.toReal + width.toReal / 2 - c.width * (1 - c.marginShare)
  | .top => c.height * c.marginShare - (l.y.toReal - l.size.toReal / 2)
  | .bottom => l.y.toReal + l.size.toReal / 2 - c.height * (1 - c.marginShare)

end RadarChart
