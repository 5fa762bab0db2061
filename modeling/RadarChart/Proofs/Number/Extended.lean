import Mathlib.Data.EReal.Basic
import RadarChart.Proofs.Layout.Extrema
import RadarChart.Proofs.Number.Notation

/-!
# Floats among the extended reals

A float that is a number is finite or one of the infinities. Floats that are
numbers are compared as the extended reals that they stand for, so they are
read in a linear order, in which the zeros of both signs are one.
-/

namespace RadarChart.Binary64

open Float.Model (UnpackedFloat)
open Float.Model.UnpackedFloat

/-- The extended real that an unpacked float stands for. What is no number may stand for any. -/
noncomputable def extended : UnpackedFloat → EReal
  | .infinity .positive => ⊤
  | .infinity .negative => ⊥
  | .zero _ | .notANumber => 0
  | .finite s m e _ => ((signed s (m * (2 : ℕ) ^ e) : ℝ) : EReal)

/-- The unpacked float is an infinity, or canonical and finite. -/
def IsExtended (u : UnpackedFloat) : Prop :=
  (∃ s, u = .infinity s) ∨ ∃ r, Denotes u r

theorem Denotes.extended_eq {u : UnpackedFloat} {r : ℝ} (h : Denotes u r) : extended u = r := by
  cases h with
  | zero => rfl
  | finite => rw [extended, Nat.cast_ofNat]

theorem compare_infinities (s s' : Sign) : (UnpackedFloat.infinity s).compare (.infinity s') =
    some (compare (extended (.infinity s)) (extended (.infinity s'))) := by
  have hlt : (⊥ : EReal) < ⊤ := bot_lt_top
  cases s with
  | positive =>
      cases s' with
      | positive =>
          rw [compare_eq_iff_eq.mpr rfl]
          rfl
      | negative =>
          rw [extended, extended, compare_gt_iff_gt.mpr hlt]
          rfl
  | negative =>
      cases s' with
      | positive =>
          rw [extended, extended, compare_lt_iff_lt.mpr hlt]
          rfl
      | negative =>
          rw [compare_eq_iff_eq.mpr rfl]
          rfl

/-- Floats that are numbers are compared as what they stand for. -/
theorem compare_extended {u w : UnpackedFloat} (hu : IsExtended u) (hw : IsExtended w) :
    u.compare w = some (compare (extended u) (extended w)) := by
  rcases hu with ⟨s, rfl⟩ | ⟨r, hr⟩ <;> rcases hw with ⟨s', rfl⟩ | ⟨t, ht⟩
  · exact compare_infinities s s'
  · rw [ht.extended_eq]
    cases s with
    | positive =>
        rw [extended, compare_gt_iff_gt.mpr (EReal.coe_lt_top t)]
        cases ht <;> rfl
    | negative =>
        rw [extended, compare_lt_iff_lt.mpr (EReal.bot_lt_coe t)]
        cases ht <;> rfl
  · rw [hr.extended_eq]
    cases s' with
    | positive =>
        rw [extended, compare_lt_iff_lt.mpr (EReal.coe_lt_top r)]
        cases hr <;> rfl
    | negative =>
        rw [extended, compare_gt_iff_gt.mpr (EReal.bot_lt_coe r)]
        cases hr <;> rfl
  · rw [hr.extended_eq, ht.extended_eq, hr.compare_eq ht, ← cmp_eq_compare, ← cmp_eq_compare,
      EReal.coe_strictMono.cmp_map_eq]

/-- A float that is a number is an infinity or finite. -/
theorem isExtended_of_not_isNaN {x : Float} (h : x.isNaN = false) :
    IsExtended x.toModel.unpack := by
  cases hfinite : x.isFinite with
  | true => exact Or.inr (Fixed.isFinite_iff.mp hfinite)
  | false =>
      left
      have h : x.toModel.unpack.isNaN = false := h
      have hfinite : x.toModel.unpack.isFinite = false := hfinite
      generalize x.toModel.unpack = u at *
      cases u with
      | infinity s => exact ⟨s, rfl⟩
      | notANumber => cases h
      | zero => cases hfinite
      | finite => cases hfinite

theorem StandsFor.not_isNaN {x : Float} {r : ℝ} (h : StandsFor x r) : x.isNaN = false := by
  have hnumber : ∀ u, Denotes u r → u.isNaN = false := by
    rintro _ (_ | _) <;> rfl
  exact hnumber _ h

/-- Floats, read as extended reals. -/
noncomputable def floatReading : LinearReading Float EReal where
  IsNumber x := x.isNaN = false
  value x := extended x.toModel.unpack
  lt_iff {x y} hx hy := by
    have h : Ordered.lt x y = true ↔
        UnpackedFloat.lt x.toModel.unpack y.toModel.unpack = true :=
      (@decide_eq_true_iff _ (Float.decLt x y)).trans decide_eq_true_iff
    rw [h, UnpackedFloat.lt, compare_extended (isExtended_of_not_isNaN hx)
      (isExtended_of_not_isNaN hy), beq_iff_eq, Option.some.injEq, compare_lt_iff_lt]
  le_iff {x y} hx hy := by
    have h : x ≤ y ↔ UnpackedFloat.le x.toModel.unpack y.toModel.unpack = true :=
      decide_eq_true_iff
    rw [h, UnpackedFloat.le, compare_extended (isExtended_of_not_isNaN hx)
      (isExtended_of_not_isNaN hy), Option.any_some, ← compare_le_iff_le, Ordering.isLE_iff_ne_gt]
  highest {h} hh := by
    cases hh
    decide +kernel
  lowest {l} hl := by
    cases hl
    decide +kernel

theorem StandsFor.value_eq {x : Float} {r : ℝ} (h : StandsFor x r) : floatReading.value x = r :=
  Denotes.extended_eq h

/-- The finite floats lie between the infinities. -/
theorem StandsFor.isFinite {x : Float} {r : ℝ} (h : StandsFor x r) : floatReading.IsFinite x where
  isNumber := h.not_isNaN
  lt_highest hh := by
    cases hh
    rw [h.value_eq]
    exact EReal.coe_lt_top r
  lowest_lt hl := by
    cases hl
    rw [h.value_eq]
    exact EReal.bot_lt_coe r

theorem isFinite_floatReading {x : Float} (h : x.isFinite = true) : floatReading.IsFinite x :=
  (Fixed.isFinite_iff.mp h).elim fun _ hr => hr.isFinite

end RadarChart.Binary64
