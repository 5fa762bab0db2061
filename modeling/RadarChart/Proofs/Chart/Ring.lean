import RadarChart.Chart.Basic

/-!
# The values of the rings

With a positive distance the rings start at 0 and go up. Where the distance
divides the scale, the last ring is the scale itself.
-/

namespace RadarChart

variable {scale step : Int}

theorem ringSteps_of_pos (h : 0 < step) :
    ringSteps scale step =
      (List.range (scale / step + 1).toNat).map fun (i : Nat) => i * step := by
  rw [ringSteps, if_pos h, stepCount]

theorem length_ringSteps (h : 0 < step) :
    (ringSteps scale step).length = (scale / step + 1).toNat := by
  rw [ringSteps_of_pos h, List.length_map, List.length_range]

theorem length_ringSteps_natCast {scale step : Nat} (h : 0 < step) :
    (ringSteps scale step).length = scale / step + 1 := by
  rw [length_ringSteps (Int.natCast_pos.mpr h), ← Int.natCast_ediv]
  rfl

theorem pairwise_ringSteps (h : 0 < step) : (ringSteps scale step).Pairwise (· < ·) := by
  rw [ringSteps_of_pos h, List.pairwise_map]
  refine List.pairwise_lt_range.imp ?_
  intro i j hij
  exact Int.mul_lt_mul_of_pos_right (Int.ofNat_lt.mpr hij) h

theorem head?_ringSteps (h : 0 < step) (hscale : 0 ≤ scale) :
    (ringSteps scale step).head? = some 0 := by
  have hquot : 0 ≤ scale / step := Int.ediv_nonneg hscale (by omega)
  obtain ⟨count, hcount⟩ : ∃ count : Nat, (scale / step + 1).toNat = count + 1 :=
    ⟨(scale / step).toNat, by omega⟩
  rw [ringSteps_of_pos h, hcount, List.range_succ_eq_map]
  simp

theorem getLast?_ringSteps (h : 0 < step) (hscale : 0 ≤ scale) (hdvd : step ∣ scale) :
    (ringSteps scale step).getLast? = some scale := by
  have hquot : 0 ≤ scale / step := Int.ediv_nonneg hscale (by omega)
  have hcount : (scale / step + 1).toNat = (scale / step).toNat + 1 := by omega
  rw [ringSteps_of_pos h, hcount, List.range_succ, List.map_append, List.map_singleton,
    List.getLast?_concat, Int.toNat_of_nonneg hquot, Int.ediv_mul_cancel hdvd]

theorem mem_ringSteps (h : 0 < step) (hscale : 0 ≤ scale) {value : Int}
    (hvalue : value ∈ ringSteps scale step) : 0 ≤ value ∧ value ≤ scale := by
  rw [ringSteps_of_pos h, List.mem_map] at hvalue
  obtain ⟨i, hi, rfl⟩ := hvalue
  have hquot : 0 ≤ scale / step := Int.ediv_nonneg hscale (by omega)
  have hlast : (i : Int) ≤ scale / step := by
    have := List.mem_range.mp hi
    omega
  refine ⟨Int.mul_nonneg (by omega) (by omega), ?_⟩
  exact Int.le_trans (Int.mul_le_mul_of_nonneg_right hlast (by omega))
    (Int.ediv_mul_le scale (by omega))

end RadarChart
