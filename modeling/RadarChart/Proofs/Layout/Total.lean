import RadarChart.Proofs.Layout.Faults
import RadarChart.Proofs.Layout.Fit

/-!
# Every chart has a layout

In exact coordinates a chart that satisfies its invariants is laid out, and no
division by zero or missing label can stop it: some spoke points to the left
and some spoke points up, the scale is positive, and every ring has a label.
-/

namespace RadarChart

/-! ## Spokes to the left and to the top -/

theorem half_le_cos {x : ℝ} (h : |x| ≤ Real.pi / 3) : 1 / 2 ≤ Real.cos x := by
  rw [← Real.cos_abs, ← Real.cos_pi_div_three]
  exact Real.cos_le_cos_of_nonneg_of_le_pi (abs_nonneg x) (by linarith [Real.pi_pos]) h

/-- At a third of a half turn at most from straight left. -/
theorem sin_le_neg_half {x : ℝ} (h : |x - 3 * (Real.pi / 2)| ≤ Real.pi / 3) :
    Real.sin x ≤ -(1 / 2) := by
  have hcos := half_le_cos h
  have hturn : x - 3 * (Real.pi / 2) = x + Real.pi / 2 - 2 * Real.pi := by ring
  rw [hturn, Real.cos_sub_two_pi, Real.cos_add_pi_div_two] at hcos
  linarith

section
variable {c : Chart}

theorem Chart.WellFormed.sector_le (h : c.WellFormed) :
    0 < Real.pi / c.radii.length ∧ Real.pi / c.radii.length ≤ Real.pi / 3 := by
  have hthree : (3 : ℝ) ≤ c.radii.length := by exact_mod_cast h.radii
  have hpi := Real.pi_pos
  exact ⟨div_pos hpi (by linarith), div_le_div_of_nonneg_left hpi.le (by norm_num) hthree⟩

/-- A spoke that is so many half sectors away, counted clockwise from the top. -/
theorem Chart.WellFormed.sin_le_of_halfSectors (h : c.WellFormed) {k : ℕ}
    (hlow : 7 * c.radii.length ≤ 6 * k) (hhigh : 6 * k ≤ 11 * c.radii.length) :
    Real.sin (k * (Real.pi / c.radii.length)) ≤ -(1 / 2) := by
  have hthree : (3 : ℝ) ≤ c.radii.length := by exact_mod_cast h.radii
  have hlow : (7 * c.radii.length : ℝ) ≤ 6 * k := by exact_mod_cast hlow
  have hhigh : (6 * k : ℝ) ≤ 11 * c.radii.length := by exact_mod_cast hhigh
  have hcount : (0 : ℝ) < c.radii.length := by linarith
  have hpi := Real.pi_pos
  have hlow : 7 * Real.pi / 6 ≤ k * (Real.pi / c.radii.length) := by
    rw [mul_div_assoc', le_div_iff₀ hcount]
    nlinarith
  have hhigh : k * (Real.pi / c.radii.length) ≤ 11 * Real.pi / 6 := by
    rw [mul_div_assoc', div_le_iff₀ hcount]
    nlinarith
  exact sin_le_neg_half (abs_le.mpr ⟨by linarith, by linarith⟩)

/-- Some spoke points to the left, at a third of a half turn at most from straight left. -/
theorem Chart.WellFormed.exists_sin_direction (h : c.WellFormed) :
    ∃ i < c.radii.length, Real.sin (c.direction i) ≤ -(1 / 2) := by
  have hthree := h.radii
  have hcount : (c.radii.length : ℝ) ≠ 0 := by exact_mod_cast (by omega : c.radii.length ≠ 0)
  have hsin : ∀ {i k : ℕ}, c.direction i = Real.pi - k * (Real.pi / c.radii.length) →
      Real.sin (c.direction i) = Real.sin (k * (Real.pi / c.radii.length)) := by
    intro i k heq
    rw [heq, Real.sin_pi_sub]
  -- for the side after the first spoke, the best spoke of three is the first one again
  have hfirst : c.top.angle c.radii.length = Real.pi / c.radii.length →
      ∃ i < c.radii.length, Real.sin (c.direction i) ≤ -(1 / 2) := by
    intro hangle
    rcases (by omega : c.radii.length = 3 ∨ (3 * c.radii.length + 3) / 4 < c.radii.length)
      with hlen | hlt
    · refine ⟨0, by omega, ?_⟩
      have heq : c.direction 0 = Real.pi - (5 : ℕ) * (Real.pi / c.radii.length) + 2 * Real.pi := by
        rw [Chart.direction, hangle, hlen]
        push_cast
        ring
      rw [heq, Real.sin_add_two_pi, Real.sin_pi_sub]
      exact h.sin_le_of_halfSectors (by omega) (by omega)
    · obtain ⟨i, hi⟩ : ∃ i, (3 * c.radii.length + 3) / 4 = i + 1 :=
        ⟨(3 * c.radii.length + 3) / 4 - 1, by omega⟩
      refine ⟨i + 1, by omega, ?_⟩
      rw [@hsin (i + 1) (2 * i + 1)]
      · exact h.sin_le_of_halfSectors (by omega) (by omega)
      · rw [Chart.direction, hangle]
        push_cast
        field_simp
        ring
  cases htop : c.top with
  | firstRadius =>
      refine ⟨3 * c.radii.length / 4, by omega, ?_⟩
      rw [@hsin _ (2 * (3 * c.radii.length / 4))]
      · have hfew : c.radii.length = 3 ∨ c.radii.length = 4 ∨ 5 ≤ c.radii.length := by omega
        exact h.sin_le_of_halfSectors (by rcases hfew with hlen | hlen | hlen <;> omega) (by omega)
      · rw [Chart.direction, htop, Orientation.angle, Nat.cast_mul]
        push_cast
        ring
  | lastSide =>
      refine ⟨3 * c.radii.length / 4, by omega, ?_⟩
      rw [@hsin _ (2 * (3 * c.radii.length / 4) + 1)]
      · exact h.sin_le_of_halfSectors (by omega) (by omega)
      · rw [Chart.direction, htop, Orientation.angle, Nat.cast_add, Nat.cast_mul]
        push_cast
        ring
  | firstSide => exact hfirst (by rw [htop]; rfl)
  | named name => exact hfirst (by rw [htop]; rfl)

/-- The first spoke points up, turned by half a sector at most. -/
theorem Chart.WellFormed.cos_direction_zero (h : c.WellFormed) :
    Real.cos (c.direction 0) ≤ -(1 / 2) := by
  obtain ⟨hpos, hle⟩ := h.sector_le
  have hpi := Real.pi_pos
  have hangle : |c.top.angle c.radii.length| ≤ Real.pi / 3 := by
    rw [abs_le]
    cases c.top <;> simp only [Orientation.angle] <;> constructor <;> linarith
  have hstart : c.direction 0 = c.top.angle c.radii.length + Real.pi := by
    rw [Chart.direction]
    simp [add_comm]
  rw [hstart, Real.cos_add_pi]
  exact neg_le_neg (half_le_cos hangle)

/-- The farthest spoke to the left and that to the top reach some way. -/
theorem Chart.WellFormed.reach_pos (h : c.WellFormed) (side : Side) {i : Nat}
    (hi : c.IsFarthest side.near i) : 0 < side.near.reach (c.spoke i) := by
  have hside : (0 : ℝ) < c.shorterSide := by exact_mod_cast h.shorterSide_pos
  have hleft : ∀ i, c.IsFarthest .left i → 0 < Side.left.reach (c.spoke i) := by
    intro i hi
    obtain ⟨k, hk, hsin⟩ := h.exists_sin_direction
    refine lt_of_lt_of_le ?_ (hi.2 k hk)
    exact neg_pos.mpr (mul_neg_of_neg_of_pos (by linarith) hside)
  have htop : ∀ i, c.IsFarthest .top i → 0 < Side.top.reach (c.spoke i) := by
    intro i hi
    refine lt_of_lt_of_le ?_ (hi.2 0 (Nat.pos_of_ne_zero h.nonzeroDivisors.count))
    have hcos := h.cos_direction_zero
    exact neg_pos.mpr (mul_neg_of_neg_of_pos (by linarith) hside)
  cases side with
  | left => exact hleft i hi
  | right => exact hleft i hi
  | top => exact htop i hi
  | bottom => exact htop i hi

/-- The box around the tips reaches left and above the middle of the canvas. -/
theorem Chart.WellFormed.off_middle (h : c.WellFormed) {center : Point Exact}
    {tips : List (Point Exact)} {points : Extrema Exact} (hcenter : c.center = .ok center)
    (htips : c.star 1.0 = .ok tips)
    (hpoints : Extrema.ofPoints (placeAll center tips) = .ok points) :
    points.left.toReal < c.width / 2 ∧ points.top.toReal < c.height / 2 := by
  have hbox := Extrema.isBoxOf_exact hpoints
  rw [Chart.placeAll_star hcenter htips, Exact.toReal_one] at hbox
  obtain ⟨⟨i, hi, hreachi⟩, ⟨j, hj, hreachj⟩⟩ := Chart.exists_isFarthest hbox
  have hleft := h.reach_pos .left hi
  have htop := h.reach_pos .top hj
  simp only [Side.near] at hleft htop
  exact ⟨sub_pos.mp (hreachi ▸ hleft), sub_pos.mp (hreachj ▸ htop)⟩

theorem Chart.WellFormed.not_isFlat (h : c.WellFormed) : ¬ c.IsFlat Exact := by
  rintro ⟨center, tips, box, hcenter, htips, hbox, hzero⟩
  obtain ⟨hleft, htop⟩ := h.off_middle hcenter htips hbox
  obtain rfl := Except.ok.inj (c.center_exact.symm.trans hcenter)
  rcases hzero with hzero | hzero
  · exact (sub_pos.mpr hleft).ne' (of_decide_eq_true hzero)
  · exact (sub_pos.mpr htop).ne' (of_decide_eq_true hzero)

end

/-! ## Nothing fails -/

theorem onlyFaults_quotient_exact {P : Fault → Prop} (a : Int) {b : Int} (hb : b ≠ 0) :
    OnlyFaults P (Scalar.quotient a b : Except Fault Exact) :=
  onlyFaults_of_eq_ok (Scalar.quotient_eq_ok_iff.mpr ⟨hb, rfl⟩)

section
variable {c : Chart} {measure : TextMeasurer Exact}
  (hmeasure : ∀ text size, ∃ width, measure text size = .ok width)

include hmeasure

theorem Chart.WellFormed.partsFail_exact (h : c.WellFormed) :
    c.PartsFail (fun _ => False) measure := by
  have hlabel : ∀ text size, OnlyFaults (fun _ => False) (measure text size) := by
    intro text size
    obtain ⟨width, hwidth⟩ := hmeasure text size
    exact onlyFaults_of_eq_ok hwidth
  have hint : ∀ n : Int, OnlyFaults (fun _ => False) (Scalar.ofInt n : Except Fault Exact) :=
    fun n => onlyFaults_of_eq_ok (Scalar.ofInt_exact n)
  exact {
    center := onlyFaults_of_eq_ok c.center_exact
    sector := onlyFaults_share _ h.nonzeroDivisors.count
    side := hint _
    textSize := hint _
    label := fun text _ => hlabel text _
    ringLabel := fun text size => hlabel text _
    ring := fun _ _ value _ => onlyFaults_quotient_exact value h.nonzeroDivisors.scale
    entry := fun _ _ value _ => onlyFaults_quotient_exact value h.nonzeroDivisors.scale }

theorem Chart.WellFormed.exists_fit (h : c.WellFormed) : ∃ f, c.fit measure = .ok f := by
  have hcount := h.nonzeroDivisors.count
  obtain ⟨tips, htips⟩ : ∃ tips, c.star (1.0 : Exact) = .ok tips :=
    ⟨_, Chart.star_eq_ok_iff.mpr ⟨hcount, rfl⟩⟩
  have hcenter := c.center_exact
  have hplaced : placeAll ⟨⟨c.width / 2⟩, ⟨c.height / 2⟩⟩ tips ≠ [] := by
    rw [Chart.placeAll_star hcenter htips]
    simpa using hcount
  obtain ⟨points, hpoints⟩ := Extrema.exists_ofPoints Exact.lt_spec rfl rfl hplaced
  obtain ⟨hleft, htop⟩ := h.off_middle hcenter htips hpoints
  obtain ⟨labels, hlabels⟩ := ((h.partsFail_exact hmeasure).onlyFaults_axisLabels
    ⟨⟨c.width / 2⟩, ⟨c.height / 2⟩⟩ tips).exists_ok
  have hcorners : labels.flatMap AxisLabel.corners ≠ [] := by
    have hlength := Chart.length_axisLabels hcenter htips hlabels
    cases labels with
    | nil => exact absurd hlength.symm hcount
    | cons l labels => exact List.cons_ne_nil _ _
  obtain ⟨box, hlabelsBox⟩ := Extrema.exists_ofPoints Exact.lt_spec rfl rfl hcorners
  obtain ⟨f, hf⟩ := Chart.exists_fitExtrema h.shorterSide_pos.ne' (sub_pos.mpr hleft).ne'
    (sub_pos.mpr htop).ne' box
  exact ⟨f, Chart.fit_eq_ok_iff.mpr
    ⟨_, tips, points, labels, box, hcenter, htips, hpoints, hlabels, hlabelsBox, hf⟩⟩

/-- A chart that satisfies its invariants has a layout. -/
theorem Chart.WellFormed.exists_layout (h : c.WellFormed) :
    ∃ g, c.layout measure = .ok g := by
  obtain ⟨fit, hfit⟩ := h.exists_fit hmeasure
  obtain ⟨g, hg⟩ := (h.onlyFaults_geometryAt (h.partsFail_exact hmeasure) fit.factor).exists_ok
  exact ⟨g, bind_eq_ok_iff.mpr ⟨fit, hfit, hg⟩⟩

end

end RadarChart
