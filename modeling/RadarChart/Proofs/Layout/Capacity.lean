import RadarChart.Proofs.Layout.Placed
import RadarChart.Proofs.Layout.Shape

/-!
# Charts that floats can lay out

Where no number of a chart is enormous, every coordinate of its layout at full
size is finite. If neither side of the canvas dwarfs the other, the leftmost
and the topmost tips are off the middle as well and nothing fails; if one side
is far longer, the tips along it are lost in the middle and the layout divides
by zero. Documents can state any integer, so that both happen.
-/

namespace RadarChart

open Binary64

/-- No number of the chart is enormous. -/
structure Chart.Moderate (c : Chart) : Prop where
  width : c.width ≤ 2 ^ 1000
  height : c.height ≤ 2 ^ 1000
  margin : c.margin ≤ 2 ^ 1000
  textSize : c.textSize ≤ 2 ^ 1000
  labels : ∀ text ∈ c.radii, text.length * c.textSize ≤ 2 ^ 1000
  data : ∀ e ∈ c.entries, ∀ n ∈ e.data, n ≤ 2 ^ 1000 * c.scale
  radii : c.radii.length ≤ 2 ^ 50

/-- And neither side of the canvas dwarfs the other. -/
structure Chart.InRange (c : Chart) : Prop extends Chart.Moderate c where
  wide : c.width ≤ 2 ^ 50 * c.height
  tall : c.height ≤ 2 ^ 50 * c.width

/-- The layout over floats with the given sine and cosine, where widths are estimated. -/
def Chart.floatLayout (c : Chart) (sin cos : Float → Float) :
    Except Fault (Geometry (FloatWith sin cos)) :=
  c.layout (estimateWidth defaultCharWidth)

/-- With the sine and the cosine of the machine it is the layout over floats. -/
theorem Chart.floatLayout_machine (c : Chart) :
    (c.floatLayout Float.sin Float.cos : Except Fault (Geometry Float)) =
      c.layout (estimateWidth defaultCharWidth) :=
  rfl

variable {sin cos : Float → Float}

/-! ## Halves and quotients -/

/-- The middle of a side. -/
theorem exists_middle {n : ℤ} {j : ℕ} (hj : j ≤ 1023) (hpos : 1 ≤ n) (hn : n ≤ 2 ^ j) :
    ∃ (x : FloatWith sin cos) (r : ℝ), Scalar.quotient n 2 = .ok x ∧ Rounds (n / 2) r ∧
      StandsFor x r := by
  have hpos : (1 : ℝ) ≤ n := by exact_mod_cast hpos
  have hn : (n : ℝ) ≤ 2 ^ j := by exact_mod_cast hn
  have hhalf : |(n / (2 : ℤ) : ℝ)| ≤ 2 ^ j := by
    rw [Int.cast_ofNat, abs_of_pos (by linarith)]
    linarith
  have h := @exists_quotient sin cos n 2 (by decide) (le_limit hj hhalf)
  rwa [Int.cast_ofNat] at h

section
variable {n : ℤ} {r : ℝ} (h : Rounds (n / 2) r)

include h

theorem half_pos_of_rounds (hn : 1 ≤ n) : 0 < r := by
  have hn : (1 : ℝ) ≤ n := by exact_mod_cast hn
  have hlow := h.ge_of_ge (@representable_zpow (-1) (by decide)) (by
    rw [zpow_neg_one]
    linarith)
  exact lt_of_lt_of_le (zpow_pos two_pos _) hlow

theorem half_le_of_rounds {j : ℕ} (hn : n ≤ 2 ^ (j + 1)) : r ≤ 2 ^ j := by
  have hn : (n : ℝ) ≤ 2 ^ (j + 1) := by exact_mod_cast hn
  rw [pow_succ] at hn
  exact h.le_of_le (representable_pow j) (by linarith)

theorem le_half_of_rounds {j : ℕ} (hn : 2 ^ (j + 1) ≤ n) : 2 ^ j ≤ r := by
  have hn : (2 ^ (j + 1) : ℝ) ≤ n := by exact_mod_cast hn
  rw [pow_succ] at hn
  exact h.ge_of_ge (representable_pow j) (by linarith)

end

theorem Chart.fit_eq_fitExtrema {α : Type} [Scalar α] {c : Chart} {measure : TextMeasurer α}
    {center : Point α} {tips : List (Point α)} {points box : Extrema α}
    {labels : List (AxisLabel α)} (hcenter : c.center = .ok center) (htips : c.star 1.0 = .ok tips)
    (hpoints : Extrema.ofPoints (placeAll center tips) = .ok points)
    (hlabels : c.axisLabels measure center tips = .ok labels)
    (hbox : Extrema.ofPoints (labels.flatMap AxisLabel.corners) = .ok box) :
    c.fit measure = c.fitExtrema points box := by
  simp only [Chart.fit, hcenter, htips, bind, Except.bind, hpoints, hlabels, hbox]

/-! ## The factor along a side -/

/-- The difference of two floats is zero only where they are the same number. -/
theorem exists_shrinkFactor {half low : FloatWith sin cos} {r l : ℝ} {j : ℕ} (hj : j ≤ 1023)
    (hhalf : StandsFor half r) (hlow : StandsFor low l) (hlt : l < r) (hsmall : |r - l| ≤ 2 ^ j)
    (reach : FloatWith sin cos) : ∃ x, shrinkFactor half low reach = .ok x := by
  obtain ⟨v, hv, hfor⟩ := hhalf.sub hlow (le_limit hj hsmall)
  have hrep := @representable_zpow minExponent le_rfl
  have hleast := hv.ge_of_ge hrep (hlow.representable.le_sub_of_lt hhalf.representable hlt)
  exact ⟨_, divide_of_ne_zero hfor (lt_of_lt_of_le (zpow_pos two_pos _) hleast).ne'⟩

theorem shrinkFactor_eq_error {half low : FloatWith sin cos} {r : ℝ} (hhalf : StandsFor half r)
    (hlow : StandsFor low r) (reach : FloatWith sin cos) :
    shrinkFactor half low reach = .error .vanishingDivisor := by
  obtain ⟨v, hv, hfor⟩ := hhalf.sub hlow (by
    rw [sub_self, abs_zero]
    positivity)
  rw [sub_self] at hv
  have hzero : Scalar.isZero (half - low) = true := (hfor.beq_iff standsFor_zero).mpr
    (hv.eq representable_zero)
  rw [shrinkFactor, Scalar.divide, hzero]
  rfl

/-- Along a side of length `n` there is a factor where the spokes, about `2 ^ k` long, are
no small share of it. Where they are too small a share the factor divides by zero. -/
def Scales (k : ℕ) (n : ℤ) (factor : Except Fault (FloatWith sin cos)) : Prop :=
  (n ≤ 2 ^ (k + 51) → ∃ x, factor = .ok x) ∧
    (2 ^ (k + 58) ≤ n → factor = .error .vanishingDivisor)

theorem scales_shrinkFactor {n : ℤ} {k j : ℕ} {half low : FloatWith sin cos}
    {ds : List (FloatWith sin cos)} (hj : j + 2 ≤ 1023) (hk : k + 2 ≤ j) (hpos : 1 ≤ n)
    (hn : n ≤ 2 ^ j) (hhalf : Scalar.quotient n 2 = .ok half)
    (hds : ∀ d ∈ ds, IsWithin d (k + 2))
    (hd : ∃ d ∈ ds, ∃ v, StandsFor d v ∧ v ≤ -2 ^ ((k : ℤ) - 2))
    (hlow : leastFrom Ordered.highest? (ds.map fun d => half + d * 1.0) = some low)
    (reach : FloatWith sin cos) : Scales k n (shrinkFactor half low reach) := by
  obtain ⟨x, r, hx, hr, hfor⟩ := @exists_middle sin cos n j (by omega) hpos hn
  obtain rfl : half = x := Except.ok.inj (hhalf.symm.trans hx)
  have hrpos := half_pos_of_rounds hr hpos
  have hrj : |r| ≤ 2 ^ j := by
    rw [abs_of_pos hrpos]
    refine half_le_of_rounds hr (hn.trans ?_)
    exact pow_le_pow_right₀ (by norm_num) (Nat.le_succ j)
  constructor
  · intro hnear
    obtain ⟨l, t, hl, hlfor, hlt, hle⟩ := exists_least_placed_lt (by omega) hfor hrj hk hds hrpos
      (half_le_of_rounds hr hnear) hd
    obtain rfl : low = l := Option.some.inj (hlow.symm.trans hl)
    have hsmall : |r - t| ≤ 2 ^ (j + 2) := by
      refine (abs_sub r t).trans ?_
      rw [pow_succ] at hle
      rw [pow_add]
      linarith [pow_pos (two_pos : (0 : ℝ) < 2) j]
    exact exists_shrinkFactor hj hfor hlfor hlt hsmall reach
  · intro hfar
    obtain ⟨d, hd, _⟩ := hd
    obtain ⟨l, hl, hlfor⟩ := exists_least_placed_eq (by omega) hfor hrj hk hds
      (le_half_of_rounds hr hfar) (List.ne_nil_of_mem hd)
    obtain rfl : low = l := Option.some.inj (hlow.symm.trans hl)
    exact shrinkFactor_eq_error hfor hlfor reach

/-! ## Layouts -/

theorem Chart.WellFormed.mem_ringValues {c : Chart} (h : c.WellFormed) {values : List Int}
    (hvalues : c.ringValues = .ok values) {value : Int} (hvalue : value ∈ values) :
    0 ≤ value ∧ value ≤ c.scale := by
  have hscale := h.scale
  rw [Chart.ringValues] at hvalues
  split at hvalues
  · cases hvalues
    exact absurd hvalue List.not_mem_nil
  · rename_i step hintervals
    have hpos := (h.intervals step hintervals).1
    rw [if_neg (by omega)] at hvalues
    cases hvalues
    exact mem_ringSteps (by omega) (by omega) hvalue

/-- A share of the scale is a float. -/
theorem exists_share {value scale : ℤ} {j : ℕ} (hj : j ≤ 1023) (hscale : 1 ≤ scale)
    (hpos : 0 ≤ value) (hvalue : value ≤ 2 ^ j * scale) :
    ∃ x : FloatWith sin cos, Scalar.quotient value scale = .ok x := by
  have hscale' : (1 : ℝ) ≤ scale := by exact_mod_cast hscale
  have hpos' : (0 : ℝ) ≤ value := by exact_mod_cast hpos
  have hshare : |(value / scale : ℝ)| ≤ 2 ^ j := by
    rw [abs_of_nonneg (by positivity), div_le_iff₀ (by linarith)]
    exact_mod_cast hvalue
  obtain ⟨x, _, hx, _⟩ := @exists_quotient sin cos value scale (by omega) (le_limit hj hshare)
  exact ⟨x, hx⟩

section
variable {c : Chart} (h : c.WellFormed) (hm : c.Moderate)

include h

theorem Chart.WellFormed.exists_side :
    ∃ k : ℕ, 2 ^ k ≤ c.shorterSide ∧ c.shorterSide ≤ 2 ^ (k + 1) := by
  have hpos := h.shorterSide_pos
  obtain ⟨n, hn⟩ := Int.eq_ofNat_of_zero_le hpos.le
  obtain ⟨hlow, hhigh⟩ := (Nat.log2_eq_iff (n := n) (by omega)).mp rfl
  refine ⟨n.log2, ?_, ?_⟩
  · rw [hn]
    exact_mod_cast hlow
  · rw [hn]
    exact_mod_cast hhigh.le

include hm

theorem Chart.Moderate.partsFail :
    c.PartsFail (fun _ => False) (estimateWidth (defaultCharWidth : FloatWith sin cos)) where
  center := by
    obtain ⟨x, _, hx, _⟩ := @exists_middle sin cos _ 1000 (by norm_num) h.width hm.width
    obtain ⟨y, _, hy, _⟩ := @exists_middle sin cos _ 1000 (by norm_num) h.height hm.height
    exact onlyFaults_of_eq_ok (by rw [Chart.center, hx, hy]; rfl)
  sector := onlyFaults_share _ h.nonzeroDivisors.count
  side := by
    obtain ⟨_, hx, _⟩ := @exists_ofInt_within sin cos c.shorterSide 1000 (by norm_num)
      h.shorterSide_pos.le ((min_le_left _ _).trans hm.width)
    exact onlyFaults_of_eq_ok hx
  textSize := by
    have hsize := h.textSize
    obtain ⟨_, hx, _⟩ := @exists_ofInt_within sin cos c.textSize 1000 (by norm_num) (by omega)
      hm.textSize
    exact onlyFaults_of_eq_ok hx
  label text htext := by
    have hsize := h.textSize
    obtain ⟨_, hx, _⟩ := @exists_estimateWidth sin cos text c.textSize 1000 (by norm_num) (by omega)
      (hm.labels text htext)
    exact onlyFaults_of_eq_ok hx
  ringLabel _ _ := onlyFaults_ok _
  ring values hvalues value hvalue := by
    obtain ⟨hpos, hle⟩ := h.mem_ringValues hvalues hvalue
    obtain ⟨_, hx⟩ := @exists_share sin cos value c.scale 0 (by norm_num) h.scale hpos (by simpa)
    exact onlyFaults_of_eq_ok hx
  entry e he value hvalue := by
    obtain ⟨_, hx⟩ := @exists_share sin cos value c.scale 1000 (by norm_num) h.scale
      ((h.data e he).2 value hvalue) (hm.data e he value hvalue)
    exact onlyFaults_of_eq_ok hx

/-- What is left of the shorter side without its margin, as a share. -/
theorem Chart.Moderate.exists_marginFraction :
    ∃ x : FloatWith sin cos, c.marginFraction = .ok x := by
  have hside := h.shorterSide_pos
  have hone : (1 : ℝ) ≤ c.shorterSide := by exact_mod_cast hside
  have hmargin : (0 : ℝ) ≤ c.margin := by exact_mod_cast h.margin
  have hlarge : ∀ {n : ℤ} {j : ℕ}, n ≤ 2 ^ j → (n : ℝ) ≤ 2 ^ j := fun hn => by exact_mod_cast hn
  have hshorter : c.shorterSide ≤ 2 ^ 1000 := (min_le_left _ _).trans hm.width
  have hshare : |((c.shorterSide - c.margin : ℤ) / c.shorterSide : ℝ)| ≤ 2 ^ 1000 := by
    rw [abs_div, abs_of_pos (by linarith : (0 : ℝ) < c.shorterSide)]
    refine (div_le_self (abs_nonneg _) hone).trans ?_
    rw [Int.cast_sub]
    exact abs_sub_le_of_nonneg_of_le (by linarith) (hlarge hshorter) hmargin (hlarge hm.margin)
  obtain ⟨x, _, hx, _⟩ := @exists_quotient sin cos _ _ hside.ne' (le_limit (by norm_num) hshare)
  exact ⟨1.0 - x, by rw [Chart.marginFraction, hx]; rfl⟩

/-- Where no conversion fails, a fit is two factors. -/
theorem Chart.Moderate.exists_fitExtrema_eq {center : Point (FloatWith sin cos)}
    (hcenter : c.center = .ok center) (points labels : Extrema (FloatWith sin cos)) :
    ∃ xOverflow yOverflow, c.fitExtrema points labels = do
      let xFactor ← shrinkFactor center.x points.left xOverflow
      let yFactor ← shrinkFactor center.y points.top yOverflow
      return ⟨xOverflow, yOverflow, xFactor, yFactor⟩ := by
  simp only [Chart.center, bind_eq_ok_iff, pure_eq_ok_iff] at hcenter
  obtain ⟨x, hhalfWidth, y, hhalfHeight, rfl⟩ := hcenter
  have hwidth := h.width
  have hheight := h.height
  obtain ⟨fraction, hfraction⟩ := @Chart.Moderate.exists_marginFraction sin cos c h hm
  obtain ⟨width, hwidth, _⟩ := @exists_ofInt_within sin cos c.width 1000 (by norm_num) (by omega)
    hm.width
  obtain ⟨height, hheight, _⟩ := @exists_ofInt_within sin cos c.height 1000 (by norm_num) (by omega)
    hm.height
  refine ⟨overflow width fraction labels.left labels.right,
    overflow height fraction labels.top labels.bottom, ?_⟩
  rw [Chart.fitExtrema, hfraction, hwidth, hheight, hhalfWidth, hhalfHeight]
  rfl

variable (hsin : Computes sin Real.sin) (hcos : Computes cos Real.cos)

include hsin

/-- Labels hang near the tips, so there is a box around them. -/
theorem Chart.Moderate.exists_labelBox {center : Point (FloatWith sin cos)}
    {tips : List (Point (FloatWith sin cos))} (htips : c.star 1.0 = .ok tips)
    (hplaced : ∀ tip ∈ placeAll center tips, IsWithin tip.x 1003) :
    ∃ labels box, c.axisLabels (estimateWidth defaultCharWidth) center tips = .ok labels ∧
      Extrema.ofPoints (labels.flatMap AxisLabel.corners) = .ok box := by
  have hthree := h.radii
  have hsize := h.textSize
  obtain ⟨labels, hlabels⟩ := ((hm.partsFail h).onlyFaults_axisLabels center tips).exists_ok
  have hmade := hlabels
  simp only [Chart.axisLabels, bind_eq_ok_iff] at hmade
  obtain ⟨height, _, hmade⟩ := hmade
  have hcorners := isWithin_axisLabelsFrom (j := 1002) hsin (by norm_num) (by omega) hm.radii
    (by omega) (by omega) (fun text htext => (hm.labels text htext).trans
      (pow_le_pow_right₀ (by norm_num) (by norm_num))) hplaced hmade
  have hsome : labels.flatMap AxisLabel.corners ≠ [] := by
    obtain ⟨htexts, _⟩ := Chart.axisLabels_cases (Chart.length_of_star htips) hlabels
    cases labels with
    | nil =>
        rw [← htexts] at hthree
        cases hthree
    | cons label labels => exact List.cons_ne_nil _ _
  obtain ⟨box, hbox, _⟩ := exists_ofPoints hsome fun p hp => (hcorners p hp).exists_standsFor
  exact ⟨labels, box, hlabels, hbox⟩

include hcos

/-- The fit comes down to one factor along each side. -/
theorem Chart.Moderate.exists_factors :
    ∃ (k : ℕ) (xFactor yFactor : Except Fault (FloatWith sin cos)),
      (2 ^ k ≤ c.shorterSide ∧ c.shorterSide ≤ 2 ^ (k + 1)) ∧ Scales k c.width xFactor ∧
      Scales k c.height yFactor ∧ ∃ xOverflow yOverflow,
        c.fit (estimateWidth defaultCharWidth) = do
          let x ← xFactor
          let y ← yFactor
          return ⟨xOverflow, yOverflow, x, y⟩ := by
  obtain ⟨k, hlow, hhigh⟩ := h.exists_side
  have hk : k ≤ 1000 := by
    have hside : c.shorterSide ≤ 2 ^ 1000 := (min_le_left _ _).trans hm.width
    exact (pow_le_pow_iff_right₀ (by norm_num : (1 : ℤ) < 2)).mp (hlow.trans hside)
  have hmore : (2 : ℤ) ^ 1000 ≤ 2 ^ 1002 := pow_le_pow_right₀ (by norm_num) (by norm_num)
  obtain ⟨x, r, hx, hr, hfor⟩ := @exists_middle sin cos _ 1000 (by norm_num) h.width hm.width
  obtain ⟨y, _, hy, _⟩ := @exists_middle sin cos _ 1000 (by norm_num) h.height hm.height
  have hcenter : c.center = .ok (⟨x, y⟩ : Point (FloatWith sin cos)) := by
    rw [Chart.center, hx, hy]
    rfl
  obtain ⟨tips, htips, hwithin, ⟨p, hp, hleft⟩, ⟨q, hq, hup⟩⟩ :=
    exists_star h hm.radii hsin hcos hk (by exact_mod_cast hlow) (by exact_mod_cast hhigh)
  have hplaced : ∀ tip ∈ placeAll ⟨x, y⟩ tips, IsWithin tip.x 1003 := by
    have hmiddle : IsWithin x 1002 := by
      refine ⟨r, hfor, ?_⟩
      rw [abs_of_pos (half_pos_of_rounds hr h.width)]
      exact half_le_of_rounds hr (hm.width.trans (pow_le_pow_right₀ (by norm_num) (by norm_num)))
    rw [placeAll_eq_map, List.forall_mem_map]
    exact fun d hd => isWithin_placed (by norm_num) hmiddle ((hwithin d hd).1.mono (by omega))
  have hsome : placeAll ⟨x, y⟩ tips ≠ [] := by
    rw [placeAll_eq_map]
    exact List.ne_nil_of_mem (List.mem_map_of_mem hp)
  obtain ⟨points, hpoints, hpointsLeft, hpointsTop⟩ := exists_ofPoints hsome fun p hp =>
    (hplaced p hp).exists_standsFor
  obtain ⟨labels, box, hlabels, hbox⟩ := hm.exists_labelBox h hsin htips hplaced
  obtain ⟨xOverflow, yOverflow, hfit⟩ := hm.exists_fitExtrema_eq h hcenter points box
  rw [map_x_placeAll] at hpointsLeft
  rw [map_y_placeAll] at hpointsTop
  refine ⟨k, shrinkFactor x points.left xOverflow, shrinkFactor y points.top yOverflow,
    ⟨hlow, hhigh⟩, ?_, ?_, xOverflow, yOverflow, ?_⟩
  · have hds : ∀ d ∈ tips.map Point.x, IsWithin d (k + 2) :=
      List.forall_mem_map.mpr fun d hd => (hwithin d hd).1
    exact scales_shrinkFactor (by norm_num) (by omega) h.width (hm.width.trans hmore) hx hds
      ⟨p.x, List.mem_map_of_mem hp, hleft⟩ hpointsLeft xOverflow
  · have hds : ∀ d ∈ tips.map Point.y, IsWithin d (k + 2) :=
      List.forall_mem_map.mpr fun d hd => (hwithin d hd).2
    exact scales_shrinkFactor (by norm_num) (by omega) h.height (hm.height.trans hmore) hy hds
      ⟨q.y, List.mem_map_of_mem hq, hup⟩ hpointsTop yOverflow
  · rw [Chart.fit_eq_fitExtrema hcenter htips hpoints hlabels hbox, hfit]

omit hm in
/-- Where neither side dwarfs the other, nothing fails. -/
theorem Chart.InRange.exists_floatLayout (hr : c.InRange) :
    ∃ g, c.floatLayout sin cos = .ok g := by
  obtain ⟨k, xFactor, yFactor, ⟨hlow, hhigh⟩, hx, hy, xOverflow, yOverflow, hfit⟩ :=
    hr.exists_factors h hsin hcos
  have hnear : c.width ≤ 2 ^ (k + 51) ∧ c.height ≤ 2 ^ (k + 51) := by
    have hwide := hr.wide
    have htall := hr.tall
    have hwidth := h.width
    have hheight := h.height
    rw [pow_succ] at hhigh
    rw [pow_add]
    unfold Chart.shorterSide at hhigh
    omega
  obtain ⟨x, rfl⟩ := hx.1 hnear.1
  obtain ⟨y, rfl⟩ := hy.1 hnear.2
  obtain ⟨g, hg⟩ := (h.onlyFaults_geometryAt (hr.partsFail h)
    (Fit.factor ⟨xOverflow, yOverflow, x, y⟩)).exists_ok
  exact ⟨g, bind_eq_ok_iff.mpr ⟨_, hfit, hg⟩⟩

/-- Where one side is far longer than the other, the layout divides by zero. -/
theorem Chart.Moderate.floatLayout_eq_error
    (hfar : 2 ^ 58 * c.height ≤ c.width ∨ 2 ^ 58 * c.width ≤ c.height) :
    c.floatLayout sin cos = .error .vanishingDivisor := by
  obtain ⟨k, xFactor, yFactor, ⟨hlow, hhigh⟩, hx, hy, xOverflow, yOverflow, hfit⟩ :=
    hm.exists_factors h hsin hcos
  have hwidth := h.width
  have hheight := h.height
  have hcases : 2 ^ (k + 58) ≤ c.width ∨ c.width ≤ 2 ^ (k + 51) ∧ 2 ^ (k + 58) ≤ c.height := by
    rw [pow_succ] at hhigh
    rw [pow_add, pow_add]
    unfold Chart.shorterSide at hlow hhigh
    omega
  rw [Chart.floatLayout, Chart.layout, hfit]
  rcases hcases with hwide | ⟨hnear, htall⟩
  · rw [hx.2 hwide]
    rfl
  · obtain ⟨x, rfl⟩ := hx.1 hnear
    rw [hy.2 htall]
    rfl

end

end RadarChart
