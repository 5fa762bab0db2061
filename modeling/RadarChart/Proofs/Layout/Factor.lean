import RadarChart.Proofs.Chart.Soundness
import RadarChart.Proofs.Layout.Fit

/-!
# The factor of a fit

Read over the real numbers, for any boxes around the tips and the labels such
that the first one reaches left and above the middle of the canvas. On each
axis the factor falls short of one by the overflow, as a share of what there is
between the middle and the tips. So a fit only shrinks, shrinks nothing that
lies within the margins, and shrinks the more the farther the labels reach.
-/

namespace RadarChart

/-- The box lies within the other one. -/
structure Extrema.Inside {α : Type} [LE α] (e e' : Extrema α) : Prop where
  left : e'.left ≤ e.left
  right : e.right ≤ e'.right
  top : e'.top ≤ e.top
  bottom : e.bottom ≤ e'.bottom

/-- The box lies within the margins of the canvas. -/
structure Chart.WithinMargins (c : Chart) (box : Extrema Exact) : Prop where
  left : c.width * c.marginShare ≤ box.left.toReal
  right : box.right.toReal ≤ c.width * (1 - c.marginShare)
  top : c.height * c.marginShare ≤ box.top.toReal
  bottom : box.bottom.toReal ≤ c.height * (1 - c.marginShare)

/-! ## The overflow of an axis -/

section
variable {length fraction low high : Exact}

theorem overflow_nonneg : 0 ≤ (overflow length fraction low high).toReal := by
  rw [toReal_overflow]
  exact (le_max_left _ _).trans (le_max_left _ _)

theorem overflow_eq_zero_iff : (overflow length fraction low high).toReal = 0 ↔
    length.toReal * fraction.toReal ≤ low.toReal ∧
      high.toReal ≤ length.toReal * (1 - fraction.toReal) := by
  rw [← overflow_nonneg.ge_iff_eq', toReal_overflow, max_le_iff, max_le_iff, sub_nonpos, sub_nonpos]
  tauto

/-- A box that reaches farther, or wider margins, have no less of an overflow. -/
theorem overflow_mono {fraction' low' high' : Exact} (hlength : 0 ≤ length.toReal)
    (hfraction : fraction ≤ fraction') (hlow : low' ≤ low) (hhigh : high ≤ high') :
    (overflow length fraction low high).toReal ≤
      (overflow length fraction' low' high').toReal := by
  have hmargin := mul_le_mul_of_nonneg_left (Exact.le_iff.mp hfraction) hlength
  rw [Exact.le_iff] at hlow hhigh
  rw [toReal_overflow, toReal_overflow]
  refine max_le_max (max_le_max le_rfl ?_) ?_ <;> linarith

end

/-! ## The share that is left -/

section
variable {lost lost' reach : ℝ} (hreach : 0 < reach)

include hreach

theorem one_sub_div_le_one (hover : 0 ≤ lost) : 1 - lost / reach ≤ 1 :=
  sub_le_self 1 (div_nonneg hover hreach.le)

theorem one_sub_div_eq_one_iff : 1 - lost / reach = 1 ↔ lost = 0 := by
  rw [sub_eq_self, div_eq_zero_iff, or_iff_left hreach.ne']

theorem one_sub_div_nonpos_iff : 1 - lost / reach ≤ 0 ↔ reach ≤ lost := by
  rw [sub_nonpos, one_le_div hreach]

theorem one_sub_div_le (h : lost ≤ lost') : 1 - lost' / reach ≤ 1 - lost / reach :=
  sub_le_sub_left (div_le_div_of_nonneg_right h hreach.le) 1

end

/-! ## Fits -/

section
variable {c : Chart} {points labels : Extrema Exact} {f : Fit Exact}

theorem Chart.factor_of_fitExtrema (h : c.fitExtrema points labels = .ok f) :
    f.factor.toReal = min (1 - f.xOverflow.toReal / (c.width / 2 - points.left.toReal))
      (1 - f.yOverflow.toReal / (c.height / 2 - points.top.toReal)) := by
  obtain ⟨_, _, _, _, _, hx, hy⟩ := Chart.fitExtrema_eq_ok_iff.mp h
  rw [f.toReal_factor, Fit.factorAt, Fit.factorAt, hx, hy]

theorem Chart.withinMargins_iff (h : c.fitExtrema points labels = .ok f) :
    c.WithinMargins labels ↔ f.xOverflow.toReal = 0 ∧ f.yOverflow.toReal = 0 := by
  obtain ⟨_, _, _, hx, hy, _, _⟩ := Chart.fitExtrema_eq_ok_iff.mp h
  rw [hx, hy, overflow_eq_zero_iff, overflow_eq_zero_iff]
  constructor
  · rintro ⟨hleft, hright, htop, hbottom⟩
    exact ⟨⟨hleft, hright⟩, htop, hbottom⟩
  · rintro ⟨⟨hleft, hright⟩, htop, hbottom⟩
    exact ⟨hleft, hright, htop, hbottom⟩

theorem Chart.marginShare_mono (hside : 0 < c.shorterSide) {margin : Int} (h : c.margin ≤ margin) :
    c.marginShare ≤ { c with margin := margin }.marginShare := by
  have hside' : (0 : ℝ) ≤ c.shorterSide := by exact_mod_cast hside.le
  exact div_le_div_of_nonneg_right (by exact_mod_cast h) hside'

variable (hwidth : 1 ≤ c.width) (hheight : 1 ≤ c.height)
  (hleft : points.left.toReal < c.width / 2) (htop : points.top.toReal < c.height / 2)

include hwidth hheight hleft htop

/-- Labels that reach no less far, and margins that are no less wide, have no larger factor. -/
theorem Chart.factor_le_of_inside {margin : Int} {labels' : Extrema Exact} {f' : Fit Exact}
    (hmargin : c.margin ≤ margin) (hinside : labels.Inside labels')
    (h : c.fitExtrema points labels = .ok f)
    (h' : { c with margin := margin }.fitExtrema points labels' = .ok f') :
    f'.factor.toReal ≤ f.factor.toReal := by
  obtain ⟨_, _, _, hx, hy, _, _⟩ := Chart.fitExtrema_eq_ok_iff.mp h
  obtain ⟨_, _, _, hx', hy', _, _⟩ := Chart.fitExtrema_eq_ok_iff.mp h'
  have hside : 0 < c.shorterSide := by
    unfold Chart.shorterSide
    omega
  have hshare := c.marginShare_mono hside hmargin
  have hwidth' : (0 : ℝ) ≤ c.width := by exact_mod_cast (by omega : 0 ≤ c.width)
  have hheight' : (0 : ℝ) ≤ c.height := by exact_mod_cast (by omega : 0 ≤ c.height)
  have hxle : f.xOverflow.toReal ≤ f'.xOverflow.toReal := by
    rw [hx, hx']
    exact overflow_mono hwidth' hshare hinside.left hinside.right
  have hyle : f.yOverflow.toReal ≤ f'.yOverflow.toReal := by
    rw [hy, hy']
    exact overflow_mono hheight' hshare hinside.top hinside.bottom
  rw [Chart.factor_of_fitExtrema h, Chart.factor_of_fitExtrema h']
  exact min_le_min (one_sub_div_le (sub_pos.mpr hleft) hxle)
    (one_sub_div_le (sub_pos.mpr htop) hyle)

/-- The factor of any boxes on any canvas, where the tips reach left and above the middle. It is at
most one, and one exactly where the labels lie within the margins. It is not positive exactly where
the overflow of an axis uses up what is between the middle and the tips. And it does not grow with
the margins or the box of the labels. -/
theorem Chart.fitExtrema_factor (labels : Extrema Exact) :
    ∃ f, c.fitExtrema points labels = .ok f ∧
      f.xOverflow.toReal = max (max 0 (labels.right.toReal - c.width * (1 - c.marginShare)))
        (c.width * c.marginShare - labels.left.toReal) ∧
      f.yOverflow.toReal = max (max 0 (labels.bottom.toReal - c.height * (1 - c.marginShare)))
        (c.height * c.marginShare - labels.top.toReal) ∧
      f.factor.toReal ≤ 1 ∧
      (f.factor.toReal = 1 ↔ c.WithinMargins labels) ∧
      (f.factor.toReal ≤ 0 ↔ c.width / 2 - points.left.toReal ≤ f.xOverflow.toReal ∨
        c.height / 2 - points.top.toReal ≤ f.yOverflow.toReal) ∧
      ∀ (margin : Int) (labels' : Extrema Exact) (f' : Fit Exact), c.margin ≤ margin →
        labels.Inside labels' → { c with margin := margin }.fitExtrema points labels' = .ok f' →
        f'.factor.toReal ≤ f.factor.toReal := by
  have hside : c.shorterSide ≠ 0 := by
    unfold Chart.shorterSide
    omega
  have hx : 0 < c.width / 2 - points.left.toReal := sub_pos.mpr hleft
  have hy : 0 < c.height / 2 - points.top.toReal := sub_pos.mpr htop
  obtain ⟨f, hf⟩ := Chart.exists_fitExtrema hside hx.ne' hy.ne' labels
  obtain ⟨_, _, _, hxo, hyo, _, _⟩ := Chart.fitExtrema_eq_ok_iff.mp hf
  have hxnonneg : 0 ≤ f.xOverflow.toReal := hxo ▸ overflow_nonneg
  have hynonneg : 0 ≤ f.yOverflow.toReal := hyo ▸ overflow_nonneg
  have hfactor := Chart.factor_of_fitExtrema hf
  have hxone := one_sub_div_le_one hx hxnonneg
  have hyone := one_sub_div_le_one hy hynonneg
  refine ⟨f, hf, by rw [hxo, toReal_overflow], by rw [hyo, toReal_overflow], ?_, ?_, ?_, ?_⟩
  · rw [hfactor]
    exact (min_le_left _ _).trans hxone
  · rw [Chart.withinMargins_iff hf, ← one_sub_div_eq_one_iff hx, ← one_sub_div_eq_one_iff hy,
      hfactor]
    constructor
    · intro hmin
      have hle : (1 : ℝ) ≤ min _ _ := hmin.ge
      obtain ⟨hxle, hyle⟩ := le_min_iff.mp hle
      exact ⟨le_antisymm hxone hxle, le_antisymm hyone hyle⟩
    · rintro ⟨hxeq, hyeq⟩
      rw [hxeq, hyeq, min_self]
  · rw [hfactor, min_le_iff, one_sub_div_nonpos_iff hx, one_sub_div_nonpos_iff hy]
  · intro margin labels' f' hmargin hinside hf'
    exact Chart.factor_le_of_inside hwidth hheight hleft htop hmargin hinside hf hf'

end

/-- The small chart on a canvas with margins. -/
def marginChart : Chart :=
  { smallChart with width := 100, height := 200, margin := 10 }

/-- Tips at the left edge, and halfway to the top. -/
noncomputable def halfwayTips : Extrema Exact :=
  ⟨⟨0⟩, ⟨90⟩, ⟨50⟩, ⟨150⟩⟩

/-- Labels that reach to the left edge, or a little farther, and stay within the other margins. -/
noncomputable def leftLabels (beyond : ℝ) : Extrema Exact :=
  ⟨⟨-beyond⟩, ⟨90⟩, ⟨50⟩, ⟨150⟩⟩

/-- Labels at the edge are 10 over the margin, of 50 to the middle. Over margins of 20 and farther
out they leave no room. -/
theorem fitExtrema_factor_marginChart :
    1 ≤ marginChart.width ∧ 1 ≤ marginChart.height ∧
      halfwayTips.left.toReal < marginChart.width / 2 ∧
      halfwayTips.top.toReal < marginChart.height / 2 ∧
      (leftLabels 0).Inside (leftLabels 30) ∧ ∃ f f',
        marginChart.fitExtrema halfwayTips (leftLabels 0) = .ok f ∧
        { marginChart with margin := 20 }.fitExtrema halfwayTips (leftLabels 30) = .ok f' ∧
        ¬ marginChart.WithinMargins (leftLabels 0) ∧ f.factor.toReal < 1 ∧ 0 < f.factor.toReal ∧
        f'.factor.toReal ≤ 0 ∧ f'.factor.toReal ≤ f.factor.toReal := by
  have hwidth : 1 ≤ marginChart.width := by decide
  have hheight : 1 ≤ marginChart.height := by decide
  have hleft : halfwayTips.left.toReal < marginChart.width / 2 := by
    norm_num [halfwayTips, marginChart]
  have htop : halfwayTips.top.toReal < marginChart.height / 2 := by
    norm_num [halfwayTips, marginChart]
  have hinside : (leftLabels 0).Inside (leftLabels 30) := by
    constructor <;> norm_num [leftLabels, Exact.le_iff]
  have hshare : marginChart.marginShare = 1 / 10 := by
    norm_num [Chart.marginShare, Chart.shorterSide, marginChart]
  have hshare' : { marginChart with margin := 20 }.marginShare = 1 / 5 := by
    norm_num [Chart.marginShare, Chart.shorterSide, marginChart]
  obtain ⟨f, hf, hx, hy, hle, hone, hnonpos, hmono⟩ :=
    Chart.fitExtrema_factor hwidth hheight hleft htop (leftLabels 0)
  obtain ⟨f', hf', hx', _, _, _, hnonpos', _⟩ :=
    Chart.fitExtrema_factor (c := { marginChart with margin := 20 }) hwidth hheight hleft htop
      (leftLabels 30)
  rw [hshare] at hx hy
  rw [hshare'] at hx'
  norm_num [leftLabels, marginChart] at hx hy hx'
  have hover : ¬ marginChart.WithinMargins (leftLabels 0) := by
    intro hwithin
    have hmargin := hwithin.left
    rw [hshare] at hmargin
    norm_num [leftLabels, marginChart] at hmargin
  refine ⟨hwidth, hheight, hleft, htop, hinside, f, f', hf, hf', hover, ?_, ?_, ?_,
    hmono 20 _ f' (by decide) hinside hf'⟩
  · exact lt_of_le_of_ne hle (mt hone.mp hover)
  · rw [← not_le, hnonpos, hx, hy]
    norm_num [halfwayTips, marginChart]
  · rw [hnonpos', hx']
    norm_num [halfwayTips, marginChart]

end RadarChart
