import RadarChart.Drawing.Svg
import RadarChart.Proofs.Layout.Frame

/-!
# Charts in other units

The scale, the distance of the rings and the data of a chart are in one unit,
and they enter a layout as quotients with the scale alone. So a chart that
states all of them in a smaller unit, `k` times as large, has the same layout,
fault for fault: its rings and their labels bear the new values, and nothing
that is drawn is different.
-/

namespace RadarChart

/-! ## Rescaling -/

def Entry.rescale (k : Int) (e : Entry) : Entry :=
  { e with data := e.data.map (k * ·) }

/-- The chart with all that is measured against its scale, and the scale itself, `k` times as
large. The labels of the rings stay as they are. -/
def Chart.rescale (k : Int) (c : Chart) : Chart :=
  { c with
    scale := k * c.scale
    intervals := c.intervals.map (k * ·)
    entries := c.entries.map (·.rescale k) }

section
variable {α : Type}

def Ring.rescale (k : Int) (r : Ring α) : Ring α :=
  { r with value := k * r.value }

def IntervalLabel.rescale (k : Int) (l : IntervalLabel α) : IntervalLabel α :=
  { l with value := k * l.value }

/-- The geometry of the rescaled chart: every position stays, the values become `k` times as
large. -/
def Geometry.rescale (k : Int) (g : Geometry α) : Geometry α :=
  { g with
    chart := g.chart.rescale k
    rings := g.rings.map (·.rescale k)
    intervalLabels := g.intervalLabels.map (·.rescale k) }

end

/-! ## Outcomes that differ by a map -/

section
variable {ε α β γ δ : Type}

/-- The second step differs by a map. -/
theorem bind_congr_map {x : Except ε α} {f : α → Except ε γ} {f' : α → Except ε δ} {b : γ → δ}
    (hf : ∀ v, f' v = (f v).map b) : x >>= f' = (x >>= f).map b := by
  cases x with
  | error e => rfl
  | ok v => exact hf v

/-- Both steps differ by maps. -/
theorem bind_eq_map {x : Except ε α} {y : Except ε β} {f : α → Except ε γ} {f' : β → Except ε δ}
    {a : α → β} {b : γ → δ} (hx : y = x.map a) (hf : ∀ v, f' (a v) = (f v).map b) :
    y >>= f' = (x >>= f).map b := by
  subst hx
  cases x with
  | error e => rfl
  | ok v => exact hf v

theorem mapM_eq_map {f : α → Except ε γ} {f' : β → Except ε δ} {a : α → β} {b : γ → δ}
    (hf : ∀ v, f' (a v) = (f v).map b) (xs : List α) :
    (xs.map a).mapM f' = (xs.mapM f).map (List.map b) := by
  induction xs with
  | nil => rfl
  | cons x xs ih =>
      rw [List.map_cons, List.mapM_cons, List.mapM_cons]
      exact bind_eq_map (hf x) fun y => bind_eq_map ih fun ys => rfl

theorem mapM_map_congr {f : α → Except ε γ} {f' : β → Except ε γ} {a : α → β}
    (hf : ∀ v, f' (a v) = f v) (xs : List α) : (xs.map a).mapM f' = xs.mapM f := by
  rw [List.mapM_map]
  exact congrArg (xs.mapM ·) (funext hf)

end

/-! ## Values in other units -/

theorem quotient_mul_left {α : Type} [Scalar α] {k : Int} (hk : 1 ≤ k) (a b : Int) :
    (Scalar.quotient (k * a) (k * b) : Except Fault α) = Scalar.quotient a b := by
  have hne : k ≠ 0 := by omega
  by_cases hb : b = 0
  · rw [Scalar.quotient, Scalar.quotient, if_pos hb, if_pos (by rw [hb, Int.mul_zero])]
  · rw [Scalar.quotient, Scalar.quotient, if_neg hb, if_neg (mul_ne_zero hne hb),
      Rat.divInt_mul_left hne]

theorem ringSteps_mul_left {k scale step : Int} (hk : 1 ≤ k) (hstep : 1 ≤ step) :
    ringSteps (k * scale) (k * step) = (ringSteps scale step).map (k * ·) := by
  have hk : 0 < k := hk
  have hstep : 0 < step := hstep
  rw [ringSteps_of_pos hstep, ringSteps_of_pos (Int.mul_pos hk hstep),
    Int.mul_ediv_mul_of_pos _ _ hk, List.map_map]
  exact List.map_congr_left fun i _ => by
    rw [Function.comp_apply, Int.mul_left_comm]

/-! ## Layouts -/

section
variable {α : Type} [Scalar α] {c : Chart} {k : Int}

theorem Chart.sameFrame_rescale (c : Chart) (k : Int) : (c.rescale k).SameFrame c :=
  ⟨rfl, rfl, rfl, rfl, rfl, rfl⟩

theorem Chart.ringValues_rescale (hk : 1 ≤ k) (hstep : ∀ step ∈ c.intervals, 1 ≤ step) :
    (c.rescale k).ringValues = c.ringValues.map (List.map (k * ·)) := by
  cases hintervals : c.intervals with
  | none => simp [Chart.ringValues, Chart.rescale, hintervals, Except.map]
  | some step =>
      have hpos : 1 ≤ step := hstep step hintervals
      have hne : step ≠ 0 := by omega
      have hne' : k * step ≠ 0 := mul_ne_zero (by omega) hne
      simp only [Chart.ringValues, Chart.rescale, hintervals, Option.map_some, if_neg hne,
        if_neg hne', Except.map, ringSteps_mul_left hk hpos]

variable (hk : 1 ≤ k) (center : Point α) (body : List (Point α))

include hk

theorem Chart.ring_rescale (value : Int) :
    (c.rescale k).ring center body (k * value) = (c.ring center body value).map (·.rescale k) := by
  rw [Chart.ring, Chart.ring]
  show (Scalar.quotient (k * value) (k * c.scale) >>= _) = _
  rw [quotient_mul_left hk]
  exact bind_congr_map fun ratio => rfl

theorem Chart.polygon_rescale (e : Entry) :
    (c.rescale k).polygon center body (e.rescale k) = c.polygon center body e := by
  have hratios : (e.data.map (k * ·)).mapM
      (fun value => (Scalar.quotient value (k * c.scale) : Except Fault α)) =
        e.data.mapM fun value => Scalar.quotient value c.scale := by
    refine mapM_map_congr ?_ e.data
    exact fun value => quotient_mul_left hk value c.scale
  rw [Chart.polygon, Chart.polygon, ← hratios]
  rfl

theorem Chart.intervalLabel_rescale (measure : TextMeasurer α) (textSize size reach : α)
    (value : Int) (text : String) :
    (c.rescale k).intervalLabel measure center textSize size reach (k * value) text =
      (c.intervalLabel measure center textSize size reach value text).map (·.rescale k) := by
  rw [Chart.intervalLabel, Chart.intervalLabel]
  refine bind_congr_map fun width => ?_
  show (Scalar.quotient (k * value) (k * c.scale) >>= _) = _
  rw [quotient_mul_left hk]
  exact bind_congr_map fun ratio => rfl

theorem Chart.labelRings_rescale (measure : TextMeasurer α) (values : List Int) :
    (c.rescale k).labelRings measure center body (values.map (k * ·)) =
      (c.labelRings measure center body values).map (List.map (·.rescale k)) := by
  rw [Chart.labelRings, Chart.labelRings]
  show (if c.hideLabels then _ else _) = _
  by_cases hhide : c.hideLabels = true
  · rw [if_pos hhide, if_pos hhide]
    rfl
  · rw [if_neg hhide, if_neg hhide]
    refine bind_congr_map fun textSize => ?_
    cases body with
    | nil => rfl
    | cons first body =>
        rw [List.zipIdx_map]
        refine mapM_eq_map ?_ values.zipIdx
        rintro ⟨value, position⟩
        have htexts : (c.rescale k).intervalLabels = c.intervalLabels := rfl
        simp only [Prod.map_apply, id_eq, htexts]
        cases c.intervalLabels[position]? with
        | none => rfl
        | some text => exact Chart.intervalLabel_rescale hk center measure _ _ _ value text

theorem Chart.geometryAt_rescale (hstep : ∀ step ∈ c.intervals, 1 ≤ step)
    (measure : TextMeasurer α) (factor : α) :
    (c.rescale k).geometryAt measure factor = (c.geometryAt measure factor).map (·.rescale k) := by
  have hframe := c.sameFrame_rescale k
  rw [Chart.geometryAt, Chart.geometryAt, hframe.center_eq]
  refine bind_congr_map fun center => ?_
  rw [hframe.star_eq]
  refine bind_congr_map fun body => ?_
  refine bind_eq_map (Chart.ringValues_rescale hk hstep) fun values => ?_
  refine bind_eq_map (mapM_eq_map (Chart.ring_rescale hk center body) values) fun rings => ?_
  have hentries : (c.rescale k).entries.mapM ((c.rescale k).polygon center body) =
      c.entries.mapM (c.polygon center body) :=
    mapM_map_congr (Chart.polygon_rescale hk center body) c.entries
  rw [hentries]
  refine bind_congr_map fun entries => ?_
  refine bind_eq_map (Chart.labelRings_rescale hk center body measure values) fun labels => ?_
  rw [hframe.star_eq]
  refine bind_congr_map fun tips => ?_
  rw [hframe.axisLabels_eq]
  exact bind_congr_map fun axisLabels => rfl

/-- The rescaled chart is laid out in the same way, or fails in the same way. -/
theorem Chart.layout_rescale (hstep : ∀ step ∈ c.intervals, 1 ≤ step) (measure : TextMeasurer α) :
    (c.rescale k).layout measure = (c.layout measure).map (·.rescale k) := by
  rw [Chart.layout, Chart.layout, (c.sameFrame_rescale k).fit_eq]
  exact bind_congr_map fun fit => Chart.geometryAt_rescale hk hstep measure fit.factor

end

/-! ## Drawings -/

theorem Chart.style_rescale (c : Chart) (k precision : Int) :
    (c.rescale k).style precision = c.style precision := rfl

/-- No value is drawn. -/
theorem Geometry.draw_rescale (g : Geometry Float) (k precision : Int) :
    (g.rescale k).draw precision = g.draw precision := by
  have hwidth : (g.rescale k).chart.width = g.chart.width := rfl
  have hheight : (g.rescale k).chart.height = g.chart.height := rfl
  have hstyle : (g.rescale k).chart.style precision = g.chart.style precision :=
    g.chart.style_rescale k precision
  have hrings : (g.rescale k).rings.mapM (·.element precision) =
      g.rings.mapM (·.element precision) := mapM_map_congr (fun _ => rfl) g.rings
  have hlabels : (g.rescale k).intervalLabels.mapM (·.elements precision) =
      g.intervalLabels.mapM (·.elements precision) := mapM_map_congr (fun _ => rfl) g.intervalLabels
  simp only [Geometry.draw, hwidth, hheight, hstyle, hrings, hlabels]
  rfl

theorem Geometry.toSvg_rescale (g : Geometry Float) (k precision : Int) :
    (g.rescale k).toSvg precision = g.toSvg precision := by
  rw [Geometry.toSvg, Geometry.draw_rescale, Geometry.toSvg]

/-- A chart with rings that go up, or none, and the chart with all values `k` times as large have
one layout but for the values themselves, or one fault, whatever the coordinates and the measurer.
So they have one drawing, at any precision. -/
theorem Chart.drawing_rescale {c : Chart} {k : Int} (hk : 1 ≤ k)
    (hstep : ∀ step ∈ c.intervals, 1 ≤ step) :
    (∀ {α : Type} [Scalar α] (measure : TextMeasurer α),
      (c.rescale k).layout measure = (c.layout measure).map (·.rescale k)) ∧
    ∀ (measure : TextMeasurer Float) (precision : Int),
      (c.rescale k).layout measure >>= (·.toSvg precision) =
        c.layout measure >>= (·.toSvg precision) := by
  refine ⟨fun measure => Chart.layout_rescale hk hstep measure, fun measure precision => ?_⟩
  rw [Chart.layout_rescale hk hstep]
  cases c.layout measure with
  | error f => rfl
  | ok g => simp only [Except.map, bind, Except.bind, Geometry.toSvg_rescale]

/-- The small chart in units seven times smaller, with a font in which all texts are of one
width. -/
theorem drawing_rescale_smallChart :
    ∃ (measure : TextMeasurer Exact) (g : Geometry Exact), (1 : Int) ≤ 7 ∧
      (∀ step ∈ smallChart.intervals, 1 ≤ step) ∧ (smallChart.rescale 7).scale = 14 ∧
      (smallChart.rescale 7).intervals = some 7 ∧
      (smallChart.rescale 7).entries = [⟨"x", [7, 0, 14]⟩] ∧
      smallChart.layout measure = .ok g ∧
      (smallChart.rescale 7).layout measure = .ok (g.rescale 7) ∧
      g.rings.map (·.value) = [0, 1, 2] ∧
      (g.rescale 7).rings.map (·.value) = [0, 7, 14] ∧
      ∀ (measure : TextMeasurer Float) (precision : Int),
        (smallChart.rescale 7).layout measure >>= (·.toSvg precision) =
          smallChart.layout measure >>= (·.toSvg precision) := by
  have hstep : ∀ step ∈ smallChart.intervals, 1 ≤ step := by decide
  obtain ⟨hlayout, hdrawing⟩ := Chart.drawing_rescale (k := 7) (by decide) hstep
  have hmeasure : ∀ t size, ∃ width, (fun _ _ => .ok ⟨5⟩ : TextMeasurer Exact) t size = .ok width :=
    fun _ _ => ⟨_, rfl⟩
  obtain ⟨g, hg⟩ := (Chart.wellFormed_of_parse parse_smallDocument).exists_layout hmeasure
  have hrings : g.rings.map (·.value) = [0, 1, 2] := by
    have hvalues : smallChart.ringValues = .ok [0, 1, 2] := by decide
    rw [(Chart.shapeOf_of_layout hg).rings, Except.ok.injEq] at hvalues
    exact hvalues
  have hrescaled : (smallChart.rescale 7).layout (fun _ _ => .ok ⟨5⟩) = .ok (g.rescale 7) := by
    rw [hlayout, hg]
    rfl
  refine ⟨_, g, by decide, hstep, rfl, rfl, rfl, hg, hrescaled, hrings, ?_, hdrawing⟩
  have hvalues : (g.rescale 7).rings.map (·.value) = (g.rings.map (·.value)).map (7 * ·) := by
    simp [Geometry.rescale, Ring.rescale]
  rw [hvalues, hrings]
  rfl

end RadarChart
