import RadarChart.Proofs.Layout.Frame
import RadarChart.Proofs.Layout.Limits

/-!
# Rings, entries and spokes that coincide

The spokes, the rings and the polygons of entries are all placed along one
star: at a ratio of one, at one ratio for a whole ring, and at a ratio of its
own for each number of an entry. A ratio is the quotient of a value with the
scale, rounded once. So points of equal values are equal, not only close, and
the points of the scale itself are the tips of the spokes, since the quotient
of an integer with itself is one exactly.
-/

namespace RadarChart

/-- Equal values have equal points, and the value of the scale has those of the spokes. -/
structure Geometry.Coincides {α : Type} (g : Geometry α) : Prop where
  entries : ∀ r ∈ g.rings, ∀ (k : Nat) (e : Entry) (p : Polygon α), g.chart.entries[k]? = some e →
    g.entries[k]? = some p → ∀ (i : Nat) (q : Point α), p.points[i]? = some q →
    e.data[i]? = some r.value → r.points[i]? = some q
  spokes : ∀ r ∈ g.rings, r.value = g.chart.scale → r.points = g.spokes

section
variable {α : Type} [Scalar α] {c : Chart} {center : Point α} {body : List (Point α)}

/-! ## Points -/

/-- Where a point is placed depends on the ratio at its own position alone. -/
theorem getElem?_place_congr {ratios ratios' : List α} {i : Nat} (h : ratios[i]? = ratios'[i]?) :
    (place center body ratios)[i]? = (place center body ratios')[i]? := by
  rw [place, place, List.getElem?_zipWith, List.getElem?_zipWith, h]

theorem Chart.ring_points {value : Int} {r : Ring α} (h : c.ring center body value = .ok r) :
    r.value = value ∧ ∃ ratio, Scalar.quotient value c.scale = .ok ratio ∧
      r.points = place center body (List.replicate body.length ratio) := by
  simp only [Chart.ring, bind_eq_ok_iff, pure_eq_ok_iff] at h
  obtain ⟨ratio, hratio, rfl⟩ := h
  exact ⟨rfl, ratio, hratio, rfl⟩

/-- The ratio of a number of an entry is that of a ring at this value. -/
theorem Chart.polygon_point_eq {value : Int} {r : Ring α} {e : Entry} {p : Polygon α}
    (hr : c.ring center body value = .ok r) (hp : c.polygon center body e = .ok p) {i : Nat}
    {q : Point α} (hq : p.points[i]? = some q) (hvalue : e.data[i]? = some value) :
    r.points[i]? = some q := by
  obtain ⟨_, ratio, hratio, hring⟩ := Chart.ring_points hr
  obtain ⟨ratios, hratios, hpolygon⟩ := Chart.polygon_points hp
  obtain ⟨ratio', hratio', hquotient⟩ :=
    exists_getElem?_of_forall₂ (mapM_eq_ok_iff.mp hratios) hvalue
  obtain rfl : ratio = ratio' := ok_unique hratio hquotient rfl
  have hi : i < body.length := by
    obtain ⟨hlt, _⟩ := List.getElem?_eq_some_iff.mp hq
    rw [hpolygon, length_place] at hlt
    omega
  have hsame : (List.replicate body.length ratio)[i]? = ratios[i]? := by
    rw [List.getElem?_replicate, if_pos hi, hratio']
  rw [hring, getElem?_place_congr hsame, ← hpolygon, hq]

/-- Where one is converted exactly, the quotient of an integer with itself is one. -/
theorem Scalar.quotient_self (hone : Scalar.ofRat? (α := α) 1 = some 1.0) {n : Int} {x : α}
    (h : Scalar.quotient n n = .ok x) : x = 1.0 := by
  unfold Scalar.quotient at h
  by_cases hn : n = 0
  · rw [if_pos hn] at h
    cases h
  · rw [if_neg hn, Rat.divInt_self' hn, hone] at h
    exact (Except.ok.inj h).symm

theorem Chart.ring_points_of_scale (hone : Scalar.ofRat? (α := α) 1 = some 1.0) {r : Ring α}
    (h : c.ring center body c.scale = .ok r) : r.points = placeAll center body := by
  obtain ⟨_, ratio, hratio, hpoints⟩ := Chart.ring_points h
  rw [hpoints, Scalar.quotient_self hone hratio, placeAll]

/-! ## Layouts -/

/-- What the body of a layout is made of. -/
theorem Chart.layout_body {measure : TextMeasurer α} {g : Geometry α}
    (h : c.layout measure = .ok g) : g.chart = c ∧ ∃ (body : List (Point α)) (values : List Int),
      g.spokes = placeAll g.center body ∧ values.mapM (c.ring g.center body) = .ok g.rings ∧
      c.entries.mapM (c.polygon g.center body) = .ok g.entries := by
  simp only [Chart.layout, Chart.geometryAt, bind_eq_ok_iff, pure_eq_ok_iff] at h
  obtain ⟨_, _, _, _, body, _, values, _, _, hrings, _, hentries, _, _, _, _, _, _, rfl⟩ := h
  exact ⟨rfl, body, values, rfl, hrings, hentries⟩

theorem Chart.coincides_of_layout (hone : Scalar.ofRat? (α := α) 1 = some 1.0)
    {measure : TextMeasurer α} {g : Geometry α} (h : c.layout measure = .ok g) : g.Coincides := by
  obtain ⟨rfl, body, values, hspokes, hrings, hentries⟩ := Chart.layout_body h
  rw [mapM_eq_ok_iff] at hrings hentries
  have hring : ∀ r ∈ g.rings, g.chart.ring g.center body r.value = .ok r := by
    intro r hr
    obtain ⟨value, _, hvalue⟩ := exists_left_of_forall₂ hrings hr
    rwa [(Chart.ring_points hvalue).1]
  constructor
  · intro r hr k e p he hp i q hq hvalue
    obtain ⟨p', hp', hpolygon⟩ := exists_getElem?_of_forall₂ hentries he
    rw [hp, Option.some.injEq] at hp'
    subst hp'
    exact Chart.polygon_point_eq (hring r hr) hpolygon hq hvalue
  · intro r hr hvalue
    rw [hspokes]
    exact Chart.ring_points_of_scale hone (hvalue ▸ hring r hr)

end

/-- The outermost ring of a chart with rings is at its scale. -/
theorem Chart.WellFormed.exists_outer_ring {α : Type} [Scalar α] {c : Chart} (hwell : c.WellFormed)
    {measure : TextMeasurer α} {g : Geometry α} (h : c.layout measure = .ok g)
    (hintervals : c.intervals ≠ none) :
    ∃ r, g.rings.getLast? = some r ∧ r.value = c.scale := by
  have hfit := hwell.ringsFit
  unfold Chart.RingsFit at hfit
  split at hfit <;> rename_i hstep
  · exact absurd hstep hintervals
  · obtain ⟨values, hvalues, _, _, hlast, _⟩ := hfit
    rw [(Chart.shapeOf_of_layout h).rings, Except.ok.injEq] at hvalues
    rwa [← hvalues, List.getLast?_map, Option.map_eq_some_iff] at hlast

/-- A polygon that has a point for every spoke, all on one ring, is that ring. -/
theorem Geometry.Coincides.points_eq {α : Type} [Scalar α] {g : Geometry α} (hg : g.Coincides)
    (hshape : g.ShapeOf g.chart) {r : Ring α} (hr : r ∈ g.rings) {k : Nat} {e : Entry}
    {p : Polygon α} (he : g.chart.entries[k]? = some e) (hp : g.entries[k]? = some p)
    (hlength : e.data.length = g.chart.radii.length) (hdata : ∀ value ∈ e.data, value = r.value) :
    p.points = r.points := by
  obtain ⟨p', hp', _, hcount⟩ := exists_getElem?_of_forall₂ hshape.entries he
  rw [hp, Option.some.injEq] at hp'
  subst hp'
  rw [hlength, Nat.min_self] at hcount
  have hring := hshape.ringPoints r hr
  apply List.ext_getElem (hcount.trans hring.symm)
  intro i hi hi'
  have hvalue : e.data[i]? = some r.value := by
    have hlt : i < e.data.length := by omega
    rw [List.getElem?_eq_getElem hlt, hdata _ (List.getElem_mem hlt)]
  have hpoint := hg.entries r hr k e p he hp i _ (List.getElem?_eq_getElem hi) hvalue
  rw [List.getElem?_eq_getElem hi'] at hpoint
  exact (Option.some.inj hpoint).symm

/-- Over floats, whatever their sine and cosine and whatever the measurer: an entry and a ring have
equal points where the entry has the value of the ring, and a ring at the scale runs through the
tips of the spokes. In a chart with rings that was read, the outermost ring does so, and an entry
whose data are all equal to the scale is that ring. -/
theorem Chart.layout_coincides {sin cos : Float → Float} :
    (∀ (c : Chart) (measure : TextMeasurer (FloatWith sin cos)) (g : Geometry (FloatWith sin cos)),
      c.layout measure = .ok g → g.chart = c ∧ g.Coincides) ∧
    ∀ (text : String) (c : Chart) (measure : TextMeasurer (FloatWith sin cos))
      (g : Geometry (FloatWith sin cos)), Chart.parse text = .ok c → c.layout measure = .ok g →
      c.intervals ≠ none → ∃ r, g.rings.getLast? = some r ∧ r.value = c.scale ∧
        r.points = g.spokes ∧
        ∀ (k : Nat) (e : Entry) (p : Polygon (FloatWith sin cos)), c.entries[k]? = some e →
          g.entries[k]? = some p → (∀ value ∈ e.data, value = c.scale) → p.points = r.points := by
  have hone : Scalar.ofRat? (α := FloatWith sin cos) 1 = some 1.0 :=
    show Binary64.ofRat? 1 = some (1.0 : Float) from rfl
  refine ⟨fun c measure g h =>
    ⟨(Chart.shapeOf_of_layout h).chart, Chart.coincides_of_layout hone h⟩, ?_⟩
  intro text c measure g hparse h hintervals
  have hwell := Chart.wellFormed_of_parse hparse
  have hshape := Chart.shapeOf_of_layout h
  have hg := Chart.coincides_of_layout hone h
  obtain ⟨r, hlast, hvalue⟩ := hwell.exists_outer_ring h hintervals
  obtain rfl : g.chart = c := hshape.chart
  have hr : r ∈ g.rings := List.mem_of_getLast? hlast
  refine ⟨r, hlast, hvalue, hg.spokes r hr hvalue, ?_⟩
  intro k e p he hp hdata
  exact hg.points_eq hshape hr he hp (hwell.data e (List.mem_of_getElem? he)).1
    (hvalue.symm ▸ hdata)

/-- The small chart with a second entry, which is as large as the scale all around. -/
def fullChart : Chart :=
  { smallChart with entries := smallChart.entries ++ [⟨"y", [2, 2, 2]⟩] }

theorem parse_fullChart : Chart.parse (document fullChart.lines) = .ok fullChart := by
  have hsmall : ∀ n ∈ fullChart.integers, n ≤ 9 := by decide
  have hlimit : (9 : ℤ) < 10 ^ 4299 :=
    lt_of_lt_of_le (by norm_num : (9 : ℤ) < 10 ^ 1) (pow_le_pow_right₀ (by norm_num) (by norm_num))
  have hwritable : fullChart.Writable :=
    { wellFormed := by constructor <;> decide
      integers := fun n hn => (hsmall n hn).trans_lt hlimit
      texts := by decide
      labels := fun hstates =>
        absurd (by decide : fullChart.intervalLabels = fullChart.defaultLabels) hstates.2 }
  exact (hwritable.parse_of_facts (List.Perm.refl _)).1

theorem inRange_fullChart : fullChart.InRange := by
  have hsmall : ∀ n : ℤ, n ≤ 9 → n ≤ 2 ^ 1000 := fun n hn =>
    (hn.trans (by norm_num : (9 : ℤ) ≤ 2 ^ 4)).trans
      (pow_le_pow_right₀ (by norm_num) (by norm_num))
  have hlabels : ∀ text ∈ fullChart.radii, text.length * fullChart.textSize ≤ 9 := by decide
  have hdata : ∀ e ∈ fullChart.entries, ∀ n ∈ e.data, n ≤ fullChart.scale := by decide
  exact {
    width := hsmall _ (by decide)
    height := hsmall _ (by decide)
    margin := hsmall _ (by decide)
    textSize := hsmall _ (by decide)
    labels := fun text htext => hsmall _ (hlabels text htext)
    data := fun e he n hn => (hdata e he n hn).trans
      (le_mul_of_one_le_left (by decide) (one_le_pow₀ (by norm_num)))
    radii := show 3 ≤ 2 ^ 50 by norm_num
    wide := by decide +kernel
    tall := by decide +kernel }

/-- The first entry is on the middle ring at its first spoke, and the second entry is the
outermost ring. -/
theorem layout_coincides_fullChart :
    ∃ (measure : TextMeasurer (FloatWith (onFloats Real.sin) (onFloats Real.cos)))
      (g : Geometry (FloatWith (onFloats Real.sin) (onFloats Real.cos))),
      Chart.parse (document fullChart.lines) = .ok fullChart ∧
      fullChart.layout measure = .ok g ∧ fullChart.intervals ≠ none ∧
      (∃ r ∈ g.rings, r.value = 1 ∧ ∃ p q, g.entries[0]? = some p ∧ p.points[0]? = some q ∧
        r.points[0]? = some q) ∧
      ∃ r, g.rings.getLast? = some r ∧ r.value = 2 ∧ r.points = g.spokes ∧
        ∃ p, g.entries[1]? = some p ∧ p.points = g.spokes := by
  have hsin : Computes (onFloats Real.sin) Real.sin := computes_onFloats Real.abs_sin_le_one
  have hcos : Computes (onFloats Real.cos) Real.cos := computes_onFloats Real.abs_cos_le_one
  have hwell := Chart.wellFormed_of_parse parse_fullChart
  obtain ⟨g, hg⟩ := inRange_fullChart.exists_floatLayout hwell hsin hcos
  have hshape := Chart.shapeOf_of_layout hg
  obtain ⟨p, hp, _, hpoints⟩ := exists_getElem?_of_forall₂ hshape.entries
    (show fullChart.entries[0]? = some ⟨"x", [1, 0, 2]⟩ from rfl)
  obtain ⟨p', hp', _⟩ := exists_getElem?_of_forall₂ hshape.entries
    (show fullChart.entries[1]? = some ⟨"y", [2, 2, 2]⟩ from rfl)
  have hfirst : 0 < p.points.length := hpoints.symm ▸ by decide
  have hq : p.points[0]? = some p.points[0] := List.getElem?_eq_getElem hfirst
  have hvalues : fullChart.ringValues = .ok [0, 1, 2] := by decide
  rw [hshape.rings, Except.ok.injEq] at hvalues
  obtain ⟨r, hr, hone⟩ : ∃ r ∈ g.rings, r.value = 1 :=
    List.mem_map.mp (hvalues ▸ by decide)
  obtain ⟨hchart, hcoincides⟩ := Chart.layout_coincides.1 _ _ g hg
  obtain ⟨outer, hlast, hscale, hspokes, hentries⟩ :=
    Chart.layout_coincides.2 _ _ _ g parse_fullChart hg (by decide)
  refine ⟨_, g, parse_fullChart, hg, by decide, ⟨r, hr, hone, p, _, hp, hq, ?_⟩,
    outer, hlast, hscale, hspokes, p', hp', ?_⟩
  · exact hcoincides.entries r hr 0 ⟨"x", [1, 0, 2]⟩ p (hchart ▸ rfl) hp 0 _ hq (hone ▸ rfl)
  · rw [← hspokes]
    exact hentries 1 ⟨"y", [2, 2, 2]⟩ p' rfl hp' (by decide)

end RadarChart
