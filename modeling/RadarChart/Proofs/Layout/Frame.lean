import RadarChart.Proofs.Layout.Shape

/-!
# What the star depends on

The canvas, the orientation, the labels of the spokes and the size of the text
make up the frame of a chart. The center, the scale of the star, its spokes
and their labels are functions of the frame and of the measurer, so they do
not show what the chart is filled with. The polygon of an entry shows, besides
the frame, the entry's data and the scale alone.
-/

namespace RadarChart

variable {α : Type} [Scalar α] {c d : Chart} {measure : TextMeasurer α}

/-- The charts are of one frame. What is in it may differ. -/
structure Chart.SameFrame (c d : Chart) : Prop where
  width : c.width = d.width
  height : c.height = d.height
  margin : c.margin = d.margin
  textSize : c.textSize = d.textSize
  top : c.top = d.top
  radii : c.radii = d.radii

namespace Chart.SameFrame

variable (h : c.SameFrame d)

include h

theorem shorterSide_eq : c.shorterSide = d.shorterSide := by
  rw [Chart.shorterSide, h.width, h.height, Chart.shorterSide]

theorem marginFraction_eq : (c.marginFraction : Except Fault α) = d.marginFraction := by
  rw [Chart.marginFraction, h.shorterSide_eq, h.margin, Chart.marginFraction]

theorem center_eq : (c.center : Except Fault (Point α)) = d.center := by
  rw [Chart.center, h.width, h.height, Chart.center]

theorem star_eq (factor : α) : c.star factor = d.star factor := by
  rw [Chart.star, h.radii, h.top, h.shorterSide_eq, Chart.star]

theorem axisLabelsFrom_eq (height : α) (k : Nat) (texts : List String) (tips : List (Point α)) :
    axisLabelsFrom c measure height k texts tips =
      axisLabelsFrom d measure height k texts tips := by
  induction texts generalizing k tips with
  | nil => rfl
  | cons text texts ih =>
      cases tips with
      | nil => rfl
      | cons tip tips => rw [axisLabelsFrom, axisLabelsFrom, h.textSize, h.radii, ih]

theorem axisLabels_eq (center : Point α) (offsets : List (Point α)) :
    c.axisLabels measure center offsets = d.axisLabels measure center offsets := by
  simp only [Chart.axisLabels, h.textSize, h.radii, h.axisLabelsFrom_eq]

theorem fitExtrema_eq (points labels : Extrema α) :
    c.fitExtrema points labels = d.fitExtrema points labels := by
  rw [Chart.fitExtrema, h.marginFraction_eq, h.width, h.height, Chart.fitExtrema]

theorem fit_eq : c.fit measure = d.fit measure := by
  simp only [Chart.fit, h.center_eq, h.star_eq, h.axisLabels_eq, h.fitExtrema_eq]

end Chart.SameFrame

/-! ## Polygons -/

theorem ok_unique {ε β : Type} {x y : Except ε β} {a b : β} (hx : x = .ok a) (hy : y = .ok b)
    (h : x = y) : a = b :=
  Except.ok.inj (hx.symm.trans (h.trans hy))

/-- The ratios of a polygon to the body of its chart are those of its data to the scale. -/
theorem Chart.polygon_points {center : Point α} {body : List (Point α)} {e : Entry} {p : Polygon α}
    (h : c.polygon center body e = .ok p) : ∃ ratios,
      e.data.mapM (fun value => Scalar.quotient value c.scale) = .ok ratios ∧
        p.points = place center body ratios := by
  simp only [Chart.polygon, bind_eq_ok_iff, pure_eq_ok_iff] at h
  obtain ⟨ratios, hratios, rfl⟩ := h
  exact ⟨ratios, hratios, rfl⟩

theorem Chart.polygon_points_eq (hscale : c.scale = d.scale) {center : Point α}
    {body : List (Point α)} {e e' : Entry} {p p' : Polygon α} (hdata : e.data = e'.data)
    (h : c.polygon center body e = .ok p) (h' : d.polygon center body e' = .ok p') :
    p.points = p'.points := by
  obtain ⟨ratios, hratios, hpoints⟩ := Chart.polygon_points h
  obtain ⟨ratios', hratios', hpoints'⟩ := Chart.polygon_points h'
  rw [hpoints, hpoints', ok_unique hratios hratios' (by rw [hdata, hscale])]

/-! ## Whole geometries -/

/-- The parts that a geometry is put together from, as far as they show the frame or the entries. -/
theorem Chart.layout_parts {g : Geometry α} (h : c.layout measure = .ok g) :
    c.center = .ok g.center ∧ (∃ fit, c.fit measure = .ok fit ∧ g.scaleFactor = fit.factor) ∧
      (∃ body, c.star (g.scaleFactor * bodyShrink) = .ok body ∧
        g.spokes = placeAll g.center body ∧
        c.entries.mapM (c.polygon g.center body) = .ok g.entries) ∧
      ∃ tips labels, c.star g.scaleFactor = .ok tips ∧
        c.axisLabels measure g.center tips = .ok labels ∧ g.axisLabels = labels.map (·.label) := by
  simp only [Chart.layout, Chart.geometryAt, bind_eq_ok_iff, pure_eq_ok_iff] at h
  obtain ⟨fit, hfit, center, hcenter, body, hbody, _, _, _, _, entries, hentries, _, _, tips, htips,
    labels, hlabels, rfl⟩ := h
  exact ⟨hcenter, ⟨fit, hfit, rfl⟩, ⟨body, hbody, rfl, hentries⟩, tips, labels, htips, hlabels, rfl⟩

/-- Of two charts of one frame that are laid out with one measurer, the stars are equal: the center,
the scale, the spokes and their labels. If they also have one scale, then entries of equal data have
equal polygons, wherever they stand among the others. -/
theorem Chart.layout_of_sameFrame {g g' : Geometry α} (hframe : c.SameFrame d)
    (h : c.layout measure = .ok g) (h' : d.layout measure = .ok g') :
    (g.center = g'.center ∧ g.scaleFactor = g'.scaleFactor ∧ g.spokes = g'.spokes ∧
        g.axisLabels = g'.axisLabels) ∧
      (c.scale = d.scale → ∀ (i j : Nat) (e e' : Entry), c.entries[i]? = some e →
        d.entries[j]? = some e' → e.data = e'.data →
        ∃ p p', g.entries[i]? = some p ∧ g'.entries[j]? = some p' ∧ p.points = p'.points) := by
  obtain ⟨hcenter, ⟨fit, hfit, hfactor⟩, ⟨body, hbody, hspokes, hentries⟩,
    tips, labels, htips, hlabels, haxis⟩ := Chart.layout_parts h
  obtain ⟨hcenter', ⟨fit', hfit', hfactor'⟩, ⟨body', hbody', hspokes', hentries'⟩,
    tips', labels', htips', hlabels', haxis'⟩ := Chart.layout_parts h'
  have hcenterEq : g.center = g'.center := ok_unique hcenter hcenter' hframe.center_eq
  have hfactorEq : g.scaleFactor = g'.scaleFactor := by
    rw [hfactor, hfactor', ok_unique hfit hfit' hframe.fit_eq]
  obtain rfl : body = body' :=
    ok_unique hbody hbody' (by rw [hfactorEq, hframe.star_eq])
  obtain rfl : tips = tips' :=
    ok_unique htips htips' (by rw [hfactorEq, hframe.star_eq])
  have hlabelsEq : labels = labels' :=
    ok_unique hlabels hlabels' (by rw [hcenterEq, hframe.axisLabels_eq])
  refine ⟨⟨hcenterEq, hfactorEq, ?_, ?_⟩, ?_⟩
  · rw [hspokes, hspokes', hcenterEq]
  · rw [haxis, haxis', hlabelsEq]
  · intro hscale i j e e' he he' hdata
    obtain ⟨p, hp, hpolygon⟩ := exists_getElem?_of_forall₂ (mapM_eq_ok_iff.mp hentries) he
    obtain ⟨p', hp', hpolygon'⟩ := exists_getElem?_of_forall₂ (mapM_eq_ok_iff.mp hentries') he'
    rw [hcenterEq] at hpolygon
    exact ⟨p, p', hp, hp', Chart.polygon_points_eq hscale hdata hpolygon hpolygon'⟩

/-- The small chart with another background, without rings, and with an entry before its own. -/
def refilledChart : Chart :=
  { smallChart with
    background := "blue", filledEntries := true, intervals := none, intervalLabels := []
    entries := ⟨"y", [2, 2, 2]⟩ :: smallChart.entries }

theorem wellFormed_refilledChart : refilledChart.WellFormed := by
  constructor <;> decide

/-- The small chart and its variant, with a font in which all texts are of one width. -/
theorem layout_of_sameFrame_refilledChart :
    ∃ (measure : TextMeasurer Exact) (g g' : Geometry Exact),
      smallChart.SameFrame refilledChart ∧ smallChart.layout measure = .ok g ∧
      refilledChart.layout measure = .ok g' ∧ g.center = g'.center ∧
      g.scaleFactor = g'.scaleFactor ∧ g.spokes = g'.spokes ∧ g.axisLabels = g'.axisLabels ∧
      ∃ p p', g.entries[0]? = some p ∧ g'.entries[1]? = some p' ∧ p.points = p'.points := by
  have hmeasure : ∀ t size, ∃ width, (fun _ _ => .ok ⟨5⟩ : TextMeasurer Exact) t size = .ok width :=
    fun _ _ => ⟨_, rfl⟩
  have hframe : smallChart.SameFrame refilledChart := ⟨rfl, rfl, rfl, rfl, rfl, rfl⟩
  obtain ⟨g, hg⟩ := (Chart.wellFormed_of_parse parse_smallDocument).exists_layout hmeasure
  obtain ⟨g', hg'⟩ := wellFormed_refilledChart.exists_layout hmeasure
  obtain ⟨⟨hcenter, hfactor, hspokes, hlabels⟩, hentries⟩ :=
    Chart.layout_of_sameFrame hframe hg hg'
  exact ⟨_, g, g', hframe, hg, hg', hcenter, hfactor, hspokes, hlabels,
    hentries rfl 0 1 _ _ rfl rfl rfl⟩

end RadarChart
