import RadarChart.Proofs.Layout.Total

/-!
# The shape of a geometry

How many things a geometry has and of what chart data they are. This depends
on no coordinate, so it holds over any of them and for any chart and measurer.
Only for the charts that documents describe do all lists have full length.
-/

namespace RadarChart

variable {α : Type} [Scalar α]

/-- The parts of the geometry are those of the chart, in their order. -/
structure Geometry.ShapeOf (c : Chart) (g : Geometry α) : Prop where
  chart : g.chart = c
  spokes : g.spokes.length = c.radii.length
  rings : c.ringValues = .ok (g.rings.map (·.value))
  ringPoints : ∀ r ∈ g.rings, r.points.length = c.radii.length
  entries : List.Forall₂ (fun (e : Entry) (p : Polygon α) => p.color = e.color ∧
    p.points.length = min c.radii.length e.data.length) c.entries g.entries
  axisTexts : g.axisLabels.map (·.text) = c.radii
  axisSizes : ∀ l ∈ g.axisLabels, Scalar.ofInt c.textSize = .ok l.size
  hiddenLabels : c.hideLabels = true → g.intervalLabels = []
  shownLabels : c.hideLabels = false →
    g.intervalLabels.map (·.value) = g.rings.map (·.value) ∧
    ∀ (i : Nat) (l : IntervalLabel α), g.intervalLabels[i]? = some l →
      c.intervalLabels[i]? = some l.label.text

/-! ## Lengths -/

theorem length_place (center : Point α) (offsets : List (Point α)) (ratios : List α) :
    (place center offsets ratios).length = min offsets.length ratios.length := by
  rw [place, List.length_zipWith]

theorem length_placeAll (center : Point α) (offsets : List (Point α)) :
    (placeAll center offsets).length = offsets.length := by
  rw [placeAll, length_place, List.length_replicate, Nat.min_self]

theorem map_eq_map_of_forall₂ {β γ δ : Type} {f : β → δ} {k : γ → δ} {xs : List β} {ys : List γ}
    (h : List.Forall₂ (fun x y => k y = f x) xs ys) : ys.map k = xs.map f := by
  induction h with
  | nil => rfl
  | cons hxy _ ih => rw [List.map_cons, List.map_cons, hxy, ih]

/-! ## Rings and entries -/

section
variable {c : Chart} {center : Point α} {body : List (Point α)}

theorem Chart.ring_cases {value : Int} {r : Ring α} (h : c.ring center body value = .ok r) :
    r.value = value ∧ r.points.length = body.length := by
  simp only [Chart.ring, bind_eq_ok_iff, pure_eq_ok_iff] at h
  obtain ⟨ratio, _, rfl⟩ := h
  exact ⟨rfl, by rw [length_place, List.length_replicate, Nat.min_self]⟩

theorem Chart.polygon_cases {e : Entry} {p : Polygon α} (h : c.polygon center body e = .ok p) :
    p.color = e.color ∧ p.points.length = min body.length e.data.length := by
  simp only [Chart.polygon, bind_eq_ok_iff, mapM_eq_ok_iff, pure_eq_ok_iff] at h
  obtain ⟨ratios, hratios, rfl⟩ := h
  exact ⟨rfl, by rw [length_place, hratios.length_eq]⟩

theorem Chart.rings_cases {values : List Int} {rings : List (Ring α)}
    (h : values.mapM (c.ring center body) = .ok rings) :
    rings.map (·.value) = values ∧ ∀ r ∈ rings, r.points.length = body.length := by
  rw [mapM_eq_ok_iff] at h
  constructor
  · have hvalues := map_eq_map_of_forall₂ (h.imp fun _ _ hr => (Chart.ring_cases hr).1)
    rwa [List.map_id''] at hvalues
    exact fun _ => rfl
  · intro r hr
    obtain ⟨value, _, hvalue⟩ := exists_left_of_forall₂ h hr
    exact (Chart.ring_cases hvalue).2

end

/-! ## Labels -/

section
variable {c : Chart} {measure : TextMeasurer α}

/-- Every spoke that has a tip has its label. -/
theorem axisLabelsFrom_cases {height : α} {k : Nat} {texts : List String} {tips : List (Point α)}
    {labels : List (AxisLabel α)} (hlength : texts.length = tips.length)
    (h : axisLabelsFrom c measure height k texts tips = .ok labels) :
    labels.map (·.label.text) = texts ∧ ∀ l ∈ labels, l.label.size = height := by
  induction texts generalizing k tips labels with
  | nil =>
      cases h
      exact ⟨rfl, by simp⟩
  | cons text texts ih =>
      cases tips with
      | nil => cases hlength
      | cons tip tips =>
          simp only [axisLabelsFrom, bind_eq_ok_iff, pure_eq_ok_iff] at h
          obtain ⟨width, _, labels, hlabels, rfl⟩ := h
          obtain ⟨htexts, hsizes⟩ := ih (Nat.succ.inj hlength) hlabels
          exact ⟨congrArg (text :: ·) htexts, List.forall_mem_cons.mpr ⟨rfl, hsizes⟩⟩

theorem Chart.axisLabels_cases {center : Point α} {offsets : List (Point α)}
    {labels : List (AxisLabel α)} (hlength : offsets.length = c.radii.length)
    (h : c.axisLabels measure center offsets = .ok labels) :
    labels.map (·.label.text) = c.radii ∧
      ∀ l ∈ labels, Scalar.ofInt c.textSize = .ok l.label.size := by
  simp only [Chart.axisLabels, bind_eq_ok_iff] at h
  obtain ⟨height, hheight, h⟩ := h
  have htips : c.radii.length = (placeAll center offsets).length := by
    rw [length_placeAll, hlength]
  obtain ⟨htexts, hsizes⟩ := axisLabelsFrom_cases htips h
  exact ⟨htexts, fun l hl => hsizes l hl ▸ hheight⟩

theorem Chart.intervalLabel_cases {center : Point α} {textSize size reach : α} {value : Int}
    {text : String} {l : IntervalLabel α}
    (h : c.intervalLabel measure center textSize size reach value text = .ok l) :
    l.value = value ∧ l.label.text = text := by
  simp only [Chart.intervalLabel, bind_eq_ok_iff, pure_eq_ok_iff] at h
  obtain ⟨_, _, _, _, rfl⟩ := h
  exact ⟨rfl, rfl⟩

theorem Chart.labelRings_hidden {center : Point α} {body : List (Point α)} {values : List Int}
    {labels : List (IntervalLabel α)} (hhide : c.hideLabels = true)
    (h : c.labelRings measure center body values = .ok labels) : labels = [] := by
  rw [Chart.labelRings, if_pos hhide, pure_eq_ok_iff] at h
  exact h.symm

/-- Each ring has one label, and its text is the one at the position of the ring. -/
theorem Chart.labelRings_shown {center : Point α} {body : List (Point α)} {values : List Int}
    {labels : List (IntervalLabel α)} (hhide : c.hideLabels = false)
    (h : c.labelRings measure center body values = .ok labels) :
    List.Forall₂ (fun (ring : Int × Nat) (l : IntervalLabel α) => l.value = ring.1 ∧
      c.intervalLabels[ring.2]? = some l.label.text) values.zipIdx labels := by
  rw [Chart.labelRings, if_neg (by simp [hhide])] at h
  simp only [bind_eq_ok_iff] at h
  obtain ⟨textSize, _, h⟩ := h
  cases body with
  | nil => cases h
  | cons first body =>
      refine (mapM_eq_ok_iff.mp h).imp ?_
      rintro ⟨value, position⟩ l hl
      simp only at hl ⊢
      cases htext : c.intervalLabels[position]? with
      | none =>
          rw [htext] at hl
          cases hl
      | some text =>
          rw [htext] at hl
          obtain ⟨hvalue, htext'⟩ := Chart.intervalLabel_cases hl
          exact ⟨hvalue, by rw [htext']⟩

omit [Scalar α] in
theorem Chart.getElem?_intervalLabels {values : List Int} {labels : List (IntervalLabel α)}
    (h : List.Forall₂ (fun (ring : Int × Nat) (l : IntervalLabel α) => l.value = ring.1 ∧
      c.intervalLabels[ring.2]? = some l.label.text) values.zipIdx labels) {i : Nat}
    {l : IntervalLabel α} (hl : labels[i]? = some l) :
    c.intervalLabels[i]? = some l.label.text := by
  obtain ⟨hlength, hget⟩ := List.forall₂_iff_get.mp h
  obtain ⟨hi, rfl⟩ := List.getElem?_eq_some_iff.mp hl
  have hat := (hget i (hlength ▸ hi) hi).2
  simpa using hat

end

/-! ## Whole geometries -/

theorem Chart.shapeOf_of_layout {c : Chart} {measure : TextMeasurer α} {g : Geometry α}
    (h : c.layout measure = .ok g) : g.ShapeOf c := by
  simp only [Chart.layout, Chart.geometryAt, bind_eq_ok_iff, pure_eq_ok_iff] at h
  obtain ⟨fit, _, center, _, body, hbody, values, hvalues, rings, hrings, entries, hentries,
    intervalLabels, hintervalLabels, tips, htips, axisLabels, haxisLabels, rfl⟩ := h
  have hcount := Chart.length_of_star hbody
  obtain ⟨hringValues, hringPoints⟩ := Chart.rings_cases hrings
  obtain ⟨htexts, hsizes⟩ := Chart.axisLabels_cases (Chart.length_of_star htips) haxisLabels
  constructor
  · rfl
  · exact (length_placeAll center body).trans hcount
  · exact hringValues ▸ hvalues
  · exact fun r hr => (hringPoints r hr).trans hcount
  · exact (mapM_eq_ok_iff.mp hentries).imp fun _ _ hp => hcount ▸ Chart.polygon_cases hp
  · exact (List.map_map ..).trans htexts
  · exact List.forall_mem_map.mpr hsizes
  · exact fun hhide => Chart.labelRings_hidden hhide hintervalLabels
  · intro hhide
    have hshown := Chart.labelRings_shown hhide hintervalLabels
    refine ⟨?_, fun i l hl => Chart.getElem?_intervalLabels hshown hl⟩
    have hvalue := map_eq_map_of_forall₂ (hshown.imp fun _ _ hl => hl.1)
    exact (hvalue.trans (List.zipIdx_map_fst 0 values)).trans hringValues.symm

/-- A layout has the parts of its chart, in their order and in full, for any chart and measurer.
For a chart that is read from a document, polygons have a point on every spoke, and no look-up in
a list, no distance of rings and no integer divisor makes the layout fail: where it divides by
zero, the divisor is the distance of a tip from the middle. -/
theorem Chart.layout_shape :
    (∀ (c : Chart) (measure : TextMeasurer α) (g : Geometry α),
      c.layout measure = .ok g → g.ShapeOf c) ∧
    ∀ (text : String) (c : Chart), Chart.parse text = .ok c →
      c.NonzeroDivisors ∧ (∀ factor : α, c.star factor ≠ .error .vanishingDivisor) ∧
      ∀ measure : TextMeasurer α,
        (∀ f ∈ [Fault.noSuchElement, .zeroStep, .zeroDivisor],
          (∀ t size, measure t size ≠ .error f) → c.layout measure ≠ .error f) ∧
        ((∀ t size, measure t size ≠ .error .vanishingDivisor) → ¬ c.IsFlat α →
          c.layout measure ≠ .error .vanishingDivisor) ∧
        ∀ g, c.layout measure = .ok g → ∀ p ∈ g.entries, p.points.length = c.radii.length := by
  refine ⟨fun c measure g => Chart.shapeOf_of_layout, ?_⟩
  intro text c hparse
  have hwell := Chart.wellFormed_of_parse hparse
  refine ⟨hwell.nonzeroDivisors, hwell.star_ne_vanishingDivisor, fun measure => ⟨?_, ?_, ?_⟩⟩
  · intro f hf hmeasure hlayout
    cases hwell.onlyFaults_layout f hlayout with
    | measure h => exact hmeasure _ _ h
    | _ => simp at hf
  · intro hmeasure hflat hlayout
    cases hwell.onlyFaults_layout _ hlayout with
    | measure h => exact hmeasure _ _ h
    | vanishingDivisor h => exact hflat h
  · intro g hg p hp
    obtain ⟨e, he, _, hpoints⟩ := exists_left_of_forall₂ (Chart.shapeOf_of_layout hg).entries hp
    rw [hpoints, (hwell.data e he).1, Nat.min_self]

/-- The small chart, with a font in which all texts are of one width. -/
theorem layout_shape_smallChart :
    ∃ (measure : TextMeasurer Exact) (g : Geometry Exact),
      Chart.parse smallDocument = .ok smallChart ∧ smallChart.layout measure = .ok g ∧
      (∀ f t size, measure t size ≠ .error f) ∧ ¬ smallChart.IsFlat Exact ∧
      g.ShapeOf smallChart ∧ smallChart.NonzeroDivisors ∧
      (∀ f ∈ [Fault.noSuchElement, .zeroStep, .zeroDivisor], smallChart.layout measure ≠ .error f) ∧
      smallChart.layout measure ≠ .error .vanishingDivisor ∧
      ∀ p ∈ g.entries, p.points.length = 3 := by
  have hwell := Chart.wellFormed_of_parse parse_smallDocument
  have hmeasure : ∀ t size, ∃ width, (fun _ _ => .ok ⟨5⟩ : TextMeasurer Exact) t size = .ok width :=
    fun _ _ => ⟨_, rfl⟩
  obtain ⟨g, hg⟩ := hwell.exists_layout hmeasure
  have hnever : ∀ f t size, (fun _ _ => .ok ⟨5⟩ : TextMeasurer Exact) t size ≠ .error f := by
    intro f t size h
    cases h
  obtain ⟨hshape, hparsed⟩ := @Chart.layout_shape Exact _
  obtain ⟨hdivisors, _, hparsed⟩ := hparsed smallDocument smallChart parse_smallDocument
  obtain ⟨hfaults, hvanishing, hpoints⟩ := hparsed (fun _ _ => .ok ⟨5⟩)
  exact ⟨_, g, parse_smallDocument, hg, hnever, hwell.not_isFlat, hshape _ _ _ hg, hdivisors,
    fun f hf => hfaults f hf (hnever f), hvanishing (hnever _) hwell.not_isFlat, hpoints g hg⟩

end RadarChart
