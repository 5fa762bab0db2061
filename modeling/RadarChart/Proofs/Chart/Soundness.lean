import RadarChart.Proofs.Chart.Reading
import RadarChart.Proofs.Chart.Ring
import RadarChart.Proofs.Document.Line

/-!
# What every chart read from a document satisfies

`Chart.WellFormed` is what a drawing relies on and does not check: sizes and
counts of at least their minimum, a number for each radius in every entry, and
rings that divide the scale and have their labels. Every reading that succeeds
gives such a chart, whatever the document.
-/

namespace RadarChart

/-- The invariants of a chart. -/
structure Chart.WellFormed (c : Chart) : Prop where
  width : 1 ≤ c.width
  height : 1 ≤ c.height
  margin : 0 ≤ c.margin
  textSize : 8 ≤ c.textSize
  mainStrokeWidth : 1 ≤ c.mainStrokeWidth
  entryStrokeWidth : 1 ≤ c.entryStrokeWidth
  scale : 1 ≤ c.scale
  radii : 3 ≤ c.radii.length
  entries : 1 ≤ c.entries.length
  data : ∀ e ∈ c.entries, e.data.length = c.radii.length ∧ ∀ n ∈ e.data, 0 ≤ n
  top : c.top ∈ topWords.map (·.2)
  intervals : ∀ step ∈ c.intervals, 1 ≤ step ∧ step < c.scale ∧ step ∣ c.scale
  intervalLabels : ∀ step ∈ c.intervals, (c.intervalLabels.length : Int) = c.scale / step + 1

/-- The rings of a chart go up from 0 to its scale in at least two steps, and
there are as many labels as rings. A chart without a distance has no rings. -/
def Chart.RingsFit (c : Chart) : Prop :=
  match c.intervals with
  | none => c.ringValues = .ok []
  | some step => ∃ values, c.ringValues = .ok values ∧ values.Pairwise (· < ·) ∧
      values.head? = some 0 ∧ values.getLast? = some c.scale ∧
      (values.length : Int) = c.scale / step + 1 ∧ 3 ≤ values.length ∧
      c.intervalLabels.length = values.length

theorem Chart.WellFormed.ringsFit {c : Chart} (h : c.WellFormed) : c.RingsFit := by
  unfold Chart.RingsFit
  split <;> rename_i hintervals
  · rw [Chart.ringValues, hintervals]
  · rename_i step
    obtain ⟨hpos, hlt, hdvd⟩ := h.intervals step hintervals
    have hlabels := h.intervalLabels step hintervals
    have hstep : 0 < step := by omega
    have hscale : 0 ≤ c.scale := by omega
    -- a divisor below the scale goes into it at least twice
    have hquot : 2 ≤ c.scale / step := by
      obtain ⟨k, hk⟩ := hdvd
      rw [hk, Int.mul_ediv_cancel_left k (by omega)]
      rw [hk] at hlt
      by_contra hsmall
      have hone : step * k ≤ step * 1 := Int.mul_le_mul_of_nonneg_left (by omega) (by omega)
      omega
    have hlength : (ringSteps c.scale step).length = (c.scale / step + 1).toNat :=
      length_ringSteps hstep
    refine ⟨ringSteps c.scale step, ?_, pairwise_ringSteps hstep, head?_ringSteps hstep hscale,
      getLast?_ringSteps hstep hscale hdvd, ?_, ?_, ?_⟩
    · rw [Chart.ringValues, hintervals]
      simp only
      rw [if_neg (by omega)]
    all_goals omega

/-! ## What is said is in range -/

theorem said_of_firstValue? {α : Type} {items : List Item} {ss : List Statement}
    {f : Fact → Option α} {value : α} {fact : Fact}
    (h : List.Forall₂ (fun item s => s.IsOf item) items ss)
    (hf : ∀ g, f g = some value → g = fact) (hvalue : firstValue? f ss = some value) :
    Said items fact := by
  obtain ⟨stated, hstated, rfl⟩ := Option.map_eq_some_iff.mp hvalue
  obtain ⟨s, hs, _, hfact⟩ := exists_of_firstStated? hstated
  rw [← hf _ hfact]
  exact said_of_mem h hs

section
variable {items : List Item}

theorem Said.size_pos {width height : Nat} (h : Said items (.size width height)) :
    1 ≤ width ∧ 1 ≤ height := by
  obtain ⟨_, _, hvalue⟩ := h.exists_value rfl
  cases hvalue with
  | size _ _ _ hwidth hheight => exact ⟨hwidth, hheight⟩

theorem Said.minimum_le {q : Quantity} {n : Nat} (h : Said items (.quantity q n)) :
    q.minimum ≤ n := by
  obtain ⟨_, _, hvalue⟩ := h.exists_value rfl
  cases hvalue with
  | quantity _ hmin => exact hmin

theorem Said.step_pos {step : Nat} (h : Said items (.intervals (some step))) : 1 ≤ step := by
  obtain ⟨_, _, hvalue⟩ := h.exists_value rfl
  cases hvalue with
  | rings _ hmin => exact hmin

theorem Said.top_mem {o : Orientation} (h : Said items (.top o)) : o ∈ topWords.map (·.2) := by
  obtain ⟨_, _, hvalue⟩ := h.exists_value rfl
  cases hvalue with
  | top hmem _ => exact List.mem_map.mpr ⟨_, hmem, rfl⟩

end

/-! ## Readings -/

/-- A radius that is counted has a label, so none is left out. -/
theorem isSome_firstValue?_radius {ss : List Statement} {count : Nat}
    (h : covers (ss.filterMap (·.fact.radiusNumber?)) count = true) :
    ∀ n ∈ List.range' 1 count, (firstValue? (·.radius? n) ss).isSome := by
  intro n hn
  obtain ⟨hpos, hle⟩ := List.mem_range'_1.mp hn
  have hmem := (covers_iff.mp h n).mpr ⟨hpos, by omega⟩
  obtain ⟨s, hs, hnumber⟩ := List.mem_filterMap.mp hmem
  obtain ⟨label, hlabel⟩ := Fact.radiusNumber?_eq_some_iff.mp hnumber
  obtain ⟨stated, hstated⟩ := exists_firstStated? hs (Fact.radius?_eq_some_iff.mpr hlabel)
  rw [firstValue?, hstated]
  rfl

theorem length_radiusLabels {ss : List Statement} {radii : Stated Nat} {labels : List String}
    (h : radiusLabels ss radii = .ok labels) : labels.length = radii.value := by
  obtain ⟨hcovers, rfl⟩ := radiusLabels_eq_ok_iff.mp h
  rw [List.filterMap_length_eq_length.mpr (isSome_firstValue?_radius hcovers), List.length_range']

/-- Without labels of their own the rings have their values, one each. -/
theorem length_ringLabels {scale step : Nat} {given : Option (Stated (List String))}
    {labels : List String} (hstep : 1 ≤ step)
    (h : ringLabels scale (some step) given = .ok labels) :
    labels.length = scale / step + 1 := by
  rw [ringLabels_eq_ok_iff] at h
  cases given with
  | none =>
      simp only at h
      rw [← h, List.length_map, length_ringSteps_natCast hstep]
  | some stated =>
      obtain ⟨_, hlength, hvalue⟩ := h
      rw [← hvalue, hlength]

theorem Chart.wellFormed_of_ofItems {items : List Item} {c : Chart}
    (h : Chart.ofItems items = .ok c) : c.WellFormed := by
  simp only [Chart.ofItems, bind_eq_ok_iff] at h
  obtain ⟨ss, hss, h⟩ := h
  obtain ⟨hofs, _, _⟩ := forall₂_isOf_of_readStatementsFrom hss
  obtain ⟨o, radii, labels, entries, ho, hfits, hradii, _, hlabels, hentries, rfl⟩ :=
    Chart.ofStatements_eq_ok_iff.mp h
  have hquantity : ∀ {q : Quantity} {n : Nat}, firstValue? (·.quantity? q) ss = some n →
      q.minimum ≤ n := by
    intro q n hn
    exact (said_of_firstValue? hofs (fun _ => Fact.quantity?_eq_some_iff.mp) hn).minimum_le
  have hsize : 1 ≤ o.size.1 ∧ 1 ≤ o.size.2 :=
    (said_of_firstValue? hofs (fun _ => Fact.size?_eq_some_iff.mp) ho.size).size_pos
  have htop : o.top ∈ topWords.map (·.2) :=
    (said_of_firstValue? hofs (fun _ => Fact.top?_eq_some_iff.mp) ho.top).top_mem
  have hstep : ∀ step, o.intervals.value = some step → 1 ≤ step := by
    intro step hstep
    have hvalue := ho.value_intervals
    rw [hstep] at hvalue
    exact (said_of_firstValue? hofs (fun _ => Fact.intervals?_eq_some_iff.mp) hvalue).step_pos
  have hradiiLength : radii.length = o.radii.value := length_radiusLabels hradii
  have hradiiMin : Quantity.radii.minimum ≤ o.radii.value :=
    hquantity ho.value_radii
  have hentriesMin : Quantity.entries.minimum ≤ o.entries.value :=
    hquantity ho.value_entries
  constructor
  · exact Int.ofNat_le.mpr hsize.1
  · exact Int.ofNat_le.mpr hsize.2
  · exact Int.natCast_nonneg _
  · exact Int.ofNat_le.mpr (hquantity ho.textSize)
  · exact Int.ofNat_le.mpr (hquantity ho.mainStrokeWidth)
  · exact Int.ofNat_le.mpr (hquantity ho.entryStrokeWidth)
  · exact Int.ofNat_le.mpr (hquantity ho.scale)
  · exact hradiiLength ▸ hradiiMin
  · have hlength := hentries.length_eq
    rw [List.length_range'] at hlength
    exact hlength ▸ hentriesMin
  · intro e he
    obtain ⟨n, _, hread⟩ := exists_left_of_forall₂ hentries he
    obtain ⟨color, data, _, _, hlength, rfl⟩ := readEntry_eq_ok_iff.mp hread
    refine ⟨?_, ?_⟩
    · show (data.value.map Int.ofNat).length = radii.length
      rw [List.length_map, hlength, hradiiLength]
    · intro k hk
      obtain ⟨m, _, rfl⟩ := List.mem_map.mp hk
      exact Int.natCast_nonneg m
  · exact htop
  · intro step hmem
    obtain ⟨k, hk, rfl⟩ := Option.map_eq_some_iff.mp hmem
    obtain ⟨hlt, hdvd⟩ := fitsScale_iff.mp hfits k hk
    exact ⟨Int.ofNat_le.mpr (hstep k hk), Int.ofNat_lt.mpr hlt, Int.natCast_dvd_natCast.mpr hdvd⟩
  · intro step hmem
    obtain ⟨k, hk, rfl⟩ := Option.map_eq_some_iff.mp hmem
    rw [hk] at hlabels
    have hlength := length_ringLabels (hstep k hk) hlabels
    show (labels.length : Int) = (o.scale : Int) / (k : Int) + 1
    rw [hlength, ← Int.natCast_ediv]
    rfl

theorem Chart.wellFormed_of_parse {text : String} {c : Chart} (h : Chart.parse text = .ok c) :
    c.WellFormed := by
  simp only [Chart.parse, bind_eq_ok_iff] at h
  obtain ⟨items, _, h⟩ := h
  exact Chart.wellFormed_of_ofItems h

/-- Every chart that is read, from a text or from any items, satisfies the
invariants, and its rings and their labels fit together. -/
theorem Chart.wellFormed_of_reading :
    (∀ (text : String) (c : Chart), Chart.parse text = .ok c → c.WellFormed ∧ c.RingsFit) ∧
      ∀ (items : List Item) (c : Chart), Chart.ofItems items = .ok c →
        c.WellFormed ∧ c.RingsFit := by
  have hitems : ∀ (items : List Item) (c : Chart), Chart.ofItems items = .ok c →
      c.WellFormed ∧ c.RingsFit := by
    intro items c h
    have hc : c.WellFormed := Chart.wellFormed_of_ofItems h
    exact ⟨hc, hc.ringsFit⟩
  refine ⟨?_, hitems⟩
  intro text c h
  simp only [Chart.parse, bind_eq_ok_iff] at h
  obtain ⟨items, _, h⟩ := h
  exact hitems items c h

/-- A small document, with a few lines that continue others. -/
def smallLines : List String :=
  [ "size: 9 x 8", "margin: 0", "background:", "text  color:", "     size: 8",
    "stroke color: red", "main stroke width: 1", "entry stroke width: 1", "filled entries: no",
    "scale: 2", "intervals: 1", "top: last side", "radii: 3", "radius 1: a", " 2: b", " 3: c",
    "entries: 1", "entry 1 data: 1 0 2", " color: x" ]

def smallDocument : String :=
  String.join (smallLines.map (· ++ "\n"))

def smallChart : Chart :=
  { width := 9, height := 8, margin := 0, background := "", textColor := ""
    strokeColor := "red", intervalBackground := "", intervalStrokeColor := "", textSize := 8
    mainStrokeWidth := 1, entryStrokeWidth := 1, filledEntries := false, scale := 2
    intervals := some 1, top := .lastSide, radii := ["a", "b", "c"]
    entries := [⟨"x", [1, 0, 2]⟩], intervalLabels := ["0", "1", "2"], hideLabels := false }

theorem parse_smallDocument : Chart.parse smallDocument = .ok smallChart := by
  rw [Chart.parse, readItems, readLines, smallDocument, ← document, toList_document]
  decide +kernel

theorem wellFormed_smallChart :
    (smallChart.WellFormed ∧ smallChart.RingsFit) ∧
      ∃ items, readItems smallDocument = .ok items ∧ Chart.ofItems items = .ok smallChart ∧
        smallChart.WellFormed ∧ smallChart.RingsFit := by
  refine ⟨Chart.wellFormed_of_reading.1 smallDocument smallChart parse_smallDocument, ?_⟩
  have hparse := parse_smallDocument
  simp only [Chart.parse, bind_eq_ok_iff] at hparse
  obtain ⟨items, hitems, hchart⟩ := hparse
  exact ⟨items, hitems, hchart, Chart.wellFormed_of_reading.2 items smallChart hchart⟩

end RadarChart
