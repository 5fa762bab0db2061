import RadarChart.Layout.Geometry
import RadarChart.Proofs.Chart.Soundness
import RadarChart.Proofs.Document.Failure
import RadarChart.Proofs.Layout.Extrema

/-!
# What a layout can fail with

A layout fails only where one of the conversions, quotients and measurements
does that it asks for: every look-up in a list finds its element. So over any
coordinates a chart that satisfies its invariants is laid out or the layout
fails for one of a few reasons, namely a number that has no coordinate, a tip
of the star that stands in the middle, points without extrema, or the measurer.
No divisor that is an integer is zero.
-/

namespace RadarChart

/-! ## Computations with faults of some kind -/

section
variable {β γ : Type} {P : Fault → Prop}

/-- The computation fails with faults of the kind only. -/
def OnlyFaults (P : Fault → Prop) (x : Except Fault β) : Prop :=
  ∀ f, x = .error f → P f

theorem onlyFaults_ok (a : β) : OnlyFaults P (.ok a : Except Fault β) := by
  intro f h
  cases h

theorem onlyFaults_pure (a : β) : OnlyFaults P (pure a : Except Fault β) :=
  onlyFaults_ok a

theorem OnlyFaults.bind {x : Except Fault β} {k : β → Except Fault γ} (hx : OnlyFaults P x)
    (hk : ∀ a, x = .ok a → OnlyFaults P (k a)) : OnlyFaults P (x >>= k) := by
  intro f h
  rcases bind_eq_error_iff.mp h with h | ⟨a, ha, h⟩
  · exact hx f h
  · exact hk a ha f h

theorem onlyFaults_mapM {k : β → Except Fault γ} {xs : List β}
    (h : ∀ x ∈ xs, OnlyFaults P (k x)) : OnlyFaults P (xs.mapM k) := by
  intro f hf
  obtain ⟨before, x, after, rfl, _, hx⟩ := mapM_eq_error_iff.mp hf
  exact h x (List.mem_append_right _ List.mem_cons_self) f hx

/-- A computation that has no fault to fail with gives a result. -/
theorem OnlyFaults.exists_ok {x : Except Fault β} (h : OnlyFaults (fun _ => False) x) :
    ∃ a, x = .ok a := by
  cases x with
  | ok a => exact ⟨a, rfl⟩
  | error f => exact (h f rfl).elim

theorem onlyFaults_of_eq_ok {x : Except Fault β} {a : β} (h : x = .ok a) : OnlyFaults P x :=
  h ▸ onlyFaults_ok a

end

/-! ## The parts of a layout -/

section
variable {α : Type} [Scalar α] {P : Fault → Prop} {measure : TextMeasurer α} {c : Chart}

/-- Whatever the scale factor, all that a layout asks for fails with faults of the
kind only. -/
structure Chart.PartsFail (c : Chart) (P : Fault → Prop) (measure : TextMeasurer α) : Prop where
  center : OnlyFaults P (c.center : Except Fault (Point α))
  sector : OnlyFaults P (Scalar.share Scalar.pi c.radii.length : Except Fault α)
  side : OnlyFaults P (Scalar.ofInt c.shorterSide : Except Fault α)
  textSize : OnlyFaults P (Scalar.ofInt c.textSize : Except Fault α)
  label : ∀ text ∈ c.radii, OnlyFaults P (measure text (.whole c.textSize))
  ringLabel : ∀ text size, OnlyFaults P (measure text (.scaled size))
  ring : ∀ values, c.ringValues = .ok values → ∀ value ∈ values,
    OnlyFaults P (Scalar.quotient value c.scale : Except Fault α)
  entry : ∀ entry ∈ c.entries, ∀ value ∈ entry.data,
    OnlyFaults P (Scalar.quotient value c.scale : Except Fault α)

section
variable (h : c.PartsFail P measure)

include h

theorem Chart.PartsFail.onlyFaults_star (factor : α) : OnlyFaults P (c.star factor) :=
  h.sector.bind fun _ _ => h.side.bind fun _ _ => onlyFaults_pure _

omit h in
theorem onlyFaults_axisLabelsFrom {texts : List String}
    (hlabel : ∀ text ∈ texts, OnlyFaults P (measure text (.whole c.textSize))) (height : α)
    (k : Nat) (tips : List (Point α)) :
    OnlyFaults P (axisLabelsFrom c measure height k texts tips) := by
  induction texts generalizing k tips with
  | nil => exact onlyFaults_ok _
  | cons text texts ih =>
      rw [List.forall_mem_cons] at hlabel
      cases tips with
      | nil => exact onlyFaults_ok _
      | cons tip tips =>
          refine hlabel.1.bind fun _ _ => ?_
          exact (ih hlabel.2 (k + 1) tips).bind fun _ _ => onlyFaults_pure _

theorem Chart.PartsFail.onlyFaults_axisLabels (center : Point α) (offsets : List (Point α)) :
    OnlyFaults P (c.axisLabels measure center offsets) :=
  h.textSize.bind fun _ _ => onlyFaults_axisLabelsFrom h.label _ _ _

theorem Chart.PartsFail.onlyFaults_intervalLabel {value : Int}
    (hvalue : OnlyFaults P (Scalar.quotient value c.scale : Except Fault α)) (center : Point α)
    (textSize size reach : α) (text : String) :
    OnlyFaults P (c.intervalLabel measure center textSize size reach value text) :=
  (h.ringLabel _ _).bind fun _ _ => hvalue.bind fun _ _ => onlyFaults_pure _

/-- Where there is a spoke and a label for each ring, every look-up finds its element. -/
theorem Chart.PartsFail.onlyFaults_labelRings (center : Point α) {body : List (Point α)}
    (hbody : body ≠ []) {values : List Int} (hvalues : c.ringValues = .ok values)
    (hlabels : values.length ≤ c.intervalLabels.length) :
    OnlyFaults P (c.labelRings measure center body values) := by
  unfold Chart.labelRings
  split
  · exact onlyFaults_ok _
  · refine h.textSize.bind fun _ _ => ?_
    cases body with
    | nil => exact absurd rfl hbody
    | cons first body =>
        refine onlyFaults_mapM ?_
        rintro ⟨value, position⟩ hmem
        have hposition : position < c.intervalLabels.length := by
          obtain ⟨_, hlt, _⟩ := List.mem_zipIdx hmem
          omega
        have hvalue := h.ring values hvalues value (List.fst_mem_of_mem_zipIdx hmem)
        simp only [List.getElem?_eq_getElem hposition]
        exact h.onlyFaults_intervalLabel hvalue _ _ _ _ _

end

theorem Chart.length_of_star {factor : α} {offsets : List (Point α)}
    (h : c.star factor = .ok offsets) : offsets.length = c.radii.length := by
  simp only [Chart.star, bind_eq_ok_iff, pure_eq_ok_iff] at h
  obtain ⟨_, _, _, _, rfl⟩ := h
  rw [List.length_map, List.length_range]

/-! ## Charts that satisfy their invariants -/

omit [Scalar α] in
theorem Chart.WellFormed.shorterSide_pos (h : c.WellFormed) : 0 < c.shorterSide := by
  have hwidth := h.width
  have hheight := h.height
  unfold Chart.shorterSide
  omega

/-- No integer that a layout divides by is zero. -/
structure Chart.NonzeroDivisors (c : Chart) : Prop where
  side : c.shorterSide ≠ 0
  count : c.radii.length ≠ 0
  scale : c.scale ≠ 0
  step : ∀ step, c.intervals = some step → step ≠ 0

omit [Scalar α] in
theorem Chart.WellFormed.nonzeroDivisors (h : c.WellFormed) : c.NonzeroDivisors := by
  have hcount := h.radii
  have hscale := h.scale
  refine ⟨h.shorterSide_pos.ne', by omega, by omega, fun step hstep => ?_⟩
  have hpos := (h.intervals step hstep).1
  omega

/-- The rings can be listed, and each has a label at its position. -/
theorem Chart.WellFormed.exists_ringValues (h : c.WellFormed) :
    ∃ values, c.ringValues = .ok values ∧ values.length ≤ c.intervalLabels.length := by
  have hrings := h.ringsFit
  unfold Chart.RingsFit at hrings
  split at hrings
  · exact ⟨[], hrings, Nat.zero_le _⟩
  · obtain ⟨values, hvalues, _, _, _, _, _, hlabels⟩ := hrings
    exact ⟨values, hvalues, hlabels.ge⟩

theorem Chart.WellFormed.onlyFaults_geometryAt (h : c.WellFormed) (hparts : c.PartsFail P measure)
    (factor : α) : OnlyFaults P (c.geometryAt measure factor) := by
  obtain ⟨values, hvalues, hlabels⟩ := h.exists_ringValues
  refine hparts.center.bind fun center _ => (hparts.onlyFaults_star _).bind fun body hbody => ?_
  have hne : body ≠ [] := by
    rintro rfl
    exact h.nonzeroDivisors.count (Chart.length_of_star hbody).symm
  refine (onlyFaults_of_eq_ok hvalues).bind fun values' hvalues' => ?_
  obtain rfl : values = values' := Except.ok.inj (hvalues.symm.trans hvalues')
  have hrings : OnlyFaults P (values.mapM (c.ring center body)) :=
    onlyFaults_mapM fun value hvalue =>
      (hparts.ring values hvalues value hvalue).bind fun _ _ => onlyFaults_pure _
  have hentries : OnlyFaults P (c.entries.mapM (c.polygon center body)) :=
    onlyFaults_mapM fun entry hentry =>
      (onlyFaults_mapM (hparts.entry entry hentry)).bind fun _ _ => onlyFaults_pure _
  refine hrings.bind fun _ _ => ?_
  refine hentries.bind fun _ _ => ?_
  refine (hparts.onlyFaults_labelRings center hne hvalues hlabels).bind fun _ _ => ?_
  refine (hparts.onlyFaults_star factor).bind fun tips _ => ?_
  exact (hparts.onlyFaults_axisLabels center tips).bind fun _ _ => onlyFaults_pure _

/-! ## The reasons for which a layout may fail -/

/-- At full size no tip of the star is off the middle to the left, or none is off it upwards. -/
def Chart.IsFlat (c : Chart) (α : Type) [Scalar α] : Prop :=
  ∃ (center : Point α) (tips : List (Point α)) (box : Extrema α),
    c.center = .ok center ∧ c.star 1.0 = .ok tips ∧
    Extrema.ofPoints (placeAll center tips) = .ok box ∧
    (Scalar.isZero (center.x - box.left) = true ∨ Scalar.isZero (center.y - box.top) = true)

inductive LayoutFault (c : Chart) (measure : TextMeasurer α) : Fault → Prop where
  | integerTooLarge : LayoutFault c measure .integerTooLarge
  | quotientTooLarge : LayoutFault c measure .quotientTooLarge
  | vanishingDivisor : c.IsFlat α → LayoutFault c measure .vanishingDivisor
  | noPoints : LayoutFault c measure .noPoints
  | measure {text : String} {size : FontSize α} {f : Fault} : measure text size = .error f →
      LayoutFault c measure f

theorem onlyFaults_ofInt (h : P .integerTooLarge) (n : Int) :
    OnlyFaults P (Scalar.ofInt n : Except Fault α) := by
  intro f hf
  unfold Scalar.ofInt at hf
  split at hf
  · cases hf
  · cases hf
    exact h

theorem onlyFaults_quotient (h : P .quotientTooLarge) (a : Int) {b : Int} (hb : b ≠ 0) :
    OnlyFaults P (Scalar.quotient a b : Except Fault α) := by
  intro f hf
  unfold Scalar.quotient at hf
  rw [if_neg hb] at hf
  split at hf
  · cases hf
  · cases hf
    exact h

theorem onlyFaults_share (a : α) {count : Nat} (hcount : count ≠ 0) :
    OnlyFaults P (Scalar.share a count) :=
  onlyFaults_of_eq_ok (Scalar.share_eq_ok_iff.mpr ⟨hcount, rfl⟩)

theorem onlyFaults_divide (a : α) {b : α} (h : Scalar.isZero b = true → P .vanishingDivisor) :
    OnlyFaults P (Scalar.divide a b) := by
  intro f hf
  unfold Scalar.divide at hf
  split at hf
  · rename_i hzero
    cases hf
    exact h hzero
  · cases hf

theorem onlyFaults_shrinkFactor {half low : α}
    (h : Scalar.isZero (half - low) = true → c.IsFlat α) (reach : α) :
    OnlyFaults (LayoutFault c measure) (shrinkFactor half low reach) :=
  onlyFaults_divide _ fun hzero => .vanishingDivisor (h hzero)

theorem onlyFaults_ofPoints (ps : List (Point α)) :
    OnlyFaults (LayoutFault c measure) (Extrema.ofPoints ps) := by
  intro f h
  rw [Extrema.ofPoints_eq_error h]
  exact .noPoints

theorem onlyFaults_measure (text : String) (size : FontSize α) :
    OnlyFaults (LayoutFault c measure) (measure text size) :=
  fun _ h => .measure h

section
variable (h : c.WellFormed)

include h

theorem Chart.WellFormed.partsFail : c.PartsFail (LayoutFault c measure) measure where
  center := (onlyFaults_quotient .quotientTooLarge _ (by decide)).bind fun _ _ =>
    (onlyFaults_quotient .quotientTooLarge _ (by decide)).bind fun _ _ => onlyFaults_pure _
  sector := onlyFaults_share _ h.nonzeroDivisors.count
  side := onlyFaults_ofInt .integerTooLarge _
  textSize := onlyFaults_ofInt .integerTooLarge _
  label _ _ := onlyFaults_measure _ _
  ringLabel _ _ := onlyFaults_measure _ _
  ring _ _ value _ := onlyFaults_quotient .quotientTooLarge value h.nonzeroDivisors.scale
  entry _ _ value _ := onlyFaults_quotient .quotientTooLarge value h.nonzeroDivisors.scale

/-- Half a sector is a share of half the circle, and there are spokes to share it. -/
theorem Chart.WellFormed.star_ne_vanishingDivisor (factor : α) :
    c.star factor ≠ .error .vanishingDivisor := by
  have hside : OnlyFaults (· = .integerTooLarge) (Scalar.ofInt c.shorterSide : Except Fault α) :=
    onlyFaults_ofInt (P := (· = .integerTooLarge)) rfl _
  have hstar : OnlyFaults (· = .integerTooLarge) (c.star factor) :=
    (onlyFaults_share _ h.nonzeroDivisors.count).bind fun _ _ =>
      hside.bind fun _ _ => onlyFaults_pure _
  intro hfault
  cases hstar _ hfault

/-- A fit divides by the distances of the tips farthest to the left and farthest up from the
middle, and by nothing else that can be zero. -/
theorem Chart.WellFormed.onlyFaults_fitExtrema {center : Point α} {points : Extrema α}
    (hcenter : c.center = .ok center)
    (hflat : Scalar.isZero (center.x - points.left) = true ∨
      Scalar.isZero (center.y - points.top) = true → c.IsFlat α) (labels : Extrema α) :
    OnlyFaults (LayoutFault c measure) (c.fitExtrema points labels) := by
  have hmargin : OnlyFaults (LayoutFault c measure) (c.marginFraction : Except Fault α) :=
    (onlyFaults_quotient .quotientTooLarge _ h.nonzeroDivisors.side).bind fun _ _ =>
      onlyFaults_pure _
  have hside : ∀ n : Int, OnlyFaults (LayoutFault c measure) (Scalar.ofInt n : Except Fault α) :=
    onlyFaults_ofInt .integerTooLarge
  simp only [Chart.center, bind_eq_ok_iff, pure_eq_ok_iff] at hcenter
  obtain ⟨x, hx, y, hy, rfl⟩ := hcenter
  refine hmargin.bind fun _ _ => ?_
  refine (hside c.width).bind fun _ _ => ?_
  refine (hside c.height).bind fun _ _ => ?_
  rw [hx, hy]
  refine (onlyFaults_ok x).bind fun _ hx => ?_
  cases hx
  refine (onlyFaults_ok y).bind fun _ hy => ?_
  cases hy
  refine (onlyFaults_shrinkFactor (fun hzero => hflat (Or.inl hzero)) _).bind fun _ _ => ?_
  refine (onlyFaults_shrinkFactor (fun hzero => hflat (Or.inr hzero)) _).bind fun _ _ => ?_
  exact onlyFaults_pure _

theorem Chart.WellFormed.onlyFaults_fit : OnlyFaults (LayoutFault c measure) (c.fit measure) := by
  have hparts : c.PartsFail (LayoutFault c measure) measure := h.partsFail
  refine hparts.center.bind fun center hcenter => ?_
  refine (hparts.onlyFaults_star 1.0).bind fun tips htips => ?_
  refine (onlyFaults_ofPoints _).bind fun points hpoints => ?_
  refine (hparts.onlyFaults_axisLabels center tips).bind fun labels _ => ?_
  refine (onlyFaults_ofPoints _).bind fun box _ => ?_
  exact h.onlyFaults_fitExtrema hcenter
    (fun hzero => ⟨center, tips, points, hcenter, htips, hpoints, hzero⟩) box

/-- A chart that satisfies its invariants is laid out, or one of few things goes wrong. -/
theorem Chart.WellFormed.onlyFaults_layout :
    OnlyFaults (LayoutFault c measure) (c.layout measure) :=
  h.onlyFaults_fit.bind fun _ _ => h.onlyFaults_geometryAt h.partsFail _

end

end

end RadarChart
