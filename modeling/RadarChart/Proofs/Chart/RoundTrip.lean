import RadarChart.Proofs.Chart.Soundness
import RadarChart.Proofs.Document.Printing

/-!
# Charts as documents

A chart is written as one line for each thing that a document states about it.
The lines may stand in any order: as no two of them are about the same thing,
every look-up finds the one fact about it, and the reading gives the chart
back.
-/

namespace RadarChart

open Text

/-! ## The document of a chart -/

/-- The labels that the rings have when a document gives none. -/
def Chart.defaultLabels (c : Chart) : List String :=
  match c.intervals with
  | none => []
  | some step => (ringSteps c.scale step).map toString

/-- A document must state the labels of the rings. -/
def Chart.StatesLabels (c : Chart) : Prop :=
  c.intervalLabels ≠ [] ∧ c.intervalLabels ≠ c.defaultLabels

instance (c : Chart) : Decidable c.StatesLabels :=
  inferInstanceAs (Decidable (_ ∧ _))

def Chart.propertyFacts (c : Chart) : List Fact :=
  [ .size c.width.toNat c.height.toNat, .quantity .margin c.margin.toNat,
    .paint .background c.background, .paint .text c.textColor,
    .quantity .textSize c.textSize.toNat, .paint .stroke c.strokeColor,
    .quantity .mainStrokeWidth c.mainStrokeWidth.toNat,
    .quantity .entryStrokeWidth c.entryStrokeWidth.toNat,
    .flag .filledEntries c.filledEntries, .quantity .scale c.scale.toNat,
    .intervals (c.intervals.map Int.toNat), .top c.top, .quantity .radii c.radii.length,
    .quantity .entries c.entries.length, .paint .intervalBackground c.intervalBackground,
    .paint .intervalStroke c.intervalStrokeColor, .flag .hideLabels c.hideLabels ] ++
  if c.StatesLabels then [.intervalLabels c.intervalLabels] else []

/-- What a document states about the chart, each thing once. -/
def Chart.facts (c : Chart) : List Fact :=
  c.propertyFacts ++ (c.radii.mapIdx fun i label => .radius (i + 1) label) ++
    (c.entries.mapIdx fun i e => .entryData (i + 1) (e.data.map Int.toNat)) ++
    c.entries.mapIdx fun i e => .entryColor (i + 1) e.color

def Chart.lines (c : Chart) : List String :=
  c.facts.map Fact.text

def Chart.integers (c : Chart) : List Int :=
  [c.width, c.height, c.margin, c.textSize, c.mainStrokeWidth, c.entryStrokeWidth, c.scale,
    c.radii.length, c.entries.length] ++ c.intervals.toList ++ c.entries.flatMap (·.data)

/-- The texts that a document gives as they are. -/
def Chart.texts (c : Chart) : List String :=
  [c.background, c.textColor, c.strokeColor, c.intervalBackground, c.intervalStrokeColor] ++
    c.radii ++ c.entries.map (·.color)

/-- The charts that a document can describe. -/
structure Chart.Writable (c : Chart) : Prop where
  wellFormed : c.WellFormed
  integers : ∀ n ∈ c.integers, n < 10 ^ 4299
  texts : ∀ text ∈ c.texts, IsPlain text.toList
  labels : c.StatesLabels → ∀ label ∈ c.intervalLabels, IsWord label.toList

/-! ## The facts are distinct and writable -/

section
variable {c : Chart}

theorem map_mapIdx_eq_map_range {α β γ : Type} {xs : List α} {f : Nat → α → β} {g : β → γ}
    {h : Nat → γ} (hg : ∀ i x, g (f i x) = h i) :
    (xs.mapIdx f).map g = (List.range xs.length).map h := by
  apply List.ext_getElem
  · simp
  · intro i hi _
    simp [hg]

theorem Chart.map_target_propertyFacts :
    c.propertyFacts.map Fact.target =
      (if c.StatesLabels then Property.all else Property.all.dropLast).map .property := by
  unfold Chart.propertyFacts
  split <;> rfl

/-- No two facts of a chart are about the same thing. -/
theorem Chart.nodup_targets : (c.facts.map Fact.target).Nodup := by
  have hradii : (c.radii.mapIdx fun i label => Fact.radius (i + 1) label).map Fact.target =
      (List.range c.radii.length).map fun i => .radius (i + 1) :=
    map_mapIdx_eq_map_range fun _ _ => rfl
  have hdata : (c.entries.mapIdx fun i e => Fact.entryData (i + 1) (e.data.map Int.toNat)).map
      Fact.target = (List.range c.entries.length).map fun i => .entryData (i + 1) :=
    map_mapIdx_eq_map_range fun _ _ => rfl
  have hcolors : (c.entries.mapIdx fun i e => Fact.entryColor (i + 1) e.color).map Fact.target =
      (List.range c.entries.length).map fun i => .entryColor (i + 1) :=
    map_mapIdx_eq_map_range fun _ _ => rfl
  have hproperties : (if c.StatesLabels then Property.all else Property.all.dropLast).Nodup := by
    split <;> decide
  rw [Chart.facts, List.map_append, List.map_append, List.map_append, hradii, hdata, hcolors,
    Chart.map_target_propertyFacts]
  refine List.Nodup.append (List.Nodup.append (List.Nodup.append ?_ ?_ ?_) ?_ ?_) ?_ ?_
  · exact hproperties.map fun p q h => Target.property.inj h
  · exact List.nodup_range.map fun i j h => Nat.succ.inj (Target.radius.inj h)
  · intro t ht hu
    obtain ⟨_, _, rfl⟩ := List.mem_map.mp ht
    obtain ⟨_, _, h⟩ := List.mem_map.mp hu
    cases h
  · exact List.nodup_range.map fun i j h => Nat.succ.inj (Target.entryData.inj h)
  · intro t ht hu
    obtain ⟨_, _, rfl⟩ := List.mem_map.mp hu
    simp at ht
  · exact List.nodup_range.map fun i j h => Nat.succ.inj (Target.entryColor.inj h)
  · intro t ht hu
    obtain ⟨_, _, rfl⟩ := List.mem_map.mp hu
    simp at ht

theorem Chart.radius_mem_facts {n : Nat} {label : String} :
    .radius n label ∈ c.facts ↔
      ∃ i, i + 1 = n ∧ ∃ _ : i < c.radii.length, c.radii[i] = label := by
  simp [Chart.facts, Chart.propertyFacts, List.mem_mapIdx]

theorem Chart.entryData_mem_facts {n : Nat} {values : List Nat} :
    .entryData n values ∈ c.facts ↔
      ∃ i, i + 1 = n ∧ ∃ _ : i < c.entries.length, c.entries[i].data.map Int.toNat = values := by
  simp [Chart.facts, Chart.propertyFacts, List.mem_mapIdx]

theorem Chart.entryColor_mem_facts {n : Nat} {color : String} :
    .entryColor n color ∈ c.facts ↔
      ∃ i, i + 1 = n ∧ ∃ _ : i < c.entries.length, c.entries[i].color = color := by
  simp [Chart.facts, Chart.propertyFacts, List.mem_mapIdx]

theorem Chart.intervalLabels_mem_facts {labels : List String} :
    .intervalLabels labels ∈ c.facts ↔ c.StatesLabels ∧ c.intervalLabels = labels := by
  simp [Chart.facts, Chart.propertyFacts, eq_comm]

theorem toNat_lt_pow {n : Int} {limit : Nat} (h : n < 10 ^ limit) : n.toNat < 10 ^ limit := by
  rw [Int.toNat_lt' (Nat.pow_pos (by decide)), Int.natCast_pow]
  exact h

theorem isShort_toNat {n : Int} {limit : Nat} (h : n < 10 ^ limit) (hle : limit ≤ digitLimit) :
    IsShort n.toNat :=
  Nat.lt_of_lt_of_le (toNat_lt_pow h) (Nat.pow_le_pow_right (by decide) hle)

theorem toNat_succ_lt {n : Int} {limit : Nat} (h : n < 10 ^ limit) (hlt : limit < digitLimit) :
    n.toNat + 1 < 10 ^ digitLimit :=
  Nat.lt_of_le_of_lt (toNat_lt_pow h) (Nat.pow_lt_pow_right (by decide) hlt)

theorem Fact.writable_of_property {fact : Fact} {p : Property} (hp : fact.target = .property p)
    (h : fact.ValueWritable) : fact.Writable := by
  refine ⟨?_, h⟩
  rw [hp]
  intro n hn
  cases hn

theorem Chart.Writable.isShort (h : c.Writable) {n : Int} (hn : n ∈ c.integers) :
    IsShort n.toNat :=
  isShort_toNat (h.integers n hn) (by decide)

theorem Chart.Writable.of_mem_propertyFacts (h : c.Writable) :
    ∀ fact ∈ c.propertyFacts, fact.Writable := by
  have hwell := h.wellFormed
  have hsize : (Fact.size c.width.toNat c.height.toNat).Writable := by
    have hwidth := hwell.width
    have hheight := hwell.height
    refine Fact.writable_of_property rfl ⟨⟨by omega, h.isShort ?_⟩, by omega, h.isShort ?_⟩
    all_goals simp [Chart.integers]
  have hquantity : ∀ {q : Quantity} {n : Int}, (q.minimum : Int) ≤ n → n ∈ c.integers →
      (Fact.quantity q n.toNat).Writable := by
    intro q n hmin hn
    exact Fact.writable_of_property rfl ⟨by omega, h.isShort hn⟩
  have hpaint : ∀ {p : Paint} {text : String}, text ∈ c.texts → (Fact.paint p text).Writable := by
    intro p text htext
    exact Fact.writable_of_property rfl (h.texts text htext)
  have hflag : ∀ {f : Flag} {value : Bool}, (Fact.flag f value).Writable :=
    Fact.writable_of_property rfl trivial
  have hintervals : (Fact.intervals (c.intervals.map Int.toNat)).Writable := by
    refine Fact.writable_of_property rfl ?_
    cases hstep : c.intervals with
    | none => exact trivial
    | some step =>
        obtain ⟨hpos, _⟩ := hwell.intervals step hstep
        have hmem : step ∈ c.integers := by simp [Chart.integers, hstep]
        exact ⟨by omega, h.isShort hmem⟩
  have htop : (Fact.top c.top).Writable := Fact.writable_of_property rfl hwell.top
  have hlabels : c.StatesLabels → (Fact.intervalLabels c.intervalLabels).Writable := by
    intro hstates
    exact Fact.writable_of_property rfl ⟨hstates.1, h.labels hstates⟩
  intro fact hfact
  simp only [Chart.propertyFacts, List.mem_append, List.mem_cons, List.not_mem_nil, or_false]
    at hfact
  rcases hfact with (rfl | rfl | rfl | rfl | rfl | rfl | rfl | rfl | rfl | rfl | rfl | rfl | rfl |
    rfl | rfl | rfl | rfl) | hfact
  · exact hsize
  · exact hquantity hwell.margin (by simp [Chart.integers])
  · exact hpaint (by simp [Chart.texts])
  · exact hpaint (by simp [Chart.texts])
  · exact hquantity hwell.textSize (by simp [Chart.integers])
  · exact hpaint (by simp [Chart.texts])
  · exact hquantity hwell.mainStrokeWidth (by simp [Chart.integers])
  · exact hquantity hwell.entryStrokeWidth (by simp [Chart.integers])
  · exact hflag
  · exact hquantity hwell.scale (by simp [Chart.integers])
  · exact hintervals
  · exact htop
  · exact hquantity (Int.ofNat_le.mpr hwell.radii) (by simp [Chart.integers])
  · exact hquantity (Int.ofNat_le.mpr hwell.entries) (by simp [Chart.integers])
  · exact hpaint (by simp [Chart.texts])
  · exact hpaint (by simp [Chart.texts])
  · exact hflag
  · split at hfact
    · rename_i hstates
      rw [List.mem_singleton.mp hfact]
      exact hlabels hstates
    · exact absurd hfact List.not_mem_nil

theorem Target.writable_of_le {t : Target} {n count : Nat} (ht : t.number? = some (n + 1))
    (hn : n < count) (hcount : IsShort count) : t.Writable := by
  intro m hm
  rw [ht] at hm
  obtain rfl := Option.some.inj hm
  exact ⟨Nat.succ_pos n, Nat.lt_of_le_of_lt hn hcount⟩

theorem Chart.Writable.of_mem_facts (h : c.Writable) : ∀ fact ∈ c.facts, fact.Writable := by
  have hwell := h.wellFormed
  have hradii : (c.radii.length : Int) ∈ c.integers := by simp [Chart.integers]
  have hentries : (c.entries.length : Int) ∈ c.integers := by simp [Chart.integers]
  simp only [Chart.facts, List.forall_mem_append]
  refine ⟨⟨⟨h.of_mem_propertyFacts, ?_⟩, ?_⟩, ?_⟩
  · intro fact hfact
    obtain ⟨i, hi, rfl⟩ := List.mem_mapIdx.mp hfact
    have htext : c.radii[i] ∈ c.texts := by simp [Chart.texts]
    exact ⟨Target.writable_of_le rfl hi (h.isShort hradii), h.texts _ htext⟩
  · intro fact hfact
    obtain ⟨i, hi, rfl⟩ := List.mem_mapIdx.mp hfact
    have he : c.entries[i] ∈ c.entries := List.getElem_mem hi
    have hlength := (hwell.data _ he).1
    have hcount := hwell.radii
    refine ⟨Target.writable_of_le rfl hi (h.isShort hentries), ?_, ?_⟩
    · intro hnil
      rw [List.map_eq_nil_iff.mp hnil, List.length_nil] at hlength
      omega
    · intro v hv
      obtain ⟨n, hn, rfl⟩ := List.mem_map.mp hv
      have hmem : n ∈ c.entries.flatMap (·.data) := List.mem_flatMap.mpr ⟨_, he, hn⟩
      exact h.isShort (List.mem_append_right _ hmem)
  · intro fact hfact
    obtain ⟨i, hi, rfl⟩ := List.mem_mapIdx.mp hfact
    have htext : c.entries[i].color ∈ c.texts := by
      have he : c.entries[i].color ∈ c.entries.map (·.color) :=
        List.mem_map_of_mem (List.getElem_mem hi)
      exact List.mem_append_right _ he
    exact ⟨Target.writable_of_le rfl hi (h.isShort hentries), h.texts _ htext⟩

/-! ## Looking things up in the facts -/

/-- The statements state the facts of the chart, in any order. -/
def Describes (ss : List Statement) (c : Chart) : Prop :=
  (ss.map (·.fact)).Perm c.facts

variable {ss : List Statement}

theorem Describes.reverse (h : Describes ss c) : Describes ss.reverse c := by
  rw [Describes, List.map_reverse]
  exact (List.reverse_perm _).trans h

theorem Describes.mem_facts_iff (h : Describes ss c) {fact : Fact} :
    fact ∈ c.facts ↔ ∃ s ∈ ss, s.fact = fact := by
  rw [← h.mem_iff, List.mem_map]

theorem Describes.mem_facts (h : Describes ss c) {s : Statement} (hs : s ∈ ss) :
    s.fact ∈ c.facts :=
  h.mem_facts_iff.mpr ⟨s, hs, rfl⟩

theorem Describes.firstValue?_eq (h : Describes ss c) {α : Type} {f : Fact → Option α} {t : Target}
    {fact : Fact} {value : α} (hf : ∀ g, (f g).isSome ↔ g.target = t) (hfact : fact ∈ c.facts)
    (hvalue : f fact = some value) : firstValue? f ss = some value := by
  obtain ⟨s, hs, rfl⟩ := h.mem_facts_iff.mp hfact
  apply firstValue?_of_target hf hs hvalue
  intro u hu htarget
  exact List.inj_on_of_nodup_map Chart.nodup_targets (h.mem_facts hu) hfact htarget

theorem Describes.mem_filterMap_iff (h : Describes ss c) {α : Type} {f : Fact → Option α} {a : α} :
    a ∈ ss.filterMap (fun s => f s.fact) ↔ ∃ fact ∈ c.facts, f fact = some a := by
  simp only [mem_filterMap_fact_iff, h.mem_facts_iff]

/-! ## The reading -/

theorem Describes.covers_radii (h : Describes ss c) :
    covers (ss.filterMap (·.fact.radiusNumber?)) c.radii.length = true := by
  rw [covers_iff]
  intro n
  rw [h.mem_filterMap_iff]
  simp only [Fact.radiusNumber?_eq_some_iff]
  constructor
  · rintro ⟨_, hfact, label, rfl⟩
    obtain ⟨i, rfl, hi, _⟩ := Chart.radius_mem_facts.mp hfact
    omega
  · rintro ⟨hpos, hle⟩
    have hi : n - 1 < c.radii.length := by omega
    exact ⟨_, Chart.radius_mem_facts.mpr ⟨n - 1, by omega, hi, rfl⟩, _, rfl⟩

theorem Describes.covers_entries (h : Describes ss c) :
    covers (ss.filterMap (·.fact.entryNumber?)) c.entries.length = true := by
  rw [covers_iff]
  intro n
  rw [h.mem_filterMap_iff]
  simp only [Fact.entryNumber?_eq_some_iff]
  constructor
  · rintro ⟨_, hfact, ⟨color, rfl⟩ | ⟨values, rfl⟩⟩
    · obtain ⟨i, rfl, hi, _⟩ := Chart.entryColor_mem_facts.mp hfact
      omega
    · obtain ⟨i, rfl, hi, _⟩ := Chart.entryData_mem_facts.mp hfact
      omega
  · rintro ⟨hpos, hle⟩
    have hi : n - 1 < c.entries.length := by omega
    exact ⟨_, Chart.entryColor_mem_facts.mpr ⟨n - 1, by omega, hi, rfl⟩, Or.inl ⟨_, rfl⟩⟩

theorem Describes.radiusLabels_eq (h : Describes ss c) {radii : Stated Nat}
    (hradii : radii.value = c.radii.length) : radiusLabels ss radii = .ok c.radii := by
  have hlabel : ∀ i ∈ List.range c.radii.length,
      firstValue? (·.radius? (1 + i)) ss = c.radii[i]? := by
    intro i hi
    have hi' : i < c.radii.length := List.mem_range.mp hi
    rw [List.getElem?_eq_getElem hi']
    apply h.firstValue?_eq (fun _ => Fact.isSome_radius?)
      (Chart.radius_mem_facts.mpr ⟨i, rfl, hi', rfl⟩)
    rw [Nat.add_comm, Fact.radius?_eq_some_iff]
  rw [radiusLabels_eq_ok_iff, hradii, List.range'_eq_map_range, List.filterMap_map]
  refine ⟨h.covers_radii, ?_⟩
  calc (List.range c.radii.length).filterMap (fun i => firstValue? (·.radius? (1 + i)) ss)
      = (List.range c.radii.length).filterMap fun (i : Nat) => c.radii[i]? :=
        List.filterMap_congr hlabel
    _ = c.radii := filterMap_getElem?_range c.radii

theorem map_ofNat_toNat {ns : List Int} (h : ∀ n ∈ ns, 0 ≤ n) :
    (ns.map Int.toNat).map Int.ofNat = ns := by
  rw [List.map_map]
  exact (List.map_congr_left fun n hn => Int.toNat_of_nonneg (h n hn)).trans (List.map_id ns)

theorem Describes.readEntry_eq (h : Describes ss c) (hwell : c.WellFormed)
    {entries radii : Stated Nat} (hradii : radii.value = c.radii.length) {i : Nat}
    (hi : i < c.entries.length) :
    readEntry ss entries radii (1 + i) = .ok c.entries[i] := by
  obtain ⟨hlength, hnonneg⟩ := hwell.data _ (List.getElem_mem hi)
  -- the color that counts is the last one, which is the first from the end
  have hcolor : firstValue? (·.entryColor? (1 + i)) ss.reverse = some c.entries[i].color := by
    apply h.reverse.firstValue?_eq (fun _ => Fact.isSome_entryColor?)
      (Chart.entryColor_mem_facts.mpr ⟨i, rfl, hi, rfl⟩)
    rw [Nat.add_comm, Fact.entryColor?_eq_some_iff]
  have hdata : firstValue? (·.entryData? (1 + i)) ss =
      some (c.entries[i].data.map Int.toNat) := by
    apply h.firstValue?_eq (fun _ => Fact.isSome_entryData?)
      (Chart.entryData_mem_facts.mpr ⟨i, rfl, hi, rfl⟩)
    rw [Nat.add_comm, Fact.entryData?_eq_some_iff]
  obtain ⟨color, hfound, hcolor⟩ := exists_stated hcolor
  obtain ⟨data, hfound', hdata⟩ := exists_stated hdata
  refine readEntry_eq_ok_iff.mpr ⟨color, data, hfound, hfound', ?_, ?_⟩
  · rw [hdata, List.length_map, hlength, hradii]
  · rw [hcolor, hdata, map_ofNat_toNat hnonneg]

theorem Chart.WellFormed.length_labels (h : c.WellFormed) {step : Int}
    (hstep : c.intervals = some step) :
    c.intervalLabels.length = c.scale.toNat / step.toNat + 1 := by
  have hscale := h.scale
  obtain ⟨hpos, _⟩ := h.intervals step hstep
  have hlength := h.intervalLabels step hstep
  obtain ⟨s, hs⟩ := Int.eq_ofNat_of_zero_le (show 0 ≤ c.scale by omega)
  obtain ⟨k, rfl⟩ := Int.eq_ofNat_of_zero_le (show 0 ≤ step by omega)
  rw [hs, ← Int.natCast_ediv] at hlength
  rw [hs, Int.toNat_natCast, Int.toNat_natCast]
  omega

/-- Labels that are not stated are those that the rings have anyway. -/
theorem Chart.WellFormed.defaultLabels_eq (h : c.WellFormed) (hstates : ¬ c.StatesLabels) :
    c.defaultLabels = c.intervalLabels := by
  by_contra hne
  have hnil : c.intervalLabels = [] := by
    by_contra hlabels
    exact hstates ⟨hlabels, Ne.symm hne⟩
  cases hstep : c.intervals with
  | none => exact hne (by rw [hnil, Chart.defaultLabels, hstep])
  | some step =>
      have hlength := h.length_labels hstep
      rw [hnil, List.length_nil] at hlength
      exact Nat.succ_ne_zero _ hlength.symm

theorem Describes.ringLabels_eq (h : Describes ss c) (hc : c.Writable) :
    ringLabels c.scale.toNat (c.intervals.map Int.toNat) (firstStated? (·.intervalLabels?) ss) =
      .ok c.intervalLabels := by
  have hwell := hc.wellFormed
  by_cases hstates : c.StatesLabels
  · have hvalue : firstValue? (·.intervalLabels?) ss = some c.intervalLabels :=
      h.firstValue?_eq (fun _ => Fact.isSome_intervalLabels?)
        (Chart.intervalLabels_mem_facts.mpr ⟨hstates, rfl⟩) (by simp)
    obtain ⟨stated, hstated, hlabels⟩ := exists_stated hvalue
    rw [hstated, ringLabels_eq_ok_iff]
    cases hstep : c.intervals with
    | none => exact hlabels
    | some step =>
        have hlength := hwell.length_labels hstep
        have hscale : c.scale.toNat + 1 < 10 ^ digitLimit :=
          toNat_succ_lt (hc.integers c.scale (by simp [Chart.integers])) (by decide)
        have hquot : c.scale.toNat / step.toNat ≤ c.scale.toNat := Nat.div_le_self _ _
        exact ⟨by omega, hlabels ▸ hlength, hlabels⟩
  · have hnone : firstStated? (·.intervalLabels?) ss = none := by
      cases hfound : firstStated? (·.intervalLabels?) ss with
      | none => rfl
      | some stated =>
          obtain ⟨s, hs, _, hfact⟩ := exists_of_firstStated? hfound
          have hmem := h.mem_facts hs
          rw [Fact.intervalLabels?_eq_some_iff.mp hfact] at hmem
          exact absurd (Chart.intervalLabels_mem_facts.mp hmem).1 hstates
    have hdefault := hwell.defaultLabels_eq hstates
    rw [hnone, ringLabels_eq_ok_iff, ← hdefault, Chart.defaultLabels]
    cases hstep : c.intervals with
    | none => rfl
    | some step =>
        have hscale := hwell.scale
        obtain ⟨hpos, _⟩ := hwell.intervals step hstep
        show (ringSteps c.scale.toNat step.toNat).map toString = _
        rw [Int.toNat_of_nonneg (by omega), Int.toNat_of_nonneg (by omega)]

theorem Chart.WellFormed.fitsScale (h : c.WellFormed) :
    fitsScale c.scale.toNat (c.intervals.map Int.toNat) = true := by
  rw [fitsScale_iff]
  intro step hstep
  obtain ⟨k, hk, rfl⟩ := Option.map_eq_some_iff.mp hstep
  obtain ⟨hpos, hlt, hdvd⟩ := h.intervals k hk
  refine ⟨by omega, Int.natCast_dvd_natCast.mp ?_⟩
  rwa [Int.toNat_of_nonneg (by omega), Int.toNat_of_nonneg (by omega)]

/-! ## The properties -/

section
variable {α : Type} {f : Fact → Option α} {t : Target} {fact : Fact} {value : α}

theorem Describes.firstValue?_of_property (h : Describes ss c) (hfact : fact ∈ c.propertyFacts)
    (hf : ∀ g, (f g).isSome ↔ g.target = t) (hvalue : f fact = some value) :
    firstValue? f ss = some value := by
  have hmem : fact ∈ c.facts := by
    simp only [Chart.facts, List.mem_append]
    exact Or.inl (Or.inl (Or.inl hfact))
  exact h.firstValue?_eq hf hmem hvalue

end

theorem Describes.quantity (h : Describes ss c) {q : Quantity} {n : Nat}
    (hfact : .quantity q n ∈ c.propertyFacts) : firstValue? (·.quantity? q) ss = some n :=
  h.firstValue?_of_property hfact (fun _ => Fact.isSome_quantity?) (by simp)

theorem Describes.paint (h : Describes ss c) {p : Paint} {text : String}
    (hfact : .paint p text ∈ c.propertyFacts) : firstValue? (·.paint? p) ss = some text :=
  h.firstValue?_of_property hfact (fun _ => Fact.isSome_paint?) (by simp)

theorem Describes.flag (h : Describes ss c) {f : Flag} {value : Bool}
    (hfact : .flag f value ∈ c.propertyFacts) : firstValue? (·.flag? f) ss = some value :=
  h.firstValue?_of_property hfact (fun _ => Fact.isSome_flag?) (by simp)

def Chart.outline (c : Chart) (intervals : Stated (Option Nat)) (radii entries : Stated Nat) :
    Outline :=
  { size := (c.width.toNat, c.height.toNat), margin := c.margin.toNat
    background := c.background, textColor := c.textColor, textSize := c.textSize.toNat
    strokeColor := c.strokeColor, mainStrokeWidth := c.mainStrokeWidth.toNat
    entryStrokeWidth := c.entryStrokeWidth.toNat, filledEntries := c.filledEntries
    scale := c.scale.toNat, intervals := intervals, top := c.top, radii := radii
    entries := entries }

theorem Describes.exists_outline (h : Describes ss c) :
    ∃ intervals radii entries, intervals.value = c.intervals.map Int.toNat ∧
      radii.value = c.radii.length ∧ entries.value = c.entries.length ∧
      (c.outline intervals radii entries).IsOf ss := by
  have hintervals : firstValue? (·.intervals?) ss = some (c.intervals.map Int.toNat) := by
    have hfact : .intervals (c.intervals.map Int.toNat) ∈ c.propertyFacts := by
      simp [Chart.propertyFacts]
    exact h.firstValue?_of_property hfact (fun _ => Fact.isSome_intervals?) (by simp)
  have hradii : firstValue? (·.quantity? .radii) ss = some c.radii.length :=
    h.quantity (by simp [Chart.propertyFacts])
  have hentries : firstValue? (·.quantity? .entries) ss = some c.entries.length :=
    h.quantity (by simp [Chart.propertyFacts])
  obtain ⟨intervals, hintervals, hstep⟩ := exists_stated hintervals
  obtain ⟨radii, hradii, hradiiCount⟩ := exists_stated hradii
  obtain ⟨entries, hentries, hentriesCount⟩ := exists_stated hentries
  refine ⟨intervals, radii, entries, hstep, hradiiCount, hentriesCount, ?_⟩
  constructor
  · have hfact : .size c.width.toNat c.height.toNat ∈ c.propertyFacts := by
      simp [Chart.propertyFacts]
    exact h.firstValue?_of_property hfact (fun _ => Fact.isSome_size?) (by simp [Chart.outline])
  · exact h.quantity (by simp [Chart.propertyFacts, Chart.outline])
  · exact h.paint (by simp [Chart.propertyFacts, Chart.outline])
  · exact h.paint (by simp [Chart.propertyFacts, Chart.outline])
  · exact h.quantity (by simp [Chart.propertyFacts, Chart.outline])
  · exact h.paint (by simp [Chart.propertyFacts, Chart.outline])
  · exact h.quantity (by simp [Chart.propertyFacts, Chart.outline])
  · exact h.quantity (by simp [Chart.propertyFacts, Chart.outline])
  · exact h.flag (by simp [Chart.propertyFacts, Chart.outline])
  · exact h.quantity (by simp [Chart.propertyFacts, Chart.outline])
  · exact hintervals
  · have hfact : .top c.top ∈ c.propertyFacts := by simp [Chart.propertyFacts]
    exact h.firstValue?_of_property hfact (fun _ => Fact.isSome_top?) (by simp [Chart.outline])
  · exact hradii
  · exact hentries

theorem Describes.outline_chart (h : Describes ss c) (hwell : c.WellFormed)
    {intervals : Stated (Option Nat)} {radii entries : Stated Nat}
    (hstep : intervals.value = c.intervals.map Int.toNat) :
    (c.outline intervals radii entries).chart ss c.radii c.intervalLabels c.entries = c := by
  have hcast : ∀ {n k : Int}, k ≤ n → 0 ≤ k → (n.toNat : Int) = n := by
    intro n k hn hk
    exact Int.toNat_of_nonneg (Int.le_trans hk hn)
  have hsteps : (c.intervals.map Int.toNat).map Int.ofNat = c.intervals := by
    cases hintervals : c.intervals with
    | none => rfl
    | some step =>
        have hpos := (hwell.intervals step hintervals).1
        show some ((step.toNat : Nat) : Int) = some step
        rw [hcast hpos (by decide)]
  have hbackground : firstValue? (·.paint? .intervalBackground) ss = some c.intervalBackground :=
    h.paint (by simp [Chart.propertyFacts])
  have hstroke : firstValue? (·.paint? .intervalStroke) ss = some c.intervalStrokeColor :=
    h.paint (by simp [Chart.propertyFacts])
  have hhide : firstValue? (·.flag? .hideLabels) ss = some c.hideLabels :=
    h.flag (by simp [Chart.propertyFacts])
  rw [firstValue?] at hbackground hstroke hhide
  simp only [Outline.chart, Chart.outline, hstep, hsteps, hbackground, hstroke, hhide,
    Option.getD_some, hcast hwell.width (by decide), hcast hwell.height (by decide),
    hcast hwell.margin (by decide), hcast hwell.textSize (by decide),
    hcast hwell.mainStrokeWidth (by decide), hcast hwell.entryStrokeWidth (by decide),
    hcast hwell.scale (by decide)]

/-! ## The round trip -/

theorem Describes.forall₂_readEntry (h : Describes ss c) (hwell : c.WellFormed)
    {entries radii : Stated Nat} (hradii : radii.value = c.radii.length) :
    List.Forall₂ (fun n e => readEntry ss entries radii n = .ok e)
      (List.range' 1 c.entries.length) c.entries := by
  rw [List.forall₂_iff_get]
  refine ⟨List.length_range', ?_⟩
  intro i hi hi'
  rw [List.get_eq_getElem, List.get_eq_getElem, List.getElem_range', Nat.one_mul]
  exact h.readEntry_eq hwell hradii hi'

/-- Statements of the facts of a chart, in any order, give the chart. -/
theorem Describes.ofStatements_eq (h : Describes ss c) (hc : c.Writable) :
    Chart.ofStatements ss = .ok c := by
  have hwell := hc.wellFormed
  obtain ⟨intervals, radii, entries, hstep, hradii, hentries, ho⟩ := h.exists_outline
  refine Chart.ofStatements_eq_ok_iff.mpr ⟨_, c.radii, c.intervalLabels, c.entries, ho, ?_,
    h.radiusLabels_eq hradii, ?_, ?_, ?_, (h.outline_chart hwell hstep).symm⟩
  · show fitsScale c.scale.toNat intervals.value = true
    rw [hstep]
    exact hwell.fitsScale
  · show covers _ entries.value = true
    rw [hentries]
    exact h.covers_entries
  · show ringLabels c.scale.toNat intervals.value _ = _
    rw [hstep]
    exact h.ringLabels_eq hc
  · show List.Forall₂ _ (List.range' 1 entries.value) c.entries
    rw [hentries]
    exact h.forall₂_readEntry hwell hradii

theorem Chart.Writable.ofItems_of_lines (h : c.Writable) {facts : List Fact}
    (hfacts : facts.Perm c.facts) {ls : List Line}
    (htexts : ls.map (·.text) = facts.map Fact.text) :
    ∃ items, resolve ls = .ok items ∧ Chart.ofItems items = .ok c := by
  have hwritable : ∀ fact ∈ facts, fact.Writable := by
    intro fact hfact
    exact h.of_mem_facts fact (hfacts.mem_iff.mp hfact)
  have hnodup : (facts.map Fact.target).Nodup :=
    (hfacts.map Fact.target).nodup_iff.mpr Chart.nodup_targets
  obtain ⟨items, ss, hitems, hss, hstated⟩ := exists_read_of_lines htexts hwritable hnodup
  have hdescribes : Describes ss c := by
    rw [Describes, hstated]
    exact hfacts
  refine ⟨items, hitems, ?_⟩
  simp only [Chart.ofItems, bind_eq_ok_iff]
  exact ⟨ss, hss, hdescribes.ofStatements_eq h⟩

/-- The facts of a chart are read back in any order, with or without a last line end. -/
theorem Chart.Writable.parse_of_facts (h : c.Writable) {facts : List Fact}
    (hfacts : facts.Perm c.facts) :
    Chart.parse (document (facts.map Fact.text)) = .ok c ∧
      Chart.parse ("\n".intercalate (facts.map Fact.text)) = .ok c := by
  have hone : ∀ l ∈ facts.map Fact.text, OneLine l.toList := by
    rw [List.forall_mem_map]
    intro fact hfact
    exact Fact.oneLine_text (h.of_mem_facts fact (hfacts.mem_iff.mp hfact)).value
  have hmeaning : ∀ l ∈ facts.map Fact.text, isMeaningful l.toList = true := by
    rw [List.forall_mem_map]
    intro fact hfact
    exact Fact.isMeaningful_text (h.of_mem_facts fact (hfacts.mem_iff.mp hfact)).value
  have hparse : ∀ text : String, (readLines text).map (·.text) = facts.map Fact.text →
      Chart.parse text = .ok c := by
    intro text htexts
    obtain ⟨items, hitems, hchart⟩ := h.ofItems_of_lines hfacts htexts
    simp only [Chart.parse, readItems, bind_eq_ok_iff, orProblem_eq_ok_iff]
    exact ⟨items, hitems, hchart⟩
  obtain ⟨hended, hopen⟩ := map_text_readLines hone hmeaning
  exact ⟨hparse _ hended, hparse _ hopen⟩

/-- Every writable chart is read back from the lines that describe it, in any
order, with or without a last line end. -/
theorem Chart.parse_lines (h : c.Writable) {lines : List String} (hlines : lines.Perm c.lines) :
    Chart.parse (document lines) = .ok c ∧ Chart.parse ("\n".intercalate lines) = .ok c := by
  -- the order of the lines is an order of the facts
  obtain ⟨facts, rfl, hfacts⟩ :=
    (congrFun (congrFun (List.eq_map_comp_perm Fact.text) lines) c.facts).mpr hlines
  exact h.parse_of_facts hfacts

end

/-- A chart with texts that look like lines, numbers and comments. -/
def oddChart : Chart :=
  { smallChart with
    background := "#fff", textColor := "size: 9 x 8 ", intervalBackground := ""
    radii := ["radius 2: b", "# 3", ""], entries := [⟨"07", [1, 0, 2]⟩, ⟨"::", [2, 2, 2]⟩]
    intervalLabels := ["low", "none", "#"], hideLabels := true }

theorem lt_ten_pow {n : Int} {k : Nat} (h : n < 10) (hk : 0 < k) : n < 10 ^ k := by
  have hpow : 10 ^ 1 ≤ 10 ^ k := Nat.pow_le_pow_right (by decide) hk
  have hcast : ((10 : Nat) : Int) ≤ ((10 ^ k : Nat) : Int) := Int.ofNat_le.mpr hpow
  rw [Int.natCast_pow] at hcast
  exact Int.lt_of_lt_of_le h hcast

theorem parse_lines_oddChart :
    oddChart.Writable ∧ oddChart.lines.reverse.Perm oddChart.lines ∧
      Chart.parse (document oddChart.lines.reverse) = .ok oddChart ∧
      Chart.parse ("\n".intercalate oddChart.lines.reverse) = .ok oddChart := by
  have hwell : oddChart.WellFormed := by
    constructor <;> decide
  have hintegers : ∀ n ∈ oddChart.integers, n < 10 := by decide
  have htexts : ∀ text ∈ oddChart.texts, IsPlain text.toList := by decide
  have hlabels : ∀ label ∈ oddChart.intervalLabels, IsWord label.toList := by decide
  have hwritable : oddChart.Writable :=
    ⟨hwell, fun n hn => lt_ten_pow (hintegers n hn) (by decide), htexts, fun _ => hlabels⟩
  have hperm : oddChart.lines.reverse.Perm oddChart.lines := List.reverse_perm _
  exact ⟨hwritable, hperm, Chart.parse_lines hwritable hperm⟩

end RadarChart
