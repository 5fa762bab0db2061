import RadarChart.Proofs.Chart.Soundness

/-!
# The documents that give a chart

`Accepted` is the language of the items that give a chart: the forms of their
keys and values, the properties that must be there, and what must agree across
them. Nothing else is asked, and nothing is rejected that satisfies it, unless
a numeral is too long.
-/

namespace RadarChart

open Text

def requiredProperties : List Property :=
  [.size, .quantity .margin, .paint .background, .paint .text, .quantity .textSize,
    .paint .stroke, .quantity .mainStrokeWidth, .quantity .entryStrokeWidth,
    .flag .filledEntries, .quantity .scale, .intervals, .top, .quantity .radii,
    .quantity .entries]

/-- What items must satisfy to give a chart. The radii and the entries that are
defined are those from 1 to their counts, and every entry has a color, which
may be stated again, and its data, which may not. -/
structure Accepted (items : List Item) : Prop where
  forms : ∀ item ∈ items, ∃ fact, item.Says fact
  required : ∀ p ∈ requiredProperties, ∃ item ∈ items, item.key = p.name
  intervals : ∀ scale step, Said items (.quantity .scale scale) →
    Said items (.intervals (some step)) → step < scale ∧ step ∣ scale
  radii : ∀ count, Said items (.quantity .radii count) →
    ∀ n, (∃ label, Said items (.radius n label)) ↔ 1 ≤ n ∧ n ≤ count
  colors : ∀ count, Said items (.quantity .entries count) →
    ∀ n, (∃ color, Said items (.entryColor n color)) ↔ 1 ≤ n ∧ n ≤ count
  data : ∀ count, Said items (.quantity .entries count) →
    ∀ n, (∃ values, Said items (.entryData n values)) ↔ 1 ≤ n ∧ n ≤ count
  dataOnce : ∀ x ∈ items, ∀ y ∈ items, ∀ n vs ws,
    x.Says (.entryData n vs) → y.Says (.entryData n ws) → x = y
  dataCount : ∀ count n values, Said items (.quantity .radii count) →
    Said items (.entryData n values) → values.length = count
  labels : ∀ scale step labels, Said items (.quantity .scale scale) →
    Said items (.intervals (some step)) → Said items (.intervalLabels labels) →
    labels.length = scale / step + 1

/-! ## Required properties -/

theorem exists_firstStated?_iff {α : Type} {f : Fact → Option α} {ss : List Statement} :
    (∃ stated, firstStated? f ss = some stated) ↔ ∃ s ∈ ss, (f s.fact).isSome := by
  rw [← Option.isSome_iff_exists, firstStated?, List.findSome?_isSome_iff]
  simp [Statement.stated?]

/-- The required properties are found exactly where each is the subject of some
statement. -/
theorem exists_outline_iff {ss : List Statement} :
    (∃ o : Outline, o.IsOf ss) ↔
      ∀ p ∈ requiredProperties, ∃ s ∈ ss, s.fact.target = .property p := by
  simp only [← Outline.ofStatements_eq_ok_iff, Outline.ofStatements, Outline.ofStatements.quantity,
    Outline.ofStatements.paint, exists_bind_eq_ok_iff, required_eq_ok_iff, pure_eq_ok_iff,
    exists_eq', and_true, exists_and_right, exists_firstStated?_iff, Fact.isSome_size?,
    Fact.isSome_quantity?, Fact.isSome_paint?, Fact.isSome_flag?, Fact.isSome_intervals?,
    Fact.isSome_top?, requiredProperties, List.forall_mem_cons, List.not_mem_nil, false_implies,
    implies_true]

/-! ## What the statements of the items hold -/

section
variable {items : List Item} {ss : List Statement}
  (hkeys : (items.map (·.key)).Nodup)
  (hofs : List.Forall₂ (fun item s => s.IsOf item) items ss)

include hofs

theorem mem_radiusNumbers_iff {n : Nat} :
    n ∈ ss.filterMap (·.fact.radiusNumber?) ↔ ∃ label, Said items (.radius n label) := by
  rw [mem_filterMap_iff_said hofs]
  simp

theorem mem_entryNumbers_iff {n : Nat} :
    n ∈ ss.filterMap (·.fact.entryNumber?) ↔
      (∃ color, Said items (.entryColor n color)) ∨
        ∃ values, Said items (.entryData n values) := by
  rw [mem_filterMap_iff_said hofs]
  simp [and_or_left, exists_or]

include hkeys

theorem firstValue?_of_said {α : Type} {f : Fact → Option α} {p : Property} {fact : Fact}
    {value : α} (hf : ∀ fact, (f fact).isSome ↔ fact.target = .property p)
    (hsaid : Said items fact) (hvalue : f fact = some value) : firstValue? f ss = some value := by
  have hproperty : fact.target = .property p := (hf fact).mp (by rw [hvalue]; rfl)
  obtain ⟨s, hs, rfl⟩ := (said_iff hofs).mp hsaid
  apply firstValue?_of_target hf hs hvalue
  intro u hu htarget
  exact Said.unique hkeys (said_of_mem hofs hu) hsaid (htarget.trans hproperty) hproperty

/-- No entry is given data twice exactly where no two items give it data. -/
theorem nodup_dataNumbers_iff :
    (dataNumbers ss).Nodup ↔ ∀ x ∈ items, ∀ y ∈ items, ∀ n vs ws,
      x.Says (.entryData n vs) → y.Says (.entryData n ws) → x = y := by
  induction hofs with
  | nil => simp [dataNumbers]
  | @cons item s items ss hof hofs ih =>
      rw [List.map_cons, List.nodup_cons] at hkeys
      rw [nodup_dataNumbers_cons, ih hkeys.2]
      have hmem : ∀ {n : Nat}, n ∈ dataNumbers ss ↔ ∃ values, Said items (.entryData n values) :=
        mem_dataNumbers_iff hofs
      constructor
      · rintro ⟨hfirst, hrest⟩ x hx y hy n vs ws hxs hys
        have hnew : ∀ {z : Item} {us zs : List Nat}, item.Says (.entryData n us) → z ∈ items →
            ¬ z.Says (.entryData n zs) := by
          intro z us zs hsaid hz hzs
          have hfact : s.fact = .entryData n us := hof.2.unique hsaid
          exact hfirst n (by rw [hfact]; rfl) (hmem.mpr ⟨zs, z, hz, hzs⟩)
        rcases List.mem_cons.mp hx with hx | hx <;> rcases List.mem_cons.mp hy with hy | hy
        · rw [hx, hy]
        · exact absurd hys (hnew (hx ▸ hxs) hy)
        · exact absurd hxs (hnew (hy ▸ hys) hx)
        · exact hrest x hx y hy n vs ws hxs hys
      · intro h
        refine ⟨?_, fun x hx y hy => h x (List.mem_cons_of_mem _ hx) y (List.mem_cons_of_mem _ hy)⟩
        intro n hn hmemss
        obtain ⟨ws, y, hy, hys⟩ := hmem.mp hmemss
        obtain ⟨vs, hfact⟩ := Fact.dataNumber?_eq_some_iff.mp hn
        have heq : item = y :=
          h item List.mem_cons_self y (List.mem_cons_of_mem _ hy) n vs ws (hfact ▸ hof.2) hys
        exact hkeys.1 (List.mem_map.mpr ⟨y, hy, by rw [heq]⟩)

theorem firstValue?_of_said_quantity {q : Quantity} {n : Nat} (h : Said items (.quantity q n)) :
    firstValue? (·.quantity? q) ss = some n :=
  firstValue?_of_said hkeys hofs (fun _ => Fact.isSome_quantity?) h
    (Fact.quantity?_eq_some_iff.mpr rfl)

end

/-! ## From a chart to the language -/

section
variable {items : List Item} {ss : List Statement} {o : Outline}
  (hkeys : (items.map (·.key)).Nodup)
  (hofs : List.Forall₂ (fun item s => s.IsOf item) items ss)

include hofs in
theorem exists_said_of_readEntry {entries radii : Stated Nat} {n : Nat} {e : Entry}
    (h : readEntry ss entries radii n = .ok e) :
    ∃ color values, Said items (.entryColor n color) ∧ Said items (.entryData n values) ∧
      values.length = radii.value := by
  obtain ⟨color, data, hcolor, hdata, hlength, _⟩ := readEntry_eq_ok_iff.mp h
  obtain ⟨s, hs, _, hscolor⟩ := exists_of_lastStated? hcolor
  obtain ⟨t, ht, _, htdata⟩ := exists_of_firstStated? hdata
  rw [Fact.entryColor?_eq_some_iff] at hscolor
  rw [Fact.entryData?_eq_some_iff] at htdata
  exact ⟨_, _, hscolor ▸ said_of_mem hofs hs, htdata ▸ said_of_mem hofs ht, hlength⟩

include hkeys hofs

theorem Outline.IsOf.scale_eq (h : o.IsOf ss) {n : Nat} (hsaid : Said items (.quantity .scale n)) :
    o.scale = n :=
  Option.some.inj (h.scale.symm.trans (firstValue?_of_said_quantity hkeys hofs hsaid))

theorem Outline.IsOf.radii_eq (h : o.IsOf ss) {n : Nat} (hsaid : Said items (.quantity .radii n)) :
    o.radii.value = n :=
  Option.some.inj
    (h.value_radii.symm.trans (firstValue?_of_said_quantity hkeys hofs hsaid))

theorem Outline.IsOf.entries_eq (h : o.IsOf ss) {n : Nat}
    (hsaid : Said items (.quantity .entries n)) : o.entries.value = n :=
  Option.some.inj
    (h.value_entries.symm.trans (firstValue?_of_said_quantity hkeys hofs hsaid))

theorem Outline.IsOf.intervals_eq (h : o.IsOf ss) {step : Option Nat}
    (hsaid : Said items (.intervals step)) : o.intervals.value = step := by
  have hvalue : firstValue? (·.intervals?) ss = some step :=
    firstValue?_of_said hkeys hofs (fun _ => Fact.isSome_intervals?) hsaid (by simp)
  exact Option.some.inj (h.value_intervals.symm.trans hvalue)

theorem accepted_of_ofStatements {c : Chart} (hnodup : (dataNumbers ss).Nodup)
    (h : Chart.ofStatements ss = .ok c) : Accepted items := by
  obtain ⟨o, radii, labels, entries, ho, hfits, hradii, hcovers, hlabels, hread, _⟩ :=
    Chart.ofStatements_eq_ok_iff.mp h
  have hnumbers := covers_iff.mp hcovers
  have honce := (nodup_dataNumbers_iff hkeys hofs).mp hnodup
  have hentry : ∀ n, 1 ≤ n ∧ n ≤ o.entries.value →
      ∃ color values, Said items (.entryColor n color) ∧ Said items (.entryData n values) ∧
        values.length = o.radii.value := by
    intro n hn
    have hmem : n ∈ List.range' 1 o.entries.value := List.mem_range'_1.mpr ⟨hn.1, by omega⟩
    obtain ⟨e, _, he⟩ := exists_right_of_forall₂ hread hmem
    exact exists_said_of_readEntry hofs he
  constructor
  · intro item hitem
    obtain ⟨s, _, hof⟩ := exists_right_of_forall₂ hofs hitem
    exact ⟨s.fact, hof.2⟩
  · intro p hp
    obtain ⟨s, hs, htarget⟩ := exists_outline_iff.mp ⟨o, ho⟩ p hp
    obtain ⟨item, hitem, hof⟩ := exists_left_of_forall₂ hofs hs
    exact ⟨item, hitem, hof.2.key_eq_name htarget⟩
  · intro scale step hscale hstep
    obtain rfl := ho.scale_eq hkeys hofs hscale
    exact fitsScale_iff.mp hfits step (ho.intervals_eq hkeys hofs hstep)
  · intro count hcount n
    obtain rfl := ho.radii_eq hkeys hofs hcount
    rw [← mem_radiusNumbers_iff hofs]
    exact covers_iff.mp (radiusLabels_eq_ok_iff.mp hradii).1 n
  · intro count hcount n
    obtain rfl := ho.entries_eq hkeys hofs hcount
    constructor
    · intro hcolor
      exact (hnumbers n).mp ((mem_entryNumbers_iff hofs).mpr (Or.inl hcolor))
    · intro hn
      obtain ⟨color, _, hcolor, _⟩ := hentry n hn
      exact ⟨color, hcolor⟩
  · intro count hcount n
    obtain rfl := ho.entries_eq hkeys hofs hcount
    constructor
    · intro hdata
      exact (hnumbers n).mp ((mem_entryNumbers_iff hofs).mpr (Or.inr hdata))
    · intro hn
      obtain ⟨_, values, _, hdata, _⟩ := hentry n hn
      exact ⟨values, hdata⟩
  · exact honce
  · intro count n values hcount hdata
    obtain rfl := ho.radii_eq hkeys hofs hcount
    have hn := (hnumbers n).mp ((mem_entryNumbers_iff hofs).mpr (Or.inr ⟨values, hdata⟩))
    -- the data that are counted are these, as no other item gives data to the entry
    obtain ⟨_, counted, _, hcounted, hlength⟩ := hentry n hn
    obtain ⟨x, hx, hxs⟩ := hdata
    obtain ⟨y, hy, hys⟩ := hcounted
    obtain rfl := honce x hx y hy n values counted hxs hys
    have hfact : Fact.entryData n values = Fact.entryData n counted :=
      hxs.unique hys
    cases hfact
    exact hlength
  · intro scale step given hscale hstep hgiven
    obtain rfl := ho.scale_eq hkeys hofs hscale
    have hvalue : firstValue? (·.intervalLabels?) ss = some given :=
      firstValue?_of_said hkeys hofs (fun _ => Fact.isSome_intervalLabels?) hgiven (by simp)
    obtain ⟨stated, hstated, rfl⟩ := Option.map_eq_some_iff.mp hvalue
    rw [ho.intervals_eq hkeys hofs hstep, hstated, ringLabels_eq_ok_iff] at hlabels
    exact hlabels.2.1

end

/-! ## From the language to a chart -/

section
variable {items : List Item} {ss : List Statement} {o : Outline}
  (hofs : List.Forall₂ (fun item s => s.IsOf item) items ss) (ho : o.IsOf ss)

include hofs

theorem said_quantity {q : Quantity} {n : Nat} (h : firstValue? (·.quantity? q) ss = some n) :
    Said items (.quantity q n) :=
  said_of_firstValue? hofs (fun _ => Fact.quantity?_eq_some_iff.mp) h

include ho

theorem said_step : Said items (.intervals o.intervals.value) :=
  said_of_firstValue? hofs (fun _ => Fact.intervals?_eq_some_iff.mp) ho.value_intervals

theorem Accepted.exists_ringLabels (h : Accepted items) (hscale : o.scale + 1 < 10 ^ digitLimit) :
    ∃ labels, ringLabels o.scale o.intervals.value (firstStated? (·.intervalLabels?) ss) =
      .ok labels := by
  have hstep := said_step hofs ho
  simp only [ringLabels_eq_ok_iff]
  cases hsteps : o.intervals.value with
  | none => cases firstStated? (·.intervalLabels?) ss <;> simp
  | some step =>
      cases hgiven : firstStated? (·.intervalLabels?) ss with
      | none => simp
      | some stated =>
          have hsaid : Said items (.intervalLabels stated.value) :=
            said_of_firstValue? hofs (fun _ => Fact.intervalLabels?_eq_some_iff.mp)
              (by rw [firstValue?, hgiven, Option.map_some])
          have hcount := h.labels _ _ _ (said_quantity hofs ho.scale) (hsteps ▸ hstep) hsaid
          have hquot : o.scale / step ≤ o.scale := Nat.div_le_self _ _
          exact ⟨stated.value, by omega, hcount, rfl⟩

theorem Accepted.exists_readEntry (h : Accepted items) {n : Nat}
    (hn : 1 ≤ n ∧ n ≤ o.entries.value) : ∃ e, readEntry ss o.entries o.radii n = .ok e := by
  have hentries := said_quantity hofs ho.value_entries
  obtain ⟨color, hcolor⟩ := (h.colors _ hentries n).mpr hn
  obtain ⟨values, hdata⟩ := (h.data _ hentries n).mpr hn
  obtain ⟨s, hs, hscolor⟩ := (said_iff hofs).mp hcolor
  obtain ⟨t, ht, htdata⟩ := (said_iff hofs).mp hdata
  obtain ⟨lastColor, hlastColor⟩ :=
    exists_lastStated? hs (Fact.entryColor?_eq_some_iff.mpr hscolor)
  obtain ⟨firstData, hfirstData⟩ :=
    exists_firstStated? ht (Fact.entryData?_eq_some_iff.mpr htdata)
  have hsaid : Said items (.entryData n firstData.value) :=
    said_of_firstValue? hofs (fun _ => Fact.entryData?_eq_some_iff.mp)
      (by rw [firstValue?, hfirstData, Option.map_some])
  have hlength := h.dataCount _ _ _ (said_quantity hofs ho.value_radii) hsaid
  exact ⟨_, readEntry_eq_ok_iff.mpr ⟨_, _, hlastColor, hfirstData, hlength, rfl⟩⟩

omit ho in
theorem Accepted.exists_outline (h : Accepted items) : ∃ o : Outline, o.IsOf ss := by
  apply exists_outline_iff.mpr
  intro p hp
  obtain ⟨item, hitem, hkey⟩ := h.required p hp
  obtain ⟨s, hs, hof⟩ := exists_right_of_forall₂ hofs hitem
  exact ⟨s, hs, hof.2.key.unique (hkey ▸ .property p)⟩

/-- Accepted items whose rings have labels give a chart. -/
theorem Accepted.exists_ofStatements (h : Accepted items) {labels : List String}
    (hlabels : ringLabels o.scale o.intervals.value (firstStated? (·.intervalLabels?) ss) =
      .ok labels) : ∃ c, Chart.ofStatements ss = .ok c := by
  have hfits : fitsScale o.scale o.intervals.value = true := by
    rw [fitsScale_iff]
    intro step hstep
    exact h.intervals _ _ (said_quantity hofs ho.scale) (hstep ▸ said_step hofs ho)
  have hradii : covers (ss.filterMap (·.fact.radiusNumber?)) o.radii.value = true := by
    rw [covers_iff]
    intro n
    rw [mem_radiusNumbers_iff hofs, h.radii _ (said_quantity hofs ho.value_radii)]
  have hentries : covers (ss.filterMap (·.fact.entryNumber?)) o.entries.value = true := by
    have hcount := said_quantity hofs ho.value_entries
    rw [covers_iff]
    intro n
    rw [mem_entryNumbers_iff hofs, h.colors _ hcount, h.data _ hcount, or_self]
  have hread : ∀ n ∈ List.range' 1 o.entries.value,
      ∃ e, readEntry ss o.entries o.radii n = .ok e := by
    intro n hn
    obtain ⟨hpos, hlt⟩ := List.mem_range'_1.mp hn
    exact h.exists_readEntry hofs ho ⟨hpos, by omega⟩
  obtain ⟨entries, hentriesRead⟩ := exists_forall₂ hread
  exact ⟨_, Chart.ofStatements_eq_ok_iff.mpr ⟨o, _, labels, entries, ho, hfits,
    radiusLabels_eq_ok_iff.mpr ⟨hradii, rfl⟩, hentries, hlabels, hentriesRead, rfl⟩⟩

omit ho in
theorem exists_ofStatements_of_accepted (h : Accepted items)
    (hscale : ∀ scale, Said items (.quantity .scale scale) → scale + 1 < 10 ^ digitLimit) :
    ∃ c, Chart.ofStatements ss = .ok c := by
  obtain ⟨o, ho⟩ := h.exists_outline hofs
  obtain ⟨labels, hlabels⟩ :=
    h.exists_ringLabels hofs ho (hscale _ (said_quantity hofs ho.scale))
  exact h.exists_ofStatements hofs ho hlabels

end

/-! ## The language -/

theorem Said.scale_succ_lt {items : List Item} {limit n : Nat}
    (hdigits : ∀ item ∈ items, DigitsWithin limit item.key.toList ∧
      DigitsWithin limit item.value.toList)
    (hlimit : limit < digitLimit) (h : Said items (.quantity .scale n)) :
    n + 1 < 10 ^ digitLimit := by
  obtain ⟨item, hitem, hvalue⟩ := h.exists_value rfl
  cases hvalue with
  | quantity hnumeral _ =>
      calc n + 1 ≤ 10 ^ limit := hnumeral.lt_pow (hdigits item hitem).2
        _ < 10 ^ digitLimit := Nat.pow_lt_pow_right (by decide) hlimit

/-- Items with distinct keys and no run of more than 4299 digits give a chart
exactly where they are accepted. -/
theorem Chart.exists_ofItems_iff {items : List Item} (hkeys : (items.map (·.key)).Nodup)
    (hdigits : ∀ item ∈ items, DigitsWithin 4299 item.key.toList ∧
      DigitsWithin 4299 item.value.toList) :
    (∃ c, Chart.ofItems items = .ok c) ↔ Accepted items := by
  have hwithin : ∀ item ∈ items, DigitsWithin digitLimit item.key.toList ∧
      DigitsWithin digitLimit item.value.toList := by
    intro item hitem
    obtain ⟨hkey, hvalue⟩ := hdigits item hitem
    exact ⟨hkey.mono (by decide), hvalue.mono (by decide)⟩
  constructor
  · rintro ⟨c, h⟩
    simp only [Chart.ofItems, bind_eq_ok_iff] at h
    obtain ⟨ss, hss, hchart⟩ := h
    obtain ⟨hofs, hnodup, _⟩ := forall₂_isOf_of_readStatementsFrom hss
    exact accepted_of_ofStatements hkeys hofs hnodup hchart
  · intro h
    have hpartner : ∀ item ∈ items, ∃ s : Statement, s.IsOf item := by
      intro item hitem
      obtain ⟨fact, hfact⟩ := h.forms item hitem
      exact ⟨⟨item.line, fact⟩, rfl, hfact⟩
    obtain ⟨ss, hofs⟩ := exists_forall₂ hpartner
    have hnodup := (nodup_dataNumbers_iff hkeys hofs).mpr h.dataOnce
    have hread : readStatements items = .ok ss := by
      refine readStatementsFrom_of_forall₂_isOf ?_ hnodup (by simp)
      refine List.Forall₂.imp ?_ ((List.forall₂_and_left _ _).mpr ⟨fun item hitem => hitem, hofs⟩)
      rintro item s ⟨hitem, hof⟩
      exact ⟨hof, (hwithin item hitem).1, fun _ => (hwithin item hitem).2⟩
    -- one digit less than the limit leaves room for the count of the rings
    obtain ⟨c, hc⟩ := exists_ofStatements_of_accepted hofs h
      fun scale hsaid => hsaid.scale_succ_lt hdigits (by decide)
    refine ⟨c, ?_⟩
    simp only [Chart.ofItems, bind_eq_ok_iff]
    exact ⟨ss, hread, hc⟩

/-- The items of the small document, with a second color for its entry. -/
def smallItems : List Item :=
  [ ⟨"size", 1, "9 x 8"⟩, ⟨"margin", 2, "0"⟩, ⟨"background", 3, ""⟩, ⟨"text color", 4, ""⟩,
    ⟨"text size", 5, "8"⟩, ⟨"stroke color", 6, "red"⟩, ⟨"main stroke width", 7, "1"⟩,
    ⟨"entry stroke width", 8, "1"⟩, ⟨"filled entries", 9, "no"⟩, ⟨"scale", 10, "2"⟩,
    ⟨"intervals", 11, "1"⟩, ⟨"top", 12, "last side"⟩, ⟨"radii", 13, "3"⟩, ⟨"radius 1", 14, "a"⟩,
    ⟨"radius 2", 15, "b"⟩, ⟨"radius 3", 16, "c"⟩, ⟨"entries", 17, "1"⟩,
    ⟨"entry 1 data", 18, "1 0 2"⟩, ⟨"entry 1 color", 19, "y"⟩, ⟨"entry 01 color", 20, "x"⟩ ]

theorem accepted_smallItems :
    (smallItems.map (·.key)).Nodup ∧
    (∀ item ∈ smallItems, DigitsWithin 4299 item.key.toList ∧
      DigitsWithin 4299 item.value.toList) ∧
    Accepted smallItems := by
  have hkeys : (smallItems.map (·.key)).Nodup := by decide +kernel
  have hlengths : ∀ item ∈ smallItems, item.key.toList.length ≤ 4299 ∧
      item.value.toList.length ≤ 4299 := by decide +kernel
  have hdigits : ∀ item ∈ smallItems, DigitsWithin 4299 item.key.toList ∧
      DigitsWithin 4299 item.value.toList := by
    intro item hitem
    obtain ⟨hkey, hvalue⟩ := hlengths item hitem
    exact ⟨digitsWithin_of_length_le hkey, digitsWithin_of_length_le hvalue⟩
  have hchart : Chart.ofItems smallItems = .ok smallChart := by decide +kernel
  exact ⟨hkeys, hdigits, (Chart.exists_ofItems_iff hkeys hdigits).mp ⟨smallChart, hchart⟩⟩

end RadarChart
