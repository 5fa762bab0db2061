import Mathlib.Data.List.Perm.Subperm
import Mathlib.Data.List.Range
import RadarChart.Chart.Reading
import RadarChart.Proofs.Document.Said

/-!
# The chart of statements

`Chart.ofStatements` succeeds exactly where its parts do, and each part is
described here by what the statements say: the outline by one look-up for each
property, the cross checks as arithmetic, the entries by their own look-ups.
-/

namespace RadarChart

/-! ## What facts hold -/

section
variable {fact : Fact}

@[simp] theorem Fact.size?_eq_some_iff {size : Nat × Nat} :
    fact.size? = some size ↔ fact = .size size.1 size.2 := by
  obtain ⟨width, height⟩ := size
  cases fact <;> simp [Fact.size?]

@[simp] theorem Fact.quantity?_eq_some_iff {q : Quantity} {n : Nat} :
    fact.quantity? q = some n ↔ fact = .quantity q n := by
  cases fact <;> simp [Fact.quantity?]

@[simp] theorem Fact.paint?_eq_some_iff {p : Paint} {value : String} :
    fact.paint? p = some value ↔ fact = .paint p value := by
  cases fact <;> simp [Fact.paint?]

@[simp] theorem Fact.flag?_eq_some_iff {f : Flag} {value : Bool} :
    fact.flag? f = some value ↔ fact = .flag f value := by
  cases fact <;> simp [Fact.flag?]

@[simp] theorem Fact.intervals?_eq_some_iff {step : Option Nat} :
    fact.intervals? = some step ↔ fact = .intervals step := by
  cases fact <;> simp [Fact.intervals?]

@[simp] theorem Fact.top?_eq_some_iff {o : Orientation} :
    fact.top? = some o ↔ fact = .top o := by
  cases fact <;> simp [Fact.top?]

@[simp] theorem Fact.intervalLabels?_eq_some_iff {labels : List String} :
    fact.intervalLabels? = some labels ↔ fact = .intervalLabels labels := by
  cases fact <;> simp [Fact.intervalLabels?]

@[simp] theorem Fact.radius?_eq_some_iff {n : Nat} {label : String} :
    fact.radius? n = some label ↔ fact = .radius n label := by
  cases fact <;> simp [Fact.radius?]

@[simp] theorem Fact.entryData?_eq_some_iff {n : Nat} {values : List Nat} :
    fact.entryData? n = some values ↔ fact = .entryData n values := by
  cases fact <;> simp [Fact.entryData?]

@[simp] theorem Fact.entryColor?_eq_some_iff {n : Nat} {color : String} :
    fact.entryColor? n = some color ↔ fact = .entryColor n color := by
  cases fact <;> simp [Fact.entryColor?]

@[simp] theorem Fact.radiusNumber?_eq_some_iff {n : Nat} :
    fact.radiusNumber? = some n ↔ ∃ label, fact = .radius n label := by
  cases fact <;> simp [Fact.radiusNumber?]

@[simp] theorem Fact.entryNumber?_eq_some_iff {n : Nat} :
    fact.entryNumber? = some n ↔
      (∃ color, fact = .entryColor n color) ∨ ∃ values, fact = .entryData n values := by
  cases fact <;> simp [Fact.entryNumber?]

theorem Fact.isSome_size? : fact.size?.isSome ↔ fact.target = .property .size := by
  cases fact <;> simp [Fact.size?, Fact.target]

theorem Fact.isSome_quantity? {q : Quantity} :
    (fact.quantity? q).isSome ↔ fact.target = .property (.quantity q) := by
  cases fact <;> simp [Fact.quantity?, Fact.target]

theorem Fact.isSome_paint? {p : Paint} :
    (fact.paint? p).isSome ↔ fact.target = .property (.paint p) := by
  cases fact <;> simp [Fact.paint?, Fact.target]

theorem Fact.isSome_flag? {f : Flag} :
    (fact.flag? f).isSome ↔ fact.target = .property (.flag f) := by
  cases fact <;> simp [Fact.flag?, Fact.target]

theorem Fact.isSome_intervals? : fact.intervals?.isSome ↔ fact.target = .property .intervals := by
  cases fact <;> simp [Fact.intervals?, Fact.target]

theorem Fact.isSome_top? : fact.top?.isSome ↔ fact.target = .property .top := by
  cases fact <;> simp [Fact.top?, Fact.target]

theorem Fact.isSome_intervalLabels? :
    fact.intervalLabels?.isSome ↔ fact.target = .property .intervalLabels := by
  cases fact <;> simp [Fact.intervalLabels?, Fact.target]

theorem Fact.isSome_radius? {n : Nat} : (fact.radius? n).isSome ↔ fact.target = .radius n := by
  cases fact <;> simp [Fact.radius?, Fact.target]

theorem Fact.isSome_entryData? {n : Nat} :
    (fact.entryData? n).isSome ↔ fact.target = .entryData n := by
  cases fact <;> simp [Fact.entryData?, Fact.target]

theorem Fact.isSome_entryColor? {n : Nat} :
    (fact.entryColor? n).isSome ↔ fact.target = .entryColor n := by
  cases fact <;> simp [Fact.entryColor?, Fact.target]

end

/-! ## Looking things up -/

section
variable {α : Type} {f : Fact → Option α} {ss : List Statement}

/-- What is found is said by one of the statements, at its line. -/
theorem exists_of_firstStated? {stated : Stated α} (h : firstStated? f ss = some stated) :
    ∃ s ∈ ss, s.line = stated.line ∧ f s.fact = some stated.value := by
  obtain ⟨s, hs, hstated⟩ := List.exists_of_findSome?_eq_some h
  obtain ⟨value, hvalue, rfl⟩ := Option.map_eq_some_iff.mp hstated
  exact ⟨s, hs, rfl, hvalue⟩

/-- What some statement says is found, or else something that an earlier one says. -/
theorem exists_firstStated? {s : Statement} {value : α} (hs : s ∈ ss)
    (hvalue : f s.fact = some value) : ∃ stated, firstStated? f ss = some stated := by
  rw [← Option.isSome_iff_exists, firstStated?, List.findSome?_isSome_iff]
  exact ⟨s, hs, by simp [Statement.stated?, hvalue]⟩

theorem exists_of_lastStated? {stated : Stated α} (h : lastStated? f ss = some stated) :
    ∃ s ∈ ss, s.line = stated.line ∧ f s.fact = some stated.value := by
  obtain ⟨s, hs, h⟩ := exists_of_firstStated? h
  exact ⟨s, List.mem_reverse.mp hs, h⟩

theorem exists_lastStated? {s : Statement} {value : α} (hs : s ∈ ss)
    (hvalue : f s.fact = some value) : ∃ stated, lastStated? f ss = some stated :=
  exists_firstStated? (List.mem_reverse.mpr hs) hvalue

theorem required_eq_ok_iff {p : Property} {stated : Stated α} :
    required p f ss = .ok stated ↔ firstStated? f ss = some stated := by
  unfold required
  cases firstStated? f ss with
  | none => simp
  | some st => simp

end

/-- The value that the first statement has that says anything through `f`. -/
def firstValue? {α : Type} (f : Fact → Option α) (ss : List Statement) : Option α :=
  (firstStated? f ss).map (·.value)

section
variable {α : Type} {f : Fact → Option α} {ss : List Statement}

theorem exists_stated {value : α} (h : firstValue? f ss = some value) :
    ∃ stated, firstStated? f ss = some stated ∧ stated.value = value :=
  Option.map_eq_some_iff.mp h

/-- What is said about a target is found where the target has one fact only. -/
theorem firstValue?_of_target {t : Target} (hf : ∀ g, (f g).isSome ↔ g.target = t) {s : Statement}
    (hs : s ∈ ss) {value : α} (hvalue : f s.fact = some value)
    (hunique : ∀ u ∈ ss, u.fact.target = s.fact.target → u.fact = s.fact) :
    firstValue? f ss = some value := by
  obtain ⟨stated, hstated⟩ := exists_firstStated? hs hvalue
  obtain ⟨u, hu, _, hfirst⟩ := exists_of_firstStated? hstated
  have hstarget : s.fact.target = t := (hf _).mp (by rw [hvalue]; rfl)
  have hutarget : u.fact.target = t := (hf _).mp (by rw [hfirst]; rfl)
  rw [hunique u hu (hutarget.trans hstarget.symm), hvalue] at hfirst
  rw [firstValue?, hstated, Option.map_some, Option.some.inj hfirst]

end

/-- The outline holds what the statements say of the required properties. -/
structure Outline.IsOf (ss : List Statement) (o : Outline) : Prop where
  size : firstValue? (·.size?) ss = some o.size
  margin : firstValue? (·.quantity? .margin) ss = some o.margin
  background : firstValue? (·.paint? .background) ss = some o.background
  textColor : firstValue? (·.paint? .text) ss = some o.textColor
  textSize : firstValue? (·.quantity? .textSize) ss = some o.textSize
  strokeColor : firstValue? (·.paint? .stroke) ss = some o.strokeColor
  mainStrokeWidth : firstValue? (·.quantity? .mainStrokeWidth) ss = some o.mainStrokeWidth
  entryStrokeWidth : firstValue? (·.quantity? .entryStrokeWidth) ss = some o.entryStrokeWidth
  filledEntries : firstValue? (·.flag? .filledEntries) ss = some o.filledEntries
  scale : firstValue? (·.quantity? .scale) ss = some o.scale
  intervals : firstStated? (·.intervals?) ss = some o.intervals
  top : firstValue? (·.top?) ss = some o.top
  radii : firstStated? (·.quantity? .radii) ss = some o.radii
  entries : firstStated? (·.quantity? .entries) ss = some o.entries

section
variable {ss : List Statement} {o : Outline}

theorem Outline.IsOf.value_intervals (h : o.IsOf ss) :
    firstValue? (·.intervals?) ss = some o.intervals.value := by
  rw [firstValue?, h.intervals, Option.map_some]

theorem Outline.IsOf.value_radii (h : o.IsOf ss) :
    firstValue? (·.quantity? .radii) ss = some o.radii.value := by
  rw [firstValue?, h.radii, Option.map_some]

theorem Outline.IsOf.value_entries (h : o.IsOf ss) :
    firstValue? (·.quantity? .entries) ss = some o.entries.value := by
  rw [firstValue?, h.entries, Option.map_some]

end

theorem Outline.ofStatements_eq_ok_iff {ss : List Statement} {o : Outline} :
    Outline.ofStatements ss = .ok o ↔ o.IsOf ss := by
  simp only [Outline.ofStatements, Outline.ofStatements.quantity, Outline.ofStatements.paint,
    bind_eq_ok_iff, required_eq_ok_iff, pure_eq_ok_iff]
  constructor
  · rintro ⟨_, hsize, _, hmargin, _, hbackground, _, htextColor, _, htextSize, _, hstrokeColor,
      _, hmain, _, hentry, _, hfilled, _, hscale, _, hintervals, _, htop, _, hradii, _, hentries,
      rfl⟩
    constructor <;> simp [firstValue?, *]
  · intro h
    obtain ⟨size, hsize, hsizeValue⟩ := exists_stated h.size
    obtain ⟨margin, hmargin, hmarginValue⟩ := exists_stated h.margin
    obtain ⟨background, hbackground, hbackgroundValue⟩ := exists_stated h.background
    obtain ⟨textColor, htextColor, htextColorValue⟩ := exists_stated h.textColor
    obtain ⟨textSize, htextSize, htextSizeValue⟩ := exists_stated h.textSize
    obtain ⟨strokeColor, hstrokeColor, hstrokeColorValue⟩ := exists_stated h.strokeColor
    obtain ⟨main, hmain, hmainValue⟩ := exists_stated h.mainStrokeWidth
    obtain ⟨entry, hentry, hentryValue⟩ := exists_stated h.entryStrokeWidth
    obtain ⟨filled, hfilled, hfilledValue⟩ := exists_stated h.filledEntries
    obtain ⟨scale, hscale, hscaleValue⟩ := exists_stated h.scale
    obtain ⟨top, htop, htopValue⟩ := exists_stated h.top
    refine ⟨size, hsize, margin, hmargin, background, hbackground, textColor, htextColor,
      textSize, htextSize, strokeColor, hstrokeColor, main, hmain, entry, hentry, filled, hfilled,
      scale, hscale, _, h.intervals, top, htop, _, h.radii, _, h.entries, ?_⟩
    rw [hsizeValue, hmarginValue, hbackgroundValue, htextColorValue, htextSizeValue,
      hstrokeColorValue, hmainValue, hentryValue, hfilledValue, hscaleValue, htopValue]

/-! ## Cross checks -/

theorem fitsScale_iff {scale : Nat} {intervals : Option Nat} :
    fitsScale scale intervals = true ↔
      ∀ step, intervals = some step → step < scale ∧ step ∣ scale := by
  cases intervals with
  | none => simp [fitsScale]
  | some step => simp [fitsScale, Nat.dvd_iff_mod_eq_zero]

theorem Outline.checkIntervals_eq_ok_iff {o : Outline} :
    o.checkIntervals = .ok () ↔ fitsScale o.scale o.intervals.value = true := by
  unfold Outline.checkIntervals
  split <;> rename_i h <;> simp [h]

/-- The numbers cover a count exactly where they are the numbers from 1 to it. -/
theorem covers_iff {numbers : List Nat} {count : Nat} :
    covers numbers count = true ↔ ∀ n, n ∈ numbers ↔ 1 ≤ n ∧ n ≤ count := by
  simp only [covers, Bool.and_eq_true, List.all_eq_true, decide_eq_true_eq, List.contains_iff_mem,
    List.mem_range'_1]
  constructor
  · rintro ⟨⟨hbound, _⟩, hall⟩ n
    exact ⟨hbound n, fun hn => hall n (by omega)⟩
  · intro h
    have hall : ∀ n, 1 ≤ n ∧ n < 1 + count → n ∈ numbers := fun n hn => (h n).mpr (by omega)
    refine ⟨⟨fun n hn => (h n).mp hn, ?_⟩, hall⟩
    -- the numbers from 1 on are distinct, so as many must be given
    have hnodup : (List.range' 1 count).Nodup := List.nodup_range'
    have hsub := hnodup.subperm fun n hn => hall n (List.mem_range'_1.mp hn)
    simpa using hsub.length_le

theorem radiusLabels_eq_ok_iff {ss : List Statement} {radii : Stated Nat} {labels : List String} :
    radiusLabels ss radii = .ok labels ↔
      covers (ss.filterMap (·.fact.radiusNumber?)) radii.value = true ∧
        (List.range' 1 radii.value).filterMap (fun n => firstValue? (·.radius? n) ss) =
          labels := by
  unfold radiusLabels firstValue?
  split <;> rename_i h <;> simp [h]

theorem checkEntries_eq_ok_iff {ss : List Statement} {entries : Stated Nat} :
    checkEntries ss entries = .ok () ↔
      covers (ss.filterMap (·.fact.entryNumber?)) entries.value = true := by
  unfold checkEntries
  split <;> rename_i h <;> simp [h]

theorem exists_writeInteger_iff {n : Nat} :
    (∃ text, Text.writeInteger n = .ok text) ↔ n < 10 ^ digitLimit := by
  unfold Text.writeInteger
  rw [Int.natAbs_natCast, Nat.pow_eq]
  split <;> rename_i h <;> simp [h]

theorem ringLabels_eq_ok_iff {scale : Nat} {intervals : Option Nat}
    {given : Option (Stated (List String))} {labels : List String} :
    ringLabels scale intervals given = .ok labels ↔
      match intervals, given with
      | none, none => [] = labels
      | none, some stated => stated.value = labels
      | some step, none => (ringSteps scale step).map toString = labels
      | some step, some stated =>
        scale / step + 1 < 10 ^ digitLimit ∧ stated.value.length = scale / step + 1 ∧
          stated.value = labels := by
  unfold ringLabels
  cases intervals with
  | none => cases given <;> simp
  | some step =>
      cases given with
      | none => simp
      | some stated =>
          simp only [bind_eq_ok_iff, orFault_eq_ok_iff]
          rw [exists_and_right, exists_writeInteger_iff]
          split <;> rename_i h <;> simp [h]

theorem readEntry_eq_ok_iff {ss : List Statement} {entries radii : Stated Nat} {number : Nat}
    {entry : Entry} :
    readEntry ss entries radii number = .ok entry ↔
      ∃ color data, lastStated? (·.entryColor? number) ss = some color ∧
        firstStated? (·.entryData? number) ss = some data ∧
        data.value.length = radii.value ∧ ⟨color.value, data.value.map Int.ofNat⟩ = entry := by
  unfold readEntry
  split <;> rename_i hcolor hdata <;> simp only [hcolor, hdata]
  · simp
  · simp
  · simp
  · split <;> rename_i h <;> simp [h]

/-- The statements give a chart exactly where every part of it can be read. -/
theorem Chart.ofStatements_eq_ok_iff {ss : List Statement} {c : Chart} :
    Chart.ofStatements ss = .ok c ↔
      ∃ (o : Outline) (radii labels : List String) (entries : List Entry),
        o.IsOf ss ∧ fitsScale o.scale o.intervals.value = true ∧
        radiusLabels ss o.radii = .ok radii ∧
        covers (ss.filterMap (·.fact.entryNumber?)) o.entries.value = true ∧
        ringLabels o.scale o.intervals.value (firstStated? (·.intervalLabels?) ss) = .ok labels ∧
        List.Forall₂ (fun n entry => readEntry ss o.entries o.radii n = .ok entry)
          (List.range' 1 o.entries.value) entries ∧
        c = o.chart ss radii labels entries := by
  simp only [Chart.ofStatements, bind_eq_ok_iff, Outline.ofStatements_eq_ok_iff, mapM_eq_ok_iff,
    pure_eq_ok_iff]
  constructor
  · rintro ⟨o, ho, _, hintervals, radii, hradii, _, hentries, labels, hlabels, entries, hread, rfl⟩
    exact ⟨o, radii, labels, entries, ho, Outline.checkIntervals_eq_ok_iff.mp hintervals, hradii,
      checkEntries_eq_ok_iff.mp hentries, hlabels, hread, rfl⟩
  · rintro ⟨o, radii, labels, entries, ho, hintervals, hradii, hentries, hlabels, hread, rfl⟩
    exact ⟨o, ho, (), Outline.checkIntervals_eq_ok_iff.mpr hintervals, radii, hradii, (),
      checkEntries_eq_ok_iff.mpr hentries, labels, hlabels, entries, hread, rfl⟩

end RadarChart
