import RadarChart.Drawing.Svg
import RadarChart.Proofs.Chart.Soundness
import RadarChart.Proofs.Layout.Frame
import RadarChart.Proofs.Number.Conversion

/-!
# What is laid out can be drawn

A number in a document has a limited number of digits, so it can be written
again. With that every chart that was read from a document and has a layout
has a drawing too, at any precision that can be laid out: the only other thing
that a drawing asks for is half the size of the text, which is not too large
for a coordinate where the size itself is not.
-/

namespace RadarChart

open Text

/-! ## Numbers that are read -/

/-- The numbers that a value is read for. -/
def Fact.numbers : Fact → List Nat
  | .size width height => [width, height]
  | .quantity _ n => [n]
  | .intervals step => step.toList
  | .entryData _ values => values
  | _ => []

/-- No number of the fact has more digits than can be read. -/
def Fact.Short (fact : Fact) : Prop :=
  ∀ n ∈ fact.numbers, n < 10 ^ digitLimit

theorem Fact.short_of_numbers_eq_nil {fact : Fact} (h : fact.numbers = []) : fact.Short := by
  rw [Fact.Short, h]
  exact List.forall_mem_nil _

theorem lt_of_numeralValue {cs ds : List Char} {n : Nat} (hds : numeralDigits? cs = some ds)
    (h : numeralValue ds = .ok n) : n < 10 ^ digitLimit := by
  obtain ⟨hlength, rfl⟩ := numeralValue_eq_ok_iff.mp h
  exact Nat.lt_of_lt_of_le (ofDigitChars_lt_pow (numeralDigits?_eq_some_iff.mp hds).2.2)
    (Nat.pow_le_pow_right (by decide) hlength)

theorem lt_of_readNumeral {cs : List Char} {n : Nat} (h : readNumeral cs = .ok (some n)) :
    n < 10 ^ digitLimit := by
  unfold readNumeral at h
  split at h
  · cases h
  · rename_i ds hds
    rw [map_eq_ok_iff] at h
    obtain ⟨m, hm, hmn⟩ := h
    obtain rfl := Option.some.inj hmn
    exact lt_of_numeralValue hds hm

theorem short_of_readSize {cs : List Char} {line : Int} {fact : Fact}
    (h : readSize cs line = .ok fact) : fact.Short := by
  unfold readSize at h
  split at h
  · rename_i ds es hpieces
    obtain ⟨as, _, _, has, hrest⟩ := List.map_eq_cons_iff.mp hpieces
    obtain ⟨bs, _, _, hbs, _⟩ := List.map_eq_cons_iff.mp hrest
    simp only [bind_eq_ok_iff, orFault_eq_ok_iff] at h
    obtain ⟨width, hwidth, height, hheight, h⟩ := h
    split at h
    · rw [pure_eq_ok_iff] at h
      subst h
      simp only [Fact.Short, Fact.numbers, List.forall_mem_cons]
      exact ⟨lt_of_numeralValue has hwidth, lt_of_numeralValue hbs hheight, List.forall_mem_nil _⟩
    · exact absurd h reject_ne_ok
  · exact absurd h reject_ne_ok

theorem short_of_readQuantity {q : Quantity} {cs : List Char} {line : Int} {fact : Fact}
    (h : readQuantity q cs line = .ok fact) : fact.Short := by
  simp only [readQuantity, bind_eq_ok_iff, orFault_eq_ok_iff] at h
  obtain ⟨number?, hread, h⟩ := h
  cases number? with
  | none => exact absurd h reject_ne_ok
  | some n =>
      simp only [bind_eq_ok_iff, readAtLeast_eq_ok_iff, pure_eq_ok_iff] at h
      obtain ⟨_, ⟨_, rfl⟩, rfl⟩ := h
      exact List.forall_mem_singleton.mpr (lt_of_readNumeral hread)

theorem short_of_readIntervals {cs : List Char} {line : Int} {fact : Fact}
    (h : readIntervals cs line = .ok fact) : fact.Short := by
  simp only [readIntervals, bind_eq_ok_iff, orFault_eq_ok_iff] at h
  obtain ⟨number?, hread, h⟩ := h
  cases number? with
  | none =>
      simp only at h
      split at h
      · rw [pure_eq_ok_iff] at h
        subst h
        exact Fact.short_of_numbers_eq_nil rfl
      · exact absurd h reject_ne_ok
  | some n =>
      simp only [bind_eq_ok_iff, readAtLeast_eq_ok_iff, pure_eq_ok_iff] at h
      obtain ⟨_, ⟨_, rfl⟩, rfl⟩ := h
      exact List.forall_mem_singleton.mpr (lt_of_readNumeral hread)

theorem Property.short_of_readValue {p : Property} {value : String} {line : Int} {fact : Fact}
    (h : p.readValue value line = .ok fact) : fact.Short := by
  have hvalue := Property.value_of_readValue h
  cases p with
  | size => exact short_of_readSize h
  | quantity q => exact short_of_readQuantity h
  | intervals => exact short_of_readIntervals h
  | _ => cases hvalue <;> exact Fact.short_of_numbers_eq_nil rfl

/-- A statement that is read has no number of more digits than can be read. -/
theorem Item.short_of_read {withData : List Nat} {item : Item} {s : Statement}
    (h : item.read withData = .ok s) : s.fact.Short := by
  simp only [Item.read, bind_eq_ok_iff, pure_eq_ok_iff] at h
  obtain ⟨t, _, fact, hfact, rfl⟩ := h
  cases t with
  | property p => exact Property.short_of_readValue hfact
  | radius n | entryColor n =>
      rw [Target.readValue, pure_eq_ok_iff] at hfact
      subst hfact
      exact Fact.short_of_numbers_eq_nil rfl
  | entryData n =>
      rw [Target.readValue] at hfact
      split at hfact
      · exact absurd hfact reject_ne_ok
      · simp only [bind_eq_ok_iff, readData_eq_ok_iff, pure_eq_ok_iff] at hfact
        obtain ⟨values, hvalues, rfl⟩ := hfact
        intro m hm
        obtain ⟨_, _, hread⟩ := exists_left_of_forall₂ hvalues hm
        exact lt_of_readNumeral hread

theorem lt_of_firstValue? {α : Type} {ss : List Statement}
    (hss : ∀ s ∈ ss, s.fact.Short) {f : Fact → Option α} {value : α}
    (hvalue : firstValue? f ss = some value) {n : Nat}
    (hf : ∀ fact, f fact = some value → n ∈ fact.numbers) : n < 10 ^ digitLimit := by
  obtain ⟨stated, hstated, rfl⟩ := exists_stated hvalue
  obtain ⟨s, hs, _, hfact⟩ := exists_of_firstStated? hstated
  exact hss s hs n (hf s.fact hfact)

/-- The integers that a drawing of the chart writes. -/
def Chart.drawnIntegers (c : Chart) : List Int :=
  [c.width, c.height, c.textSize, c.entryStrokeWidth, c.mainStrokeWidth]

/-- What has been read from a document can be written. -/
theorem Chart.exists_writeInteger_of_parse {text : String} {c : Chart}
    (h : Chart.parse text = .ok c) :
    ∀ n ∈ c.drawnIntegers, ∃ numeral, writeInteger n = .ok numeral := by
  simp only [Chart.parse, Chart.ofItems, bind_eq_ok_iff] at h
  obtain ⟨items, _, ss, hread, h⟩ := h
  have hss : ∀ s ∈ ss, s.fact.Short := by
    intro s hs
    obtain ⟨item, _, hitem⟩ := exists_left_of_forall₂ (readStatementsFrom_eq_ok_iff.mp hread).1 hs
    exact Item.short_of_read hitem
  obtain ⟨o, radii, labels, entries, ho, _, _, _, _, _, rfl⟩ := Chart.ofStatements_eq_ok_iff.mp h
  have hquantity : ∀ {q : Quantity} {n : Nat}, firstValue? (·.quantity? q) ss = some n →
      ∃ numeral, writeInteger n = .ok numeral := by
    intro q n hn
    refine exists_writeInteger_iff.mpr (lt_of_firstValue? hss hn fun fact hfact => ?_)
    rw [Fact.quantity?_eq_some_iff.mp hfact]
    exact List.mem_cons_self
  have hsize : ∀ n ∈ [o.size.1, o.size.2], ∃ numeral, writeInteger n = .ok numeral := by
    intro n hn
    refine exists_writeInteger_iff.mpr (lt_of_firstValue? hss ho.size fun fact hfact => ?_)
    rwa [Fact.size?_eq_some_iff.mp hfact]
  simp only [List.forall_mem_cons] at hsize
  simp only [Chart.drawnIntegers, Outline.chart, List.forall_mem_cons]
  exact ⟨hsize.1, hsize.2.1, hquantity ho.textSize, hquantity ho.entryStrokeWidth,
    hquantity ho.mainStrokeWidth, List.forall_mem_nil _⟩

/-! ## Drawings -/

theorem exists_places {precision : Int} (hpos : 0 ≤ precision) (hle : precision ≤ Fixed.maxPlaces) :
    ∃ n, Fixed.places precision = .ok n := by
  have hcount : Fixed.maxPlaces ≤ Fixed.maxCount := by decide
  rw [Fixed.places, if_neg (by omega), if_neg (by omega), if_neg (by omega)]
  exact ⟨_, rfl⟩

/-- Half the size of the text is a coordinate where the size is one. -/
theorem exists_half {n : Int} {x : Float} (h : (Scalar.ofInt n : Except Fault Float) = .ok x) :
    ∃ y : Float, Scalar.quotient n 2 = .ok y := by
  have hsmall : |(n : ℝ)| < 2 ^ 1024 := by
    by_contra hlarge
    have hnone := @Binary64.ofRat?_eq_none n (by rw [Rat.cast_intCast]; exact not_lt.mp hlarge)
    rw [Scalar.ofInt, show Scalar.ofRat? (α := Float) n = none from hnone] at h
    cases h
  have hhalf : |((Rat.divInt n 2 : ℚ) : ℝ)| ≤ 2 ^ 1023 := by
    rw [Rat.divInt_eq_div]
    push_cast
    rw [abs_div, abs_two, div_le_iff₀ two_pos, ← pow_succ]
    exact hsmall.le
  obtain ⟨y, _, hy, _⟩ := Binary64.exists_ofRat? hhalf
  refine ⟨y, ?_⟩
  rw [Scalar.quotient, if_neg (by decide), show Scalar.ofRat? (Rat.divInt n 2) = some y from hy]

section
variable {P : Fault → Prop} {precision : Int} {places : Nat}
  (hplaces : Fixed.places precision = .ok places)

include hplaces

theorem onlyFaults_write (x : Float) : OnlyFaults P (Fixed.write x precision) := by
  rw [Fixed.write, hplaces]
  exact onlyFaults_ok _

theorem onlyFaults_pointsText (points : List (Point Float)) :
    OnlyFaults P (pointsText precision points) := by
  refine (onlyFaults_mapM fun p _ => ?_).bind fun _ _ => onlyFaults_pure _
  exact (onlyFaults_write hplaces p.x).bind fun _ _ => (onlyFaults_write hplaces p.y).bind
    fun _ _ => onlyFaults_pure _

theorem onlyFaults_textElement (className : Option String) (l : TextLabel Float) :
    OnlyFaults P (l.element precision className) :=
  (onlyFaults_write hplaces l.x).bind fun _ _ => (onlyFaults_write hplaces l.y).bind
    fun _ _ => onlyFaults_pure _

theorem onlyFaults_spokeElement (center tip : Point Float) :
    OnlyFaults P (spokeElement precision center tip) :=
  (onlyFaults_write hplaces center.x).bind fun _ _ => (onlyFaults_write hplaces center.y).bind
    fun _ _ => (onlyFaults_write hplaces tip.x).bind fun _ _ =>
    (onlyFaults_write hplaces tip.y).bind fun _ _ => onlyFaults_pure _

theorem onlyFaults_labelElements (l : IntervalLabel Float) :
    OnlyFaults P (l.elements precision) :=
  (onlyFaults_write hplaces l.box.x).bind fun _ _ => (onlyFaults_write hplaces l.box.y).bind
    fun _ _ => (onlyFaults_write hplaces l.box.width).bind fun _ _ =>
    (onlyFaults_write hplaces l.box.height).bind fun _ _ =>
    (onlyFaults_textElement hplaces _ l.label).bind fun _ _ => onlyFaults_pure _

theorem onlyFaults_style {c : Chart}
    (hintegers : ∀ n ∈ c.drawnIntegers, ∃ numeral, writeInteger n = .ok numeral)
    (hhalf : ∃ y : Float, Scalar.quotient c.textSize 2 = .ok y) :
    OnlyFaults P (c.style precision) := by
  simp only [Chart.drawnIntegers, List.forall_mem_cons] at hintegers
  obtain ⟨_, _, ⟨size, hsize⟩, ⟨entry, hentry⟩, ⟨main, hmain⟩, _⟩ := hintegers
  obtain ⟨half, hhalf⟩ := hhalf
  exact (onlyFaults_of_eq_ok hsize).bind fun _ _ => (onlyFaults_write hplaces _).bind fun _ _ =>
    (onlyFaults_of_eq_ok hentry).bind fun _ _ => (onlyFaults_of_eq_ok hmain).bind fun _ _ =>
    (onlyFaults_of_eq_ok hhalf).bind fun _ _ => (onlyFaults_write hplaces _).bind
    fun _ _ => onlyFaults_pure _

/-- The drawing of a geometry asks only for numbers that can be written. -/
theorem Geometry.onlyFaults_draw {g : Geometry Float}
    (hintegers : ∀ n ∈ g.chart.drawnIntegers, ∃ numeral, writeInteger n = .ok numeral)
    (hhalf : ∃ y : Float, Scalar.quotient g.chart.textSize 2 = .ok y) :
    OnlyFaults P (g.draw precision) := by
  have hstyle := onlyFaults_style (P := P) hplaces hintegers hhalf
  simp only [Chart.drawnIntegers, List.forall_mem_cons] at hintegers
  obtain ⟨⟨width, hwidth⟩, ⟨height, hheight⟩, _⟩ := hintegers
  refine (onlyFaults_of_eq_ok hwidth).bind fun _ _ => (onlyFaults_of_eq_ok hheight).bind
    fun _ _ => hstyle.bind fun _ _ => ?_
  refine (onlyFaults_mapM fun r _ => ?_).bind fun _ _ => ?_
  · exact (onlyFaults_pointsText hplaces r.points).bind fun _ _ => onlyFaults_pure _
  refine (onlyFaults_mapM fun tip _ => onlyFaults_spokeElement hplaces _ tip).bind fun _ _ => ?_
  refine (onlyFaults_mapM fun p _ => ?_).bind fun _ _ => ?_
  · exact (onlyFaults_pointsText hplaces p.points).bind fun _ _ => onlyFaults_pure _
  refine (onlyFaults_mapM fun l _ => onlyFaults_labelElements hplaces l).bind fun _ _ => ?_
  exact (onlyFaults_mapM fun l _ => onlyFaults_textElement hplaces none l).bind
    fun _ _ => onlyFaults_pure _

end

/-- A chart from a document that has a layout has a drawing, at any precision that can be laid
out. -/
theorem Chart.exists_toSvg {text : String} {c : Chart} {measure : TextMeasurer Float}
    {g : Geometry Float} (hparse : Chart.parse text = .ok c) (hlayout : c.layout measure = .ok g)
    {precision : Int} (hpos : 0 ≤ precision) (hle : precision ≤ Fixed.maxPlaces) :
    ∃ svg, g.toSvg precision = .ok svg := by
  obtain ⟨places, hplaces⟩ := exists_places hpos hle
  obtain ⟨_, _, _, tips, labels, _, hlabels, _⟩ := Chart.layout_parts hlayout
  simp only [Chart.axisLabels, bind_eq_ok_iff] at hlabels
  obtain ⟨size, hsize, _⟩ := hlabels
  have hchart : g.chart = c := (Chart.shapeOf_of_layout hlayout).chart
  have hintegers := Chart.exists_writeInteger_of_parse hparse
  rw [← hchart] at hintegers hsize
  obtain ⟨drawing, hdrawing⟩ :=
    (Geometry.onlyFaults_draw hplaces hintegers (exists_half hsize)).exists_ok
  exact ⟨drawing.text, by rw [Geometry.toSvg, hdrawing, Except.map]⟩

end RadarChart
