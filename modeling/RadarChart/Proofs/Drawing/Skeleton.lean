import RadarChart.Drawing.Svg
import RadarChart.Proofs.Drawing.Occurrence
import RadarChart.Proofs.Drawing.Written
import RadarChart.Proofs.Number.Plain

/-!
# The skeleton of a chart's drawing

Which tags a drawing has, and with which attributes, depends on how many things
the geometry has to draw and on nothing else: no text and no number of the
chart can open a tag, close one or add an attribute.
-/

namespace RadarChart

open Text

/-- What a tag is without the values of its attributes. -/
structure TagShape where
  name : String
  className : Option String
  attributes : List String
deriving DecidableEq, Repr

def Tag.shape (t : Tag) : TagShape :=
  ⟨t.name, t.className?, t.attributes.map (·.name)⟩

/-- The shapes of a text's tags. -/
def tagShapes? (text : String) : Option (List TagShape) :=
  (tags? text).map (List.map Tag.shape)

/-- The shapes one after the other, so many times. -/
def repeated (n : Nat) (shapes : List TagShape) : List TagShape :=
  (List.replicate n shapes).flatten

/-- Whether the shape is of the name and the class. -/
@[simp] def TagShape.opens (name className : String) (s : TagShape) : Bool :=
  s.name = name ∧ s.className = some className

theorem countP_repeated (p : TagShape → Bool) (n : Nat) (shapes : List TagShape) :
    (repeated n shapes).countP p = n * shapes.countP p := by
  rw [repeated, List.countP_flatten, List.map_replicate, List.sum_replicate_nat]

/-! ## What is drawn -/

@[simp] def ringShapes : List TagShape :=
  [⟨"polygon", some "stroke", ["class", "points"]⟩]

@[simp] def spokeShapes : List TagShape :=
  [⟨"line", some "stroke", ["class", "x1", "y1", "x2", "y2"]⟩]

@[simp] def entryShapes : List TagShape :=
  [⟨"polygon", some "entry", ["class", "style", "points"]⟩]

@[simp] def ringLabelShapes : List TagShape :=
  [ ⟨"rect", some "desc-box", ["class", "x", "y", "width", "height"]⟩,
    ⟨"text", some "desc-text", ["class", "x", "y"]⟩, ⟨"/text", none, []⟩ ]

@[simp] def spokeLabelShapes : List TagShape :=
  [⟨"text", none, ["x", "y"]⟩, ⟨"/text", none, []⟩]

/-- The tags of a drawing, from back to front. -/
def skeleton (rings spokes entries intervalLabels axisLabels : Nat) : List TagShape :=
  [ ⟨"?xml", none, ["version", "encoding"]⟩,
    ⟨"svg", none, ["xmlns", "version", "viewBox", "width", "height"]⟩,
    ⟨"style", none, []⟩, ⟨"/style", none, []⟩, ⟨"rect", none, ["width", "height", "fill"]⟩ ]
  ++ repeated rings ringShapes ++ repeated spokes spokeShapes ++ repeated entries entryShapes
  ++ repeated intervalLabels ringLabelShapes ++ repeated axisLabels spokeLabelShapes
  ++ [⟨"/svg", none, []⟩]

/-- The elements are fit to be written and have tags of the shapes. -/
structure Shaped (elements : List Element) (shapes : List TagShape) : Prop where
  fit : ∀ e ∈ elements, e.Fit
  shapes : (elements.flatMap Element.tags).map Tag.shape = shapes

theorem Shaped.append {es fs : List Element} {ss ts : List TagShape} (hes : Shaped es ss)
    (hfs : Shaped fs ts) : Shaped (es ++ fs) (ss ++ ts) := by
  refine ⟨List.forall_mem_append.mpr ⟨hes.fit, hfs.fit⟩, ?_⟩
  rw [List.flatMap_append, List.map_append, hes.shapes, hfs.shapes]

theorem shaped_flatten {α : Type} {xs : List α} {ess : List (List Element)}
    {shapes : List TagShape} (h : List.Forall₂ (fun _ es => Shaped es shapes) xs ess) :
    Shaped ess.flatten (repeated xs.length shapes) := by
  induction h with
  | nil => exact ⟨by simp, rfl⟩
  | cons hes _ ih => exact hes.append ih

/-- Things that are each drawn alike give that shape so many times. -/
theorem shaped_of_mapM {α : Type} {draw : α → Except Fault Element} {xs : List α}
    {es : List Element} {shapes : List TagShape}
    (hdraw : ∀ x e, draw x = .ok e → Shaped [e] shapes) (h : xs.mapM draw = .ok es) :
    Shaped es (repeated xs.length shapes) := by
  have hall := (mapM_eq_ok_iff.mp h).imp fun x e => hdraw x e
  have hflatten : (es.map fun e => [e]).flatten = es := List.flatMap_singleton' es
  rw [← hflatten]
  apply shaped_flatten
  rw [List.forall₂_map_right_iff]
  exact hall

/-! ## The parts of a drawing -/

theorem shape_closing_text : (closingTag "text").shape = ⟨"/text", none, []⟩ := by
  decide

theorem Drawing.map_shape_tags {d : Drawing} {svg : TagShape} {shapes : List TagShape}
    (hsvg : Tag.shape ⟨"svg", d.attributes.map Attribute.written⟩ = svg)
    (h : Shaped d.elements shapes) :
    d.tags.map Tag.shape =
      [⟨"?xml", none, ["version", "encoding"]⟩, svg, ⟨"style", none, []⟩, ⟨"/style", none, []⟩]
        ++ shapes ++ [⟨"/svg", none, []⟩] := by
  have hstyle : (closingTag "style").shape = ⟨"/style", none, []⟩ := by decide
  have hclose : (closingTag "svg").shape = ⟨"/svg", none, []⟩ := by decide
  rw [Drawing.tags, List.map_append, List.map_append, h.shapes, ← hsvg, ← hstyle, ← hclose]
  rfl

section
variable {precision : Int}

theorem Ring.shaped {r : Ring Float} {e : Element} (h : r.element precision = .ok e) :
    Shaped [e] ringShapes := by
  simp only [Ring.element, bind_eq_ok_iff, pure_eq_ok_iff] at h
  obtain ⟨points, _, rfl⟩ := h
  refine ⟨List.forall_mem_singleton.mpr ?_, rfl⟩
  show FitForTag "polygon" ["class", "points"]
  decide

theorem spoke_shaped {center tip : Point Float} {e : Element}
    (h : spokeElement precision center tip = .ok e) : Shaped [e] spokeShapes := by
  simp only [spokeElement, bind_eq_ok_iff, pure_eq_ok_iff] at h
  obtain ⟨x1, _, y1, _, x2, _, y2, _, rfl⟩ := h
  refine ⟨List.forall_mem_singleton.mpr ?_, rfl⟩
  show FitForTag "line" ["class", "x1", "y1", "x2", "y2"]
  decide

theorem Polygon.shaped {p : Polygon Float} {e : Element} (h : p.element precision = .ok e) :
    Shaped [e] entryShapes := by
  simp only [Polygon.element, bind_eq_ok_iff, pure_eq_ok_iff] at h
  obtain ⟨points, _, rfl⟩ := h
  refine ⟨List.forall_mem_singleton.mpr ?_, rfl⟩
  show FitForTag "polygon" ["class", "style", "points"]
  decide

theorem IntervalLabel.shaped {l : IntervalLabel Float} {es : List Element}
    (h : l.elements precision = .ok es) : Shaped es ringLabelShapes := by
  simp only [IntervalLabel.elements, TextLabel.element, bind_eq_ok_iff, pure_eq_ok_iff] at h
  obtain ⟨x, _, y, _, width, _, height, _, _, ⟨tx, _, ty, _, rfl⟩, rfl⟩ := h
  refine ⟨List.forall_mem_cons.mpr ⟨?_, List.forall_mem_singleton.mpr ?_⟩, ?_⟩
  · show FitForTag "rect" ["class", "x", "y", "width", "height"]
    decide
  · show FitForTag "text" ["class", "x", "y"]
    decide
  · rw [ringLabelShapes, ← shape_closing_text]
    rfl

theorem TextLabel.shaped {l : TextLabel Float} {e : Element}
    (h : l.element precision none = .ok e) : Shaped [e] spokeLabelShapes := by
  simp only [TextLabel.element, bind_eq_ok_iff, pure_eq_ok_iff] at h
  obtain ⟨x, _, y, _, rfl⟩ := h
  refine ⟨List.forall_mem_singleton.mpr ?_, ?_⟩
  · show FitForTag "text" ["x", "y"]
    decide
  · rw [spokeLabelShapes, ← shape_closing_text]
    rfl

theorem Chart.style_fit {c : Chart} {rules : List StyleRule} (h : c.style precision = .ok rules) :
    ∀ r ∈ rules, r.Fit := by
  simp only [Chart.style, bind_eq_ok_iff, pure_eq_ok_iff] at h
  obtain ⟨textSize, _, opacity, _, entryWidth, _, mainWidth, _, half, _, small, _, rfl⟩ := h
  have hfit : ∀ {selector : String} {declarations : List Attribute} (names : List String),
      declarations.map (·.name) = names → '<' ∉ selector.toList →
      (∀ name ∈ names, '<' ∉ name.toList) → StyleRule.Fit ⟨selector, declarations⟩ := by
    rintro selector declarations names rfl hselector hnames
    exact ⟨hselector, hnames⟩
  simp only [List.forall_mem_cons]
  refine ⟨?_, ?_, ?_, ?_, ?_, ?_, by simp⟩
  · exact hfit ["font"] rfl (by decide) (by decide)
  · exact hfit ["text-anchor", "fill"] rfl (by decide) (by decide)
  · exact hfit ["fill-opacity", "stroke-width"] rfl (by decide) (by decide)
  · exact hfit ["stroke", "fill", "stroke-width"] rfl (by decide) (by decide)
  · exact hfit ["fill", "stroke", "stroke-width"] rfl (by decide) (by decide)
  · exact hfit ["font-size"] rfl (by decide) (by decide)

end

/-- What is painted before the entries, the entries, and what is painted after them. -/
theorem Geometry.draw_cases {g : Geometry Float} {precision : Int} {d : Drawing}
    (h : g.draw precision = .ok d) :
    ∃ before entries after, d.elements = before ++ entries ++ after ∧
      Shaped before (⟨"rect", none, ["width", "height", "fill"]⟩ ::
        (repeated g.rings.length ringShapes ++ repeated g.spokes.length spokeShapes)) ∧
      g.entries.mapM (·.element precision) = .ok entries ∧
      Shaped after (repeated g.intervalLabels.length ringLabelShapes ++
        repeated g.axisLabels.length spokeLabelShapes) ∧
      Tag.shape ⟨"svg", d.attributes.map Attribute.written⟩ =
        ⟨"svg", none, ["xmlns", "version", "viewBox", "width", "height"]⟩ ∧
      d.attributes.map (·.name) = ["xmlns", "version", "viewBox", "width", "height"] ∧
      ∀ r ∈ d.style, r.Fit := by
  simp only [Geometry.draw, bind_eq_ok_iff, pure_eq_ok_iff] at h
  obtain ⟨width, _, height, _, style, hstyle, rings, hrings, spokes, hspokes, entries, hentries,
    intervalLabels, hintervalLabels, axisLabels, haxisLabels, rfl⟩ := h
  have hbackground :
      Shaped [⟨"rect", [⟨"width", width⟩, ⟨"height", height⟩, ⟨"fill", g.chart.background⟩], none⟩]
        [⟨"rect", none, ["width", "height", "fill"]⟩] := by
    refine ⟨List.forall_mem_singleton.mpr ?_, rfl⟩
    show FitForTag "rect" ["width", "height", "fill"]
    decide
  have hlabels := shaped_flatten
    ((mapM_eq_ok_iff.mp hintervalLabels).imp fun _ _ => IntervalLabel.shaped)
  have hbefore := hbackground.append ((shaped_of_mapM (fun _ _ => Ring.shaped) hrings).append
    (shaped_of_mapM (fun _ _ => spoke_shaped) hspokes))
  have hafter := hlabels.append (shaped_of_mapM (fun _ _ => TextLabel.shaped) haxisLabels)
  exact ⟨_, entries, _, by simp, hbefore, hentries, hafter, rfl, rfl, Chart.style_fit hstyle⟩

/-- Every drawing of a chart is fit to be written, and its tags have the shapes of the skeleton. -/
theorem Geometry.draw_shaped {g : Geometry Float} {precision : Int} {d : Drawing}
    (h : g.draw precision = .ok d) :
    d.Fit ∧ d.tags.map Tag.shape = skeleton g.rings.length g.spokes.length g.entries.length
      g.intervalLabels.length g.axisLabels.length := by
  obtain ⟨before, entries, after, helements, hbefore, hentries, hafter, hsvg, hnames, hstyle⟩ :=
    Geometry.draw_cases h
  have hall : Shaped d.elements _ := helements ▸
    (hbefore.append (shaped_of_mapM (fun _ _ => Polygon.shaped) hentries)).append hafter
  constructor
  · refine ⟨?_, hstyle, hall.fit⟩
    rw [hnames]
    decide
  · rw [Drawing.map_shape_tags hsvg hall]
    simp [skeleton]

/-! ## The entries in their order -/

/-- The value of an attribute, as it is written. -/
def Tag.value? (t : Tag) (name : String) : Option String :=
  (t.attributes.find? (·.name = name)).map (·.value)

/-- The styles of the tags of entries, in the order of the tags. -/
def entryStyles (tags : List Tag) : List (Option String) :=
  (tags.filter (Tag.opens "polygon" "entry")).map (·.value? "style")

theorem entryStyles_append (ts us : List Tag) :
    entryStyles (ts ++ us) = entryStyles ts ++ entryStyles us := by
  rw [entryStyles, List.filter_append, List.map_append]
  rfl

theorem entryStyles_eq_nil {ts : List Tag} {shapes : List TagShape} (h : ts.map Tag.shape = shapes)
    (hshapes : shapes.countP (TagShape.opens "polygon" "entry") = 0) : entryStyles ts = [] := by
  rw [entryStyles, List.map_eq_nil_iff, List.filter_eq_nil_iff]
  intro t ht
  exact List.countP_eq_zero.mp hshapes t.shape (h ▸ List.mem_map_of_mem ht)

/-- The polygon of an entry has its color, escaped, as stroke and fill. -/
def Polygon.writtenStyle (p : Polygon Float) : String :=
  String.ofList (escape ("stroke: " ++ p.color ++ "; fill: " ++ p.color ++ ";").toList)

theorem Polygon.entryStyles_tags {p : Polygon Float} {precision : Int} {e : Element}
    (h : p.element precision = .ok e) : entryStyles e.tags = [some p.writtenStyle] := by
  simp only [Polygon.element, bind_eq_ok_iff, pure_eq_ok_iff] at h
  obtain ⟨points, _, rfl⟩ := h
  rfl

theorem Polygon.entryStyles_flatMap_tags {ps : List (Polygon Float)} {precision : Int}
    {es : List Element} (h : List.Forall₂ (fun p e => p.element precision = .ok e) ps es) :
    entryStyles (es.flatMap Element.tags) = ps.map fun p => some p.writtenStyle := by
  induction h with
  | nil => rfl
  | cons he _ ih =>
      rw [List.flatMap_cons, entryStyles_append, Polygon.entryStyles_tags he, ih]
      rfl

/-- The tags of entries are those of the geometry's entries in their order. -/
theorem Geometry.entryStyles_tags {g : Geometry Float} {precision : Int} {d : Drawing}
    (h : g.draw precision = .ok d) :
    entryStyles d.tags = g.entries.map fun p => some p.writtenStyle := by
  obtain ⟨before, entries, after, helements, hbefore, hentries, hafter, hsvg, _, _⟩ :=
    Geometry.draw_cases h
  have hstart : entryStyles [xmlTag, ⟨"svg", d.attributes.map Attribute.written⟩, ⟨"style", []⟩,
      closingTag "style"] = [] := by
    apply entryStyles_eq_nil rfl
    rw [List.map_cons, List.map_cons, hsvg]
    decide
  have hend : entryStyles [closingTag "svg"] = [] := entryStyles_eq_nil rfl (by decide)
  have hbehind : entryStyles (before.flatMap Element.tags) = [] := by
    apply entryStyles_eq_nil hbefore.shapes
    simp [countP_repeated]
  have hfront : entryStyles (after.flatMap Element.tags) = [] := by
    apply entryStyles_eq_nil hafter.shapes
    simp [countP_repeated]
  have hown := Polygon.entryStyles_flatMap_tags (mapM_eq_ok_iff.mp hentries)
  rw [Drawing.tags, helements, List.flatMap_append, List.flatMap_append]
  simp only [entryStyles_append, hstart, hbehind, hown, hfront, hend, List.nil_append,
    List.append_nil]

/-! ## Counting -/

/-- Searching the text of a drawing for an opening counts the shapes of its name and class. -/
theorem Geometry.occurrences_toSvg {g : Geometry Float} {precision : Int} {svg : String}
    (h : g.toSvg precision = .ok svg) {kind className : String}
    (hkind : IsTagName kind.toList) (hclass : '"' ∉ className.toList) :
    occurrences (opening kind className) svg.toList =
      (skeleton g.rings.length g.spokes.length g.entries.length g.intervalLabels.length
        g.axisLabels.length).countP (TagShape.opens kind className) := by
  obtain ⟨d, hdraw, rfl⟩ := map_eq_ok_iff.mp h
  obtain ⟨hfit, hshapes⟩ := Geometry.draw_shaped hdraw
  rw [(Drawing.marked hfit).occurrences_eq hkind hclass, d.filterMap_tokens, ← hshapes,
    List.countP_map]
  rfl

theorem Geometry.entryStyles_toSvg {g : Geometry Float} {precision : Int} {svg : String}
    (h : g.toSvg precision = .ok svg) :
    (tags? svg).map entryStyles = some (g.entries.map fun p => some p.writtenStyle) := by
  obtain ⟨d, hdraw, rfl⟩ := map_eq_ok_iff.mp h
  obtain ⟨hfit, _⟩ := Geometry.draw_shaped hdraw
  rw [Drawing.tags?_text hfit, Option.map_some, Geometry.entryStyles_tags hdraw]

theorem Geometry.tagShapes?_toSvg {g : Geometry Float} {precision : Int} {svg : String}
    (h : g.toSvg precision = .ok svg) :
    tagShapes? svg = some (skeleton g.rings.length g.spokes.length g.entries.length
      g.intervalLabels.length g.axisLabels.length) := by
  obtain ⟨d, hdraw, rfl⟩ := map_eq_ok_iff.mp h
  obtain ⟨hfit, hshapes⟩ := Geometry.draw_shaped hdraw
  rw [tagShapes?, Drawing.tags?_text hfit, Option.map_some, hshapes]

/-- What stands in every skeleton aside, the shapes of each kind are counted. -/
theorem countP_skeleton {p : TagShape → Bool} (hframe : (skeleton 0 0 0 0 0).countP p = 0)
    (rings spokes entries intervalLabels axisLabels : Nat) :
    (skeleton rings spokes entries intervalLabels axisLabels).countP p =
      rings * ringShapes.countP p + spokes * spokeShapes.countP p + entries * entryShapes.countP p
        + intervalLabels * ringLabelShapes.countP p + axisLabels * spokeLabelShapes.countP p := by
  simp only [skeleton, List.countP_append, countP_repeated] at hframe ⊢
  omega

/-- The tags of a drawing and their attributes depend on how much there is to draw and on
nothing else: no color, no label and no number is read as markup. The tags of entries are in the
order of the entries, the elements of each kind are found by searching, and numbers need not
even be escaped. -/
theorem Geometry.toSvg_skeleton {g : Geometry Float} {precision : Int} {svg : String}
    (h : g.toSvg precision = .ok svg) :
    tagShapes? svg = some (skeleton g.rings.length g.spokes.length g.entries.length
      g.intervalLabels.length g.axisLabels.length) ∧
    (tags? svg).map entryStyles = some (g.entries.map fun p => some p.writtenStyle) ∧
    occurrences "<polygon class=\"stroke\"".toList svg.toList = g.rings.length ∧
    occurrences "<line class=\"stroke\"".toList svg.toList = g.spokes.length ∧
    occurrences "<polygon class=\"entry\"".toList svg.toList = g.entries.length ∧
    occurrences "<rect class=\"desc-box\"".toList svg.toList = g.intervalLabels.length ∧
    occurrences "<text class=\"desc-text\"".toList svg.toList = g.intervalLabels.length ∧
    (∀ (g' : Geometry Float) (precision' : Int) (svg' : String),
      g'.toSvg precision' = .ok svg' → g'.rings.length = g.rings.length →
      g'.spokes.length = g.spokes.length → g'.entries.length = g.entries.length →
      g'.intervalLabels.length = g.intervalLabels.length →
      g'.axisLabels.length = g.axisLabels.length → tagShapes? svg' = tagShapes? svg) ∧
    (∀ x s, Fixed.write x precision = .ok s → escape s.toList = s.toList) ∧
    (∀ n s, writeInteger n = .ok s → escape s.toList = s.toList) := by
  have hcount : ∀ (kind className : String) {pattern : List Char} {n : Nat},
      pattern = opening kind className → IsTagName kind.toList →
      '"' ∉ className.toList → (skeleton 0 0 0 0 0).countP (TagShape.opens kind className) = 0 →
      g.rings.length * ringShapes.countP (TagShape.opens kind className)
        + g.spokes.length * spokeShapes.countP (TagShape.opens kind className)
        + g.entries.length * entryShapes.countP (TagShape.opens kind className)
        + g.intervalLabels.length * ringLabelShapes.countP (TagShape.opens kind className)
        + g.axisLabels.length * spokeLabelShapes.countP (TagShape.opens kind className) = n →
      occurrences pattern svg.toList = n := by
    rintro kind className _ _ rfl hkind hclass hframe rfl
    rw [Geometry.occurrences_toSvg h hkind hclass, countP_skeleton hframe]
  refine ⟨Geometry.tagShapes?_toSvg h, Geometry.entryStyles_toSvg h, ?_, ?_, ?_, ?_, ?_, ?_,
    fun _ _ => escape_write, fun _ _ => escape_writeInteger⟩
  · exact hcount "polygon" "stroke" rfl (by decide) (by decide) (by decide) (by simp)
  · exact hcount "line" "stroke" rfl (by decide) (by decide) (by decide) (by simp)
  · exact hcount "polygon" "entry" rfl (by decide) (by decide) (by decide) (by simp)
  · exact hcount "rect" "desc-box" rfl (by decide) (by decide) (by decide) (by simp)
  · exact hcount "text" "desc-text" rfl (by decide) (by decide) (by decide) (by simp)
  · intro g' precision' svg' h' hrings hspokes hentries hintervalLabels haxisLabels
    rw [Geometry.tagShapes?_toSvg h, Geometry.tagShapes?_toSvg h', hrings, hspokes, hentries,
      hintervalLabels, haxisLabels]

/-- A geometry whose texts try to end the place that they stand in. -/
def hostileGeometry : Geometry Float :=
  { chart :=
      { width := 9, height := 8, margin := 0, background := "\"/><script>"
        textColor := "</style>", strokeColor := "&quot;'><g>", intervalBackground := "a\nb"
        intervalStrokeColor := "]]>", textSize := 8, mainStrokeWidth := 1
        entryStrokeWidth := -1, filledEntries := true, scale := 2, intervals := some 1
        top := .lastSide, radii := [], entries := [], intervalLabels := [], hideLabels := false }
    center := ⟨0.0, 1e300⟩, scaleFactor := 1.0
    spokes := [⟨0.0 / 0.0, 1.0 / 0.0⟩], rings := [⟨0, [⟨-0.0, 1.5⟩]⟩]
    entries := [⟨"\"><polygon class=\"entry\" points=\"", [⟨1e-9, 2.0⟩]⟩]
    intervalLabels :=
      [⟨0, ⟨0.0, 0.0, 1.0, 1.0⟩, ⟨"</text><text class=\"desc-text\">", 0.0, 0.0, 4.0⟩⟩]
    axisLabels := [⟨"<rect class=\"desc-box\"", 0.0, 0.0, 8.0⟩] }

theorem toSvg_skeleton_hostileGeometry :
    ∃ svg, hostileGeometry.toSvg 3 = .ok svg ∧ tagShapes? svg = some (skeleton 1 1 1 1 1) ∧
      occurrences "<polygon class=\"entry\"".toList svg.toList = 1 := by
  have hsome : (hostileGeometry.toSvg 3).toOption.isSome = true := by decide +kernel
  cases h : hostileGeometry.toSvg 3 with
  | error fault =>
      rw [h] at hsome
      cases hsome
  | ok svg =>
      obtain ⟨hshapes, _, _, _, hentries, _⟩ := Geometry.toSvg_skeleton h
      exact ⟨svg, rfl, hshapes, hentries⟩

end RadarChart
