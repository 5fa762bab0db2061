import RadarChart.Proofs.Drawing.Reader
import RadarChart.Proofs.Drawing.Skeleton

/-!
# The texts that a drawing shows

The background, the colors of the entries and the labels of the rings and the
spokes can be read off the markup of a drawing, each as it is in the geometry
and in its order. So two geometries that are drawn alike show the same texts.
-/

namespace RadarChart

open Text

/-! ## The reader -/

/-- A text of a geometry that its drawing shows. -/
inductive ShownText where
  | background (color : String)
  | entryColor (color : String)
  | ringLabel (text : String)
  | spokeLabel (text : String)
deriving DecidableEq, Repr

def Element.value? (e : Element) (name : String) : Option String :=
  (e.attributes.find? (·.name = name)).map (·.value)

/-- The style of an entry, with its color as stroke and as fill. -/
def entryStyle (color : String) : String :=
  "stroke: " ++ color ++ "; fill: " ++ color ++ ";"

/-- The color of an entry's style. It is half of what the fixed words leave, so
it does not matter what the color holds. -/
def styleColor? (style : String) : Option String :=
  let color := String.ofList ((style.toList.drop 8).take ((style.toList.length - 17) / 2))
  if entryStyle color = style then some color else none

/-- The text of the geometry that the element shows. -/
def Element.shown? (e : Element) : Option ShownText :=
  if e.name = "rect" then (e.value? "fill").map .background
  else if e.name = "polygon" ∧ e.value? "class" = some "entry" then
    ((e.value? "style").bind styleColor?).map .entryColor
  else if e.name = "text" then
    e.content.map (if e.value? "class" = some "desc-text" then .ringLabel else .spokeLabel)
  else none

/-- The texts that the markup of a drawing shows, in their order. -/
def readShown? (svg : String) : Option (List ShownText) :=
  (readElements? svg).map (List.filterMap Element.shown?)

/-- The texts that a drawing of the geometry has to show. -/
def Geometry.shown (g : Geometry Float) : List ShownText :=
  .background g.chart.background :: (g.entries.map (.entryColor ·.color) ++
    g.intervalLabels.map (.ringLabel ·.label.text) ++ g.axisLabels.map (.spokeLabel ·.text))

def ShownText.background? : ShownText → Option String
  | .background color => some color
  | _ => none

def ShownText.entryColor? : ShownText → Option String
  | .entryColor color => some color
  | _ => none

def ShownText.ringLabel? : ShownText → Option String
  | .ringLabel text => some text
  | _ => none

def ShownText.spokeLabel? : ShownText → Option String
  | .spokeLabel text => some text
  | _ => none

structure ChartTexts where
  background : String
  entryColors : List String
  ringLabels : List String
  spokeLabels : List String
deriving DecidableEq, Repr

def Geometry.texts (g : Geometry Float) : ChartTexts :=
  { background := g.chart.background
    entryColors := g.entries.map (·.color)
    ringLabels := g.intervalLabels.map (·.label.text)
    spokeLabels := g.axisLabels.map (·.text) }

/-- The texts in the markup of a drawing, by what they are the texts of. -/
def readTexts? (svg : String) : Option ChartTexts := do
  let shown ← readShown? svg
  let background ← shown.findSome? ShownText.background?
  return {
    background := background
    entryColors := shown.filterMap ShownText.entryColor?
    ringLabels := shown.filterMap ShownText.ringLabel?
    spokeLabels := shown.filterMap ShownText.spokeLabel? }

/-! ## Colors -/

theorem styleColor?_entryStyle (color : String) : styleColor? (entryStyle color) = some color := by
  have hchars : (entryStyle color).toList = "stroke: ".toList ++
      (color.toList ++ ("; fill: ".toList ++ color.toList ++ ";".toList)) := by
    simp [entryStyle]
  have hlength : ((entryStyle color).toList.length - 17) / 2 = color.toList.length := by
    rw [hchars]
    simp
    omega
  have hcolor : String.ofList (((entryStyle color).toList.drop 8).take
      (((entryStyle color).toList.length - 17) / 2)) = color := by
    rw [hlength, hchars, List.drop_left' (by decide), List.take_left, String.ofList_toList]
  unfold styleColor?
  rw [hcolor]
  exact if_pos rfl

/-! ## What each part shows -/

/-- The elements stand inside of a drawing and show the texts. -/
structure Shows (elements : List Element) (texts : List ShownText) : Prop where
  names : ∀ e ∈ elements, IsInnerName e.name
  shown : elements.filterMap Element.shown? = texts

theorem Shows.append {es fs : List Element} {ts us : List ShownText} (hes : Shows es ts)
    (hfs : Shows fs us) : Shows (es ++ fs) (ts ++ us) := by
  refine ⟨List.forall_mem_append.mpr ⟨hes.names, hfs.names⟩, ?_⟩
  rw [List.filterMap_append, hes.shown, hfs.shown]

theorem shows_flatten {α : Type} {texts : α → List ShownText} {xs : List α}
    {ess : List (List Element)} (h : List.Forall₂ (fun x es => Shows es (texts x)) xs ess) :
    Shows ess.flatten (xs.flatMap texts) := by
  induction h with
  | nil => exact ⟨by simp, rfl⟩
  | cons hes _ ih => exact hes.append ih

/-- Things that are drawn one by one show their texts in their order. -/
theorem shows_of_mapM {α : Type} {draw : α → Except Fault Element} {texts : α → List ShownText}
    {xs : List α} {es : List Element} (hdraw : ∀ x e, draw x = .ok e → Shows [e] (texts x))
    (h : xs.mapM draw = .ok es) : Shows es (xs.flatMap texts) := by
  have hflatten : (es.map fun e => [e]).flatten = es := List.flatMap_singleton' es
  rw [← hflatten]
  apply shows_flatten
  rw [List.forall₂_map_right_iff]
  exact (mapM_eq_ok_iff.mp h).imp fun x e => hdraw x e

theorem shows_singleton {e : Element} {texts : List ShownText} (hname : IsInnerName e.name)
    (h : e.shown?.toList = texts) : Shows [e] texts := by
  refine ⟨List.forall_mem_singleton.mpr hname, ?_⟩
  rw [← h]
  cases hshown : e.shown? <;> simp [hshown]

section
variable {precision : Int}

theorem Ring.shows {r : Ring Float} {e : Element} (h : r.element precision = .ok e) :
    Shows [e] [] := by
  simp only [Ring.element, bind_eq_ok_iff, pure_eq_ok_iff] at h
  obtain ⟨points, _, rfl⟩ := h
  exact shows_singleton (show IsInnerName "polygon" by decide) rfl

theorem spoke_shows {center tip : Point Float} {e : Element}
    (h : spokeElement precision center tip = .ok e) : Shows [e] [] := by
  simp only [spokeElement, bind_eq_ok_iff, pure_eq_ok_iff] at h
  obtain ⟨x1, _, y1, _, x2, _, y2, _, rfl⟩ := h
  exact shows_singleton (show IsInnerName "line" by decide) rfl

theorem Polygon.shows {p : Polygon Float} {e : Element} (h : p.element precision = .ok e) :
    Shows [e] [.entryColor p.color] := by
  simp only [Polygon.element, bind_eq_ok_iff, pure_eq_ok_iff] at h
  obtain ⟨points, _, rfl⟩ := h
  refine shows_singleton (show IsInnerName "polygon" by decide) ?_
  show ((styleColor? (entryStyle p.color)).map ShownText.entryColor).toList = _
  rw [styleColor?_entryStyle]
  rfl

theorem TextLabel.shows {l : TextLabel Float} {e : Element}
    (h : l.element precision none = .ok e) : Shows [e] [.spokeLabel l.text] := by
  simp only [TextLabel.element, bind_eq_ok_iff, pure_eq_ok_iff] at h
  obtain ⟨x, _, y, _, rfl⟩ := h
  exact shows_singleton (show IsInnerName "text" by decide) rfl

theorem IntervalLabel.shows {l : IntervalLabel Float} {es : List Element}
    (h : l.elements precision = .ok es) : Shows es [.ringLabel l.label.text] := by
  simp only [IntervalLabel.elements, TextLabel.element, bind_eq_ok_iff, pure_eq_ok_iff] at h
  obtain ⟨x, _, y, _, width, _, height, _, _, ⟨tx, _, ty, _, rfl⟩, rfl⟩ := h
  refine ⟨List.forall_mem_cons.mpr ⟨?_, List.forall_mem_singleton.mpr ?_⟩, rfl⟩
  · show IsInnerName "rect"
    decide
  · show IsInnerName "text"
    decide

end

/-! ## What a drawing shows -/

theorem Geometry.draw_shows {g : Geometry Float} {precision : Int} {d : Drawing}
    (h : g.draw precision = .ok d) : Shows d.elements g.shown := by
  simp only [Geometry.draw, bind_eq_ok_iff, pure_eq_ok_iff] at h
  obtain ⟨width, _, height, _, style, _, rings, hrings, spokes, hspokes, entries, hentries,
    intervalLabels, hintervalLabels, axisLabels, haxisLabels, rfl⟩ := h
  have hbackground : Shows
      [⟨"rect", [⟨"width", width⟩, ⟨"height", height⟩, ⟨"fill", g.chart.background⟩], none⟩]
      [.background g.chart.background] :=
    shows_singleton (show IsInnerName "rect" by decide) rfl
  have hlabels := shows_flatten
    ((mapM_eq_ok_iff.mp hintervalLabels).imp fun _ _ => IntervalLabel.shows)
  have hall := (((hbackground.append (shows_of_mapM (fun _ _ => Ring.shows) hrings)).append
    (shows_of_mapM (fun _ _ => spoke_shows) hspokes)).append
    (shows_of_mapM (fun _ _ => Polygon.shows) hentries)).append
    (hlabels.append (shows_of_mapM (fun _ _ => TextLabel.shows) haxisLabels))
  have hnone : ∀ {α : Type} (xs : List α), xs.flatMap (fun _ => ([] : List ShownText)) = [] := by
    intro α xs
    rw [List.flatMap_eq_nil_iff]
    exact fun _ _ => rfl
  simpa [Geometry.shown, ← List.map_eq_flatMap, hnone] using hall

theorem Geometry.readShown?_toSvg {g : Geometry Float} {precision : Int} {svg : String}
    (h : g.toSvg precision = .ok svg) : readShown? svg = some g.shown := by
  obtain ⟨d, hdraw, rfl⟩ := map_eq_ok_iff.mp h
  obtain ⟨hnames, hshown⟩ := Geometry.draw_shows hdraw
  obtain ⟨style, hread⟩ := Drawing.readElements?_text (Geometry.draw_shaped hdraw).1 hnames
  -- neither the drawing as a whole nor its style sheet shows a text
  have hframe : (⟨"svg", d.attributes, none⟩ : Element).shown? = none ∧
      (⟨"style", [], style⟩ : Element).shown? = none := ⟨rfl, rfl⟩
  rw [readShown?, hread, Option.map_some, List.filterMap_cons_none hframe.1,
    List.filterMap_cons_none hframe.2, hshown]

/-- The texts that a geometry has to show are sorted again by their kinds. -/
theorem Geometry.filterMap_shown (g : Geometry Float) :
    g.shown.filterMap ShownText.entryColor? = g.texts.entryColors ∧
      g.shown.filterMap ShownText.ringLabel? = g.texts.ringLabels ∧
      g.shown.filterMap ShownText.spokeLabel? = g.texts.spokeLabels := by
  simp [Geometry.shown, Geometry.texts, List.filterMap_cons, List.filterMap_append,
    List.filterMap_map, Function.comp_def, ShownText.entryColor?, ShownText.ringLabel?,
    ShownText.spokeLabel?]

theorem Geometry.readTexts?_toSvg {g : Geometry Float} {precision : Int} {svg : String}
    (h : g.toSvg precision = .ok svg) : readTexts? svg = some g.texts := by
  obtain ⟨hcolors, hrings, hspokes⟩ := g.filterMap_shown
  rw [readTexts?, Geometry.readShown?_toSvg h]
  show some (ChartTexts.mk _ _ _ _) = _
  rw [hcolors, hrings, hspokes]
  rfl

/-- A drawing of a geometry, in any precision, holds its texts as they are: they are read back
from it, and no geometry with other texts is drawn like it. -/
theorem Geometry.toSvg_lossless {g : Geometry Float} {precision : Int} {svg : String}
    (h : g.toSvg precision = .ok svg) :
    readTexts? svg = some g.texts ∧
      ∀ (g' : Geometry Float) (precision' : Int), g'.toSvg precision' = .ok svg →
        g'.texts = g.texts := by
  have hread := Geometry.readTexts?_toSvg h
  refine ⟨hread, ?_⟩
  intro g' precision' h'
  rw [Geometry.readTexts?_toSvg h'] at hread
  exact Option.some.inj hread

theorem toSvg_lossless_hostileGeometry :
    ∃ svg, hostileGeometry.toSvg 3 = .ok svg ∧ readTexts? svg = some
      { background := "\"/><script>", entryColors := ["\"><polygon class=\"entry\" points=\""]
        ringLabels := ["</text><text class=\"desc-text\">"]
        spokeLabels := ["<rect class=\"desc-box\""] } := by
  have hsome : (hostileGeometry.toSvg 3).toOption.isSome = true := by decide +kernel
  cases h : hostileGeometry.toSvg 3 with
  | error fault =>
      rw [h] at hsome
      cases hsome
  | ok svg => exact ⟨svg, rfl, (Geometry.toSvg_lossless h).1⟩

end RadarChart
