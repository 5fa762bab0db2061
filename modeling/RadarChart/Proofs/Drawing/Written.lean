import Mathlib.Data.List.Forall2
import RadarChart.Proofs.Drawing.Tag

/-!
# Drawings as markup

The text of a drawing is markup: its elements give its tags, in their order,
and the escaped values and contents give none. This needs names that are fit
for tags and attributes, and nothing of the values.
-/

namespace RadarChart

open Text

/-! ## The tags of a drawing -/

/-- The attribute with its value as it is written. -/
def Attribute.written (a : Attribute) : Attribute :=
  ⟨a.name, String.ofList (escape a.value.toList)⟩

/-- The tag that opens the element. -/
def Element.tag (e : Element) : Tag :=
  ⟨e.name, e.attributes.map Attribute.written⟩

/-- The tag that closes an element of the name. -/
def closingTag (name : String) : Tag :=
  ⟨String.ofList ('/' :: name.toList), []⟩

def Element.tokens (e : Element) : List Token :=
  match e.content with
  | none => [.tag e.tag]
  | some content =>
    .tag e.tag :: ((escape content.toList).map .char ++ [.tag (closingTag e.name)])

def Element.tags (e : Element) : List Tag :=
  if e.content.isSome then [e.tag, closingTag e.name] else [e.tag]

def xmlTag : Tag :=
  ⟨"?xml", [⟨"version", "1.0"⟩, ⟨"encoding", "UTF-8"⟩]⟩

/-- The tokens of each line of the drawing's document. -/
def Drawing.lineTokens (d : Drawing) : List (List Token) :=
  [ [.tag xmlTag], [.tag ⟨"svg", d.attributes.map Attribute.written⟩],
    [.char ' ', .char ' ', .tag ⟨"style", []⟩] ]
  ++ d.style.map (fun r => ("    ".toList ++ r.text).map .char)
  ++ [ [.char ' ', .char ' ', .tag (closingTag "style")] ]
  ++ d.elements.map (fun e => [.char ' ', .char ' '] ++ e.tokens)
  ++ [ [.tag (closingTag "svg")] ]

def Drawing.tokens (d : Drawing) : List Token :=
  d.lineTokens.flatMap (· ++ [.char '\n'])

def Drawing.tags (d : Drawing) : List Tag :=
  [xmlTag, ⟨"svg", d.attributes.map Attribute.written⟩, ⟨"style", []⟩, closingTag "style"]
    ++ d.elements.flatMap Element.tags ++ [closingTag "svg"]

/-! ## Names -/

/-- The names are fit for a tag with attributes. -/
def FitForTag (name : String) (attributes : List String) : Prop :=
  attributes ≠ [] ∧ IsTagName name.toList ∧ ∀ a ∈ attributes, IsAttributeName a.toList

instance (name : String) (attributes : List String) : Decidable (FitForTag name attributes) :=
  inferInstanceAs (Decidable (_ ∧ _))

def Element.Fit (e : Element) : Prop :=
  FitForTag e.name (e.attributes.map (·.name))

/-- What the style sheet says outside of its values opens no tag. -/
def StyleRule.Fit (r : StyleRule) : Prop :=
  '<' ∉ r.selector.toList ∧ ∀ name ∈ r.declarations.map (·.name), '<' ∉ name.toList

structure Drawing.Fit (d : Drawing) : Prop where
  attributes : FitForTag "svg" (d.attributes.map (·.name))
  style : ∀ r ∈ d.style, r.Fit
  elements : ∀ e ∈ d.elements, e.Fit

/-! ## Everything is marked -/

theorem not_open_mem_escape (cs : List Char) : '<' ∉ escape cs :=
  fun h => (not_mem_escape h).1 rfl

theorem Attribute.text_eq (a : Attribute) : a.text = a.written.raw := by
  simp [Attribute.text, Attribute.raw, Attribute.written]

theorem flatMap_text (attributes : List Attribute) :
    attributes.flatMap Attribute.text =
      (attributes.map Attribute.written).flatMap Attribute.raw := by
  rw [List.flatMap_map]
  exact List.flatMap_congr fun a _ => a.text_eq

theorem closed_of_mem_written {attributes : List Attribute}
    (h : ∀ name ∈ attributes.map (·.name), IsAttributeName name.toList) :
    ∀ a ∈ attributes.map Attribute.written, a.Closed := by
  rw [List.forall_mem_map] at h ⊢
  intro a ha
  constructor
  · simpa only [Attribute.written] using h a ha
  · intro c hc
    rw [Attribute.written, String.toList_ofList] at hc
    obtain ⟨hopen, _, hquote⟩ := not_mem_escape hc
    exact ⟨hopen, hquote⟩

theorem marked_closingTag {name : String} (h : IsTagName name.toList) :
    Marked [.tag (closingTag name)] ("</".toList ++ name.toList ++ ['>']) := by
  have hname : IsTagName ('/' :: name.toList) :=
    List.forall_mem_cons.mpr ⟨by decide, h⟩
  have hmarked := marked_bare hname
  simpa [closingTag] using hmarked

/-- A tag with attributes, and whatever follows it. -/
theorem marked_opening {name : String} {attributes : List Attribute} (trail : List Char)
    {cs : List Char} {ts : List Token} (h : FitForTag name (attributes.map (·.name)))
    (htrail : ∀ c ∈ trail, isGap c = true) (hcs : Marked ts cs) :
    Marked (.tag ⟨name, attributes.map Attribute.written⟩ :: ts)
      ('<' :: (name.toList ++ (attributes.flatMap Attribute.text ++ (trail ++ '>' :: cs)))) := by
  obtain ⟨hne, hname, hattributes⟩ := h
  have hend : attributes.map Attribute.written = [] → trail = [] := by
    intro hnil
    rw [List.map_eq_nil_iff] at hnil
    rw [hnil] at hne
    exact absurd rfl hne
  have hmarked := Marked.tag hname (closed_of_mem_written hattributes) htrail hend hcs
  rwa [String.ofList_toList, ← flatMap_text] at hmarked

theorem Element.marked {e : Element} (h : e.Fit) : Marked e.tokens e.text := by
  unfold Element.tokens Element.text
  cases e.content with
  | none =>
      have hmarked := marked_opening [' ', '/'] h (List.all_eq_true.mp (by decide)) .nil
      simpa [Element.tag] using hmarked
  | some content =>
      have hrest := (marked_chars (not_open_mem_escape content.toList)).append
        (marked_closingTag h.2.1)
      have hmarked := marked_opening [] h (by simp) hrest
      simpa [Element.tag] using hmarked

theorem StyleRule.not_open_mem_text {r : StyleRule} (h : r.Fit) : '<' ∉ r.text := by
  obtain ⟨hselector, hdeclarations⟩ := h
  rw [List.forall_mem_map] at hdeclarations
  simp only [StyleRule.text, Attribute.declaration, List.mem_append, List.mem_flatMap, not_or,
    not_exists, not_and]
  refine ⟨⟨⟨hselector, by decide⟩, ?_⟩, by decide⟩
  intro a ha
  exact ⟨⟨⟨hdeclarations a ha, by decide⟩, not_open_mem_escape a.value.toList⟩, by decide⟩

theorem Drawing.marked_lines {d : Drawing} (h : d.Fit) :
    List.Forall₂ Marked d.lineTokens d.lines := by
  have hspaces : ∀ {ts : List Token} {cs : List Char}, Marked ts cs →
      Marked ([.char ' ', .char ' '] ++ ts) ("  ".toList ++ cs) :=
    fun hmarked => (marked_chars (show '<' ∉ "  ".toList by decide)).append hmarked
  have hplain : ∀ {name : String}, IsTagName name.toList →
      Marked [.tag ⟨name, []⟩] ('<' :: (name.toList ++ ['>'])) := by
    intro name hname
    simpa using marked_bare hname
  have hxml : Marked [.tag xmlTag] "<?xml version=\"1.0\" encoding=\"UTF-8\"?>".toList :=
    @marked_opening "?xml" [⟨"version", "1.0"⟩, ⟨"encoding", "UTF-8"⟩] ['?'] [] [] (by decide)
      (List.all_eq_true.mp (by decide)) .nil
  have hsvg : Marked [.tag ⟨"svg", d.attributes.map Attribute.written⟩]
      ("<svg".toList ++ d.attributes.flatMap Attribute.text ++ ['>']) := by
    have hmarked := marked_opening [] h.attributes (by simp) .nil
    simpa using hmarked
  have hstyle : List.Forall₂ Marked
      (d.style.map fun r => ("    ".toList ++ r.text).map Token.char)
      (d.style.map fun r => "    ".toList ++ r.text) := by
    rw [List.forall₂_map_left_iff, List.forall₂_map_right_iff, List.forall₂_same]
    intro r hr
    refine marked_chars fun hmem => ?_
    rcases List.mem_append.mp hmem with hmem | hmem
    · exact absurd hmem (by decide)
    · exact StyleRule.not_open_mem_text (h.style r hr) hmem
  have helements : List.Forall₂ Marked
      (d.elements.map fun e => [.char ' ', .char ' '] ++ e.tokens)
      (d.elements.map fun e => "  ".toList ++ e.text) := by
    rw [List.forall₂_map_left_iff, List.forall₂_map_right_iff, List.forall₂_same]
    exact fun e he => hspaces (Element.marked (h.elements e he))
  unfold Drawing.lineTokens Drawing.lines
  refine List.rel_append (List.rel_append (List.rel_append (List.rel_append ?_ hstyle) ?_)
    helements) ?_
  · exact .cons hxml (.cons hsvg (.cons (hspaces (hplain (by decide))) .nil))
  · exact .cons (hspaces (marked_closingTag (by decide))) .nil
  · exact .cons (marked_closingTag (by decide)) .nil

theorem marked_flatMap {tss : List (List Token)} {ls : List (List Char)}
    (h : List.Forall₂ Marked tss ls) :
    Marked (tss.flatMap (· ++ [.char '\n'])) (ls.flatMap (· ++ ['\n'])) := by
  induction h with
  | nil => exact .nil
  | cons hl _ ih => exact (hl.append (.char (by decide) .nil)).append ih

theorem Drawing.marked {d : Drawing} (h : d.Fit) : Marked d.tokens d.text.toList := by
  rw [Drawing.text, String.toList_ofList]
  exact marked_flatMap (Drawing.marked_lines h)

/-! ## What is read back -/

theorem filterMap_chars (cs : List Char) : (cs.map Token.char).filterMap Token.tag? = [] := by
  rw [List.filterMap_eq_nil_iff, List.forall_mem_map]
  exact fun c _ => rfl

theorem Element.filterMap_tokens (e : Element) : e.tokens.filterMap Token.tag? = e.tags := by
  unfold Element.tokens Element.tags
  cases e.content with
  | none => rfl
  | some content =>
      rw [List.filterMap_cons, List.filterMap_append, filterMap_chars]
      rfl

theorem Drawing.filterMap_tokens (d : Drawing) : d.tokens.filterMap Token.tag? = d.tags := by
  have hline : ∀ ts : List Token,
      (ts ++ [Token.char '\n']).filterMap Token.tag? = ts.filterMap Token.tag? := by
    intro ts
    rw [List.filterMap_append]
    exact List.append_nil _
  have hstyle : (d.style.map fun r => ("    ".toList ++ r.text).map Token.char).flatMap
      (fun ts => ts.filterMap Token.tag?) = [] := by
    rw [List.flatMap_map, List.flatMap_eq_nil_iff]
    exact fun r _ => filterMap_chars _
  have helements : (d.elements.map fun e => [.char ' ', .char ' '] ++ e.tokens).flatMap
      (fun ts => ts.filterMap Token.tag?) = d.elements.flatMap Element.tags := by
    rw [List.flatMap_map]
    exact List.flatMap_congr fun e _ => e.filterMap_tokens
  rw [Drawing.tokens, List.filterMap_flatMap]
  simp only [hline, Drawing.lineTokens, List.flatMap_append, hstyle, helements]
  rfl

/-- A drawing is read back as its tags. -/
theorem Drawing.tags?_text {d : Drawing} (h : d.Fit) : tags? d.text = some d.tags := by
  rw [tags?, (Drawing.marked h).scan_eq, Option.map_some, d.filterMap_tokens]

end RadarChart
