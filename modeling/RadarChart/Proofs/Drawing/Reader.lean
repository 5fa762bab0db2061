import RadarChart.Proofs.Drawing.Written

/-!
# Reading a drawing back

A reader of markup: it takes the tags that a scan finds, decodes the values of
their attributes, and gives an element the text that stands between its tag and
the one that closes it. What a drawing is written as is read back as its
elements, whatever texts they hold.
-/

namespace RadarChart

open Text

/-! ## The reader -/

/-- The attribute with the text that its value stands for. -/
def Attribute.decoded (a : Attribute) : Attribute :=
  ⟨a.name, String.ofList (unescape a.value.toList)⟩

/-- The characters before the next tag. -/
def leadingChars : List Token → List Char
  | .char c :: ts => c :: leadingChars ts
  | _ => []

def nextTag? (ts : List Token) : Option Tag :=
  ts.findSome? Token.tag?

/-- The text up to the next tag, where that closes an element of the name. -/
def contentOf? (name : String) (ts : List Token) : Option String :=
  if nextTag? ts = some (closingTag name) then some (String.ofList (unescape (leadingChars ts)))
  else none

/-- Whether a tag of the name opens an element: it closes none and is no instruction. -/
def opensElement (name : String) : Bool :=
  name.toList.head?.all fun c => c != '/' && c != '?'

/-- The elements of markup, each at the place of its tag. -/
def elementsOf : List Token → List Element
  | [] => []
  | .char _ :: ts => elementsOf ts
  | .tag t :: ts =>
    if opensElement t.name then
      ⟨t.name, t.attributes.map Attribute.decoded, contentOf? t.name ts⟩ :: elementsOf ts
    else elementsOf ts

def readElements? (text : String) : Option (List Element) :=
  (scan .content text.toList).map elementsOf

/-! ## Reading what is written -/

theorem Attribute.decoded_written (a : Attribute) : a.written.decoded = a := by
  simp [Attribute.decoded, Attribute.written, unescape_escape]

theorem map_decoded_written (attributes : List Attribute) :
    (attributes.map Attribute.written).map Attribute.decoded = attributes := by
  have hself : Attribute.decoded ∘ Attribute.written = id := funext Attribute.decoded_written
  rw [List.map_map, hself, List.map_id]

theorem elementsOf_chars_append (cs : List Char) (ts : List Token) :
    elementsOf (cs.map .char ++ ts) = elementsOf ts := by
  induction cs with
  | nil => rfl
  | cons c cs ih => exact ih

theorem nextTag?_chars_append (cs : List Char) (ts : List Token) :
    nextTag? (cs.map .char ++ ts) = nextTag? ts := by
  induction cs with
  | nil => rfl
  | cons c cs ih => exact ih

theorem leadingChars_chars_append (cs : List Char) (t : Tag) (ts : List Token) :
    leadingChars (cs.map .char ++ .tag t :: ts) = cs := by
  induction cs with
  | nil => rfl
  | cons c cs ih => exact congrArg (c :: ·) ih

theorem elementsOf_closingTag (name : String) (ts : List Token) :
    elementsOf (.tag (closingTag name) :: ts) = elementsOf ts := by
  have hclosing : opensElement (closingTag name).name = false := by
    simp [closingTag, opensElement]
  simp [elementsOf, hclosing]

theorem closingTag_inj {a b : String} (h : closingTag a = closingTag b) : a = b := by
  simpa [closingTag] using h

/-- A name for the elements inside of a drawing. -/
def IsInnerName (name : String) : Prop :=
  opensElement name = true ∧ name ≠ "svg"

instance (name : String) : Decidable (IsInnerName name) :=
  inferInstanceAs (Decidable (_ ∧ _))

theorem elementsOf_opening {name : String} {attributes : List Attribute} {ts : List Token}
    (h : opensElement name = true) :
    elementsOf (.tag ⟨name, attributes.map Attribute.written⟩ :: ts) =
      ⟨name, attributes, contentOf? name ts⟩ :: elementsOf ts := by
  rw [elementsOf, if_pos h, map_decoded_written]

theorem Element.elementsOf_tokens_append {e : Element} {ts : List Token}
    (hopening : opensElement e.name = true)
    (hnext : e.content = none → nextTag? ts ≠ some (closingTag e.name)) :
    elementsOf (e.tokens ++ ts) = e :: elementsOf ts := by
  obtain ⟨name, attributes, content⟩ := e
  cases content with
  | none =>
      have hcontent : contentOf? name ts = none := if_neg (hnext rfl)
      rw [Element.tokens, List.singleton_append]
      refine (elementsOf_opening hopening).trans ?_
      rw [hcontent]
  | some content =>
      have hcontent : contentOf? name
          ((escape content.toList).map .char ++ .tag (closingTag name) :: ts) = some content := by
        rw [contentOf?, nextTag?_chars_append, leadingChars_chars_append, unescape_escape,
          String.ofList_toList]
        exact if_pos rfl
      rw [Element.tokens, List.cons_append, List.append_assoc, List.singleton_append]
      refine (elementsOf_opening hopening).trans ?_
      rw [hcontent, elementsOf_chars_append, elementsOf_closingTag]

/-- The tokens of the elements' lines, up to the end of the drawing. -/
def linesOf (es : List Element) : List Token :=
  (es.map fun e => [.char ' ', .char ' '] ++ e.tokens).flatMap (· ++ [.char '\n'])
    ++ [.tag (closingTag "svg"), .char '\n']

theorem linesOf_cons (e : Element) (es : List Element) :
    linesOf (e :: es) =
      [' ', ' '].map .char ++ (e.tokens ++ (['\n'].map .char ++ linesOf es)) := by
  simp [linesOf]

/-- The tag after an element opens the next one or ends the drawing. -/
theorem nextTag?_linesOf {es : List Element} (h : ∀ e ∈ es, e.Fit) {name : String}
    (hname : name ≠ "svg") : nextTag? (linesOf es) ≠ some (closingTag name) := by
  cases es with
  | nil =>
      intro hnext
      exact hname (closingTag_inj (Option.some.inj hnext)).symm
  | cons e es =>
      have htag : nextTag? (linesOf (e :: es)) = some e.tag := by
        rw [linesOf_cons, nextTag?_chars_append]
        unfold Element.tokens
        cases e.content <;> rfl
      rw [htag]
      intro hclosing
      -- the tag of an element has attributes, and one that closes has none
      have hattributes := congrArg Tag.attributes (Option.some.inj hclosing)
      exact (h e List.mem_cons_self).1 (by simpa [Element.tag, closingTag] using hattributes)

theorem elementsOf_linesOf {es : List Element} (hfit : ∀ e ∈ es, e.Fit)
    (hname : ∀ e ∈ es, IsInnerName e.name) : elementsOf (linesOf es) = es := by
  induction es with
  | nil => rfl
  | cons e es ih =>
      obtain ⟨⟨hopening, hne⟩, hnames⟩ := List.forall_mem_cons.mp hname
      have hfits := (List.forall_mem_cons.mp hfit).2
      have hnext : nextTag? (['\n'].map .char ++ linesOf es) ≠ some (closingTag e.name) := by
        rw [nextTag?_chars_append]
        exact nextTag?_linesOf hfits hne
      rw [linesOf_cons, elementsOf_chars_append,
        Element.elementsOf_tokens_append hopening fun _ => hnext, elementsOf_chars_append,
        ih hfits hnames]

/-- The rules of the style sheet stand before the elements as one run of characters. -/
theorem Drawing.exists_tokens_eq (d : Drawing) :
    ∃ rules : List Char, d.tokens =
      .tag xmlTag :: .char '\n' :: .tag ⟨"svg", d.attributes.map Attribute.written⟩ ::
        (['\n', ' ', ' '].map .char ++ .tag ⟨"style", []⟩ ::
          (rules.map .char ++ .tag (closingTag "style") :: .char '\n' :: linesOf d.elements)) := by
  have hrules : (d.style.map fun r => ("    ".toList ++ r.text).map Token.char).flatMap
        (· ++ [.char '\n']) =
      (d.style.flatMap fun r => "    ".toList ++ r.text ++ ['\n']).map .char := by
    rw [List.flatMap_map, List.map_flatMap]
    exact List.flatMap_congr fun r _ => by simp
  refine ⟨'\n' :: (d.style.flatMap fun r => "    ".toList ++ r.text ++ ['\n']) ++ [' ', ' '], ?_⟩
  simp only [Drawing.tokens, Drawing.lineTokens, List.flatMap_append, hrules]
  simp [linesOf]

/-- A drawing is read back as its elements, after that of the whole drawing and
that of its style sheet. -/
theorem Drawing.readElements?_text {d : Drawing} (h : d.Fit)
    (hnames : ∀ e ∈ d.elements, IsInnerName e.name) :
    ∃ style, readElements? d.text =
      some (⟨"svg", d.attributes, none⟩ :: ⟨"style", [], style⟩ :: d.elements) := by
  obtain ⟨rules, htokens⟩ := d.exists_tokens_eq
  let rest : List Token :=
    rules.map .char ++ .tag (closingTag "style") :: .char '\n' :: linesOf d.elements
  have hrest : elementsOf rest = d.elements := by
    rw [elementsOf_chars_append, elementsOf_closingTag]
    exact elementsOf_linesOf h.elements hnames
  have hstyle : elementsOf (.tag ⟨"style", []⟩ :: rest) =
      ⟨"style", [], contentOf? "style" rest⟩ :: elementsOf rest :=
    @elementsOf_opening "style" [] rest (by decide)
  -- the tag after that of the drawing is the style sheet's
  have hsvg : contentOf? "svg" (['\n', ' ', ' '].map .char ++ .tag ⟨"style", []⟩ :: rest) =
      none := by
    rw [contentOf?, nextTag?_chars_append]
    refine if_neg ?_
    show some (⟨"style", []⟩ : Tag) ≠ _
    decide
  refine ⟨contentOf? "style" rest, ?_⟩
  rw [readElements?, (Drawing.marked h).scan_eq, Option.map_some, htokens]
  refine congrArg some ((elementsOf_opening (by decide)).trans ?_)
  rw [hsvg, elementsOf_chars_append, hstyle, hrest]

end RadarChart
