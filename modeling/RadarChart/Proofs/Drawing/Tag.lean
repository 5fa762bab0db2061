import RadarChart.Drawing.Markup

/-!
# Tags

A scan reads markup character by character and gives the tags and the
characters between them. It knows nothing of what has written the text, and it
fails where the text is no markup. `Marked` describes the texts that the scan
reads, piece by piece, so that what is printed can be put together from parts.
-/

namespace RadarChart

open Text

/-- A tag, with the values of its attributes as they are written. -/
structure Tag where
  name : String
  attributes : List Attribute
deriving DecidableEq, Repr

inductive Token where
  | tag (t : Tag)
  | char (c : Char)
deriving DecidableEq, Repr

def Token.tag? : Token → Option Tag
  | .tag t => some t
  | .char _ => none

/-- A character that means nothing special inside a tag. -/
def isNameChar (c : Char) : Bool :=
  !(c.isWhitespace || ['<', '>', '=', '"', '\''].contains c)

/-- A character that may stand between attributes and before the end of a tag. -/
def isGap (c : Char) : Bool :=
  c.isWhitespace || c == '/' || c == '?'

/-! ## The scan -/

def Tag.add (t : Tag) (name value : List Char) : Tag :=
  { t with attributes := t.attributes ++ [⟨String.ofList name, String.ofList value⟩] }

/-- Where a scan stands: between tags or at a part of one. It keeps what it has read of
the tag and of the part. -/
inductive ScanPlace where
  | content
  | name (name : List Char)
  | gap (t : Tag)
  | attribute (t : Tag) (name : List Char)
  | equals (t : Tag) (name : List Char)
  | value (t : Tag) (name : List Char) (quote : Char) (value : List Char)
deriving DecidableEq, Repr

/-- What the next character gives and where it leads. -/
def ScanPlace.step : ScanPlace → Char → Option (List Token × ScanPlace)
  | .content, c => if c = '<' then some ([], .name []) else some ([.char c], .content)
  | .name n, c =>
    if c = '>' then some ([.tag ⟨String.ofList n, []⟩], .content)
    else if c.isWhitespace then some ([], .gap ⟨String.ofList n, []⟩)
    else if isNameChar c then some ([], .name (n ++ [c]))
    else none
  | .gap t, c =>
    if c = '>' then some ([.tag t], .content)
    else if isGap c then some ([], .gap t)
    else if isNameChar c then some ([], .attribute t [c])
    else none
  | .attribute t n, c =>
    if c = '=' then some ([], .equals t n)
    else if isNameChar c then some ([], .attribute t (n ++ [c]))
    else none
  | .equals t n, c =>
    if c = '"' ∨ c = '\'' then some ([], .value t n c []) else none
  | .value t n quote v, c =>
    if c = quote then some ([], .gap (t.add n v))
    else if c = '<' then none
    else some ([], .value t n quote (v ++ [c]))

/-- The tags and characters of a text. A text must not end inside a tag. -/
def scan : ScanPlace → List Char → Option (List Token)
  | .content, [] => some []
  | _, [] => none
  | p, c :: cs => (p.step c).bind fun next => (scan next.2 cs).map (next.1 ++ ·)

/-- The tags of a text. -/
def tags? (text : String) : Option (List Tag) :=
  (scan .content text.toList).map fun ts => ts.filterMap Token.tag?

theorem scan_cons_of_step {p q : ScanPlace} {c : Char} {ts : List Token}
    (h : p.step c = some (ts, q)) (cs : List Char) :
    scan p (c :: cs) = (scan q cs).map (ts ++ ·) := by
  rw [scan, h]
  rfl

theorem scan_cons_of_silent {p q : ScanPlace} {c : Char} (h : p.step c = some ([], q))
    (cs : List Char) : scan p (c :: cs) = scan q cs := by
  rw [scan_cons_of_step h]
  simp

/-- A scan that only collects characters has collected all of them at the end. -/
theorem scan_append_of_collects {collect : List Char → ScanPlace} {ms : List Char}
    (h : ∀ m ∈ ms, ∀ us, (collect us).step m = some ([], collect (us ++ [m])))
    (us cs : List Char) : scan (collect us) (ms ++ cs) = scan (collect (us ++ ms)) cs := by
  induction ms generalizing us with
  | nil => rw [List.nil_append, List.append_nil]
  | cons m ms ih =>
      obtain ⟨hm, hms⟩ := List.forall_mem_cons.mp h
      rw [List.cons_append, scan_cons_of_silent (hm us), ih hms, List.append_assoc,
        List.singleton_append]

theorem scan_gap_append {gs : List Char} (h : ∀ g ∈ gs, isGap g = true) (t : Tag)
    (cs : List Char) : scan (.gap t) (gs ++ cs) = scan (.gap t) cs := by
  have hend : ∀ {g}, isGap g = true → g ≠ '>' := by
    rintro g hg rfl
    exact absurd hg (by decide)
  have hcollects : ∀ g ∈ gs, ∀ _us : List Char, (ScanPlace.gap t).step g = some ([], .gap t) := by
    intro g hg _
    rw [ScanPlace.step, if_neg (hend (h g hg)), if_pos (h g hg)]
  exact @scan_append_of_collects (fun _ => .gap t) gs hcollects [] cs

/-! ## Texts that are markup -/

/-- The attribute with its value as it is. -/
def Attribute.raw (a : Attribute) : List Char :=
  ' ' :: a.name.toList ++ "=\"".toList ++ a.value.toList ++ ['"']

/-- A text that can name a tag. -/
def IsTagName (cs : List Char) : Prop :=
  ∀ c ∈ cs, isNameChar c = true

instance (cs : List Char) : Decidable (IsTagName cs) :=
  decidable_of_iff (cs.all isNameChar = true) List.all_eq_true

/-- A text that can name an attribute. -/
def IsAttributeName (cs : List Char) : Prop :=
  cs ≠ [] ∧ ∀ c ∈ cs, isNameChar c = true ∧ isGap c = false

instance (cs : List Char) : Decidable (IsAttributeName cs) :=
  decidable_of_iff (cs ≠ [] ∧ cs.all fun c => isNameChar c && !isGap c)
    (by simp [IsAttributeName])

/-- The value ends neither itself nor the tag. -/
structure Attribute.Closed (a : Attribute) : Prop where
  name : IsAttributeName a.name.toList
  value : ∀ c ∈ a.value.toList, c ≠ '<' ∧ c ≠ '"'

/-- The text is markup that consists of the tokens. -/
inductive Marked : List Token → List Char → Prop where
  | nil : Marked [] []
  | char {c : Char} {ts : List Token} {cs : List Char} : c ≠ '<' → Marked ts cs →
      Marked (.char c :: ts) (c :: cs)
  | tag {name trail cs : List Char} {attributes : List Attribute} {ts : List Token} :
      IsTagName name → (∀ a ∈ attributes, a.Closed) →
      (∀ c ∈ trail, isGap c = true) → (attributes = [] → trail = []) → Marked ts cs →
      Marked (.tag ⟨String.ofList name, attributes⟩ :: ts)
        ('<' :: (name ++ (attributes.flatMap Attribute.raw ++ (trail ++ '>' :: cs))))

theorem Marked.append {ts us : List Token} {cs ds : List Char} (hcs : Marked ts cs)
    (hds : Marked us ds) : Marked (ts ++ us) (cs ++ ds) := by
  induction hcs with
  | nil => exact hds
  | char hc _ ih => exact .char hc ih
  | tag hname has htrail hend _ ih =>
      have h := Marked.tag hname has htrail hend ih
      simpa using h

/-- A tag without attributes. -/
theorem marked_bare {name : List Char} (h : IsTagName name) :
    Marked [.tag ⟨String.ofList name, []⟩] ('<' :: (name ++ ['>'])) := by
  have hnil : ∀ a ∈ ([] : List Attribute), a.Closed := List.forall_mem_nil _
  have hmarked := Marked.tag h hnil (List.forall_mem_nil _) (fun _ => rfl) .nil
  simpa using hmarked

theorem marked_chars {cs : List Char} (h : '<' ∉ cs) : Marked (cs.map .char) cs := by
  induction cs with
  | nil => exact .nil
  | cons c cs ih =>
      rw [List.mem_cons, not_or] at h
      exact .char (Ne.symm h.1) (ih h.2)

/-! ## Reading what is marked -/

theorem not_gap_of_isNameChar {c : Char} (h : isNameChar c = true) :
    c ≠ '>' ∧ c.isWhitespace = false ∧ c ≠ '=' := by
  simp only [isNameChar, Bool.not_eq_true', Bool.or_eq_false_iff, List.contains_eq_mem,
    decide_eq_false_iff_not, List.mem_cons, not_or] at h
  exact ⟨h.2.2.1, h.1, h.2.2.2.1⟩

theorem scan_name_append {ms : List Char} (h : IsTagName ms) (n cs : List Char) :
    scan (.name n) (ms ++ cs) = scan (.name (n ++ ms)) cs := by
  apply scan_append_of_collects
  intro m hm us
  obtain ⟨hend, hblank, _⟩ := not_gap_of_isNameChar (h m hm)
  simp [ScanPlace.step, hend, hblank, h m hm]

theorem scan_value_append {vs : List Char} (h : ∀ c ∈ vs, c ≠ '<' ∧ c ≠ '"') (t : Tag)
    (n v cs : List Char) :
    scan (.value t n '"' v) (vs ++ cs) = scan (.value t n '"' (v ++ vs)) cs := by
  apply scan_append_of_collects
  intro c hc us
  simp [ScanPlace.step, h c hc]

theorem scan_gap_attribute {a : Attribute} (ha : a.Closed) (t : Tag) (cs : List Char) :
    scan (.gap t) (a.raw ++ cs) = scan (.gap { t with attributes := t.attributes ++ [a] }) cs := by
  obtain ⟨⟨hne, hname⟩, hvalue⟩ := ha
  have hraw : a.raw ++ cs =
      ' ' :: (a.name.toList ++ '=' :: '"' :: (a.value.toList ++ '"' :: cs)) := by
    simp [Attribute.raw]
  cases hchars : a.name.toList with
  | nil => exact absurd hchars hne
  | cons m ms =>
      rw [hchars] at hname
      obtain ⟨⟨hm, hgap⟩, hms⟩ := List.forall_mem_cons.mp hname
      have hrest : ∀ c ∈ ms, ∀ us,
          (ScanPlace.attribute t us).step c = some ([], .attribute t (us ++ [c])) := by
        intro c hc us
        simp [ScanPlace.step, (not_gap_of_isNameChar (hms c hc).1).2.2, (hms c hc).1]
      have hstart : (ScanPlace.gap t).step m = some ([], .attribute t [m]) := by
        simp [ScanPlace.step, (not_gap_of_isNameChar hm).1, hgap, hm]
      rw [hraw, hchars, scan_cons_of_silent (q := .gap t) rfl, List.cons_append,
        scan_cons_of_silent hstart, scan_append_of_collects hrest, List.singleton_append, ← hchars,
        scan_cons_of_silent (q := .equals t a.name.toList) rfl,
        scan_cons_of_silent (q := .value t a.name.toList '"' []) rfl, scan_value_append hvalue,
        List.nil_append, scan_cons_of_silent (q := .gap (t.add a.name.toList a.value.toList)) rfl]
      simp [Tag.add]

theorem scan_gap_attributes {attributes : List Attribute} (h : ∀ a ∈ attributes, a.Closed) (t : Tag)
    (cs : List Char) :
    scan (.gap t) (attributes.flatMap Attribute.raw ++ cs) =
      scan (.gap { t with attributes := t.attributes ++ attributes }) cs := by
  induction attributes generalizing t with
  | nil => simp
  | cons a attributes ih =>
      obtain ⟨ha, hrest⟩ := List.forall_mem_cons.mp h
      rw [List.flatMap_cons, List.append_assoc, scan_gap_attribute ha, ih hrest]
      simp

/-- Marked texts are read to their tokens. -/
theorem Marked.scan_eq {ts : List Token} {cs : List Char} (h : Marked ts cs) :
    scan .content cs = some ts := by
  induction h with
  | nil => rfl
  | @char c ts cs hc _ ih =>
      have hstep : ScanPlace.content.step c = some ([.char c], .content) := by
        simp [ScanPlace.step, hc]
      rw [scan_cons_of_step hstep, ih]
      rfl
  | @tag name trail cs attributes ts hname has htrail hend _ ih =>
      have hclose : ∀ t : Tag, scan (.gap t) ('>' :: cs) = some (.tag t :: ts) := by
        intro t
        rw [scan_cons_of_step (q := .content) rfl, ih]
        rfl
      rw [scan_cons_of_silent (q := .name []) rfl, scan_name_append hname, List.nil_append]
      cases attributes with
      | nil =>
          rw [hend rfl, List.flatMap_nil, List.nil_append, List.nil_append,
            scan_cons_of_step (q := .content) rfl, ih]
          rfl
      | cons a attributes =>
          -- the blank before the first attribute may as well be read in the gap
          have hgap : ∀ ds, scan (.name name) (' ' :: ds) =
              scan (.gap ⟨String.ofList name, []⟩) (' ' :: ds) := by
            intro ds
            rw [scan_cons_of_silent (q := .gap ⟨String.ofList name, []⟩) rfl,
              scan_cons_of_silent (q := .gap ⟨String.ofList name, []⟩) rfl]
          have hraw : ∃ ds, (a :: attributes).flatMap Attribute.raw ++ (trail ++ '>' :: cs) =
              ' ' :: ds := ⟨_, rfl⟩
          obtain ⟨ds, hds⟩ := hraw
          rw [hds, hgap, ← hds, scan_gap_attributes has, scan_gap_append htrail, hclose,
            List.nil_append]

end RadarChart
