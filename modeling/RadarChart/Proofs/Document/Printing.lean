import RadarChart.Proofs.Document.FullLine
import RadarChart.Proofs.Document.Said

/-!
# Facts as lines

Every fact has a line of its own that says it: its key in plain words, a colon,
a space and its value. Lines of writable facts with distinct keys are read to
exactly these facts, whatever their order.
-/

namespace RadarChart

open Text

/-! ## The line of a fact -/

/-- The plain key of a target. -/
def Target.text : Target → String
  | .property p => p.name
  | .radius n => "radius " ++ toString n
  | .entryData n => "entry " ++ toString n ++ " data"
  | .entryColor n => "entry " ++ toString n ++ " color"

def Orientation.words : Orientation → String
  | .firstRadius => "first radius"
  | .firstSide => "first side"
  | .lastSide => "last side"
  | .named name => name

/-- The plain value of a fact. -/
def Fact.valueText : Fact → String
  | .size width height => toString width ++ " x " ++ toString height
  | .quantity _ n => toString n
  | .paint _ value => value
  | .flag _ true => "yes"
  | .flag _ false => "no"
  | .intervals none => "none"
  | .intervals (some step) => toString step
  | .top o => o.words
  | .intervalLabels labels => " ".intercalate labels
  | .radius _ label => label
  | .entryData _ values => " ".intercalate (values.map toString)
  | .entryColor _ color => color

def Fact.text (fact : Fact) : String :=
  fact.target.text ++ ": " ++ fact.valueText

/-- A text that stays as it is after a colon: one line that starts with no blank. -/
def IsPlain (cs : List Char) : Prop :=
  OneLine cs ∧ ∀ c ∈ cs.head?, isBlank c = false

instance (cs : List Char) : Decidable (IsPlain cs) :=
  decidable_of_iff (OneLine cs ∧ cs.head?.all fun c => !isBlank c)
    (by simp [IsPlain, Option.all_eq_true])

def Target.number? : Target → Option Nat
  | .property _ => none
  | .radius n | .entryData n | .entryColor n => some n

/-- A number that can be read once it is written. -/
def IsShort (n : Nat) : Prop :=
  n < 10 ^ digitLimit

def Target.Writable (t : Target) : Prop :=
  ∀ n ∈ t.number?, 1 ≤ n ∧ IsShort n

/-- The values that a line can say: their numbers are in range and short, and
their texts are plain. -/
def Fact.ValueWritable : Fact → Prop
  | .size width height => (1 ≤ width ∧ IsShort width) ∧ 1 ≤ height ∧ IsShort height
  | .quantity q n => q.minimum ≤ n ∧ IsShort n
  | .paint _ value => IsPlain value.toList
  | .flag _ _ => True
  | .intervals none => True
  | .intervals (some step) => 1 ≤ step ∧ IsShort step
  | .top o => o ∈ topWords.map (·.2)
  | .intervalLabels labels => labels ≠ [] ∧ ∀ label ∈ labels, IsWord label.toList
  | .radius _ label => IsPlain label.toList
  | .entryData _ values => values ≠ [] ∧ ∀ v ∈ values, IsShort v
  | .entryColor _ color => IsPlain color.toList

structure Fact.Writable (fact : Fact) : Prop where
  target : fact.target.Writable
  value : fact.ValueWritable

/-! ## The words of a key -/

/-- A word that can stand in a key and start a line. -/
def IsKeyWord (w : List Char) : Prop :=
  IsWord w ∧ ':' ∉ w ∧ '#' ∉ w

instance (w : List Char) : Decidable (IsKeyWord w) :=
  inferInstanceAs (Decidable (_ ∧ _))

theorem isKeyWord_toDigits (n : Nat) : IsKeyWord (Nat.toDigits 10 n) := by
  have hdigit : ∀ c ∈ Nat.toDigits 10 n, c.isDigit = true := by
    intro c hc
    exact Nat.isDigit_of_mem_toDigits (by decide) (by decide) hc
  refine ⟨⟨Nat.toDigits_ne_nil, fun c hc => isBlank_of_isDigit (hdigit c hc)⟩, ?_, ?_⟩
  · intro hc
    exact absurd (hdigit _ hc) (by decide)
  · intro hc
    exact absurd (hdigit _ hc) (by decide)

def Target.keyWords : Target → List (List Char)
  | .property p => words p.name.toList
  | .radius n => ["radius".toList, Nat.toDigits 10 n]
  | .entryData n => ["entry".toList, Nat.toDigits 10 n, "data".toList]
  | .entryColor n => ["entry".toList, Nat.toDigits 10 n, "color".toList]

section
variable {t : Target}

theorem Target.toList_text : t.text.toList = joinWords t.keyWords := by
  cases t with
  | property p =>
      have hall : ∀ p ∈ Property.all, p.name.toList = joinWords (words p.name.toList) := by decide
      exact hall p (Property.mem_all p)
  | radius n => simp [Target.text, Target.keyWords, joinWords]
  | entryData n => simp [Target.text, Target.keyWords, joinWords]
  | entryColor n => simp [Target.text, Target.keyWords, joinWords]

theorem Target.isKeyWord_of_mem_keyWords : ∀ w ∈ t.keyWords, IsKeyWord w := by
  cases t with
  | property p =>
      have hall : ∀ p ∈ Property.all, ∀ w ∈ words p.name.toList, IsKeyWord w := by decide
      exact hall p (Property.mem_all p)
  | radius n => simp [Target.keyWords, isKeyWord_toDigits]; decide
  | entryData n => simp [Target.keyWords, isKeyWord_toDigits]; decide
  | entryColor n => simp [Target.keyWords, isKeyWord_toDigits]; decide

theorem Target.not_comment_text : '#' ∉ t.text.toList.head? := by
  intro hc
  have hmem := List.mem_of_mem_head? hc
  rw [Target.toList_text] at hmem
  rcases mem_joinWords hmem with hspace | ⟨w, hw, hmem⟩
  · exact absurd hspace (by decide)
  · exact (Target.isKeyWord_of_mem_keyWords w hw).2.2 hmem

theorem Target.Writable.key_text (h : t.Writable) : t.Key t.text := by
  have hspace : ∀ n, ' ' ∉ Nat.toDigits 10 n := by
    intro n hmem
    exact absurd ((isKeyWord_toDigits n).1.2 _ hmem) (by decide)
  cases t with
  | property p => exact .property p
  | radius n =>
      have htext : (Target.radius n).text.toList = "radius ".toList ++ Nat.toDigits 10 n := by
        simp [Target.text]
      exact .radius htext (hspace n) (isNumeral_toDigits n) (h n rfl).1
  | entryData n =>
      have htext : (Target.entryData n).text.toList =
          "entry ".toList ++ Nat.toDigits 10 n ++ " data".toList := by
        simp [Target.text]
      exact .entryData htext (hspace n) (isNumeral_toDigits n) (h n rfl).1
  | entryColor n =>
      have htext : (Target.entryColor n).text.toList =
          "entry ".toList ++ Nat.toDigits 10 n ++ " color".toList := by
        simp [Target.text]
      exact .entryColor htext (hspace n) (isNumeral_toDigits n) (h n rfl).1

theorem IsShort.digitsWithin {n : Nat} (h : IsShort n) :
    DigitsWithin digitLimit (Nat.toDigits 10 n) :=
  digitsWithin_toDigits (by decide) h

theorem Target.length_le_or_eq_toDigits {w : List Char} (h : w ∈ t.keyWords) :
    w.length ≤ 10 ∨ ∃ n ∈ t.number?, w = Nat.toDigits 10 n := by
  cases t with
  | property p =>
      have hall : ∀ p ∈ Property.all, ∀ w ∈ words p.name.toList, w.length ≤ 10 := by decide
      exact Or.inl (hall p (Property.mem_all p) w h)
  | radius n =>
      simp only [Target.keyWords, List.mem_cons, List.not_mem_nil, or_false] at h
      rcases h with rfl | rfl
      · exact Or.inl (by decide)
      · exact Or.inr ⟨n, rfl, rfl⟩
  | entryData n | entryColor n =>
      simp only [Target.keyWords, List.mem_cons, List.not_mem_nil, or_false] at h
      rcases h with rfl | rfl | rfl
      · exact Or.inl (by decide)
      · exact Or.inr ⟨n, rfl, rfl⟩
      · exact Or.inl (by decide)

theorem Target.Writable.digitsWithin (h : t.Writable) :
    DigitsWithin digitLimit t.text.toList := by
  rw [Target.toList_text]
  apply digitsWithin_joinWords
  intro w hw
  rcases Target.length_le_or_eq_toDigits hw with hle | ⟨n, hn, rfl⟩
  · exact digitsWithin_of_length_le (Nat.le_trans hle (by decide))
  · exact (h n hn).2.digitsWithin

end

/-! ## Plain texts -/

theorem isPlain_joinWords {ws : List (List Char)} (h : ∀ w ∈ ws, IsWord w) :
    IsPlain (joinWords ws) := by
  refine ⟨oneLine_joinWords h, ?_⟩
  cases ws with
  | nil => simp [joinWords]
  | cons w ws =>
      obtain ⟨hne, hblank⟩ := h w List.mem_cons_self
      rw [head?_joinWords hne]
      intro c hc
      exact hblank c (List.mem_of_mem_head? hc)

theorem toList_intercalate_space (ss : List String) :
    (" ".intercalate ss).toList = joinWords (ss.map String.toList) := by
  have hsplit : ss = (ss.map String.toList).map String.ofList := by simp
  rw [hsplit, ← ofList_joinWords, String.toList_ofList, ← hsplit]

/-! ## Values -/

/-- The words of a value that is made of words. -/
def Fact.valueWords? : Fact → Option (List (List Char))
  | .size width height => some [Nat.toDigits 10 width, ['x'], Nat.toDigits 10 height]
  | .quantity _ n => some [Nat.toDigits 10 n]
  | .intervals (some step) => some [Nat.toDigits 10 step]
  | .intervalLabels labels => some (labels.map String.toList)
  | .entryData _ values => some (values.map (Nat.toDigits 10))
  | _ => none

section
variable {fact : Fact}

theorem Fact.toList_valueText {ws : List (List Char)} (h : fact.valueWords? = some ws) :
    fact.valueText.toList = joinWords ws := by
  cases fact with
  | size width height =>
      obtain rfl := Option.some.inj h
      simp [Fact.valueText, joinWords]
  | quantity q n =>
      obtain rfl := Option.some.inj h
      simp [Fact.valueText, joinWords]
  | intervals step =>
      cases step with
      | none => exact absurd h (by simp [Fact.valueWords?])
      | some step =>
          obtain rfl := Option.some.inj h
          simp [Fact.valueText, joinWords]
  | intervalLabels labels =>
      obtain rfl := Option.some.inj h
      exact toList_intercalate_space labels
  | entryData n values =>
      obtain rfl := Option.some.inj h
      rw [Fact.valueText, toList_intercalate_space, List.map_map]
      exact congrArg joinWords (List.map_congr_left fun n _ => Nat.toList_repr)
  | paint _ _ | flag _ _ | top _ | radius _ _ | entryColor _ _ =>
      exact absurd h (by simp [Fact.valueWords?])

/-- A word of a value is the sign of a size, a short number, or a label. -/
theorem Fact.valueWord_cases {ws : List (List Char)} (h : fact.ValueWritable)
    (hws : fact.valueWords? = some ws) :
    ∀ w ∈ ws, w = ['x'] ∨ (∃ n, IsShort n ∧ w = Nat.toDigits 10 n) ∨
      fact.hasNumbers = false ∧ IsWord w := by
  cases fact with
  | size width height =>
      obtain rfl := Option.some.inj hws
      intro w hw
      simp only [List.mem_cons, List.not_mem_nil, or_false] at hw
      rcases hw with rfl | rfl | rfl
      · exact Or.inr (Or.inl ⟨width, h.1.2, rfl⟩)
      · exact Or.inl rfl
      · exact Or.inr (Or.inl ⟨height, h.2.2, rfl⟩)
  | quantity q n =>
      obtain rfl := Option.some.inj hws
      exact List.forall_mem_singleton.mpr (Or.inr (Or.inl ⟨n, h.2, rfl⟩))
  | intervals step =>
      cases step with
      | none => exact absurd hws (by simp [Fact.valueWords?])
      | some step =>
          obtain rfl := Option.some.inj hws
          exact List.forall_mem_singleton.mpr (Or.inr (Or.inl ⟨step, h.2, rfl⟩))
  | intervalLabels labels =>
      obtain rfl := Option.some.inj hws
      exact List.forall_mem_map.mpr fun label hlabel => Or.inr (Or.inr ⟨rfl, h.2 label hlabel⟩)
  | entryData n values =>
      obtain rfl := Option.some.inj hws
      exact List.forall_mem_map.mpr fun v hv => Or.inr (Or.inl ⟨v, h.2 v hv, rfl⟩)
  | paint _ _ | flag _ _ | top _ | radius _ _ | entryColor _ _ =>
      exact absurd hws (by simp [Fact.valueWords?])

theorem Fact.isWord_of_mem_valueWords {ws : List (List Char)} (h : fact.ValueWritable)
    (hws : fact.valueWords? = some ws) : ∀ w ∈ ws, IsWord w := by
  intro w hw
  rcases Fact.valueWord_cases h hws w hw with rfl | ⟨n, _, rfl⟩ | ⟨_, hword⟩
  · decide
  · exact (isKeyWord_toDigits n).1
  · exact hword

theorem Fact.isPlain_valueText (h : fact.ValueWritable) : IsPlain fact.valueText.toList := by
  cases hws : fact.valueWords? with
  | some ws =>
      rw [Fact.toList_valueText hws]
      exact isPlain_joinWords (Fact.isWord_of_mem_valueWords h hws)
  | none =>
      cases fact with
      | paint p value => exact h
      | radius n label => exact h
      | entryColor n color => exact h
      | flag f value =>
          cases value with
          | true => exact (by decide : IsPlain "yes".toList)
          | false => exact (by decide : IsPlain "no".toList)
      | top o =>
          have hall : ∀ o ∈ topWords.map (·.2), IsPlain o.words.toList := by decide
          exact hall o h
      | intervals step =>
          cases step with
          | none => exact (by decide : IsPlain "none".toList)
          | some step => exact absurd hws (by simp [Fact.valueWords?])
      | size _ _ | quantity _ _ | intervalLabels _ | entryData _ _ =>
          exact absurd hws (by simp [Fact.valueWords?])

theorem Fact.exists_valueWords (h : fact.hasNumbers = true) :
    ∃ ws, fact.valueWords? = some ws := by
  cases fact with
  | size _ _ | quantity _ _ | entryData _ _ => exact ⟨_, rfl⟩
  | intervals step =>
      cases step with
      | none => exact absurd h Bool.false_ne_true
      | some step => exact ⟨_, rfl⟩
  | paint _ _ | flag _ _ | top _ | intervalLabels _ | radius _ _ | entryColor _ _ =>
      exact absurd h Bool.false_ne_true

theorem Fact.digitsWithin_valueText (h : fact.ValueWritable) (hnumbers : fact.hasNumbers = true) :
    DigitsWithin digitLimit fact.valueText.toList := by
  obtain ⟨ws, hws⟩ := Fact.exists_valueWords hnumbers
  rw [Fact.toList_valueText hws]
  apply digitsWithin_joinWords
  intro w hw
  rcases Fact.valueWord_cases h hws w hw with rfl | ⟨n, hn, rfl⟩ | ⟨hnone, _⟩
  · exact digitsWithin_of_length_le (by decide)
  · exact hn.digitsWithin
  · exact absurd (hnumbers.symm.trans hnone) Bool.noConfusion

theorem Fact.value_valueText (h : fact.ValueWritable) :
    fact.target.Value fact.valueText fact := by
  have hnumeral : ∀ n : Nat, IsNumeral (toString n).toList n := by
    intro n
    rw [Nat.toString_eq_repr, Nat.toList_repr]
    exact isNumeral_toDigits n
  have hspace : ∀ c ∈ [' '], isAsciiBlank c = true := List.forall_mem_singleton.mpr rfl
  cases fact with
  | size width height =>
      obtain ⟨⟨hwidth, _⟩, hheight, _⟩ := h
      have htext : (Fact.size width height).valueText.toList =
          ((toString width).toList ++ [' ']) ++ 'x' :: ([' '] ++ (toString height).toList) := by
        simp [Fact.valueText]
      refine .property (.size htext ?_ ?_ hwidth hheight)
      · have hleft : IsNumeral ([] ++ (toString width).toList ++ [' ']) width :=
          (hnumeral width).append (by simp) hspace
        exact hleft
      · have hright : IsNumeral ([' '] ++ (toString height).toList ++ []) height :=
          (hnumeral height).append hspace (by simp)
        rwa [List.append_nil] at hright
  | quantity q n => exact .property (.quantity (hnumeral n) h.1)
  | paint p value => exact .property (.paint p value)
  | flag f value =>
      cases value with
      | true => exact .property (.yes (.refl _ _))
      | false => exact .property (.no (.refl _ _))
  | intervals step =>
      cases step with
      | none => exact .property (.withoutRings (.refl _ _))
      | some step => exact .property (.rings (hnumeral step) h.1)
  | top o =>
      have hall : ∀ o ∈ topWords.map (·.2), (o.words, o) ∈ topWords := by decide
      exact .property (.top (hall o h) (.refl _ _))
  | intervalLabels labels =>
      have hspaced : Spaced (labels.map String.toList) (" ".intercalate labels).toList := by
        rw [toList_intercalate_space]
        exact spaced_joinWords (List.forall_mem_map.mpr h.2)
      have hvalue : Property.Value .intervalLabels (" ".intercalate labels)
          (.intervalLabels ((labels.map String.toList).map String.ofList)) :=
        .intervalLabels hspaced fun hnil => h.1 (List.map_eq_nil_iff.mp hnil)
      have hback : (labels.map String.toList).map String.ofList = labels := by simp
      rw [hback] at hvalue
      exact .property hvalue
  | radius n label => exact .radius n label
  | entryColor n color => exact .entryColor n color
  | entryData n values =>
      have hwords : ∀ w ∈ values.map (Nat.toDigits 10), IsWord w :=
        List.forall_mem_map.mpr fun v _ => (isKeyWord_toDigits v).1
      have hspaced : Spaced (values.map (Nat.toDigits 10))
          (Fact.entryData n values).valueText.toList := by
        rw [Fact.toList_valueText rfl]
        exact spaced_joinWords hwords
      refine .entryData hspaced ?_ ?_
      · exact fun hnil => h.1 (List.map_eq_nil_iff.mp hnil)
      · rw [List.forall₂_map_left_iff, List.forall₂_same]
        exact fun v _ => isNumeral_toDigits v

/-! ## Lines -/

/-- The item that says the fact on a line. -/
def Fact.item (fact : Fact) (line : Int) : Item :=
  ⟨fact.target.text, line, fact.valueText⟩

theorem Fact.plain_item (h : fact.ValueWritable) (line : Int) : (fact.item line).Plain := by
  refine ⟨⟨fact.target.keyWords, ?_, Target.toList_text⟩, (Fact.isPlain_valueText h).2⟩
  intro w hw
  obtain ⟨hword, hcolon, _⟩ := Target.isKeyWord_of_mem_keyWords w hw
  exact ⟨hword, hcolon⟩

theorem Fact.oneLine_text (h : fact.ValueWritable) : OneLine fact.text.toList :=
  (Fact.plain_item h 1).oneLine_fullText (Fact.isPlain_valueText h).1

theorem Fact.isMeaningful_text (h : fact.ValueWritable) : isMeaningful fact.text.toList = true :=
  (Fact.plain_item h 1).isMeaningful_fullText Target.not_comment_text

end

theorem Fact.Writable.isOf_item {fact : Fact} (h : fact.Writable) (line : Int) :
    Statement.IsOf (fact.item line) ⟨line, fact⟩ ∧ (fact.item line).Readable fact :=
  ⟨⟨rfl, fact.target, h.target.key_text, Fact.value_valueText h.value⟩,
    h.target.digitsWithin, Fact.digitsWithin_valueText h.value⟩

/-! ## Reading the lines -/

/-- Lines of writable facts are the full lines of items that say these facts. -/
theorem exists_items_of_lines {ls : List Line} {facts : List Fact}
    (h : List.Forall₂ (fun l fact => l.text = fact.text ∧ fact.Writable) ls facts) :
    ∃ (items : List Item) (ss : List Statement),
      ls = items.map Item.fullLine ∧ (∀ item ∈ items, item.Plain) ∧
      items.map (·.key) = facts.map (·.target.text) ∧
      List.Forall₂ (fun item s => s.IsOf item ∧ item.Readable s.fact) items ss ∧
      ss.map (·.fact) = facts := by
  induction h with
  | nil => exact ⟨[], [], rfl, List.forall_mem_nil _, rfl, .nil, rfl⟩
  | @cons l fact ls facts hline _ ih =>
      obtain ⟨items, ss, rfl, hplain, hkeys, hss, rfl⟩ := ih
      obtain ⟨htext, hwritable⟩ := hline
      have hfull : l = (fact.item l.number).fullLine := by
        cases l
        exact (Line.mk.injEq _ _ _ _).mpr ⟨rfl, htext⟩
      refine ⟨fact.item l.number :: items, ⟨l.number, fact⟩ :: ss, ?_, ?_, ?_,
        .cons (hwritable.isOf_item l.number) hss, rfl⟩
      · rw [List.map_cons, ← hfull]
      · exact List.forall_mem_cons.mpr ⟨Fact.plain_item hwritable.value _, hplain⟩
      · rw [List.map_cons, hkeys]
        rfl

/-- Plain keys of distinct targets are distinct. -/
theorem nodup_map_text {ts : List Target} (hwritable : ∀ t ∈ ts, t.Writable) (hnodup : ts.Nodup) :
    (ts.map Target.text).Nodup := by
  apply hnodup.map_on
  intro t ht u hu htext
  -- one text would be a key of both
  have hkey : u.Key t.text := htext ▸ (hwritable u hu).key_text
  exact (hwritable t ht).key_text.unique hkey

/-- The data of an entry are stated once where the targets are distinct. -/
theorem nodup_dataNumbers_of_targets {ss : List Statement}
    (h : (ss.map fun s => s.fact.target).Nodup) : (dataNumbers ss).Nodup := by
  induction ss with
  | nil => exact List.nodup_nil
  | cons s ss ih =>
      rw [List.map_cons, List.nodup_cons] at h
      refine nodup_dataNumbers_cons.mpr ⟨?_, ih h.2⟩
      intro n hn hmem
      obtain ⟨t, ht, hnumber⟩ := List.mem_filterMap.mp hmem
      obtain ⟨_, hs⟩ := Fact.dataNumber?_eq_some_iff.mp hn
      obtain ⟨_, ht'⟩ := Fact.dataNumber?_eq_some_iff.mp hnumber
      refine h.1 (List.mem_map.mpr ⟨t, ht, ?_⟩)
      rw [hs, ht']
      rfl

/-- Lines of writable facts about distinct things are read to these facts. -/
theorem exists_read_of_lines {ls : List Line} {facts : List Fact}
    (htexts : ls.map (·.text) = facts.map Fact.text) (hwritable : ∀ fact ∈ facts, fact.Writable)
    (hnodup : (facts.map Fact.target).Nodup) :
    ∃ items ss, resolve ls = .ok items ∧ readStatements items = .ok ss ∧
      ss.map (·.fact) = facts := by
  have heq : List.Forall₂ (· = ·) (ls.map (·.text)) (facts.map Fact.text) := by
    rw [htexts, List.forall₂_same]
    exact fun _ _ => rfl
  rw [List.forall₂_map_left_iff, List.forall₂_map_right_iff] at heq
  have hlines : List.Forall₂ (fun l fact => l.text = fact.text ∧ fact.Writable) ls facts := by
    refine List.Forall₂.flip (List.Forall₂.imp ?_
      ((List.forall₂_and_left _ _).mpr ⟨hwritable, heq.flip⟩))
    rintro fact l ⟨hfact, htext⟩
    exact ⟨htext, hfact⟩
  obtain ⟨items, ss, rfl, hplain, hkeys, hss, hfacts⟩ := exists_items_of_lines hlines
  have hdistinct : (items.map (·.key)).Nodup := by
    rw [hkeys]
    have htargets := nodup_map_text (List.forall_mem_map.mpr fun fact hfact =>
      (hwritable fact hfact).target) hnodup
    rwa [List.map_map] at htargets
  refine ⟨items, ss, resolve_fullLines hplain hdistinct, ?_, hfacts⟩
  apply readStatementsFrom_of_forall₂_isOf hss
  · apply nodup_dataNumbers_of_targets
    rw [← hfacts, List.map_map] at hnodup
    exact hnodup
  · simp

end RadarChart
