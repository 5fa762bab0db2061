import RadarChart.Proofs.Document.Source

/-!
# Items in full

Every item that lines resolve to has a line of its own that says it in full:
its key, a colon, a space and its value. Such lines need no line above them, and
they resolve to the items that they were written from.
-/

namespace RadarChart

open Text

/-- The key of the item, a colon, a space and its value. -/
def Item.fullText (item : Item) : String :=
  item.key ++ ": " ++ item.value

/-- The line that says the item in full. -/
def Item.fullLine (item : Item) : Line :=
  ⟨item.line, item.fullText⟩

/-- The key consists of words without a colon, with single spaces between, and
the value starts with no blank. -/
structure Item.Plain (item : Item) : Prop where
  key : ∃ ws, (∀ w ∈ ws, IsWord w ∧ ':' ∉ w) ∧ item.key.toList = joinWords ws
  value : ∀ c ∈ item.value.toList.head?, isBlank c = false

/-! ## Reading a full line -/

section
variable {item : Item}

theorem Item.toList_fullText :
    item.fullText.toList = item.key.toList ++ ':' :: ' ' :: item.value.toList := by
  simp [Item.fullText]

theorem Item.colon_mem_fullText : ':' ∈ item.fullText.toList := by
  rw [Item.toList_fullText]
  exact List.mem_append_right _ List.mem_cons_self

variable (h : item.Plain)

include h

theorem Item.Plain.ne_colon : ∀ c ∈ item.key.toList, (c != ':') = true := by
  obtain ⟨ws, hws, hkey⟩ := h.key
  intro c hc
  rw [hkey] at hc
  rw [bne_iff_ne]
  rintro rfl
  rcases mem_joinWords hc with hspace | ⟨w, hw, hc⟩
  · exact absurd hspace (by decide)
  · exact (hws w hw).2 hc

/-- A full line starts with its key, or with the colon where the key is empty. -/
theorem Item.Plain.exists_head :
    ∃ c cs, item.fullText.toList = c :: cs ∧ isBlank c = false ∧
      (c ∈ item.key.toList.head? ∨ c = ':') := by
  obtain ⟨ws, hws, hkey⟩ := h.key
  rw [Item.toList_fullText, hkey]
  cases ws with
  | nil => exact ⟨':', _, rfl, rfl, Or.inr rfl⟩
  | cons w ws =>
      obtain ⟨⟨hne, hblank⟩, _⟩ := hws w List.mem_cons_self
      obtain ⟨c, w, rfl⟩ := List.exists_cons_of_ne_nil hne
      have hhead : (joinWords ((c :: w) :: ws)).head? = some c := head?_joinWords hne
      obtain ⟨cs, hcs⟩ := List.head?_eq_some_iff.mp hhead
      rw [hcs]
      exact ⟨c, _, rfl, hblank c List.mem_cons_self, Or.inl rfl⟩

theorem Item.Plain.indented_fullLine : item.fullLine.indented = false := by
  obtain ⟨c, cs, htext, hblank, _⟩ := h.exists_head
  rw [Line.indented, Item.fullLine, htext]
  exact hblank

theorem Item.Plain.key_fullLine : String.ofList (joinWords item.fullLine.words) = item.key := by
  obtain ⟨ws, hws, hkey⟩ := id h.key
  have hwords : item.fullLine.words = ws := by
    rw [Line.words, Item.fullLine, Item.toList_fullText, List.takeWhile_append_of_pos h.ne_colon,
      List.takeWhile_cons_of_neg (by decide), List.append_nil, hkey,
      words_joinWords fun w hw => (hws w hw).1]
  rw [hwords, ← hkey, String.ofList_toList]

theorem Item.Plain.item_fullLine : item.fullLine.item item.key = item := by
  have htrim : trimLeft isBlank (' ' :: item.value.toList) = item.value.toList := by
    have hblank : ∀ c ∈ [' '], isBlank c = true := List.forall_mem_singleton.mpr rfl
    have hpad := trimLeft_append_of_forall hblank item.value.toList
    rw [List.singleton_append] at hpad
    rw [hpad, trimLeft_eq_self h.value]
  have hvalue : item.fullLine.value = item.value.toList := by
    rw [Line.value, Item.fullLine, Item.toList_fullText, List.dropWhile_append_of_pos h.ne_colon,
      List.dropWhile_cons_of_neg (by decide), List.drop_one, List.tail_cons, htrim]
  rw [Line.item, hvalue, String.ofList_toList]
  rfl

theorem Item.Plain.isMeaningful_fullText (hcomment : '#' ∉ item.key.toList.head?) :
    isMeaningful item.fullText.toList = true := by
  obtain ⟨c, cs, htext, hblank, hc⟩ := h.exists_head
  rw [htext]
  refine isMeaningful_cons hblank ?_ cs
  rintro rfl
  rcases hc with hc | hc
  · exact hcomment hc
  · exact absurd hc (by decide)

theorem Item.Plain.oneLine_fullText (hvalue : OneLine item.value.toList) :
    OneLine item.fullText.toList := by
  obtain ⟨ws, hws, hkey⟩ := h.key
  have hcolon : OneLine [':', ' '] := by decide
  rw [Item.toList_fullText, hkey]
  exact (oneLine_joinWords fun w hw => (hws w hw).1).append (hcolon.append hvalue)

end

/-- Plain items with distinct keys are read back from their full lines. -/
theorem resolve_fullLines {items : List Item} (hplain : ∀ item ∈ items, item.Plain)
    (hnodup : (items.map (·.key)).Nodup) : resolve (items.map Item.fullLine) = .ok items := by
  have hflush : ∀ l ∈ items.map Item.fullLine, l.indented = false := by
    rw [List.forall_mem_map]
    exact fun item hitem => (hplain item hitem).indented_fullLine
  have hkeys : keys (items.map Item.fullLine) = items.map (·.key) := by
    rw [keys_of_flush hflush, List.map_map]
    exact List.map_congr_left fun item hitem => (hplain item hitem).key_fullLine
  refine resolve_eq_ok_iff.mpr ⟨?_, hkeys ▸ hnodup, ?_⟩
  · rw [List.forall_mem_map]
    exact fun item _ => Item.colon_mem_fullText
  · rw [hkeys, List.zipWith_map, List.zipWith_self]
    exact ((List.map_congr_left fun item hitem => (hplain item hitem).item_fullLine).trans
      (List.map_id items)).symm

/-! ## The items of lines -/

theorem isWord_of_mem_words {l : Line} {w : List Char} (h : w ∈ l.words) :
    IsWord w ∧ ':' ∉ w := by
  refine ⟨⟨ne_nil_of_mem_words h, fun c hc => not_isBlank_of_mem_words h hc⟩, ?_⟩
  intro hc
  have hmem := ((spaced_words _).infix_of_mem h).subset hc
  exact absurd (List.all_eq_true.mp List.all_takeWhile _ hmem) (by decide)

/-- The first word of a path comes from the path before or from the first words of the lines. -/
theorem forall_head?_pathsFrom {p : List Char → Prop} {path : List (List Char)} {ls : List Line}
    (hpath : ∀ w ∈ path.head?, p w) (hls : ∀ l ∈ ls, ∀ w ∈ l.words.head?, p w) :
    ∀ q ∈ pathsFrom path ls, ∀ w ∈ q.head?, p w := by
  induction ls generalizing path with
  | nil => simp [pathsFrom]
  | cons l ls ih =>
      obtain ⟨hl, hls⟩ := List.forall_mem_cons.mp hls
      have hextended : ∀ w ∈ (extendPath path l.parts).head?, p w := by
        intro w hw
        unfold extendPath at hw
        split at hw
        · rw [List.head?_append, Option.mem_def, Option.or_eq_some_iff] at hw
          rcases hw with hw | ⟨_, hw⟩
          · rw [List.head?_take] at hw
            split at hw
            · cases hw
            · exact hpath w hw
          · exact hl w hw
        · exact hl w hw
      exact List.forall_mem_cons.mpr ⟨hextended, ih hextended hls⟩

/-- A line whose first key word starts with `#` is a comment. -/
theorem isSilent_of_comment {l : Line} {w : List Char} (hw : w ∈ l.words.head?)
    (hc : '#' ∈ w.head?) : IsSilent l.text.toList := by
  obtain ⟨blanks, rest, hblanks, hkey⟩ := (spaced_words _).exists_blanks hw hc
  refine Or.inr ⟨blanks, rest ++ l.text.toList.dropWhile (· != ':'), hblanks, ?_⟩
  rw [← List.cons_append, ← List.append_assoc, ← hkey, List.takeWhile_append_dropWhile]

/-- The paths of lines consist of words that a key can have. -/
theorem isWord_of_mem_pathsFrom {lines : List Line} {path : List (List Char)}
    (hpath : path ∈ pathsFrom [] lines) : ∀ w ∈ path, IsWord w ∧ ':' ∉ w :=
  forall_mem_pathsFrom (by simp) (fun _ _ _ hw => isWord_of_mem_words hw) path hpath

section
variable {lines : List Line} {items : List Item} (h : resolve lines = .ok items)

include h

/-- An item has the words of a path as its key and the value of a line. -/
theorem exists_path_of_resolve {item : Item} (hitem : item ∈ items) :
    ∃ path ∈ pathsFrom [] lines, ∃ l ∈ lines,
      item.key.toList = joinWords path ∧ item.value.toList = l.value := by
  obtain ⟨_, _, rfl⟩ := resolve_eq_ok_iff.mp h
  obtain ⟨key, hkey, l, hl, rfl⟩ := exists_of_mem_zipWith_item hitem
  rw [← keysFrom_nil, keysFrom] at hkey
  obtain ⟨path, hpath, rfl⟩ := List.mem_map.mp hkey
  exact ⟨path, hpath, l, hl, String.toList_ofList, String.toList_ofList⟩

theorem plain_of_resolve : ∀ item ∈ items, item.Plain := by
  intro item hitem
  obtain ⟨path, hpath, l, _, hkey, hvalue⟩ := exists_path_of_resolve h hitem
  refine ⟨⟨path, isWord_of_mem_pathsFrom hpath, hkey⟩, ?_⟩
  rw [hvalue]
  exact not_of_head?_trimLeft

/-- Lines that are no comments have no key that would make one. -/
theorem not_comment_of_resolve (hmeaning : ∀ l ∈ lines, ¬ IsSilent l.text.toList) :
    ∀ item ∈ items, '#' ∉ item.key.toList.head? := by
  intro item hitem
  obtain ⟨path, hpath, l, _, hkey, _⟩ := exists_path_of_resolve h hitem
  have hfirst : ∀ w ∈ path.head?, '#' ∉ w.head? :=
    forall_head?_pathsFrom (by simp)
      (fun l hl w hw hc => hmeaning l hl (isSilent_of_comment hw hc)) path hpath
  rw [hkey]
  cases path with
  | nil => simp [joinWords]
  | cons w ws =>
      rw [head?_joinWords (isWord_of_mem_pathsFrom hpath w List.mem_cons_self).1.1]
      exact hfirst w rfl

end

end RadarChart
