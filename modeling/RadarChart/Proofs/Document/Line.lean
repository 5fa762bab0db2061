import Mathlib.Logic.Basic
import RadarChart.Document.Line
import RadarChart.Proofs.Text.Word

/-!
# Texts made of lines

Lines that hold no line end are found again in every text that ends each of
them, in one way or another, whether the last one is ended or not. Of all lines
the meaningful ones are read, those that are neither blank nor a comment, each
with its place as its number. Every line lies in the text.
-/

namespace RadarChart

open Text

/-- The text holds neither a line feed nor a carriage return. -/
def OneLine (cs : List Char) : Prop :=
  '\n' ∉ cs ∧ '\r' ∉ cs

instance (cs : List Char) : Decidable (OneLine cs) :=
  inferInstanceAs (Decidable (_ ∧ _))

theorem OneLine.append {as bs : List Char} (has : OneLine as) (hbs : OneLine bs) :
    OneLine (as ++ bs) := by
  simp only [OneLine, List.mem_append, not_or]
  exact ⟨⟨has.1, hbs.1⟩, has.2, hbs.2⟩

theorem oneLine_joinWords {ws : List (List Char)} (h : ∀ w ∈ ws, IsWord w) :
    OneLine (joinWords ws) := by
  have hchar : ∀ c ∈ joinWords ws, c = ' ' ∨ isBlank c = false := by
    intro c hc
    rcases mem_joinWords hc with rfl | ⟨w, hw, hc⟩
    · exact Or.inl rfl
    · exact Or.inr ((h w hw).2 c hc)
  constructor
  · intro hc
    exact absurd (hchar _ hc) (by decide)
  · intro hc
    exact absurd (hchar _ hc) (by decide)

/-! ## The lines of a text -/

theorem splitLines_cons {c : Char} {cs l : List Char} {ls : List (List Char)} (hfeed : c ≠ '\n')
    (hreturn : c ≠ '\r') (h : splitLines cs = l :: ls) :
    splitLines (c :: cs) = (c :: l) :: ls := by
  rw [splitLines]
  · rw [h]
  · intro _ hc _
    exact hreturn hc
  · exact hfeed

/-- A line in front of a line end, or of the end of the text, is the first line. -/
theorem splitLines_append {l cs : List Char} {ls : List (List Char)} (hl : OneLine l)
    (h : splitLines cs = [] :: ls) : splitLines (l ++ cs) = l :: ls := by
  induction l with
  | nil => exact h
  | cons c l ih =>
      obtain ⟨hfeed, hreturn⟩ := hl
      rw [List.mem_cons, not_or] at hfeed hreturn
      exact splitLines_cons (Ne.symm hfeed.1) (Ne.symm hreturn.1) (ih ⟨hfeed.2, hreturn.2⟩)

/-- The ways to end a line of a document. -/
def lineEnds : List (List Char) :=
  [['\n'], ['\r', '\n']]

/-- The text consists of the lines, each ended in one of the given ways; the
last line may be left without an end. -/
inductive Ended (ends : List (List Char)) : List (List Char) → List Char → Prop where
  | nil : Ended ends [] []
  | last (l : List Char) : Ended ends [l] l
  | cons {l e cs : List Char} {ls : List (List Char)} :
      e ∈ ends → Ended ends ls cs → Ended ends (l :: ls) (l ++ e ++ cs)

theorem Ended.mono {ends others ls : List (List Char)} {cs : List Char} (h : Ended ends ls cs)
    (hsub : ends ⊆ others) : Ended others ls cs := by
  induction h with
  | nil => exact .nil
  | last l => exact .last l
  | cons he _ ih => exact .cons (hsub he) ih

/-- Lines that are each followed by a line feed. -/
theorem ended_flatMap (ls : List (List Char)) : Ended [['\n']] ls (ls.flatMap (· ++ ['\n'])) := by
  induction ls with
  | nil => exact .nil
  | cons l ls ih => exact .cons List.mem_cons_self ih

/-- Lines with line feeds between them. -/
theorem ended_intercalate (ls : List (List Char)) : Ended [['\n']] ls (['\n'].intercalate ls) := by
  induction ls with
  | nil => exact .nil
  | cons l ls ih =>
      cases ls with
      | nil =>
          rw [List.intercalate_singleton]
          exact .last l
      | cons m ls =>
          rw [List.intercalate_cons_cons]
          exact .cons List.mem_cons_self ih

/-- The lines of a text lie in it, and the first one starts it. -/
theorem isInfix_splitLines (cs : List Char) :
    (∀ l ∈ splitLines cs, l <:+: cs) ∧ ∀ l ∈ (splitLines cs).head?, l <+: cs := by
  fun_induction splitLines cs with
  | case1 => simp
  | case2 cs ih =>
      have hcs : cs <:+ '\r' :: '\n' :: cs := (List.suffix_cons _ _).trans (List.suffix_cons _ _)
      refine ⟨List.forall_mem_cons.mpr ⟨List.nil_infix, ?_⟩, by simp⟩
      exact fun l hl => (ih.1 l hl).trans hcs.isInfix
  | case3 cs ih =>
      refine ⟨List.forall_mem_cons.mpr ⟨List.nil_infix, ?_⟩, by simp⟩
      exact fun l hl => (ih.1 l hl).trans (List.suffix_cons _ _).isInfix
  | case4 c cs _ _ hnil ih => exact absurd hnil (splitLines_ne_nil cs)
  | case5 c cs _ _ l ls hlines ih =>
      rw [hlines] at ih
      obtain ⟨hin, hstart⟩ := ih
      -- the character is put in front of the first line
      have hfirst : c :: l <+: c :: cs := List.cons_prefix_cons.mpr ⟨rfl, hstart l rfl⟩
      refine ⟨List.forall_mem_cons.mpr ⟨hfirst.isInfix, ?_⟩, by simpa using hfirst⟩
      intro m hm
      exact (hin m (List.mem_cons_of_mem l hm)).trans (List.suffix_cons _ _).isInfix

theorem not_mem_of_mem_splitLines {cs l : List Char} (h : l ∈ splitLines cs) : '\n' ∉ l := by
  fun_induction splitLines cs generalizing l with
  | case1 => simp_all
  | case2 cs ih =>
      rcases List.mem_cons.mp h with rfl | h
      · exact List.not_mem_nil
      · exact ih h
  | case3 cs ih =>
      rcases List.mem_cons.mp h with rfl | h
      · exact List.not_mem_nil
      · exact ih h
  | case4 c cs _ _ hnil ih => exact absurd hnil (splitLines_ne_nil cs)
  | case5 c cs _ hfeed m ms hlines ih =>
      rw [hlines] at ih
      rcases List.mem_cons.mp h with rfl | h
      · rw [List.mem_cons, not_or]
        exact ⟨Ne.symm hfeed, ih List.mem_cons_self⟩
      · exact ih (List.mem_cons_of_mem m h)

/-! ## Meaningful lines -/

/-- The line is blank, or the first of its characters that is not blank is `#`. -/
def IsSilent (cs : List Char) : Prop :=
  (∀ c ∈ cs, isBlank c = true) ∨
    ∃ blanks rest, (∀ c ∈ blanks, isBlank c = true) ∧ cs = blanks ++ '#' :: rest

theorem isMeaningful_eq_false_iff {cs : List Char} : isMeaningful cs = false ↔ IsSilent cs := by
  constructor
  · intro h
    obtain ⟨blanks, hcs, hblanks⟩ := exists_append_trimLeft isBlank cs
    rw [isMeaningful] at h
    cases htrim : trimLeft isBlank cs with
    | nil =>
        rw [htrim, List.append_nil] at hcs
        exact Or.inl (hcs ▸ hblanks)
    | cons c rest =>
        rw [htrim] at h hcs
        obtain rfl : c = '#' := by simpa using h
        exact Or.inr ⟨blanks, rest, hblanks, hcs⟩
  · rintro (hblank | ⟨blanks, rest, hblanks, rfl⟩)
    · rw [← List.append_nil cs, isMeaningful, trimLeft_append_of_forall hblank]
      rfl
    · rw [isMeaningful, trimLeft_append_of_forall hblanks]
      rfl

instance (cs : List Char) : Decidable (IsSilent cs) :=
  decidable_of_iff _ isMeaningful_eq_false_iff

theorem isMeaningful_cons {c : Char} (hblank : isBlank c = false) (hc : c ≠ '#')
    (cs : List Char) : isMeaningful (c :: cs) = true := by
  have htrim : trimLeft isBlank (c :: cs) = c :: cs :=
    trimLeft_eq_self fun d hd => Option.some.inj hd ▸ hblank
  rw [isMeaningful, htrim]
  simpa using hc

theorem not_isSilent_iff {cs : List Char} : ¬ IsSilent cs ↔ isMeaningful cs = true := by
  rw [← isMeaningful_eq_false_iff, Bool.not_eq_false]

/-- The lines that are not silent, each with its place. -/
theorem numberLines_eq (first : Nat) (ls : List (List Char)) :
    numberLines first ls = ((ls.zipIdx first).filter fun p => ¬ IsSilent p.1).map
      fun p => ⟨p.2, String.ofList p.1⟩ := by
  induction ls generalizing first with
  | nil => rfl
  | cons l ls ih =>
      rw [numberLines, List.zipIdx_cons, ih]
      by_cases hl : IsSilent l
      · rw [if_neg (not_isSilent_iff.not_right.mp hl), List.filter_cons_of_neg (by simpa using hl)]
      · rw [if_pos (not_isSilent_iff.mp hl), List.filter_cons_of_pos (by simpa using hl)]
        rfl

/-- The number of a line is a place in the list. -/
theorem of_mem_numberLines {first : Nat} {ls : List (List Char)} {l : Line}
    (h : l ∈ numberLines first ls) :
    l.text.toList ∈ ls ∧ (first : Int) ≤ l.number ∧ l.number < first + ls.length := by
  rw [numberLines_eq] at h
  obtain ⟨⟨cs, i⟩, hmem, rfl⟩ := List.mem_map.mp h
  have hplace := (List.mem_filter.mp hmem).1
  obtain ⟨hfirst, hlast, _⟩ := List.mem_zipIdx hplace
  refine ⟨?_, by simpa using hfirst, by simpa using by omega⟩
  simpa using List.fst_mem_of_mem_zipIdx hplace

theorem not_isSilent_of_mem_numberLines {first : Nat} {ls : List (List Char)} {l : Line}
    (h : l ∈ numberLines first ls) : ¬ IsSilent l.text.toList := by
  rw [numberLines_eq] at h
  obtain ⟨_, hmem, rfl⟩ := List.mem_map.mp h
  rw [String.toList_ofList]
  exact of_decide_eq_true (List.mem_filter.mp hmem).2

theorem of_mem_readLines {text : String} {l : Line} (h : l ∈ readLines text) :
    l.text.toList <:+: text.toList ∧ 1 ≤ l.number := by
  obtain ⟨hmem, hnumber, _⟩ := of_mem_numberLines h
  exact ⟨(isInfix_splitLines _).1 _ hmem, hnumber⟩

theorem map_text_numberLines (first : Nat) (ls : List (List Char)) :
    (numberLines first ls).map (·.text) = (ls.filter isMeaningful).map String.ofList := by
  induction ls generalizing first with
  | nil => rfl
  | cons l ls ih =>
      rw [numberLines]
      by_cases hl : isMeaningful l = true
      · rw [if_pos hl, List.filter_cons_of_pos hl, List.map_cons, List.map_cons, ih]
      · rw [if_neg hl, List.filter_cons_of_neg hl, ih]

/-- An empty line after the last line end is blank, so it makes no difference. -/
theorem numberLines_splitLines {ls : List (List Char)} {cs : List Char}
    (hone : ∀ l ∈ ls, OneLine l) (h : Ended lineEnds ls cs) (first : Nat) :
    numberLines first (splitLines cs) = numberLines first ls := by
  induction h generalizing first with
  | nil => rfl
  | last l =>
      rw [← List.append_nil l, splitLines_append (hone l List.mem_cons_self) rfl, List.append_nil]
  | @cons l e cs ls he _ ih =>
      obtain ⟨hl, hls⟩ := List.forall_mem_cons.mp hone
      have hend : splitLines (e ++ cs) = [] :: splitLines cs := by
        simp only [lineEnds, List.mem_cons, List.not_mem_nil, or_false] at he
        rcases he with rfl | rfl <;> rfl
      rw [List.append_assoc, splitLines_append hl hend, numberLines, numberLines, ih hls]

/-- In a text without carriage returns no line holds one. -/
theorem oneLine_of_mem_readLines {text : String} (h : '\r' ∉ text.toList) {l : Line}
    (hl : l ∈ readLines text) : OneLine l.text.toList :=
  ⟨not_mem_of_mem_splitLines (of_mem_numberLines hl).1,
    fun hmem => h ((of_mem_readLines hl).1.subset hmem)⟩

/-- The text says what the lines say, however they are ended. -/
theorem readLines_of_ended {ls : List (List Char)} {text : String} (hone : ∀ l ∈ ls, OneLine l)
    (h : Ended lineEnds ls text.toList) : readLines text = numberLines 1 ls :=
  numberLines_splitLines hone h 1

/-- A document that is written line by line. -/
def document (lines : List String) : String :=
  String.join (lines.map (· ++ "\n"))

theorem toList_document (lines : List String) :
    (document lines).toList = lines.flatMap fun l => l.toList ++ ['\n'] := by
  simp [document, String.toList_join, List.flatMap_map]

theorem ended_document (lines : List String) :
    Ended [['\n']] (lines.map String.toList) (document lines).toList := by
  have h := ended_flatMap (lines.map String.toList)
  rwa [List.flatMap_map, ← toList_document] at h

theorem ended_join (lines : List String) :
    Ended [['\n']] (lines.map String.toList) ("\n".intercalate lines).toList := by
  rw [String.toList_intercalate]
  exact ended_intercalate _

theorem lineFeed_subset_lineEnds : [['\n']] ⊆ lineEnds := by
  simp [lineEnds]

section
variable {lines : List String} (hone : ∀ l ∈ lines, OneLine l.toList)

include hone

theorem readLines_document :
    readLines (document lines) = numberLines 1 (lines.map String.toList) :=
  readLines_of_ended (List.forall_mem_map.mpr hone)
    ((ended_document lines).mono lineFeed_subset_lineEnds)

theorem readLines_join :
    readLines ("\n".intercalate lines) = numberLines 1 (lines.map String.toList) :=
  readLines_of_ended (List.forall_mem_map.mpr hone)
    ((ended_join lines).mono lineFeed_subset_lineEnds)

/-- Meaningful lines are read as they are written, with or without the last line end. -/
theorem map_text_readLines (hmeaning : ∀ l ∈ lines, isMeaningful l.toList = true) :
    (readLines (document lines)).map (·.text) = lines ∧
      (readLines ("\n".intercalate lines)).map (·.text) = lines := by
  have htexts : (numberLines 1 (lines.map String.toList)).map (·.text) = lines := by
    rw [map_text_numberLines, List.filter_eq_self.mpr (List.forall_mem_map.mpr hmeaning)]
    simp
  rw [readLines_document hone, readLines_join hone]
  exact ⟨htexts, htexts⟩

end

end RadarChart
