import RadarChart.Chart.Reading
import RadarChart.Proofs.Document.Block
import RadarChart.Proofs.Document.Line
import RadarChart.Proofs.Document.Success

/-!
# Alignment

The blanks of a key only align a line with the others: how deep an indented
line is indented, how far its words stand apart, and what stands around the
first colon. A document that is aligned in another way has the same keys and
values on the same lines, whichever blanks of Unicode are used, and so it gives
the same chart or the same problem. An indentation may not come or go, since it
says that the line continues the one above.
-/

namespace RadarChart

open Text

/-- Blanks that end no line, or nothing at all. -/
def IsGap (cs : List Char) : Prop :=
  (∀ c ∈ cs, isBlank c = true) ∧ OneLine cs

instance (cs : List Char) : Decidable (IsGap cs) :=
  decidable_of_iff (cs.all isBlank ∧ OneLine cs) (by simp [IsGap])

/-- Both texts consist of the same key words, with some gap between any two of them. -/
inductive SameWords : List Char → List Char → Prop where
  | word {w : List Char} : IsWord w → ':' ∉ w → SameWords w w
  | cons {w gap other as bs : List Char} : IsWord w → ':' ∉ w → IsGap gap → gap ≠ [] →
      IsGap other → other ≠ [] → SameWords as bs → SameWords (w ++ (gap ++ as)) (w ++ (other ++ bs))

/-- A line with its indentation, its key, and what stands around its first colon. -/
def alignedLine (indent key before after value : List Char) : List Char :=
  indent ++ (key ++ (before ++ ':' :: (after ++ value)))

/-- The lines are the same up to the gaps of a key that has words. Both are
indented or neither is. -/
inductive Realigned : List Char → List Char → Prop where
  | refl (l : List Char) : Realigned l l
  | key {indent indent' key key' before before' after after' : List Char} (value : List Char) :
      IsGap indent → IsGap indent' → (indent = [] ↔ indent' = []) → SameWords key key' →
      IsGap before → IsGap before' → IsGap after → IsGap after' →
      Realigned (alignedLine indent key before after value)
        (alignedLine indent' key' before' after' value)

/-! ## The words of a key -/

theorem IsGap.colon_not_mem {cs : List Char} (h : IsGap cs) : ':' ∉ cs :=
  fun hmem => absurd (h.1 _ hmem) (by decide)

theorem IsGap.head? {gap : List Char} (h : IsGap gap) (hne : gap ≠ []) (cs : List Char) :
    ∀ c ∈ (gap ++ cs).head?, isBlank c = true := by
  intro c hc
  rw [List.head?_append_of_ne_nil gap hne] at hc
  exact h.1 c (List.mem_of_mem_head? hc)

theorem oneLine_of_isWord {w : List Char} (h : IsWord w) : OneLine w :=
  ⟨fun hmem => absurd (h.2 _ hmem) (by decide), fun hmem => absurd (h.2 _ hmem) (by decide)⟩

section
variable {as bs : List Char} (h : SameWords as bs)

include h

theorem SameWords.symm : SameWords bs as := by
  induction h with
  | word hw hcolon => exact .word hw hcolon
  | cons hw hcolon hgap hne hother hne' _ ih => exact .cons hw hcolon hother hne' hgap hne ih

/-- What is behind the key words starts with no character of a word. -/
theorem SameWords.words_eq {after other : List Char} (hafter : IsGap after)
    (hother : IsGap other) : words (as ++ after) = words (bs ++ other) := by
  have hblank : ∀ {gap : List Char}, IsGap gap →
      (∀ c ∈ gap.head?, isBlank c = true) ∧ words gap = [] := by
    intro gap hgap
    refine ⟨fun c hc => hgap.1 c (List.mem_of_mem_head? hc), ?_⟩
    rw [← List.append_nil gap, words_append_of_forall hgap.1, words_nil]
  induction h with
  | word hw _ =>
      rw [words_append hw.1 hw.2 (hblank hafter).1, words_append hw.1 hw.2 (hblank hother).1,
        (hblank hafter).2, (hblank hother).2]
  | cons hw _ hgap hne hgap' hne' _ ih =>
      rw [List.append_assoc, List.append_assoc, List.append_assoc, List.append_assoc,
        words_append hw.1 hw.2 (hgap.head? hne _), words_append hw.1 hw.2 (hgap'.head? hne' _),
        words_append_of_forall hgap.1, words_append_of_forall hgap'.1, ih]

theorem SameWords.exists_head :
    ∃ c cs ds, as = c :: cs ∧ bs = c :: ds ∧ isBlank c = false := by
  cases h with
  | word hw _ =>
      obtain ⟨c, w, rfl⟩ := List.exists_cons_of_ne_nil hw.1
      exact ⟨c, w, w, rfl, rfl, hw.2 c List.mem_cons_self⟩
  | cons hw _ _ _ _ _ _ =>
      obtain ⟨c, w, rfl⟩ := List.exists_cons_of_ne_nil hw.1
      exact ⟨c, _, _, rfl, rfl, hw.2 c List.mem_cons_self⟩

theorem SameWords.colon_not_mem : ':' ∉ as := by
  induction h with
  | word _ hcolon => exact hcolon
  | cons _ hcolon hgap _ _ _ _ ih =>
      simp only [List.mem_append, not_or]
      exact ⟨hcolon, hgap.colon_not_mem, ih⟩

theorem SameWords.oneLine : OneLine as := by
  induction h with
  | word hw _ => exact oneLine_of_isWord hw
  | cons hw _ hgap _ _ _ _ ih => exact (oneLine_of_isWord hw).append (hgap.2.append ih)

end

/-! ## One line -/

section
variable {indent key before after value : List Char}

/-- What the reader takes from a line, in terms of how it is aligned. -/
theorem ofText?_alignedLine (hindent : IsGap indent) (hkey : ':' ∉ key)
    (hhead : ∀ c ∈ key.head?, isBlank c = false) (hne : key ≠ []) (hbefore : IsGap before)
    (hafter : IsGap after) :
    LineParts.ofText? (alignedLine indent key before after value) =
      some ⟨!indent.isEmpty, words (key ++ before), trimLeft isBlank value⟩ := by
  have hfront : ∀ c ∈ indent ++ (key ++ before), (c != ':') = true := by
    intro c hc
    rw [bne_iff_ne]
    rintro rfl
    simp only [List.mem_append] at hc
    rcases hc with hc | hc | hc
    · exact hindent.colon_not_mem hc
    · exact hkey hc
    · exact hbefore.colon_not_mem hc
  have hline : alignedLine indent key before after value =
      indent ++ (key ++ before) ++ ':' :: (after ++ value) := by
    simp only [alignedLine, List.append_assoc]
  have hindented : (alignedLine indent key before after value).head?.any isBlank =
      !indent.isEmpty := by
    cases indent with
    | nil =>
        obtain ⟨c, cs, rfl⟩ := List.exists_cons_of_ne_nil hne
        exact hhead c rfl
    | cons c indent => exact hindent.1 c List.mem_cons_self
  rw [LineParts.ofText?, if_pos (by rw [hline]; simp), hindented, hline,
    List.takeWhile_append_of_pos hfront, List.takeWhile_cons_of_neg (by decide), List.append_nil,
    words_append_of_forall hindent.1, List.dropWhile_append_of_pos hfront,
    List.dropWhile_cons_of_neg (by decide), List.drop_one, List.tail_cons,
    trimLeft_append_of_forall hafter.1]

theorem isMeaningful_alignedLine {c : Char} {cs : List Char} (hindent : IsGap indent)
    (hkey : key = c :: cs) (hc : isBlank c = false) :
    isMeaningful (alignedLine indent key before after value) = (c != '#') := by
  have htrim : trimLeft isBlank (alignedLine indent key before after value) =
      c :: (cs ++ (before ++ ':' :: (after ++ value))) := by
    rw [alignedLine, trimLeft_append_of_forall hindent.1, hkey, List.cons_append]
    exact trimLeft_eq_self fun d hd => Option.some.inj hd ▸ hc
  rw [isMeaningful, htrim]

end

section
variable {l m : List Char} (h : Realigned l m)

include h

theorem Realigned.ofText?_eq : LineParts.ofText? l = LineParts.ofText? m := by
  cases h with
  | refl => rfl
  | @key indent indent' _ _ _ _ _ _ value hindent hindent' hiff hkey hbefore hbefore' hafter
      hafter' =>
      obtain ⟨c, cs, ds, rfl, rfl, hc⟩ := hkey.exists_head
      have hhead : ∀ {es : List Char}, ∀ d ∈ (c :: es).head?, isBlank d = false :=
        fun d hd => Option.some.inj hd ▸ hc
      have hempty : indent.isEmpty = indent'.isEmpty := by
        rw [Bool.eq_iff_iff, List.isEmpty_iff, List.isEmpty_iff, hiff]
      rw [ofText?_alignedLine hindent hkey.colon_not_mem hhead (List.cons_ne_nil c cs) hbefore
          hafter,
        ofText?_alignedLine hindent' hkey.symm.colon_not_mem hhead (List.cons_ne_nil c ds) hbefore'
          hafter',
        hkey.words_eq hbefore hbefore', hempty]

/-- A comment stays a comment. -/
theorem Realigned.isMeaningful_eq : isMeaningful l = isMeaningful m := by
  cases h with
  | refl => rfl
  | key value hindent hindent' _ hkey _ _ _ _ =>
      obtain ⟨c, cs, ds, rfl, rfl, hc⟩ := hkey.exists_head
      rw [isMeaningful_alignedLine hindent rfl hc, isMeaningful_alignedLine hindent' rfl hc]

theorem Realigned.oneLine (hl : OneLine l) : OneLine m := by
  cases h with
  | refl => exact hl
  | @key indent _ key _ before _ after _ value _ hindent' _ hkey _ hbefore' _ hafter' =>
      have hvalue : OneLine value := by
        simp only [alignedLine, OneLine, List.mem_append, List.mem_cons, not_or] at hl
        tauto
      have hcolon : OneLine [':'] := by decide
      exact hindent'.2.append (hkey.symm.oneLine.append
        (hbefore'.2.append (hcolon.append (hafter'.2.append hvalue))))

end

/-! ## Documents -/

theorem numberLines_realigned {ls ms : List (List Char)} (h : List.Forall₂ Realigned ls ms)
    (first : Nat) :
    List.Forall₂ (fun l m : Line => l.number = m.number ∧ Realigned l.text.toList m.text.toList)
      (numberLines first ls) (numberLines first ms) := by
  induction h generalizing first with
  | nil => exact .nil
  | @cons l m ls ms hlm _ ih =>
      rw [numberLines, numberLines, ← hlm.isMeaningful_eq]
      split
      · refine .cons ⟨rfl, ?_⟩ (ih (first + 1))
        rwa [String.toList_ofList, String.toList_ofList]
      · exact ih (first + 1)

/-- Resolving takes nothing from a line but its number and its parts. -/
theorem resolveFrom_realigned {ls ms : List Line}
    (h : List.Forall₂
      (fun l m : Line => l.number = m.number ∧ Realigned l.text.toList m.text.toList) ls ms)
    (path : List (List Char)) (seen : List String) :
    resolveFrom path seen ls = resolveFrom path seen ms := by
  induction h generalizing path seen with
  | nil => rfl
  | @cons l m ls ms hlm _ ih =>
      obtain ⟨hnumber, hline⟩ := hlm
      simp only [resolveFrom, hnumber, hline.ofText?_eq, ih]

/-- A document that is aligned in another way, however its lines are ended,
resolves to the same keys and values on the same lines or to the same problem,
and gives the same chart. -/
theorem Chart.parse_realigned {lines others : List String} (hone : ∀ l ∈ lines, OneLine l.toList)
    (h : List.Forall₂ Realigned (lines.map String.toList) (others.map String.toList))
    {text other : String} (htext : Ended lineEnds (lines.map String.toList) text.toList)
    (hother : Ended lineEnds (others.map String.toList) other.toList) :
    resolve (readLines other) = resolve (readLines text) ∧
      Chart.parse other = Chart.parse text := by
  have hone' : ∀ m ∈ others.map String.toList, OneLine m := by
    intro m hm
    obtain ⟨cs, hcs, hlm⟩ := exists_left_of_forall₂ h hm
    obtain ⟨l, hl, rfl⟩ := List.mem_map.mp hcs
    exact hlm.oneLine (hone l hl)
  have hresolve : resolve (readLines other) = resolve (readLines text) := by
    rw [readLines_of_ended (List.forall_mem_map.mpr hone) htext, readLines_of_ended hone' hother]
    exact (resolveFrom_realigned (numberLines_realigned h 1) [] []).symm
  refine ⟨hresolve, ?_⟩
  rw [Chart.parse, Chart.parse, readItems, readItems, hresolve]

/-- A line and one that continues it. -/
def tidyLines : List String :=
  ["text color: black", " size : 16"]

/-- The same lines with the blanks of other scripts, and with separators. -/
def raggedLines : List String :=
  ["text\u3000 color\u00a0:black", "\u2003\u0085size:\x1c\t16"]

theorem parse_raggedLines :
    List.Forall₂ Realigned (tidyLines.map String.toList) (raggedLines.map String.toList) ∧
      resolve (readLines (document raggedLines)) =
        .ok [⟨"text color", 1, "black"⟩, ⟨"text size", 2, "16"⟩] ∧
      Chart.parse (document raggedLines) = reject (.missingProperty .size) 2 := by
  have hwords : ∀ w ∈ ["text".toList, "color".toList, "size".toList], IsWord w ∧ ':' ∉ w := by
    decide +kernel
  simp only [List.forall_mem_cons] at hwords
  obtain ⟨⟨htext, htext'⟩, ⟨hcolor, hcolor'⟩, ⟨hsize, hsize'⟩, -⟩ := hwords
  have hgaps : ∀ gap ∈ [[], [' '], "\u3000 ".toList, "\u00a0".toList, "\u2003\u0085".toList,
      "\x1c\t".toList], IsGap gap := by
    decide
  simp only [List.forall_mem_cons] at hgaps
  obtain ⟨hnone, hspace, hwide, hfixed, hem, hseparator, -⟩ := hgaps
  have hfirst : Realigned "text color: black".toList "text\u3000 color\u00a0:black".toList := by
    have hkey : SameWords ("text".toList ++ ([' '] ++ "color".toList))
        ("text".toList ++ ("\u3000 ".toList ++ "color".toList)) :=
      .cons htext htext' hspace (by decide) hwide (by decide) (.word hcolor hcolor')
    exact Realigned.key "black".toList hnone hnone Iff.rfl hkey hnone hfixed hspace hnone
  have hsecond : Realigned " size : 16".toList "\u2003\u0085size:\x1c\t16".toList :=
    Realigned.key "16".toList hspace hem (by decide) (.word hsize hsize') hspace hnone hspace
      hseparator
  have hall : List.Forall₂ Realigned (tidyLines.map String.toList)
      (raggedLines.map String.toList) :=
    .cons hfirst (.cons hsecond .nil)
  have hone : ∀ l ∈ tidyLines, OneLine l.toList := by decide
  obtain ⟨hitems, hchart⟩ := Chart.parse_realigned hone hall
    ((ended_document tidyLines).mono lineFeed_subset_lineEnds)
    ((ended_document raggedLines).mono lineFeed_subset_lineEnds)
  refine ⟨hall, hitems.trans ?_, hchart.trans ?_⟩
  · decide +kernel
  · decide +kernel

end RadarChart
