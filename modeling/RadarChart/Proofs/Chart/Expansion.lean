import RadarChart.Proofs.Chart.Renumbering
import RadarChart.Proofs.Chart.Soundness
import RadarChart.Proofs.Document.FullLine

/-!
# Documents without continuations

A line that continues another one abbreviates its key and does nothing else.
Written in full, the items of a document resolve to themselves, and the document
of these lines describes the same chart.
-/

namespace RadarChart

open Text

/-- Items that differ in their lines only give the same chart. -/
theorem ofItems_of_renumber_eq {items others : List Item} {c : Chart}
    (h : others.map (·.renumber fun _ => 1) = items.map (·.renumber fun _ => 1))
    (hc : Chart.ofItems items = .ok c) : Chart.ofItems others = .ok c := by
  have hall : ∀ items : List Item, Chart.ofItems (items.map (·.renumber fun _ => 1)) =
      (Chart.ofItems items).mapError (Failure.renumber fun _ => 1) :=
    fun _ => Chart.ofItems_renumber (fun _ => Int.le_refl 1) fun _ => rfl
  have hothers := hall others
  rw [h, hall items, hc] at hothers
  cases hresult : Chart.ofItems others with
  | error failure =>
      rw [hresult] at hothers
      cases hothers
  | ok d =>
      rw [hresult] at hothers
      exact hothers.symm

/-- Lines with the same texts resolve to the same keys and values. -/
theorem exists_resolve_of_texts {ls ms : List Line} {items : List Item}
    (h : ls.map (·.text) = ms.map (·.text)) (hitems : resolve ms = .ok items) :
    ∃ others, resolve ls = .ok others ∧
      others.map (·.renumber fun _ => 1) = items.map (·.renumber fun _ => 1) := by
  have hlines : ls.map (·.renumber fun _ => 1) = ms.map (·.renumber fun _ => 1) := by
    have hnumbered : ∀ ls : List Line, ls.map (·.renumber fun _ => 1) =
        (ls.map (·.text)).map (Line.mk 1) := by
      intro ls
      rw [List.map_map]
      rfl
    rw [hnumbered, hnumbered, h]
  have hsame := resolve_renumber (fun _ => 1) ls
  rw [hlines, resolve_renumber, hitems] at hsame
  cases hresult : resolve ls with
  | error problem =>
      rw [hresult] at hsame
      cases hsame
  | ok others =>
      rw [hresult] at hsame
      exact ⟨others, rfl, (Except.ok.inj hsame).symm⟩

/-- What lines resolve to resolves to itself once it is written in full, in
lines that continue no other. -/
theorem resolve_fullLines_of_resolve {lines : List Line} {items : List Item}
    (h : resolve lines = .ok items) :
    (∀ l ∈ items.map Item.fullLine, l.indented = false) ∧
      resolve (items.map Item.fullLine) = .ok items := by
  have hplain := plain_of_resolve h
  obtain ⟨_, hnodup, hitems⟩ := resolve_eq_ok_iff.mp h
  constructor
  · rw [List.forall_mem_map]
    exact fun item hitem => (hplain item hitem).indented_fullLine
  · refine resolve_fullLines hplain ?_
    rwa [hitems, map_key_zipWith_item (length_keys lines)]

/-- The full texts of a document's items are meaningful lines. -/
theorem map_text_fullText {text : String} {items : List Item} (hreturn : '\r' ∉ text.toList)
    (h : resolve (readLines text) = .ok items) :
    (readLines ("\n".intercalate (items.map Item.fullText))).map (·.text) =
      items.map Item.fullText := by
  have hplain := plain_of_resolve h
  have hone : ∀ l ∈ items.map Item.fullText, OneLine l.toList := by
    rw [List.forall_mem_map]
    intro item hitem
    obtain ⟨_, _, l, hl, _, hvalue⟩ := exists_path_of_resolve h hitem
    obtain ⟨hfeed, hreturn⟩ := oneLine_of_mem_readLines hreturn hl
    apply (hplain item hitem).oneLine_fullText
    rw [hvalue]
    exact ⟨fun h => hfeed (l.value_infix.subset h), fun h => hreturn (l.value_infix.subset h)⟩
  have hmeaning : ∀ l ∈ items.map Item.fullText, isMeaningful l.toList = true := by
    have hcomment := not_comment_of_resolve h fun _ hl => not_isSilent_of_mem_numberLines hl
    rw [List.forall_mem_map]
    exact fun item hitem => (hplain item hitem).isMeaningful_fullText (hcomment item hitem)
  exact (map_text_readLines hone hmeaning).2

/-- Lines in full resolve to the items that they were written from, and an
accepted document without carriage returns gives its chart again. -/
theorem Chart.parse_in_full :
    (∀ (lines : List Line) (items : List Item), resolve lines = .ok items →
      (∀ l ∈ items.map Item.fullLine, l.indented = false) ∧
        resolve (items.map Item.fullLine) = .ok items) ∧
      ∀ (text : String) (items : List Item) (c : Chart), '\r' ∉ text.toList →
        readItems text = .ok items → Chart.parse text = .ok c →
        Chart.parse ("\n".intercalate (items.map Item.fullText)) = .ok c := by
  refine ⟨fun lines items h => resolve_fullLines_of_resolve h, ?_⟩
  intro text items c hreturn hitems hparse
  rw [Chart.parse, hitems] at hparse
  rw [readItems, orProblem_eq_ok_iff] at hitems
  have htexts : (readLines ("\n".intercalate (items.map Item.fullText))).map (·.text) =
      (items.map Item.fullLine).map (·.text) := by
    rw [map_text_fullText hreturn hitems, List.map_map]
    rfl
  -- the new lines are numbered from 1 on, which a chart does not depend on
  obtain ⟨others, hothers, hsame⟩ :=
    exists_resolve_of_texts htexts (resolve_fullLines_of_resolve hitems).2
  rw [Chart.parse, readItems, hothers]
  exact ofItems_of_renumber_eq hsame hparse

/-- An indented line without key words, and a line that continues another. -/
def abbreviatedLines : List Line :=
  [⟨3, " \t: # a:b "⟩, ⟨4, "text  color:black"⟩, ⟨6, "  size:"⟩]

theorem parse_in_full_smallDocument :
    resolve [⟨3, ": # a:b "⟩, ⟨4, "text color: black"⟩, ⟨6, "text size: "⟩] =
      .ok [⟨"", 3, "# a:b "⟩, ⟨"text color", 4, "black"⟩, ⟨"text size", 6, ""⟩] ∧
    ∃ items, readItems smallDocument = .ok items ∧
      Chart.parse ("\n".intercalate (items.map Item.fullText)) = .ok smallChart := by
  have hlines : resolve abbreviatedLines =
      .ok [⟨"", 3, "# a:b "⟩, ⟨"text color", 4, "black"⟩, ⟨"text size", 6, ""⟩] := by
    decide
  have hreturn : '\r' ∉ smallDocument.toList := by
    rw [smallDocument, ← document, toList_document]
    decide +kernel
  have hparse := parse_smallDocument
  simp only [Chart.parse, bind_eq_ok_iff] at hparse
  obtain ⟨items, hitems, _⟩ := hparse
  exact ⟨(Chart.parse_in_full.1 _ _ hlines).2, items, hitems,
    Chart.parse_in_full.2 _ _ _ hreturn hitems parse_smallDocument⟩

end RadarChart
