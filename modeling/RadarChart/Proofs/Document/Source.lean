import RadarChart.Chart.Reading
import RadarChart.Proofs.Document.Failure
import RadarChart.Proofs.Document.Line
import RadarChart.Proofs.Document.Resolution
import RadarChart.Proofs.Text.Numeral

/-!
# Where items come from

The words of a key and the value of an item lie in lines of the document, so
their numerals are as short as those of the document. An item has the number
of its line, and so has the problem of a document that does not resolve.
-/

namespace RadarChart

open Text

theorem infix_of_mem_words {l : Line} {w : List Char} (h : w ∈ l.words) :
    w <:+: l.text.toList :=
  ((spaced_words _).infix_of_mem h).trans (List.takeWhile_prefix _).isInfix

theorem Line.value_infix (l : Line) : l.value <:+: l.text.toList :=
  ((List.dropWhile_suffix _).trans ((List.drop_suffix _ _).trans (List.dropWhile_suffix _))).isInfix

/-- The words of a path come from the path before or from the lines. -/
theorem forall_mem_pathsFrom {p : List Char → Prop} {path : List (List Char)} {ls : List Line}
    (hpath : ∀ w ∈ path, p w) (hls : ∀ l ∈ ls, ∀ w ∈ l.words, p w) :
    ∀ q ∈ pathsFrom path ls, ∀ w ∈ q, p w := by
  induction ls generalizing path with
  | nil => simp [pathsFrom]
  | cons l ls ih =>
      obtain ⟨hl, hls⟩ := List.forall_mem_cons.mp hls
      have hextended : ∀ w ∈ extendPath path l.parts, p w := by
        intro w hw
        unfold extendPath at hw
        split at hw
        · rcases List.mem_append.mp hw with hw | hw
          · exact hpath w (List.mem_of_mem_take hw)
          · exact hl w hw
        · exact hl w hw
      exact List.forall_mem_cons.mpr ⟨hextended, ih hextended hls⟩

theorem digitsWithin_of_mem_keys {limit : Nat} {lines : List Line}
    (h : ∀ l ∈ lines, DigitsWithin limit l.text.toList) :
    ∀ key ∈ keys lines, DigitsWithin limit key.toList := by
  rw [← keysFrom_nil, keysFrom, List.forall_mem_map]
  intro path hpath
  rw [String.toList_ofList]
  apply digitsWithin_joinWords
  refine forall_mem_pathsFrom (by simp) ?_ path hpath
  exact fun l hl w hw => (h l hl).of_isInfix (infix_of_mem_words hw)

theorem map_key_zipWith_item {ks : List String} {ls : List Line} (h : ks.length = ls.length) :
    (List.zipWith Line.item ks ls).map (·.key) = ks := by
  rw [← List.map_uncurry_zip_eq_zipWith, List.map_map]
  exact List.map_fst_zip (Nat.le_of_eq h)

/-- Every item that lines resolve to is that of a line under one of the keys. -/
theorem exists_of_mem_zipWith_item {ks : List String} {ls : List Line} {item : Item}
    (h : item ∈ List.zipWith Line.item ks ls) : ∃ key ∈ ks, ∃ l ∈ ls, item = l.item key := by
  rw [← List.map_uncurry_zip_eq_zipWith] at h
  obtain ⟨⟨key, l⟩, hpair, rfl⟩ := List.mem_map.mp h
  obtain ⟨hkey, hl⟩ := List.of_mem_zip hpair
  exact ⟨key, hkey, l, hl, rfl⟩

/-- The items of a document have distinct keys, short numerals and the numbers of lines. -/
theorem of_readItems {text : String} {items : List Item} (h : readItems text = .ok items) :
    (items.map (·.key)).Nodup ∧ (∀ item ∈ items, ∃ l ∈ readLines text, l.number = item.line) ∧
      (items = [] → readLines text = []) ∧
      ∀ limit, DigitsWithin limit text.toList → ∀ item ∈ items,
        DigitsWithin limit item.key.toList ∧ DigitsWithin limit item.value.toList := by
  rw [readItems, orProblem_eq_ok_iff, resolve_eq_ok_iff] at h
  obtain ⟨_, hnodup, rfl⟩ := h
  have hlength := length_keys (readLines text)
  refine ⟨?_, ?_, ?_, ?_⟩
  · rwa [map_key_zipWith_item hlength]
  · intro item hitem
    obtain ⟨key, _, l, hl, rfl⟩ := exists_of_mem_zipWith_item hitem
    exact ⟨l, hl, rfl⟩
  · intro hnil
    rw [List.zipWith_eq_nil_iff] at hnil
    rcases hnil with hkeys | hlines
    · rw [hkeys] at hlength
      exact List.length_eq_zero_iff.mp hlength.symm
    · exact hlines
  · intro limit hdigits item hitem
    have hline : ∀ l ∈ readLines text, DigitsWithin limit l.text.toList :=
      fun l hl => hdigits.of_isInfix (of_mem_readLines hl).1
    obtain ⟨key, hkey, l, hl, rfl⟩ := exists_of_mem_zipWith_item hitem
    refine ⟨digitsWithin_of_mem_keys hline key hkey, ?_⟩
    show DigitsWithin limit (String.ofList l.value).toList
    rw [String.toList_ofList]
    exact (hline l hl).of_isInfix l.value_infix

/-- A document that does not resolve fails with the problem of one of its lines. -/
theorem of_readItems_eq_error {text : String} {failure : Failure}
    (h : readItems text = .error failure) :
    ∃ l ∈ readLines text, failure = .problem l.problem := by
  obtain ⟨problem, hresolve, rfl⟩ := orProblem_eq_error_iff.mp h
  obtain ⟨i, l, hl, _, _, rfl⟩ := resolve_eq_error_iff.mp hresolve
  exact ⟨l, List.mem_of_getElem? hl, rfl⟩

end RadarChart
