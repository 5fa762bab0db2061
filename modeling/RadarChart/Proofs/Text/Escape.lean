import RadarChart.Text.Escape

/-!
# Escaping is reversible

The replacements come to one map of characters, whatever the text looks like:
one that seems to be escaped already is escaped again, character by character.
What is escaped holds none of the characters that markup reads as its own but
the ampersands that begin entities, and reading these back gives the text.
-/

namespace RadarChart.Text

/-- An entity begins with an ampersand and holds no other one. -/
theorem ampersand_entity : ∀ e ∈ entities, e.2 = '&' :: e.2.tail ∧ '&' ∉ e.2.tail := by
  decide

/-- A character other than the ampersand stands for itself or is written as an entity. -/
theorem escapeChar_cases (c : Char) :
    c ≠ '&' ∧ escapeChar c = [c] ∨ ∃ e ∈ entities, escapeChar c = e.2 := by
  by_cases hfound : ∃ e ∈ entities, c = e.1
  · obtain ⟨e, he, rfl⟩ := hfound
    right
    refine ⟨e, he, ?_⟩
    revert e
    decide
  · left
    simp only [entities, List.mem_cons, List.not_mem_nil, or_false, exists_eq_or_imp,
      exists_eq_left, not_or] at hfound
    obtain ⟨hamp, hlt, hgt, hquot⟩ := hfound
    exact ⟨hamp, by rw [escapeChar, if_neg hamp, if_neg hlt, if_neg hgt, if_neg hquot]⟩

theorem suffix_of_not_mem {c : Char} {rest cs ds : List Char} (hc : c ∉ cs)
    (h : c :: rest <:+ cs ++ ds) : c :: rest <:+ ds := by
  induction cs with
  | nil => exact h
  | cons d cs ih =>
      rw [List.mem_cons, not_or] at hc
      rcases List.suffix_cons_iff.mp h with heq | hsuffix
      · exact absurd (List.cons.inj heq).1 hc.1
      · exact ih hc.2 hsuffix

/-- Every ampersand in escaped text begins an entity. -/
theorem exists_entity_prefix {rest cs : List Char} (h : '&' :: rest <:+ escape cs) :
    ∃ e ∈ entities, e.2 <+: '&' :: rest := by
  induction cs with
  | nil => simp at h
  | cons c cs ih =>
      rw [escape_cons] at h
      rcases escapeChar_cases c with ⟨hc, hself⟩ | ⟨e, he, hentity⟩
      · rw [hself] at h
        exact ih (suffix_of_not_mem (by simpa using hc.symm) h)
      · obtain ⟨hbegin, hname⟩ := ampersand_entity e he
        rw [hentity, hbegin, List.cons_append] at h
        rcases List.suffix_cons_iff.mp h with heq | hsuffix
        · refine ⟨e, he, escape cs, ?_⟩
          rw [heq, ← List.cons_append, ← hbegin]
        · exact ih (suffix_of_not_mem hname hsuffix)

/-- The four replacements are one map of characters, and texts that are joined are escaped one by
one. What comes out holds none of `<`, `>` and `"`, its ampersands begin entities, and a single pass
decodes it, so no two texts are escaped alike. -/
theorem escape_reversible (cs : List Char) :
    escape cs = cs.flatMap escapeChar ∧
      (∀ ds, escape (cs ++ ds) = escape cs ++ escape ds) ∧
      '<' ∉ escape cs ∧ '>' ∉ escape cs ∧ '"' ∉ escape cs ∧
      (∀ rest, '&' :: rest <:+ escape cs → ∃ e ∈ entities, e.2 <+: '&' :: rest) ∧
      unescape (escape cs) = cs ∧
      ∀ ds, escape ds = escape cs → ds = cs := by
  refine ⟨escape_eq_flatMap cs, escape_append cs, ?_, ?_, ?_, fun _ => exists_entity_prefix,
    unescape_escape cs, ?_⟩
  · exact fun h => (not_mem_escape h).1 rfl
  · exact fun h => (not_mem_escape h).2.1 rfl
  · exact fun h => (not_mem_escape h).2.2 rfl
  · intro ds hds
    rw [← unescape_escape ds, hds, unescape_escape]

/-- A text that looks escaped already, and ends in a bare ampersand. Both ampersands are escaped,
and a single pass gives back no more than what was there. -/
theorem escape_reversible_looksEscaped :
    escape "&lt;&".toList = "&amp;lt;&amp;".toList ∧
      unescape "&amp;lt;&amp;".toList = "&lt;&".toList ∧
      "&amp;lt;&amp;".toList <:+ escape "&lt;&".toList ∧
      ∃ e ∈ entities, e.2 <+: "&amp;lt;&amp;".toList := by
  have hescape : escape "&lt;&".toList = "&amp;lt;&amp;".toList := by decide
  obtain ⟨_, _, _, _, _, hbegin, hdecode, _⟩ := escape_reversible "&lt;&".toList
  have hsuffix : "&amp;lt;&amp;".toList <:+ escape "&lt;&".toList := hescape ▸ List.suffix_rfl
  exact ⟨hescape, hescape ▸ hdecode, hsuffix, hbegin _ hsuffix⟩

end RadarChart.Text
