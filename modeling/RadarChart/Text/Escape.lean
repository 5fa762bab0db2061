/-!
# Escaped text

The four characters that end or open something in markup are written as
entities, which are put in by one replacement after the other. `unescape` reads
them back in one pass, so escaping loses nothing.
-/

namespace RadarChart.Text

/-- The text with every `old` replaced. What is put in for one is not looked at again. -/
def replace (old : Char) (new cs : List Char) : List Char :=
  cs.flatMap fun c => if c = old then new else [c]

/-- The characters that markup reads as its own, and what is put in for them. The ampersand
comes first, since all that is put in begins with one. -/
def entities : List (Char × List Char) :=
  [('&', ['&', 'a', 'm', 'p', ';']), ('<', ['&', 'l', 't', ';']), ('>', ['&', 'g', 't', ';']),
    ('"', ['&', 'q', 'u', 'o', 't', ';'])]

/-- The text with one character after the other replaced by its entity. -/
def escape (cs : List Char) : List Char :=
  entities.foldl (fun text entity => replace entity.1 entity.2 text) cs

/-- What stands for one character in escaped text. -/
def escapeChar (c : Char) : List Char :=
  if c = '&' then ['&', 'a', 'm', 'p', ';']
  else if c = '<' then ['&', 'l', 't', ';']
  else if c = '>' then ['&', 'g', 't', ';']
  else if c = '"' then ['&', 'q', 'u', 'o', 't', ';']
  else [c]

/-- The text that an escaped text stands for; an ampersand that opens none of
the four entities stands for itself. -/
def unescape : List Char → List Char
  | [] => []
  | '&' :: 'a' :: 'm' :: 'p' :: ';' :: cs => '&' :: unescape cs
  | '&' :: 'l' :: 't' :: ';' :: cs => '<' :: unescape cs
  | '&' :: 'g' :: 't' :: ';' :: cs => '>' :: unescape cs
  | '&' :: 'q' :: 'u' :: 'o' :: 't' :: ';' :: cs => '"' :: unescape cs
  | c :: cs => c :: unescape cs

@[simp] theorem escape_nil : escape [] = [] := rfl

theorem replace_append (old : Char) (new as bs : List Char) :
    replace old new (as ++ bs) = replace old new as ++ replace old new bs :=
  List.flatMap_append

theorem escape_append (as bs : List Char) : escape (as ++ bs) = escape as ++ escape bs := by
  simp only [escape, entities, List.foldl_cons, List.foldl_nil, replace_append]

theorem replace_singleton_of_ne {old c : Char} (h : c ≠ old) (new : List Char) :
    replace old new [c] = [c] := by
  simp [replace, h]

/-- No replacement finds anything in what an earlier one has put in. -/
theorem escape_singleton (c : Char) : escape [c] = escapeChar c := by
  by_cases hamp : c = '&'
  · subst hamp; rfl
  by_cases hlt : c = '<'
  · subst hlt; rfl
  by_cases hgt : c = '>'
  · subst hgt; rfl
  by_cases hquot : c = '"'
  · subst hquot; rfl
  simp only [escape, entities, List.foldl_cons, List.foldl_nil, replace_singleton_of_ne hamp,
    replace_singleton_of_ne hlt, replace_singleton_of_ne hgt, replace_singleton_of_ne hquot]
  rw [escapeChar, if_neg hamp, if_neg hlt, if_neg hgt, if_neg hquot]

theorem escape_cons (c : Char) (cs : List Char) :
    escape (c :: cs) = escapeChar c ++ escape cs := by
  rw [← List.singleton_append, escape_append, escape_singleton]

/-- All four replacements come to one for each character. -/
theorem escape_eq_flatMap (cs : List Char) : escape cs = cs.flatMap escapeChar := by
  induction cs with
  | nil => rfl
  | cons c cs ih => rw [escape_cons, ih, List.flatMap_cons]

/-- Escaped text holds none of the three characters that markup reads as its own. -/
theorem not_mem_escapeChar {c x : Char} (h : x ∈ escapeChar c) :
    x ≠ '<' ∧ x ≠ '>' ∧ x ≠ '"' := by
  unfold escapeChar at h
  split at h
  · revert h; simp; rintro (h | h | h | h | h) <;> subst h <;> decide
  split at h
  · revert h; simp; rintro (h | h | h | h) <;> subst h <;> decide
  split at h
  · revert h; simp; rintro (h | h | h | h) <;> subst h <;> decide
  split at h
  · revert h; simp; rintro (h | h | h | h | h | h) <;> subst h <;> decide
  · simp only [List.mem_singleton] at h; subst h; simp_all

theorem not_mem_escape {cs : List Char} {x : Char} (h : x ∈ escape cs) :
    x ≠ '<' ∧ x ≠ '>' ∧ x ≠ '"' := by
  rw [escape_eq_flatMap] at h
  obtain ⟨c, _, hx⟩ := List.mem_flatMap.mp h
  exact not_mem_escapeChar hx

theorem unescape_cons {c : Char} (h : c ≠ '&') (cs : List Char) :
    unescape (c :: cs) = c :: unescape cs := by
  simp [unescape, h]

/-- Escaping loses nothing. -/
theorem unescape_escape (cs : List Char) : unescape (escape cs) = cs := by
  induction cs with
  | nil => rfl
  | cons c cs ih =>
    rw [escape_cons]
    by_cases hamp : c = '&'
    · subst hamp; simp [escapeChar, unescape, ih]
    by_cases hlt : c = '<'
    · subst hlt; simp [escapeChar, unescape, ih]
    by_cases hgt : c = '>'
    · subst hgt; simp [escapeChar, unescape, ih]
    by_cases hquot : c = '"'
    · subst hquot; simp [escapeChar, unescape, ih]
    have hself : escapeChar c = [c] := by simp [escapeChar, hamp, hlt, hgt, hquot]
    rw [hself, List.singleton_append, unescape_cons hamp, ih]

end RadarChart.Text
