import RadarChart.Proofs.Drawing.Tag

/-!
# Counting elements by searching

Who looks for the opening of an element of some class in a text of markup,
without reading the text as markup, finds exactly the tags of that name and
class: an opening can start nowhere else.
-/

namespace RadarChart

open Text

/-- How often the pattern starts in the text. -/
def occurrences (pattern : List Char) : List Char → Nat
  | [] => 0
  | c :: cs => (if pattern <+: c :: cs then 1 else 0) + occurrences pattern cs

/-- The text that an element of the class starts with. -/
def opening (name className : String) : List Char :=
  '<' :: (name.toList ++ " class=\"".toList ++ className.toList ++ ['"'])

/-- The class of a tag that has it as its first attribute. -/
def Tag.className? (t : Tag) : Option String :=
  match t.attributes with
  | [] => none
  | a :: _ => if a.name = "class" then some a.value else none

/-- Whether the tag is of the name and the class. -/
def Tag.opens (name className : String) (t : Tag) : Bool :=
  t.name = name ∧ t.className? = some className

theorem occurrences_append_of_not_mem {pattern as : List Char} (h : '<' ∉ as) (bs : List Char) :
    occurrences ('<' :: pattern) (as ++ bs) = occurrences ('<' :: pattern) bs := by
  induction as with
  | nil => rfl
  | cons a as ih =>
      rw [List.mem_cons, not_or] at h
      rw [List.cons_append, occurrences, if_neg fun hp => h.1 (List.cons_prefix_cons.mp hp).1,
        Nat.zero_add, ih h.2]

/-- Two texts that each end at a character of its own start alike only if they are equal. -/
theorem delimited_prefix_iff {as bs rs ss : List Char} {x y : Char} (hx : x ∉ bs) (hy : y ∉ as) :
    as ++ x :: rs <+: bs ++ y :: ss ↔ as = bs ∧ x = y ∧ rs <+: ss := by
  induction as generalizing bs with
  | nil =>
      cases bs with
      | nil => simp [List.cons_prefix_cons]
      | cons b bs =>
          rw [List.mem_cons, not_or] at hx
          simp [List.cons_prefix_cons, hx.1]
  | cons a as ih =>
      rw [List.mem_cons, not_or] at hy
      cases bs with
      | nil => simp [List.cons_prefix_cons, Ne.symm hy.1]
      | cons b bs =>
          rw [List.mem_cons, not_or] at hx
          rw [List.cons_append, List.cons_append, List.cons_prefix_cons, ih hx.2 hy.2,
            List.cons.injEq, and_assoc]

section
variable {name : List Char} {attributes : List Attribute} {trail : List Char}
  (hname : IsTagName name) (hclosed : ∀ a ∈ attributes, a.Closed)
  (htrail : ∀ c ∈ trail, isGap c = true)

include hname hclosed htrail in
/-- Behind the character that opens it, a tag holds no other. -/
theorem not_mem_tag : '<' ∉ name ++ (attributes.flatMap Attribute.raw ++ (trail ++ ['>'])) := by
  have hopen : ∀ {c}, isNameChar c = true → c ≠ '<' := by
    rintro c hc rfl
    exact absurd hc (by decide)
  simp only [List.mem_append, List.mem_flatMap, List.mem_singleton, not_or, not_exists, not_and]
  refine ⟨fun h => hopen (hname _ h) rfl, ?_, fun h => absurd (htrail _ h) (by decide), by decide⟩
  intro a ha hmem
  obtain ⟨⟨_, hchars⟩, hvalue⟩ := hclosed a ha
  simp only [Attribute.raw, List.mem_append, List.mem_cons] at hmem
  rcases hmem with (((h | h) | h) | h) | h
  · exact absurd h (by decide)
  · exact hopen (hchars _ h).1 rfl
  · exact absurd h (by decide)
  · exact (hvalue _ h).1 rfl
  · exact absurd h (by decide)

include hname hclosed in
theorem opening_prefix_iff (hend : attributes = [] → trail = []) {kind className : String}
    (hkind : IsTagName kind.toList) (hclass : '"' ∉ className.toList)
    (cs : List Char) :
    opening kind className <+:
        '<' :: (name ++ (attributes.flatMap Attribute.raw ++ (trail ++ '>' :: cs))) ↔
      Tag.opens kind className ⟨String.ofList name, attributes⟩ = true := by
  have hform : opening kind className = '<' :: (kind.toList ++ ' ' ::
      ("class".toList ++ '=' :: '"' :: (className.toList ++ ['"']))) := by
    simp [opening]
  have hplain : ∀ {c : Char} {cs : List Char}, IsTagName cs →
      isNameChar c = false → c ∉ cs := by
    intro c cs hcs hc hmem
    rw [hcs c hmem] at hc
    cases hc
  have hofList : ∀ s : String, s.toList = name ↔ String.ofList name = s := by
    intro s
    rw [← String.toList_inj, String.toList_ofList, eq_comm]
  rw [hform, List.cons_prefix_cons, and_iff_right rfl]
  cases attributes with
  | nil =>
      rw [hend rfl, List.flatMap_nil, List.nil_append, List.nil_append,
        delimited_prefix_iff (hplain hname (by decide)) (hplain hkind (by decide))]
      simp [Tag.opens, Tag.className?]
  | cons a attributes =>
      obtain ⟨⟨_, hchars⟩, hvalue⟩ := hclosed a List.mem_cons_self
      have hraw : (a :: attributes).flatMap Attribute.raw ++ (trail ++ '>' :: cs) =
          ' ' :: (a.name.toList ++ '=' :: '"' :: (a.value.toList ++ '"' ::
            (attributes.flatMap Attribute.raw ++ (trail ++ '>' :: cs)))) := by
        simp [Attribute.raw]
      rw [hraw, delimited_prefix_iff (hplain hname (by decide)) (hplain hkind (by decide)),
        delimited_prefix_iff (hplain (fun c hc => (hchars c hc).1) (by decide)) (by decide),
        List.cons_prefix_cons,
        delimited_prefix_iff (fun h => (hvalue _ h).2 rfl) hclass, hofList]
      have hclassName : "class".toList = a.name.toList ↔ a.name = "class" := by
        rw [String.toList_inj, eq_comm]
      rw [hclassName, String.toList_inj, eq_comm (a := className)]
      by_cases hfirst : a.name = "class" <;> simp [Tag.opens, Tag.className?, hfirst]

end

/-- Searching for an opening finds the tags of its name and class. -/
theorem Marked.occurrences_eq {ts : List Token} {cs : List Char} (h : Marked ts cs)
    {kind className : String} (hkind : IsTagName kind.toList)
    (hclass : '"' ∉ className.toList) :
    occurrences (opening kind className) cs =
      (ts.filterMap Token.tag?).countP (Tag.opens kind className) := by
  induction h with
  | nil => rfl
  | @char c ts cs hc _ ih =>
      have hsplit : c :: cs = [c] ++ cs := rfl
      rw [hsplit, opening, occurrences_append_of_not_mem (by simpa using Ne.symm hc), ← opening, ih]
      rfl
  | @tag name trail cs attributes ts hname hclosed htrail hend _ ih =>
      have hinner := not_mem_tag hname hclosed htrail
      have hsplit : name ++ (attributes.flatMap Attribute.raw ++ (trail ++ '>' :: cs)) =
          (name ++ (attributes.flatMap Attribute.raw ++ (trail ++ ['>']))) ++ cs := by
        simp
      rw [occurrences]
      simp only [opening_prefix_iff hname hclosed hend hkind hclass]
      rw [hsplit, opening, occurrences_append_of_not_mem hinner, ← opening, ih, Nat.add_comm,
        List.filterMap_cons]
      exact List.countP_cons.symm

end RadarChart
