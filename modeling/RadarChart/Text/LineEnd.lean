/-!
# Line ends

A line ends at a line feed, and a carriage return directly before the line
feed belongs to the line end. A carriage return elsewhere is an ordinary
character of a line. Files are read with all line ends unified first, where a
lone carriage return counts as a line end too.
-/

namespace RadarChart.Text

/-- The lines of a text, without their ends: one more than there are line ends. -/
def splitLines : List Char → List (List Char)
  | [] => [[]]
  | '\r' :: '\n' :: cs => [] :: splitLines cs
  | '\n' :: cs => [] :: splitLines cs
  | c :: cs =>
    match splitLines cs with
    | [] => [[c]]
    | l :: ls => (c :: l) :: ls

/-- The text with every line end written as a line feed. -/
def unifyLineEnds : List Char → List Char
  | [] => []
  | '\r' :: '\n' :: cs => '\n' :: unifyLineEnds cs
  | '\r' :: cs => '\n' :: unifyLineEnds cs
  | c :: cs => c :: unifyLineEnds cs

theorem splitLines_ne_nil (cs : List Char) : splitLines cs ≠ [] := by
  fun_cases splitLines cs <;> simp

/-- Unified text holds no carriage return. -/
theorem not_mem_unifyLineEnds (cs : List Char) : '\r' ∉ unifyLineEnds cs := by
  fun_induction unifyLineEnds cs with
  | case1 => simp
  | case2 cs ih => simp [ih]
  | case3 cs _ ih => simp [ih]
  | case4 c cs _ hc ih =>
    simp only [List.mem_cons, not_or]
    exact ⟨fun h => hc h.symm, ih⟩

end RadarChart.Text
