import RadarChart.Proofs.Chart.FirstProblem
import RadarChart.Proofs.Document.Source

/-!
# Every failure is a problem at a line

A document with short numerals gives a chart or is rejected at one of its
lines. Nothing else can happen on the way: behind the checks every look-up
finds what it looks for, and the rings are some distance apart.
-/

namespace RadarChart

open Text

/-- What the checks must leave behind for the chart to be put together: a distance of the rings
that can divide, a label for every radius, and something for every entry. -/
structure Outline.Grounded (o : Outline) (ss : List Statement) : Prop where
  step : ∀ step, o.intervals.value = some step → 1 ≤ step
  radii : covers (ss.filterMap (·.fact.radiusNumber?)) o.radii.value = true →
    ∀ n, 1 ≤ n → n ≤ o.radii.value → ∃ label, firstStated? (·.radius? n) ss = some label
  entries : covers (ss.filterMap (·.fact.entryNumber?)) o.entries.value = true →
    ∀ n, 1 ≤ n → n ≤ o.entries.value →
      (∃ color, lastStated? (·.entryColor? n) ss = some color) ∨
        ∃ data, firstStated? (·.entryData? n) ss = some data

theorem exists_firstStated?_of_covers {ss : List Statement} {count n : Nat}
    (h : covers (ss.filterMap (·.fact.radiusNumber?)) count = true) (hpos : 1 ≤ n)
    (hle : n ≤ count) : ∃ label, firstStated? (·.radius? n) ss = some label := by
  obtain ⟨fact, ⟨s, hs, rfl⟩, hnumber⟩ :=
    mem_filterMap_fact_iff.mp ((covers_iff.mp h n).mpr ⟨hpos, hle⟩)
  obtain ⟨label, hfact⟩ := Fact.radiusNumber?_eq_some_iff.mp hnumber
  exact exists_firstStated? hs (Fact.radius?_eq_some_iff.mpr hfact)

theorem exists_stated_of_covers {ss : List Statement} {count n : Nat}
    (h : covers (ss.filterMap (·.fact.entryNumber?)) count = true) (hpos : 1 ≤ n)
    (hle : n ≤ count) :
    (∃ color, lastStated? (·.entryColor? n) ss = some color) ∨
      ∃ data, firstStated? (·.entryData? n) ss = some data := by
  obtain ⟨fact, ⟨s, hs, rfl⟩, hnumber⟩ :=
    mem_filterMap_fact_iff.mp ((covers_iff.mp h n).mpr ⟨hpos, hle⟩)
  rcases Fact.entryNumber?_eq_some_iff.mp hnumber with ⟨color, hfact⟩ | ⟨values, hfact⟩
  · exact Or.inl (exists_lastStated? hs (Fact.entryColor?_eq_some_iff.mpr hfact))
  · exact Or.inr (exists_firstStated? hs (Fact.entryData?_eq_some_iff.mpr hfact))

theorem grounded_of_readStatements {items : List Item} {ss : List Statement} {o : Outline}
    (hss : readStatements items = .ok ss) (ho : Outline.ofStatements ss = .ok o) :
    o.Grounded ss := by
  obtain ⟨hofs, _, _⟩ := forall₂_isOf_of_readStatementsFrom hss
  have hstep := said_step hofs (Outline.ofStatements_eq_ok_iff.mp ho)
  refine ⟨?_, fun h n => exists_firstStated?_of_covers h, fun h n => exists_stated_of_covers h⟩
  intro step hvalue
  rw [hvalue] at hstep
  exact hstep.step_pos

/-- A document that is rejected is rejected with a problem at one of its lines, or at line 1
if it has none that is read. -/
theorem exists_problem_of_parse {text : String} (hdigits : DigitsWithin 4299 text.toList)
    {failure : Failure} (h : Chart.parse text = .error failure) :
    ∃ problem : Problem, failure = .problem problem ∧
      ((∃ l ∈ readLines text, l.number = problem.line) ∨
        readLines text = [] ∧ problem.line = 1) := by
  rw [Chart.parse, bind_eq_error_iff] at h
  rcases h with hread | ⟨items, hread, hitems⟩
  · obtain ⟨l, hl, rfl⟩ := of_readItems_eq_error hread
    exact ⟨l.problem, rfl, Or.inl ⟨l, hl, rfl⟩⟩
  · obtain ⟨hkeys, hlines, hempty, hshort⟩ := of_readItems hread
    obtain ⟨cause, line, hfirst, rfl⟩ :=
      (Chart.ofItems_eq_error_iff hkeys (hshort 4299 hdigits)).mp hitems
    refine ⟨⟨cause, line⟩, rfl, ?_⟩
    rcases hfirst.exists_item with ⟨hnil, hone⟩ | ⟨item, hitem, rfl⟩
    · exact Or.inr ⟨hempty hnil, hone⟩
    · exact Or.inl (hlines item hitem)

/-- Every document without long runs of digits gives a chart or is rejected with a problem at
a line that is read, and at line 1 if there is no such line. On the way no look-up fails. -/
theorem Chart.parse_total {text : String} (hdigits : DigitsWithin 4299 text.toList) :
    ((∃ c, Chart.parse text = .ok c) ∨
      ∃ problem : Problem, Chart.parse text = .error (.problem problem) ∧ 1 ≤ problem.line ∧
        ((∃ l ∈ readLines text, l.number = problem.line) ∨
          readLines text = [] ∧ problem.line = 1)) ∧
    ∀ items ss o, readItems text = .ok items → readStatements items = .ok ss →
      Outline.ofStatements ss = .ok o → o.Grounded ss := by
  refine ⟨?_, fun items ss o _ hss ho => grounded_of_readStatements hss ho⟩
  cases hparse : Chart.parse text with
  | ok c => exact Or.inl ⟨c, rfl⟩
  | error failure =>
      obtain ⟨problem, rfl, hline⟩ := exists_problem_of_parse hdigits hparse
      refine Or.inr ⟨problem, rfl, ?_, hline⟩
      rcases hline with ⟨l, hl, hnumber⟩ | ⟨_, hone⟩
      · rw [← hnumber]
        exact (of_mem_readLines hl).2
      · omega

/-- A document with a comment above the two lines that are read. -/
def briefDocument : String := "# brief\n\nsize: 9 x 8\nmargin: 5\n"

theorem parse_total_briefDocument :
    DigitsWithin 4299 briefDocument.toList ∧
    ∃ problem : Problem, Chart.parse briefDocument = .error (.problem problem) ∧
      1 ≤ problem.line ∧ ∃ l ∈ readLines briefDocument, l.number = problem.line := by
  have hdigits : DigitsWithin 4299 briefDocument.toList :=
    digitsWithin_of_length_le (by decide +kernel)
  have hparse : Chart.parse briefDocument =
      .error (.problem ⟨.missingProperty (.paint .background), 4⟩) := by
    decide +kernel
  have hlines : readLines briefDocument ≠ [] := by decide +kernel
  refine ⟨hdigits, ?_⟩
  obtain ⟨⟨c, hc⟩ | ⟨problem, hproblem, hpos, hline⟩, _⟩ := Chart.parse_total hdigits
  · rw [hparse] at hc
    cases hc
  · exact ⟨problem, hproblem, hpos, hline.resolve_right fun h => hlines h.1⟩

end RadarChart
