import RadarChart.Proofs.Chart.Consistency
import RadarChart.Proofs.Document.FirstMistake

/-!
# The problem that is reported

Items that give no chart fail with one problem: the first mistake of an item,
or else the first required property that is missing, or else the first thing
that does not fit together. What comes after a mistake changes nothing.
-/

namespace RadarChart

open Text

/-- The problem that the items are rejected with. -/
inductive FirstProblem (items : List Item) : Cause → Int → Prop where
  | mistake {before after : List Item} {item : Item} {cause : Cause} :
      items = before ++ item :: after → NoMistakes before →
      item.Mistake (dataGiven before) cause → FirstProblem items cause item.line
  | missing {p : Property} {line : Int} : NoMistakes items → firstMissing? items = some p →
      IsLastLine items line → FirstProblem items (.missingProperty p) line
  | cross {cause : Cause} {line : Int} : NoMistakes items → firstMissing? items = none →
      CrossProblem items cause line → FirstProblem items cause line

/-- The problem is at the line of an item, or at line 1 if there are no items. -/
theorem FirstProblem.exists_item {items : List Item} {cause : Cause} {line : Int}
    (h : FirstProblem items cause line) :
    (items = [] ∧ line = 1) ∨ ∃ item ∈ items, item.line = line := by
  cases h with
  | mistake hsplit _ _ =>
      subst hsplit
      exact Or.inr ⟨_, List.mem_append_right _ List.mem_cons_self, rfl⟩
  | missing _ _ hline =>
      rcases hline with hempty | ⟨hitem, _⟩
      · exact Or.inl hempty
      · exact Or.inr hitem
  | cross _ _ hproblem => exact Or.inr hproblem.exists_item

section
variable {items : List Item} (hkeys : (items.map (·.key)).Nodup)
  (hdigits : ∀ item ∈ items, DigitsWithin 4299 item.key.toList ∧
    DigitsWithin 4299 item.value.toList)

include hdigits in
theorem digitsWithin_digitLimit : ∀ item ∈ items, DigitsWithin digitLimit item.key.toList ∧
    DigitsWithin digitLimit item.value.toList := by
  intro item hitem
  obtain ⟨hkey, hvalue⟩ := hdigits item hitem
  exact ⟨hkey.mono (by decide), hvalue.mono (by decide)⟩

include hkeys hdigits

/-- Items are rejected with their first problem, and in no other way. -/
theorem Chart.ofItems_eq_error_iff {failure : Failure} :
    Chart.ofItems items = .error failure ↔
      ∃ cause line, FirstProblem items cause line ∧ failure = .problem ⟨cause, line⟩ := by
  have hwithin := digitsWithin_digitLimit hdigits
  simp only [Chart.ofItems, bind_eq_error_iff]
  cases hread : readStatements items with
  | error first =>
      -- some item has a mistake, and nothing else can be the first problem
      have hmistakes : ¬ NoMistakes items := by
        rw [← exists_readStatements_iff hwithin, hread]
        rintro ⟨_, h⟩
        cases h
      have hfirst := hread ▸ @readStatements_eq_error_iff items hwithin failure
      simp only [reduceCtorEq, false_and, exists_false, or_false, hfirst]
      constructor
      · rintro ⟨before, item, after, cause, hsplit, hbefore, hmistake, rfl⟩
        exact ⟨cause, item.line, .mistake hsplit hbefore hmistake, rfl⟩
      · rintro ⟨cause, line, hproblem, rfl⟩
        cases hproblem with
        | mistake hsplit hbefore hmistake =>
            exact ⟨_, _, _, cause, hsplit, hbefore, hmistake, rfl⟩
        | missing hnone _ _ => exact absurd hnone hmistakes
        | cross hnone _ _ => exact absurd hnone hmistakes
  | ok ss =>
      obtain ⟨hofs, hnodup, _⟩ := forall₂_isOf_of_readStatementsFrom hread
      have hnone : NoMistakes items := (exists_readStatements_iff hwithin).mp ⟨ss, hread⟩
      have hscale : ∀ scale, Said items (.quantity .scale scale) → scale + 1 < 10 ^ digitLimit :=
        fun scale hsaid => hsaid.scale_succ_lt hdigits (by decide)
      simp only [reduceCtorEq, false_or, Except.ok.injEq, exists_eq_left',
        ofStatements_eq_error_iff_problem hkeys hofs hnodup hscale]
      constructor
      · rintro (⟨p, hp, rfl⟩ | ⟨hall, cause, line, hproblem, rfl⟩)
        · exact ⟨_, _, .missing hnone hp ((isLastLine_iff hofs).mpr rfl), rfl⟩
        · exact ⟨cause, line, .cross hnone hall hproblem, rfl⟩
      · rintro ⟨cause, line, hproblem, rfl⟩
        cases hproblem with
        | mistake hsplit hbefore hmistake => exact absurd hmistake (hnone _ _ _ hsplit _)
        | missing _ hp hline =>
            rw [(isLastLine_iff hofs).mp hline]
            exact Or.inl ⟨_, hp, rfl⟩
        | cross _ hall hproblem => exact Or.inr ⟨hall, cause, line, hproblem, rfl⟩

/-- There is at most one first problem. -/
theorem FirstProblem.unique {c d : Cause} {l m : Int} (h : FirstProblem items c l)
    (h' : FirstProblem items d m) : c = d ∧ l = m := by
  have hc := (Chart.ofItems_eq_error_iff hkeys hdigits).mpr ⟨c, l, h, rfl⟩
  have hd := (Chart.ofItems_eq_error_iff hkeys hdigits).mpr ⟨d, m, h', rfl⟩
  rw [hc] at hd
  cases hd
  exact ⟨rfl, rfl⟩

end

/-- What follows a mistake does not matter. -/
theorem Chart.ofItems_append_of_mistake {before after : List Item} {item : Item} {cause : Cause}
    (hdigits : ∀ x ∈ before ++ item :: after, DigitsWithin digitLimit x.key.toList ∧
      DigitsWithin digitLimit x.value.toList)
    (hbefore : NoMistakes before) (hmistake : item.Mistake (dataGiven before) cause)
    (more : List Item) :
    Chart.ofItems (before ++ item :: after ++ more) = .error (.problem ⟨cause, item.line⟩) := by
  have hread : readStatements (before ++ item :: after) = .error (.problem ⟨cause, item.line⟩) :=
    (readStatements_eq_error_iff hdigits).mpr
      ⟨before, item, after, cause, rfl, hbefore, hmistake, rfl⟩
  rw [Chart.ofItems, readStatements_append_of_error hread]
  rfl

/-- Of several problems the first is reported: a mistake of an item before anything that is
missing or does not fit, whatever items follow, and the mistakes in the order of the items. -/
theorem Chart.ofItems_reports_first {items : List Item} (hkeys : (items.map (·.key)).Nodup)
    (hdigits : ∀ item ∈ items, DigitsWithin 4299 item.key.toList ∧
      DigitsWithin 4299 item.value.toList) :
    (∀ failure, Chart.ofItems items = .error failure ↔
      ∃ cause line, FirstProblem items cause line ∧ failure = .problem ⟨cause, line⟩) ∧
    (∀ before item after cause, items = before ++ item :: after → NoMistakes before →
      item.Mistake (dataGiven before) cause → ∀ more,
        Chart.ofItems (items ++ more) = .error (.problem ⟨cause, item.line⟩)) ∧
    (∀ cause line, CrossProblem items cause line → cause.category = .consistency) := by
  refine ⟨fun failure => Chart.ofItems_eq_error_iff hkeys hdigits, ?_, ?_⟩
  · rintro before item after cause rfl hbefore hmistake more
    exact Chart.ofItems_append_of_mistake (digitsWithin_digitLimit hdigits) hbefore hmistake more
  · intro cause line hproblem
    exact hproblem.category_eq

/-- Items in which an entry is given data under two spellings of its number. -/
def clashingItems : List Item :=
  [⟨"entry 1 data", 3, "1 2"⟩, ⟨"entry 01 data", 4, "one"⟩, ⟨"size", 5, "large"⟩]

theorem first_problem_clashingItems :
    (clashingItems.map (·.key)).Nodup ∧
    (∀ item ∈ clashingItems, DigitsWithin 4299 item.key.toList ∧
      DigitsWithin 4299 item.value.toList) ∧
    FirstProblem clashingItems (.repeatedData 1) 4 ∧
    (∀ more, Chart.ofItems (clashingItems ++ more) = .error (.problem ⟨.repeatedData 1, 4⟩)) := by
  have hkeys : (clashingItems.map (·.key)).Nodup := by decide +kernel
  have hlengths : ∀ item ∈ clashingItems, item.key.toList.length ≤ 4299 ∧
      item.value.toList.length ≤ 4299 := by decide +kernel
  have hdigits : ∀ item ∈ clashingItems, DigitsWithin 4299 item.key.toList ∧
      DigitsWithin 4299 item.value.toList := by
    intro item hitem
    obtain ⟨hkey, hvalue⟩ := hlengths item hitem
    exact ⟨digitsWithin_of_length_le hkey, digitsWithin_of_length_le hvalue⟩
  have hwithin := digitsWithin_digitLimit hdigits
  have hread : readStatements (clashingItems.take 1) = .ok [⟨3, .entryData 1 [1, 2]⟩] := by
    decide +kernel
  have hfails : Item.read (knownAfter [] [⟨3, .entryData 1 [1, 2]⟩]) ⟨"entry 01 data", 4, "one"⟩ =
      .error (.problem ⟨.repeatedData 1, 4⟩) := by
    decide +kernel
  have hbefore : NoMistakes (clashingItems.take 1) :=
    (exists_readStatements_iff fun item hitem => hwithin item (List.mem_of_mem_take hitem)).mp
      ⟨_, hread⟩
  obtain ⟨cause, hmistake, heq⟩ := (read_knownAfter_eq_error_iff hwithin rfl hread).mp hfails
  cases heq
  obtain ⟨hfirst, hmore, _⟩ := Chart.ofItems_reports_first hkeys hdigits
  have hstable := hmore _ _ _ _ rfl hbefore hmistake
  have herror := hstable []
  rw [List.append_nil] at herror
  obtain ⟨cause, line, hproblem, heq⟩ := (hfirst _).mp herror
  cases heq
  exact ⟨hkeys, hdigits, hproblem, hstable⟩

/-- The color that an entry without data is reported at is the last one. -/
example : Chart.ofItems (smallItems.filter (·.key != "entry 1 data")) =
    .error (.problem ⟨.partialEntry, 20⟩) := by
  decide +kernel

end RadarChart
