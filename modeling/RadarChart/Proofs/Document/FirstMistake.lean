import RadarChart.Proofs.Document.Mistake

/-!
# The first mistake

Items are read one by one, so of all their mistakes the first is reported, and
nothing behind it matters. An item is judged by itself and by the data that
the items before it give.
-/

namespace RadarChart

open Text

/-- The entries that the items give data. -/
def dataGiven (items : List Item) (n : Nat) : Prop :=
  ∃ values, Said items (.entryData n values)

/-- No item has a mistake, where the items before it say which data are given. -/
def NoMistakes (items : List Item) : Prop :=
  ∀ before item after, items = before ++ item :: after →
    ∀ cause, ¬ item.Mistake (dataGiven before) cause

/-- The entries that have data after the statements. -/
def knownAfter (withData : List Nat) (ss : List Statement) : List Nat :=
  ss.foldl (fun known s => s.fact.addData known) withData

theorem mem_knownAfter {withData : List Nat} {ss : List Statement} {n : Nat} :
    n ∈ knownAfter withData ss ↔ n ∈ dataNumbers ss ∨ n ∈ withData := by
  induction ss generalizing withData with
  | nil => simp [knownAfter, dataNumbers]
  | cons s ss ih =>
      show n ∈ knownAfter (s.fact.addData withData) ss ↔ _
      rw [ih, Fact.mem_addData, mem_dataNumbers_cons, or_left_comm, or_assoc]

/-- Items fail at the first one that cannot be read after those before it. -/
theorem readStatementsFrom_eq_error_iff {withData : List Nat} {items : List Item}
    {failure : Failure} :
    readStatementsFrom withData items = .error failure ↔
      ∃ before item after ss, items = before ++ item :: after ∧
        readStatementsFrom withData before = .ok ss ∧
        item.read (knownAfter withData ss) = .error failure := by
  induction items generalizing withData with
  | nil => simp [readStatementsFrom]
  | cons item items ih =>
      simp only [readStatementsFrom, bind_eq_error_iff, pure_ne_error, and_false, exists_false,
        or_false, ih]
      constructor
      · rintro (h | ⟨s, hs, before, x, after, ss, rfl, hss, hx⟩)
        · exact ⟨[], item, items, [], rfl, rfl, h⟩
        · refine ⟨item :: before, x, after, s :: ss, rfl, ?_, hx⟩
          simp only [readStatementsFrom, bind_eq_ok_iff, pure_eq_ok_iff]
          exact ⟨s, hs, ss, hss, rfl⟩
      · rintro ⟨before, x, after, ss, hitems, hss, hx⟩
        cases before with
        | nil =>
            obtain ⟨rfl, rfl⟩ := List.cons.inj hitems
            rw [readStatementsFrom, pure_eq_ok_iff] at hss
            subst hss
            exact Or.inl hx
        | cons y before =>
            obtain ⟨rfl, rfl⟩ := List.cons.inj hitems
            simp only [readStatementsFrom, bind_eq_ok_iff, pure_eq_ok_iff] at hss
            obtain ⟨s, hs, ss, hss, rfl⟩ := hss
            exact Or.inr ⟨s, hs, before, x, after, ss, rfl, hss, hx⟩

/-- What follows an item that cannot be read does not matter. -/
theorem readStatements_append_of_error {items more : List Item} {failure : Failure}
    (h : readStatements items = .error failure) :
    readStatements (items ++ more) = .error failure := by
  obtain ⟨before, item, after, ss, rfl, hss, hitem⟩ := readStatementsFrom_eq_error_iff.mp h
  refine readStatementsFrom_eq_error_iff.mpr ⟨before, item, after ++ more, ss, ?_, hss, hitem⟩
  rw [List.append_assoc, List.cons_append]

theorem readStatements_of_prefix {before after : List Item} {ss : List Statement}
    (h : readStatements (before ++ after) = .ok ss) : ∃ ss, readStatements before = .ok ss := by
  cases hbefore : readStatements before with
  | ok ss => exact ⟨ss, rfl⟩
  | error failure =>
      rw [readStatements_append_of_error hbefore] at h
      cases h

section
variable {items : List Item}
  (hdigits : ∀ item ∈ items, DigitsWithin digitLimit item.key.toList ∧
    DigitsWithin digitLimit item.value.toList)

include hdigits

/-- The mistakes of an item after others that were read. -/
theorem read_knownAfter_eq_error_iff {before after : List Item} {item : Item}
    {ss : List Statement} {failure : Failure} (hitems : items = before ++ item :: after)
    (hss : readStatements before = .ok ss) :
    item.read (knownAfter [] ss) = .error failure ↔
      ∃ cause, item.Mistake (dataGiven before) cause ∧ failure = .problem ⟨cause, item.line⟩ := by
  subst hitems
  have hitem := hdigits item (List.mem_append_right _ List.mem_cons_self)
  have hgiven : (· ∈ knownAfter [] ss) = dataGiven before := by
    obtain ⟨hofs, _, _⟩ := forall₂_isOf_of_readStatementsFrom hss
    funext n
    rw [mem_knownAfter, dataGiven, or_iff_left List.not_mem_nil, mem_dataNumbers_iff hofs]
  rw [Item.read_eq_error_iff hitem, hgiven]

/-- Items can be read exactly where none of them has a mistake. -/
theorem exists_readStatements_iff :
    (∃ ss, readStatements items = .ok ss) ↔ NoMistakes items := by
  constructor
  · rintro ⟨ss, hss⟩ before item after hitems cause hmistake
    subst hitems
    obtain ⟨known, hknown⟩ := readStatements_of_prefix hss
    have herror : readStatements (before ++ item :: after) = .error (.problem ⟨cause, item.line⟩) :=
      readStatementsFrom_eq_error_iff.mpr ⟨before, item, after, known, rfl, hknown,
        (read_knownAfter_eq_error_iff hdigits rfl hknown).mpr ⟨cause, hmistake, rfl⟩⟩
    rw [hss] at herror
    cases herror
  · intro h
    cases hread : readStatements items with
    | ok ss => exact ⟨ss, rfl⟩
    | error failure =>
        obtain ⟨before, item, after, ss, hitems, hss, hitem⟩ :=
          readStatementsFrom_eq_error_iff.mp hread
        obtain ⟨cause, hmistake, _⟩ := (read_knownAfter_eq_error_iff hdigits hitems hss).mp hitem
        exact absurd hmistake (h before item after hitems cause)

/-- Items with short numerals fail at the first mistake, and by nothing else. -/
theorem readStatements_eq_error_iff {failure : Failure} :
    readStatements items = .error failure ↔
      ∃ before item after cause, items = before ++ item :: after ∧ NoMistakes before ∧
        item.Mistake (dataGiven before) cause ∧ failure = .problem ⟨cause, item.line⟩ := by
  rw [readStatements, readStatementsFrom_eq_error_iff]
  constructor
  · rintro ⟨before, item, after, ss, rfl, hss, hitem⟩
    obtain ⟨cause, hmistake, rfl⟩ := (read_knownAfter_eq_error_iff hdigits rfl hss).mp hitem
    have hbefore := (List.forall_mem_append.mp hdigits).1
    exact ⟨before, item, after, cause, rfl, (exists_readStatements_iff hbefore).mp ⟨ss, hss⟩,
      hmistake, rfl⟩
  · rintro ⟨before, item, after, cause, rfl, hnone, hmistake, rfl⟩
    have hbefore := (List.forall_mem_append.mp hdigits).1
    obtain ⟨ss, hss⟩ := (exists_readStatements_iff hbefore).mpr hnone
    exact ⟨before, item, after, ss, rfl, hss,
      (read_knownAfter_eq_error_iff hdigits rfl hss).mpr ⟨cause, hmistake, rfl⟩⟩

end

end RadarChart
