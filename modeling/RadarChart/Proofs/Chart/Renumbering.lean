import RadarChart.Chart.Reading
import RadarChart.Proofs.Document.Form
import RadarChart.Proofs.Document.Renumbering
import RadarChart.Proofs.Document.Source

/-!
# Charts of renumbered documents

The chart does not depend on the numbers of the lines, and a problem follows
its line. The numbers are compared in one place only, where a missing property
is reported at the largest of them; so their order must be kept, and a document
that states nothing has line 1 in either numbering.
-/

namespace RadarChart

def Stated.renumber {α : Type} (f : Int → Int) (s : Stated α) : Stated α :=
  { s with line := f s.line }

def Outline.renumber (f : Int → Int) (o : Outline) : Outline :=
  { o with
    intervals := o.intervals.renumber f
    radii := o.radii.renumber f
    entries := o.entries.renumber f }

section
variable {f : Int → Int} {ss : List Statement}

/-! ## Looking things up -/

section
variable {α : Type} {g : Fact → Option α}

theorem firstStated?_renumber :
    firstStated? g (ss.map (·.renumber f)) = (firstStated? g ss).map (·.renumber f) := by
  induction ss with
  | nil => rfl
  | cons s ss ih =>
      have hs : (s.renumber f).stated? g = (s.stated? g).map (·.renumber f) := by
        unfold Statement.stated?
        cases h : g s.fact <;> simp [Statement.renumber, Stated.renumber, h]
      simp only [firstStated?, List.map_cons, List.findSome?_cons, hs] at ih ⊢
      cases s.stated? g with
      | none => exact ih
      | some stated => rfl

theorem lastStated?_renumber :
    lastStated? g (ss.map (·.renumber f)) = (lastStated? g ss).map (·.renumber f) := by
  rw [lastStated?, ← List.map_reverse, firstStated?_renumber, lastStated?]

theorem firstValue_renumber :
    (firstStated? g (ss.map (·.renumber f))).map (·.value) =
      (firstStated? g ss).map (·.value) := by
  rw [firstStated?_renumber, Option.map_map]
  rfl

theorem filterMap_fact_renumber :
    (ss.map (·.renumber f)).filterMap (fun s => g s.fact) = ss.filterMap fun s => g s.fact := by
  rw [List.filterMap_map]
  rfl

end

/-! ## Required properties -/

theorem max_renumber (hf : ∀ {m n : Int}, m ≤ n → f m ≤ f n) (m n : Int) :
    max (f m) (f n) = f (max m n) := by
  rcases Int.le_total m n with h | h
  · rw [Int.max_eq_right h, Int.max_eq_right (hf h)]
  · rw [Int.max_eq_left h, Int.max_eq_left (hf h)]

theorem lastLine_renumber (hf : ∀ {m n : Int}, m ≤ n → f m ≤ f n) (hempty : ss = [] → f 1 = 1) :
    lastLine (ss.map (·.renumber f)) = f (lastLine ss) := by
  cases ss with
  | nil => exact (hempty rfl).symm
  | cons s ss =>
      have hfold : ∀ line, (ss.map (·.renumber f)).foldl (fun line s => max line s.line) (f line) =
          f (ss.foldl (fun line s => max line s.line) line) := by
        clear hempty
        induction ss with
        | nil => exact fun line => rfl
        | cons u us ih =>
            intro line
            rw [List.foldl_cons, ← ih, ← max_renumber hf]
            rfl
      exact hfold s.line

section
variable (hf : ∀ {m n : Int}, m ≤ n → f m ≤ f n) (hempty : ss = [] → f 1 = 1)

include hf hempty

theorem required_renumber {α : Type} (p : Property) (g : Fact → Option α) :
    required p g (ss.map (·.renumber f)) = renumbered f (·.renumber f) (required p g ss) := by
  rw [required, required, firstStated?_renumber]
  cases firstStated? g ss with
  | some stated => rfl
  | none => exact congrArg (reject _) (lastLine_renumber hf hempty)

theorem Outline.ofStatements_renumber :
    Outline.ofStatements (ss.map (·.renumber f)) =
      renumbered f (·.renumber f) (Outline.ofStatements ss) := by
  have hrequired : ∀ {α : Type} (p : Property) (g : Fact → Option α),
      required p g (ss.map (·.renumber f)) = renumbered f (·.renumber f) (required p g ss) :=
    required_renumber hf hempty
  refine bind_renumbered (hrequired _ _) fun size => ?_
  refine bind_renumbered (hrequired _ _) fun margin => ?_
  refine bind_renumbered (hrequired _ _) fun background => ?_
  refine bind_renumbered (hrequired _ _) fun textColor => ?_
  refine bind_renumbered (hrequired _ _) fun textSize => ?_
  refine bind_renumbered (hrequired _ _) fun strokeColor => ?_
  refine bind_renumbered (hrequired _ _) fun mainStrokeWidth => ?_
  refine bind_renumbered (hrequired _ _) fun entryStrokeWidth => ?_
  refine bind_renumbered (hrequired _ _) fun filledEntries => ?_
  refine bind_renumbered (hrequired _ _) fun scale => ?_
  refine bind_renumbered (hrequired _ _) fun intervals => ?_
  refine bind_renumbered (hrequired _ _) fun top => ?_
  refine bind_renumbered (hrequired _ _) fun radii => ?_
  refine bind_renumbered (hrequired _ _) fun entries => ?_
  rfl

end

/-! ## Checks across properties -/

theorem Outline.checkIntervals_renumber (o : Outline) :
    (o.renumber f).checkIntervals = renumbered f id o.checkIntervals := by
  rw [Outline.checkIntervals, Outline.checkIntervals, renumbered_ite]
  rfl

theorem radiusLabels_renumber (radii : Stated Nat) :
    radiusLabels (ss.map (·.renumber f)) (radii.renumber f) =
      renumbered f id (radiusLabels ss radii) := by
  simp only [radiusLabels, filterMap_fact_renumber, firstValue_renumber, renumbered_ite]
  rfl

theorem checkEntries_renumber (entries : Stated Nat) :
    checkEntries (ss.map (·.renumber f)) (entries.renumber f) =
      renumbered f id (checkEntries ss entries) := by
  rw [checkEntries, checkEntries, filterMap_fact_renumber, renumbered_ite]
  rfl

theorem ringLabels_renumber (scale : Nat) (intervals : Option Nat)
    (given : Option (Stated (List String))) :
    ringLabels scale intervals (given.map (·.renumber f)) =
      renumbered f id (ringLabels scale intervals given) := by
  cases intervals with
  | none => cases given <;> rfl
  | some step =>
      cases given with
      | none => rfl
      | some labels =>
          apply bind_renumbered renumbered_orFault.symm
          intro text
          rw [renumbered_ite]
          rfl

theorem readEntry_renumber (entries radii : Stated Nat) (number : Nat) :
    readEntry (ss.map (·.renumber f)) (entries.renumber f) (radii.renumber f) number =
      renumbered f id (readEntry ss entries radii number) := by
  rw [readEntry, readEntry, lastStated?_renumber, firstStated?_renumber]
  cases lastStated? (·.entryColor? number) ss with
  | none => cases firstStated? (·.entryData? number) ss <;> rfl
  | some color =>
      cases firstStated? (·.entryData? number) ss with
      | none => rfl
      | some data =>
          rw [renumbered_ite]
          rfl

theorem Outline.chart_renumber (o : Outline) (radii labels : List String)
    (entries : List Entry) :
    (o.renumber f).chart (ss.map (·.renumber f)) radii labels entries =
      o.chart ss radii labels entries := by
  simp only [Outline.chart, firstValue_renumber]
  rfl

/-! ## Charts -/

section
variable (hf : ∀ {m n : Int}, m ≤ n → f m ≤ f n)

include hf

theorem Chart.ofStatements_renumber (hempty : ss = [] → f 1 = 1) :
    Chart.ofStatements (ss.map (·.renumber f)) = renumbered f id (Chart.ofStatements ss) := by
  apply bind_renumbered (Outline.ofStatements_renumber hf hempty)
  intro o
  apply bind_renumbered o.checkIntervals_renumber
  intro _
  apply bind_renumbered (radiusLabels_renumber o.radii)
  intro radii
  apply bind_renumbered (checkEntries_renumber o.entries)
  intro _
  apply bind_renumbered
  · rw [firstStated?_renumber]
    exact ringLabels_renumber _ _ _
  intro labels
  apply bind_renumbered (mapM_renumbered (readEntry_renumber o.entries o.radii) _)
  intro entries
  rw [List.map_id, id, id, Outline.chart_renumber]
  rfl

/-- Items on other lines give the same chart, or the same problem on the other line. -/
theorem Chart.ofItems_renumber {items : List Item} (hempty : items = [] → f 1 = 1) :
    Chart.ofItems (items.map (·.renumber f)) =
      (Chart.ofItems items).mapError (Failure.renumber f) := by
  rw [← renumbered_id, Chart.ofItems, readStatements, readStatementsFrom_renumber]
  cases hread : readStatementsFrom [] items with
  | error failure =>
      simp only [Chart.ofItems, readStatements, hread]
      rfl
  | ok ss =>
      have hnil : ss = [] → items = [] := by
        rintro rfl
        obtain ⟨hall, _⟩ := readStatementsFrom_eq_ok_iff.mp hread
        exact List.forall₂_nil_right_iff.mp hall
      simp only [Chart.ofItems, readStatements, hread]
      exact Chart.ofStatements_renumber hf fun h => hempty (hnil h)

end

/-! ## Documents -/

section
variable {text longer : String}
  (h : readLines longer = (readLines text).map (·.renumber f))

include h

/-- Documents whose lines differ in their numbers have the same keys and values. -/
theorem readItems_renumber :
    readItems longer = renumbered f (List.map (·.renumber f)) (readItems text) := by
  rw [readItems, readItems, h, resolve_renumber, renumbered_orProblem]

theorem Chart.parse_renumber (hf : ∀ {m n : Int}, m ≤ n → f m ≤ f n)
    (hempty : readLines text = [] → f 1 = 1) :
    Chart.parse longer = (Chart.parse text).mapError (Failure.renumber f) := by
  rw [Chart.parse, readItems_renumber h]
  cases hitems : readItems text with
  | error failure =>
      simp only [Chart.parse, hitems]
      rfl
  | ok items =>
      simp only [Chart.parse, hitems]
      exact Chart.ofItems_renumber hf fun hnil => hempty ((of_readItems hitems).2.2.1 hnil)

end

end

end RadarChart
