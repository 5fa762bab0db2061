import RadarChart.Proofs.Chart.Lookup
import RadarChart.Proofs.Document.Failure

/-!
# What is missing and what does not fit together

Items without a mistake can still leave out a required property, and what they
state can disagree. `firstMissing?` and `CrossProblem` say which of these is
reported, and at which line, in terms of what the items say. The statements of
the items fail with exactly these problems.
-/

namespace RadarChart

open Text

/-! ## The problems -/

/-- The first required property that no item states. -/
def firstMissing? (items : List Item) : Option Property :=
  requiredProperties.find? fun p => decide (∀ item ∈ items, item.key ≠ p.name)

/-- The line is the largest one of the items, or 1 if there are none. -/
def IsLastLine (items : List Item) (line : Int) : Prop :=
  (items = [] ∧ line = 1) ∨
    (∃ item ∈ items, item.line = line) ∧ ∀ item ∈ items, item.line ≤ line

def IntervalsFit (items : List Item) : Prop :=
  ∀ scale step, Said items (.quantity .scale scale) → Said items (.intervals (some step)) →
    step < scale ∧ step ∣ scale

def RadiiFit (items : List Item) : Prop :=
  ∀ count, Said items (.quantity .radii count) →
    ∀ n, (∃ label, Said items (.radius n label)) ↔ 1 ≤ n ∧ n ≤ count

def EntriesFit (items : List Item) : Prop :=
  ∀ count, Said items (.quantity .entries count) →
    ∀ n, (∃ color, Said items (.entryColor n color)) ∨ (∃ values, Said items (.entryData n values))
      ↔ 1 ≤ n ∧ n ≤ count

def LabelsFit (items : List Item) : Prop :=
  ∀ scale step labels, Said items (.quantity .scale scale) →
    Said items (.intervals (some step)) → Said items (.intervalLabels labels) →
    labels.length = scale / step + 1

/-- What is wrong with one entry that has a color or data. -/
inductive EntryProblem (items : List Item) (n : Nat) : Cause → Int → Prop where
  | noColor {values : List Nat} {line : Int} : SaidAt items (.entryData n values) line →
      (∀ color, ¬ Said items (.entryColor n color)) → EntryProblem items n .partialEntry line
  | noData {color : String} {line : Int} : LastSaid items (.entryColor n) color line →
      (∀ values, ¬ Said items (.entryData n values)) → EntryProblem items n .partialEntry line
  | dataCount {color : String} {values : List Nat} {count : Nat} {line : Int} :
      Said items (.entryColor n color) → SaidAt items (.entryData n values) line →
      Said items (.quantity .radii count) → values.length ≠ count →
      EntryProblem items n .dataCount line

/-- The first thing that does not fit, for items that state all that is required. -/
inductive CrossProblem (items : List Item) : Cause → Int → Prop where
  | intervals {step : Option Nat} {line : Int} : ¬ IntervalsFit items →
      SaidAt items (.intervals step) line → CrossProblem items .unevenIntervals line
  | radii {count : Nat} {line : Int} : IntervalsFit items → ¬ RadiiFit items →
      SaidAt items (.quantity .radii count) line → CrossProblem items .radiiMismatch line
  | entries {count : Nat} {line : Int} : IntervalsFit items → RadiiFit items →
      ¬ EntriesFit items → SaidAt items (.quantity .entries count) line →
      CrossProblem items .entriesMismatch line
  | labels {scale step : Nat} {labels : List String} {line : Int} : IntervalsFit items →
      RadiiFit items → EntriesFit items → Said items (.quantity .scale scale) →
      Said items (.intervals (some step)) → SaidAt items (.intervalLabels labels) line →
      labels.length ≠ scale / step + 1 → CrossProblem items (.labelCount (scale / step + 1)) line
  | entry {n count : Nat} {cause : Cause} {line : Int} : IntervalsFit items → RadiiFit items →
      EntriesFit items → LabelsFit items → Said items (.quantity .entries count) →
      1 ≤ n → n ≤ count → (∀ m, 1 ≤ m → m < n → ∀ c l, ¬ EntryProblem items m c l) →
      EntryProblem items n cause line → CrossProblem items cause line

theorem CrossProblem.category_eq {items : List Item} {cause : Cause} {line : Int}
    (h : CrossProblem items cause line) : cause.category = .consistency := by
  cases h with
  | entry _ _ _ _ _ _ _ _ hentry => cases hentry <;> rfl
  | _ => rfl

theorem EntryProblem.exists_item {items : List Item} {n : Nat} {cause : Cause} {line : Int}
    (h : EntryProblem items n cause line) : ∃ item ∈ items, item.line = line := by
  cases h with
  | noColor hat _ => exact hat.exists_item
  | noData hlast _ => exact hlast.saidAt.exists_item
  | dataCount _ hat _ _ => exact hat.exists_item

theorem CrossProblem.exists_item {items : List Item} {cause : Cause} {line : Int}
    (h : CrossProblem items cause line) : ∃ item ∈ items, item.line = line := by
  cases h with
  | intervals _ hat => exact hat.exists_item
  | radii _ _ hat => exact hat.exists_item
  | entries _ _ _ hat => exact hat.exists_item
  | labels _ _ _ _ _ hat _ => exact hat.exists_item
  | entry _ _ _ _ _ _ _ _ hproblem => exact hproblem.exists_item

/-! ## Required properties -/

/-- No statement is about the property. -/
def isUnstated (ss : List Statement) (p : Property) : Bool :=
  decide (∀ s ∈ ss, s.fact.target ≠ .property p)

/-- Requiring a property fails if it is unstated, and then with what follows. -/
theorem required_bind_eq_error_iff {α β : Type} {f : Fact → Option α} {p : Property}
    {ps : List Property} {ss : List Statement} {next : Stated α → Except Failure β}
    {failure : Failure} (hf : ∀ fact, (f fact).isSome ↔ fact.target = .property p)
    (hnext : ∀ stated, next stated = .error failure ↔
      ∃ q, ps.find? (isUnstated ss) = some q ∧
        failure = .problem ⟨.missingProperty q, lastLine ss⟩) :
    required p f ss >>= next = .error failure ↔
      ∃ q, (p :: ps).find? (isUnstated ss) = some q ∧
        failure = .problem ⟨.missingProperty q, lastLine ss⟩ := by
  have hfound : isUnstated ss p = false ↔ ∃ stated, firstStated? f ss = some stated := by
    rw [exists_firstStated?_iff]
    simp [isUnstated, hf]
  unfold required
  cases hstated : firstStated? f ss with
  | none =>
      have hunstated : isUnstated ss p = true := by
        rw [← Bool.not_eq_false, hfound]
        simp [hstated]
      rw [List.find?_cons_of_pos hunstated]
      simp [bind_eq_error_iff]
  | some stated =>
      have hp : ¬ isUnstated ss p = true := by
        rw [Bool.not_eq_true, hfound]
        exact ⟨stated, hstated⟩
      rw [List.find?_cons_of_neg hp]
      exact hnext stated

theorem Outline.ofStatements_eq_error_iff {ss : List Statement} {failure : Failure} :
    Outline.ofStatements ss = .error failure ↔
      ∃ p, requiredProperties.find? (isUnstated ss) = some p ∧
        failure = .problem ⟨.missingProperty p, lastLine ss⟩ := by
  unfold Outline.ofStatements Outline.ofStatements.quantity Outline.ofStatements.paint
  refine required_bind_eq_error_iff (fun _ => Fact.isSome_size?) fun _ => ?_
  refine required_bind_eq_error_iff (fun _ => Fact.isSome_quantity?) fun _ => ?_
  refine required_bind_eq_error_iff (fun _ => Fact.isSome_paint?) fun _ => ?_
  refine required_bind_eq_error_iff (fun _ => Fact.isSome_paint?) fun _ => ?_
  refine required_bind_eq_error_iff (fun _ => Fact.isSome_quantity?) fun _ => ?_
  refine required_bind_eq_error_iff (fun _ => Fact.isSome_paint?) fun _ => ?_
  refine required_bind_eq_error_iff (fun _ => Fact.isSome_quantity?) fun _ => ?_
  refine required_bind_eq_error_iff (fun _ => Fact.isSome_quantity?) fun _ => ?_
  refine required_bind_eq_error_iff (fun _ => Fact.isSome_flag?) fun _ => ?_
  refine required_bind_eq_error_iff (fun _ => Fact.isSome_quantity?) fun _ => ?_
  refine required_bind_eq_error_iff (fun _ => Fact.isSome_intervals?) fun _ => ?_
  refine required_bind_eq_error_iff (fun _ => Fact.isSome_top?) fun _ => ?_
  refine required_bind_eq_error_iff (fun _ => Fact.isSome_quantity?) fun _ => ?_
  refine required_bind_eq_error_iff (fun _ => Fact.isSome_quantity?) fun _ => ?_
  simp

section
variable {items : List Item} {ss : List Statement}
  (hofs : List.Forall₂ (fun item s => s.IsOf item) items ss)

/-- The largest line is that of some statement, or 1 where there are none. -/
theorem lastLine_spec (ss : List Statement) :
    (ss = [] ∧ lastLine ss = 1) ∨
      (∃ s ∈ ss, s.line = lastLine ss) ∧ ∀ s ∈ ss, s.line ≤ lastLine ss := by
  cases ss with
  | nil => exact Or.inl ⟨rfl, rfl⟩
  | cons s ss =>
      right
      unfold lastLine
      simp only
      induction ss using List.reverseRecOn with
      | nil => simp
      | append_singleton ss t ih =>
          obtain ⟨⟨u, hu, hline⟩, hbound⟩ := ih
          rw [List.foldl_append, List.foldl_cons, List.foldl_nil]
          generalize ss.foldl (fun line s => max line s.line) s.line = m at hline hbound ⊢
          have hmem : ∀ v, v ∈ s :: (ss ++ [t]) ↔ v ∈ s :: ss ∨ v = t := by simp [or_assoc]
          constructor
          · rcases Int.le_total m t.line with h | h
            · exact ⟨t, (hmem t).mpr (Or.inr rfl), (Int.max_eq_right h).symm⟩
            · exact ⟨u, (hmem u).mpr (Or.inl hu), hline.trans (Int.max_eq_left h).symm⟩
          · intro v hv
            rcases (hmem v).mp hv with hv | rfl
            · exact Int.le_trans (hbound v hv) (Int.le_max_left m t.line)
            · exact Int.le_max_right m v.line

include hofs

theorem isLastLine_iff {line : Int} : IsLastLine items line ↔ line = lastLine ss := by
  have hlast : IsLastLine items (lastLine ss) := by
    rcases lastLine_spec ss with ⟨rfl, hline⟩ | ⟨⟨s, hs, hline⟩, hbound⟩
    · exact Or.inl ⟨List.forall₂_nil_right_iff.mp hofs, hline⟩
    · obtain ⟨item, hitem, hof⟩ := exists_left_of_forall₂ hofs hs
      refine Or.inr ⟨⟨item, hitem, hof.1.symm.trans hline⟩, ?_⟩
      intro x hx
      obtain ⟨t, ht, hxt⟩ := exists_right_of_forall₂ hofs hx
      exact hxt.1 ▸ hbound t ht
  constructor
  · rintro (⟨rfl, rfl⟩ | ⟨⟨x, hx, hline⟩, hbound⟩)
    · rcases hlast with ⟨_, hone⟩ | ⟨⟨y, hy, _⟩, _⟩
      · exact hone.symm
      · exact absurd hy List.not_mem_nil
    · rcases hlast with ⟨rfl, _⟩ | ⟨⟨y, hy, hyline⟩, hybound⟩
      · exact absurd hx List.not_mem_nil
      · exact Int.le_antisymm (hline ▸ hybound x hx) (hyline ▸ hbound y hy)
  · rintro rfl
    exact hlast

theorem find?_isUnstated_eq :
    requiredProperties.find? (isUnstated ss) = firstMissing? items := by
  unfold firstMissing?
  congr 1
  funext p
  unfold isUnstated
  rw [decide_eq_decide]
  constructor
  · intro h item hitem hkey
    obtain ⟨s, hs, hof⟩ := exists_right_of_forall₂ hofs hitem
    exact h s hs (hof.2.key.unique (hkey ▸ .property p))
  · intro h s hs htarget
    obtain ⟨item, hitem, hof⟩ := exists_left_of_forall₂ hofs hs
    exact h item hitem (hof.2.key_eq_name htarget)

end

/-! ## Cross checks -/

theorem Outline.checkIntervals_eq_error_iff {o : Outline} {failure : Failure} :
    o.checkIntervals = .error failure ↔
      ¬ fitsScale o.scale o.intervals.value = true ∧
        failure = .problem ⟨.unevenIntervals, o.intervals.line⟩ := by
  unfold Outline.checkIntervals
  split <;> rename_i h <;> simp [h]

theorem radiusLabels_eq_error_iff {ss : List Statement} {radii : Stated Nat} {failure : Failure} :
    radiusLabels ss radii = .error failure ↔
      ¬ covers (ss.filterMap (·.fact.radiusNumber?)) radii.value = true ∧
        failure = .problem ⟨.radiiMismatch, radii.line⟩ := by
  unfold radiusLabels
  split <;> rename_i h <;> simp [h]

theorem checkEntries_eq_error_iff {ss : List Statement} {entries : Stated Nat}
    {failure : Failure} :
    checkEntries ss entries = .error failure ↔
      ¬ covers (ss.filterMap (·.fact.entryNumber?)) entries.value = true ∧
        failure = .problem ⟨.entriesMismatch, entries.line⟩ := by
  unfold checkEntries
  split <;> rename_i h <;> simp [h]

/-- Short of the limit on numerals, only the number of the labels can be wrong. -/
theorem ringLabels_eq_error_iff {scale : Nat} {intervals : Option Nat}
    {given : Option (Stated (List String))} {failure : Failure}
    (hscale : scale + 1 < 10 ^ digitLimit) :
    ringLabels scale intervals given = .error failure ↔
      ∃ step labels, intervals = some step ∧ given = some labels ∧
        labels.value.length ≠ scale / step + 1 ∧
        failure = .problem ⟨.labelCount (scale / step + 1), labels.line⟩ := by
  unfold ringLabels
  cases intervals with
  | none => cases given <;> simp
  | some step =>
      cases given with
      | none => simp
      | some labels =>
          have hquot : scale / step ≤ scale := Nat.div_le_self scale step
          obtain ⟨text, htext⟩ : ∃ text, Text.writeInteger ((scale / step + 1 : Nat) : Int) =
              .ok text := exists_writeInteger_iff.mpr (by omega)
          simp only [htext]
          show (if labels.value.length = scale / step + 1 then _ else _) = _ ↔ _
          split <;> rename_i h <;> simp [h]

/-- The failures of the statements, in the order in which they are looked for. -/
theorem Chart.ofStatements_eq_error_iff {ss : List Statement} {failure : Failure} :
    Chart.ofStatements ss = .error failure ↔
      (∃ p, requiredProperties.find? (isUnstated ss) = some p ∧
        failure = .problem ⟨.missingProperty p, lastLine ss⟩) ∨
      ∃ o : Outline, o.IsOf ss ∧
        (o.checkIntervals = .error failure ∨ fitsScale o.scale o.intervals.value = true ∧
        (radiusLabels ss o.radii = .error failure ∨
          covers (ss.filterMap (·.fact.radiusNumber?)) o.radii.value = true ∧
        (checkEntries ss o.entries = .error failure ∨
          covers (ss.filterMap (·.fact.entryNumber?)) o.entries.value = true ∧
        (ringLabels o.scale o.intervals.value (firstStated? (·.intervalLabels?) ss) =
            .error failure ∨
          (∃ labels, ringLabels o.scale o.intervals.value (firstStated? (·.intervalLabels?) ss) =
            .ok labels) ∧
          (List.range' 1 o.entries.value).mapM (readEntry ss o.entries o.radii) =
            .error failure)))) := by
  have hunit : ∀ {x : Except Failure Unit} {q : Prop},
      (∃ u, x = .ok u ∧ q) ↔ x = .ok () ∧ q := by
    intro x q
    exact ⟨fun ⟨_, hx, hq⟩ => ⟨hx, hq⟩, fun ⟨hx, hq⟩ => ⟨(), hx, hq⟩⟩
  simp only [Chart.ofStatements, bind_eq_error_iff, Outline.ofStatements_eq_error_iff,
    Outline.ofStatements_eq_ok_iff, hunit, Outline.checkIntervals_eq_ok_iff,
    checkEntries_eq_ok_iff, pure_ne_error, and_false, exists_false, or_false,
    exists_and_right, radiusLabels_eq_ok_iff, exists_and_left, exists_eq', and_true]

/-! ## Cross checks on items -/

theorem not_labelsFit_iff {items : List Item} :
    ¬ LabelsFit items ↔ ∃ scale step labels line, Said items (.quantity .scale scale) ∧
      Said items (.intervals (some step)) ∧ SaidAt items (.intervalLabels labels) line ∧
      labels.length ≠ scale / step + 1 := by
  constructor
  · intro h
    simp only [LabelsFit, not_forall] at h
    obtain ⟨scale, step, labels, hscale, hstep, hlabels, hlength⟩ := h
    obtain ⟨line, hat⟩ := hlabels.exists_line
    exact ⟨scale, step, labels, line, hscale, hstep, hat, hlength⟩
  · rintro ⟨scale, step, labels, line, hscale, hstep, hat, hlength⟩ h
    exact hlength (h scale step labels hscale hstep hat.said)

section
variable {items : List Item} {ss : List Statement} {o : Outline}
  (hkeys : (items.map (·.key)).Nodup)
  (hofs : List.Forall₂ (fun item s => s.IsOf item) items ss) (ho : o.IsOf ss)

include hofs in
theorem saidAt_of_firstStated? {α : Type} {f : Fact → Option α} {fact : α → Fact}
    (hf : ∀ g v, f g = some v ↔ g = fact v) {stated : Stated α}
    (h : firstStated? f ss = some stated) : SaidAt items (fact stated.value) stated.line :=
  ((firstStated?_eq_some_iff hofs hf).mp h).saidAt

include hkeys hofs ho

theorem fitsScale_iff_intervalsFit :
    fitsScale o.scale o.intervals.value = true ↔ IntervalsFit items := by
  rw [fitsScale_iff]
  constructor
  · intro h scale step hscale hstep
    obtain rfl := ho.scale_eq hkeys hofs hscale
    exact h step (ho.intervals_eq hkeys hofs hstep)
  · intro h step hstep
    exact h _ _ (said_quantity hofs ho.scale) (hstep ▸ said_step hofs ho)

theorem covers_iff_radiiFit :
    covers (ss.filterMap (·.fact.radiusNumber?)) o.radii.value = true ↔ RadiiFit items := by
  rw [covers_iff]
  simp only [mem_radiusNumbers_iff hofs]
  constructor
  · intro h count hcount
    obtain rfl := ho.radii_eq hkeys hofs hcount
    exact h
  · intro h
    exact h _ (said_quantity hofs ho.value_radii)

theorem covers_iff_entriesFit :
    covers (ss.filterMap (·.fact.entryNumber?)) o.entries.value = true ↔ EntriesFit items := by
  rw [covers_iff]
  simp only [mem_entryNumbers_iff hofs]
  constructor
  · intro h count hcount
    obtain rfl := ho.entries_eq hkeys hofs hcount
    exact h
  · intro h
    exact h _ (said_quantity hofs ho.value_entries)

/-- The labels of the rings are wrong in their number or not at all. -/
theorem ringLabels_eq_error_iff_said (hscale : o.scale + 1 < 10 ^ digitLimit)
    {failure : Failure} :
    ringLabels o.scale o.intervals.value (firstStated? (·.intervalLabels?) ss) = .error failure ↔
      ∃ scale step labels line, Said items (.quantity .scale scale) ∧
        Said items (.intervals (some step)) ∧ SaidAt items (.intervalLabels labels) line ∧
        labels.length ≠ scale / step + 1 ∧
        failure = .problem ⟨.labelCount (scale / step + 1), line⟩ := by
  rw [ringLabels_eq_error_iff hscale]
  have hlabels : ∀ g v, Fact.intervalLabels? g = some v ↔ g = .intervalLabels v :=
    fun _ _ => Fact.intervalLabels?_eq_some_iff
  constructor
  · rintro ⟨step, labels, hstep, hgiven, hlength, rfl⟩
    exact ⟨o.scale, step, labels.value, labels.line, said_quantity hofs ho.scale,
      hstep ▸ said_step hofs ho, saidAt_of_firstStated? hofs hlabels hgiven, hlength, rfl⟩
  · rintro ⟨scale, step, labels, line, hscaleSaid, hstep, hat, hlength, rfl⟩
    obtain rfl := ho.scale_eq hkeys hofs hscaleSaid
    -- the labels that are looked up are these, as they have one line
    cases hgiven : firstStated? (·.intervalLabels?) ss with
    | none => exact absurd hat.said ((firstStated?_eq_none_iff hofs hlabels).mp hgiven _)
    | some stated =>
        have hfound := saidAt_of_firstStated? hofs hlabels hgiven
        obtain ⟨hfact, hline⟩ := hfound.unique hkeys hat rfl rfl
        cases hfact
        exact ⟨step, stated, ho.intervals_eq hkeys hofs hstep, rfl, hlength, by rw [hline]⟩

theorem exists_ringLabels_iff (hscale : o.scale + 1 < 10 ^ digitLimit) :
    (∃ labels, ringLabels o.scale o.intervals.value (firstStated? (·.intervalLabels?) ss) =
      .ok labels) ↔ LabelsFit items := by
  rw [exists_eq_ok_iff, ← not_iff_not, not_labelsFit_iff]
  simp only [ne_eq, ringLabels_eq_error_iff_said hkeys hofs ho hscale, not_forall, not_not]
  constructor
  · rintro ⟨_, scale, step, labels, line, hsc, hst, hat, hlength, _⟩
    exact ⟨scale, step, labels, line, hsc, hst, hat, hlength⟩
  · rintro ⟨scale, step, labels, line, hsc, hst, hat, hlength⟩
    exact ⟨_, scale, step, labels, line, hsc, hst, hat, hlength, rfl⟩

omit ho in
/-- Data that are given once are found where they are given. -/
theorem firstSaid_entryData_iff (hnodup : (dataNumbers ss).Nodup) {n : Nat} {values : List Nat}
    {line : Int} :
    FirstSaid items (.entryData n) values line ↔ SaidAt items (.entryData n values) line := by
  have honce := (nodup_dataNumbers_iff hkeys hofs).mp hnodup
  have hdata : ∀ g v, Fact.entryData? n g = some v ↔ g = .entryData n v :=
    fun _ _ => Fact.entryData?_eq_some_iff
  refine ⟨FirstSaid.saidAt, fun hat => ?_⟩
  cases hfound : firstStated? (·.entryData? n) ss with
  | none => exact absurd hat.said ((firstStated?_eq_none_iff hofs hdata).mp hfound values)
  | some stated =>
      have hfirst := (firstStated?_eq_some_iff hofs hdata).mp hfound
      obtain ⟨x, hx, hline, hxs⟩ := hat
      obtain ⟨y, hy, hyline, hys⟩ := hfirst.saidAt
      obtain rfl := honce x hx y hy n values stated.value hxs hys
      cases hxs.unique hys
      rwa [← hline, hyline]

/-- The problems of an entry, as its look-ups show them. -/
theorem entryProblem_iff (hnodup : (dataNumbers ss).Nodup) {n : Nat} {cause : Cause}
    {line : Int} :
    EntryProblem items n cause line ↔
      (∃ values, lastStated? (·.entryColor? n) ss = none ∧
        firstStated? (·.entryData? n) ss = some ⟨line, values⟩ ∧ cause = .partialEntry) ∨
      (∃ color, lastStated? (·.entryColor? n) ss = some ⟨line, color⟩ ∧
        firstStated? (·.entryData? n) ss = none ∧ cause = .partialEntry) ∨
      ∃ color values, lastStated? (·.entryColor? n) ss = some color ∧
        firstStated? (·.entryData? n) ss = some ⟨line, values⟩ ∧
        values.length ≠ o.radii.value ∧ cause = .dataCount := by
  have hcolor : ∀ g v, Fact.entryColor? n g = some v ↔ g = .entryColor n v :=
    fun _ _ => Fact.entryColor?_eq_some_iff
  have hdata : ∀ g v, Fact.entryData? n g = some v ↔ g = .entryData n v :=
    fun _ _ => Fact.entryData?_eq_some_iff
  have hradii := said_quantity hofs ho.value_radii
  have hat : ∀ {values : List Nat} {l : Int}, SaidAt items (.entryData n values) l ↔
      firstStated? (·.entryData? n) ss = some ⟨l, values⟩ := by
    intro values l
    rw [firstStated?_eq_some_iff hofs hdata,
      firstSaid_entryData_iff hkeys hofs hnodup]
  simp only [lastStated?_eq_none_iff hofs hcolor,
    lastStated?_eq_some_iff hofs hcolor, firstStated?_eq_none_iff hofs hdata, ← hat]
  constructor
  · intro h
    cases h with
    | noColor hvalues hnone => exact Or.inl ⟨_, hnone, hvalues, rfl⟩
    | noData hlast hnone => exact Or.inr (Or.inl ⟨_, hlast, hnone, rfl⟩)
    | dataCount hsaid hvalues hcount hlength =>
        obtain rfl := ho.radii_eq hkeys hofs hcount
        obtain ⟨s, hs, hfact⟩ := (said_iff hofs).mp hsaid
        obtain ⟨color, hlast⟩ := exists_lastStated? hs ((hcolor _ _).mpr hfact)
        rw [lastStated?_eq_some_iff hofs hcolor] at hlast
        exact Or.inr (Or.inr ⟨color, _, hlast, hvalues, hlength, rfl⟩)
  · rintro (⟨values, hnone, hvalues, rfl⟩ | ⟨color, hlast, hnone, rfl⟩ |
      ⟨color, values, hlast, hvalues, hlength, rfl⟩)
    · exact .noColor hvalues hnone
    · exact .noData hlast hnone
    · exact .dataCount hlast.saidAt.said hvalues hradii hlength

/-- An entry that is spoken of fails by one of its problems. -/
theorem readEntry_eq_error_iff (hnodup : (dataNumbers ss).Nodup) {n : Nat}
    (hn : (∃ color, Said items (.entryColor n color)) ∨
      ∃ values, Said items (.entryData n values)) {failure : Failure} :
    readEntry ss o.entries o.radii n = .error failure ↔
      ∃ cause line, EntryProblem items n cause line ∧ failure = .problem ⟨cause, line⟩ := by
  simp only [entryProblem_iff hkeys hofs ho hnodup]
  unfold readEntry
  cases hlast : lastStated? (·.entryColor? n) ss with
  | none =>
      cases hfirst : firstStated? (·.entryData? n) ss with
      | none =>
          -- then neither is said of the entry
          rw [lastStated?_eq_none_iff hofs fun _ _ => Fact.entryColor?_eq_some_iff] at hlast
          rw [firstStated?_eq_none_iff hofs fun _ _ => Fact.entryData?_eq_some_iff]
            at hfirst
          rcases hn with ⟨color, hsaid⟩ | ⟨values, hsaid⟩
          · exact absurd hsaid (hlast color)
          · exact absurd hsaid (hfirst values)
      | some data =>
          obtain ⟨line, values⟩ := data
          simp
  | some color =>
      cases hfirst : firstStated? (·.entryData? n) ss with
      | none =>
          obtain ⟨line, color⟩ := color
          simp
      | some data =>
          obtain ⟨line, values⟩ := data
          simp only
          split <;> rename_i hlength <;> simp [hlength]

theorem exists_readEntry_iff (hnodup : (dataNumbers ss).Nodup) {n : Nat}
    (hn : (∃ color, Said items (.entryColor n color)) ∨
      ∃ values, Said items (.entryData n values)) :
    (∃ e, readEntry ss o.entries o.radii n = .ok e) ↔
      ∀ cause line, ¬ EntryProblem items n cause line := by
  simp only [exists_eq_ok_iff, ne_eq, readEntry_eq_error_iff hkeys hofs ho hnodup hn,
    not_exists, not_and]
  exact ⟨fun h cause line hproblem => h _ cause line hproblem rfl,
    fun h _ cause line hproblem _ => h cause line hproblem⟩

omit ho in
/-- Statements of items without a mistake fail at the first missing property, or else at the
first thing that does not fit. -/
theorem ofStatements_eq_error_iff_problem (hnodup : (dataNumbers ss).Nodup)
    (hscale : ∀ scale, Said items (.quantity .scale scale) → scale + 1 < 10 ^ digitLimit)
    {failure : Failure} :
    Chart.ofStatements ss = .error failure ↔
      (∃ p, firstMissing? items = some p ∧ failure = .problem ⟨.missingProperty p, lastLine ss⟩) ∨
      firstMissing? items = none ∧
        ∃ cause line, CrossProblem items cause line ∧ failure = .problem ⟨cause, line⟩ := by
  rw [Chart.ofStatements_eq_error_iff, find?_isUnstated_eq hofs]
  refine or_congr_right ?_
  have hmissing : firstMissing? items = none ↔ ∃ o : Outline, o.IsOf ss := by
    rw [← find?_isUnstated_eq hofs, List.find?_eq_none, exists_outline_iff]
    simp [isUnstated]
  rw [hmissing, ← exists_and_right]
  refine exists_congr fun o => and_congr_right fun ho => ?_
  rw [Outline.checkIntervals_eq_error_iff, radiusLabels_eq_error_iff, checkEntries_eq_error_iff,
    fitsScale_iff_intervalsFit hkeys hofs ho, covers_iff_radiiFit hkeys hofs ho,
    covers_iff_entriesFit hkeys hofs ho, mapM_range'_eq_error_iff]
  have hscaleLt := hscale _ (said_quantity hofs ho.scale)
  have hlabels := @ringLabels_eq_error_iff_said items ss o hkeys hofs ho hscaleLt
  rw [exists_ringLabels_iff hkeys hofs ho hscaleLt]
  have hcount := said_quantity hofs ho.value_entries
  have hspoken : EntriesFit items → ∀ {n : Nat}, 1 ≤ n → n ≤ o.entries.value →
      (∃ color, Said items (.entryColor n color)) ∨ ∃ values, Said items (.entryData n values) :=
    fun hfit n hpos hle => (hfit _ hcount n).mpr ⟨hpos, hle⟩
  have hatIntervals := saidAt_of_firstStated? hofs
    (fun _ _ => Fact.intervals?_eq_some_iff) ho.intervals
  have hatRadii := saidAt_of_firstStated? hofs
    (fun _ _ => Fact.quantity?_eq_some_iff) ho.radii
  have hatEntries := saidAt_of_firstStated? hofs
    (fun _ _ => Fact.quantity?_eq_some_iff) ho.entries
  constructor
  · rintro (⟨hfit, rfl⟩ | ⟨hintervals, ⟨hfit, rfl⟩ | ⟨hradii, ⟨hfit, rfl⟩ | ⟨hentries, h⟩⟩⟩)
    · exact ⟨_, _, .intervals hfit hatIntervals, rfl⟩
    · exact ⟨_, _, .radii hintervals hfit hatRadii, rfl⟩
    · exact ⟨_, _, .entries hintervals hradii hfit hatEntries, rfl⟩
    · rcases h with h | ⟨hlabelsFit, n, hpos, hle, hbefore, hn⟩
      · obtain ⟨scale, step, labels, line, hsc, hst, hat, hlength, rfl⟩ := hlabels.mp h
        exact ⟨_, _, .labels hintervals hradii hentries hsc hst hat hlength, rfl⟩
      · obtain ⟨cause, line, hproblem, rfl⟩ :=
          (readEntry_eq_error_iff hkeys hofs ho hnodup (hspoken hentries hpos hle)).mp hn
        refine ⟨cause, line, .entry hintervals hradii hentries hlabelsFit hcount hpos hle ?_
          hproblem, rfl⟩
        intro m hm hlt
        exact (exists_readEntry_iff hkeys hofs ho hnodup
          (hspoken hentries hm (by omega))).mp (hbefore m hm hlt)
  · rintro ⟨cause, line, h, rfl⟩
    cases h with
    | intervals hfit hat =>
        rw [(hat.unique hkeys hatIntervals rfl rfl).2]
        exact Or.inl ⟨hfit, rfl⟩
    | radii hintervals hfit hat =>
        rw [(hat.unique hkeys hatRadii rfl rfl).2]
        exact Or.inr ⟨hintervals, Or.inl ⟨hfit, rfl⟩⟩
    | entries hintervals hradii hfit hat =>
        rw [(hat.unique hkeys hatEntries rfl rfl).2]
        exact Or.inr ⟨hintervals, Or.inr ⟨hradii, Or.inl ⟨hfit, rfl⟩⟩⟩
    | labels hintervals hradii hentries hsc hst hat hlength =>
        exact Or.inr ⟨hintervals, Or.inr ⟨hradii, Or.inr ⟨hentries,
          Or.inl (hlabels.mpr ⟨_, _, _, _, hsc, hst, hat, hlength, rfl⟩)⟩⟩⟩
    | @entry n count _ _ hintervals hradii hentries hlabelsFit hsaid hpos hle hearlier hproblem =>
        obtain rfl := ho.entries_eq hkeys hofs hsaid
        refine Or.inr ⟨hintervals, Or.inr ⟨hradii, Or.inr ⟨hentries, Or.inr ⟨hlabelsFit, n, hpos,
          hle, ?_, ?_⟩⟩⟩⟩
        · intro m hm hlt
          exact (exists_readEntry_iff hkeys hofs ho hnodup
            (hspoken hentries hm (by omega))).mpr (hearlier m hm hlt)
        · exact (readEntry_eq_error_iff hkeys hofs ho hnodup
            (hspoken hentries hpos hle)).mpr ⟨_, _, hproblem, rfl⟩

end

end RadarChart
