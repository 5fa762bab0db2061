import RadarChart.Proofs.Document.FullLine

/-!
# Problems in one line

A problem is told in one line. Only a problem with an unknown key or an
unknown characteristic repeats something of the document, and that is a key or
a part of one, which are made of words.
-/

namespace RadarChart

open Text

variable {α β : Type}

/-- What a cause repeats of the document. -/
def Cause.repeated? : Cause → Option String
  | .unknownProperty key => some key
  | .unknownCharacteristic name => some name
  | _ => none

theorem oneLine_toDigits (n : Nat) : OneLine (Nat.toDigits 10 n) := by
  have hdigits : ∀ c ∈ Nat.toDigits 10 n, c.isDigit = true := fun c =>
    Nat.isDigit_of_mem_toDigits (by decide) (by decide)
  exact ⟨fun h => absurd (hdigits _ h) (by decide), fun h => absurd (hdigits _ h) (by decide)⟩

theorem oneLine_toString (n : Nat) : OneLine (toString n).toList := by
  rw [Nat.toString_eq_repr, Nat.toList_repr]
  exact oneLine_toDigits n

theorem oneLine_toString_int (n : Int) : OneLine (toString n).toList := by
  cases n with
  | ofNat n =>
      have htext : (toString (Int.ofNat n)).toList = Nat.toDigits 10 n := by
        simp [toString, Int.repr, Nat.repr]
      rw [htext]
      exact oneLine_toDigits n
  | negSucc n =>
      have htext : (toString (Int.negSucc n)).toList = ['-'] ++ Nat.toDigits 10 (n + 1) := by
        simp [toString, Int.repr, Nat.repr]
      rw [htext]
      exact OneLine.append (by decide) (oneLine_toDigits _)

theorem oneLine_append {s t : String} (hs : OneLine s.toList) (ht : OneLine t.toList) :
    OneLine (s ++ t).toList := by
  rw [String.toList_append]
  exact hs.append ht

theorem Property.oneLine_name (p : Property) : OneLine p.name.toList := by
  have hall : ∀ p ∈ Property.all, OneLine p.name.toList := by decide
  exact hall p p.mem_all

theorem Cause.oneLine_message {c : Cause} (h : ∀ text ∈ c.repeated?, OneLine text.toList) :
    OneLine c.message.toList := by
  cases c with
  | unknownProperty key =>
      exact oneLine_append (oneLine_append (by decide) (h key rfl)) (by decide)
  | unknownCharacteristic name =>
      exact oneLine_append (oneLine_append (by decide) (h name rfl)) (by decide)
  | improperValue p =>
      exact oneLine_append (oneLine_append (by decide) p.oneLine_name) (by decide)
  | belowMinimum p minimum =>
      exact oneLine_append (oneLine_append (oneLine_append (by decide) p.oneLine_name) (by decide))
        (oneLine_toString minimum)
  | invalidSpec what => cases what <;> decide
  | specOutOfRange what => cases what <;> decide
  | repeatedData entry =>
      exact oneLine_append (oneLine_append (by decide) (oneLine_toString entry)) (by decide)
  | notANumber position =>
      exact oneLine_append (oneLine_append (by decide) (oneLine_toString position)) (by decide)
  | missingProperty p =>
      exact oneLine_append (oneLine_append (by decide) p.oneLine_name) (by decide)
  | labelCount expected =>
      exact oneLine_append (oneLine_append (by decide) (oneLine_toString expected)) (by decide)
  | _ => decide

theorem Problem.oneLine_message {p : Problem}
    (h : ∀ text ∈ p.cause.repeated?, OneLine text.toList) : OneLine p.message.toList := by
  refine oneLine_append (oneLine_append ?_ (by decide)) (oneLine_toString_int p.line)
  exact Cause.oneLine_message h

/-- The reading is rejected only with problems that repeat nothing but single lines. -/
def RepeatsLines (x : Except Failure α) : Prop :=
  ∀ p, x = .error (.problem p) → ∀ text ∈ p.cause.repeated?, OneLine text.toList

theorem repeatsLines_ok (a : α) : RepeatsLines (.ok a : Except Failure α) := by
  rintro p h
  cases h

theorem repeatsLines_orFault (x : Except Fault α) : RepeatsLines (orFault x) := by
  rintro p h
  obtain ⟨f, _, hf⟩ := orFault_eq_error_iff.mp h
  cases hf

theorem repeatsLines_reject {cause : Cause} (h : cause.repeated? = none) (line : Int) :
    RepeatsLines (reject cause line : Except Failure α) := by
  rintro p hp text htext
  cases hp
  rw [h] at htext
  cases htext

theorem RepeatsLines.bind {x : Except Failure α} {f : α → Except Failure β} (hx : RepeatsLines x)
    (hf : ∀ a, RepeatsLines (f a)) : RepeatsLines (x >>= f) := by
  intro p h
  rcases bind_eq_error_iff.mp h with h | ⟨a, _, h⟩
  · exact hx p h
  · exact hf a p h

theorem repeatsLines_mapM {f : α → Except Failure β} (hf : ∀ a, RepeatsLines (f a))
    (xs : List α) : RepeatsLines (xs.mapM f) := by
  intro p h
  obtain ⟨_, x, _, _, _, hx⟩ := mapM_eq_error_iff.mp h
  exact hf x p hx

/-! ## Values -/

theorem repeatsLines_pure (a : α) : RepeatsLines (pure a : Except Failure α) :=
  repeatsLines_ok a

/-- What is not accepted is rejected for a cause that repeats nothing. -/
theorem repeatsLines_ite {q : Prop} [Decidable q] (a : α) {cause : Cause}
    (hcause : cause.repeated? = none) (line : Int) :
    RepeatsLines (if q then pure a else reject cause line : Except Failure α) := by
  split
  · exact repeatsLines_pure a
  · exact repeatsLines_reject hcause line

theorem repeatsLines_readNumber (what : Numbered) (cs : List Char) (line : Int) :
    RepeatsLines (readNumber what cs line) := by
  refine (repeatsLines_orFault _).bind fun number? => ?_
  split
  · exact repeatsLines_reject rfl line
  · exact repeatsLines_reject rfl line
  · exact repeatsLines_pure _

theorem repeatsLines_readAtLeast (minimum : Nat) (p : Property) (n : Nat) (line : Int) :
    RepeatsLines (readAtLeast minimum p n line) :=
  repeatsLines_ite _ rfl line

theorem Property.repeatsLines_readValue (p : Property) (value : String) (line : Int) :
    RepeatsLines (p.readValue value line) := by
  cases p with
  | size =>
      show RepeatsLines (readSize _ _)
      unfold readSize
      split
      · refine (repeatsLines_orFault _).bind fun _ => (repeatsLines_orFault _).bind fun _ => ?_
        exact repeatsLines_ite _ rfl line
      · exact repeatsLines_reject rfl line
  | quantity q =>
      refine (repeatsLines_orFault _).bind fun number? => ?_
      split
      · exact repeatsLines_reject rfl line
      · exact (repeatsLines_readAtLeast _ _ _ _).bind fun _ => repeatsLines_pure _
  | paint => exact repeatsLines_pure _
  | flag f =>
      show RepeatsLines (readFlag _ _ _)
      unfold readFlag
      split
      · exact repeatsLines_pure _
      · exact repeatsLines_pure _
      · exact repeatsLines_reject rfl line
  | intervals =>
      refine (repeatsLines_orFault _).bind fun number? => ?_
      split
      · exact repeatsLines_ite _ rfl line
      · exact (repeatsLines_readAtLeast _ _ _ _).bind fun _ => repeatsLines_pure _
  | top =>
      show RepeatsLines (readTop _ _)
      unfold readTop
      split
      · exact repeatsLines_pure _
      · exact repeatsLines_pure _
      · exact repeatsLines_pure _
      · exact repeatsLines_reject rfl line
  | intervalLabels => exact repeatsLines_pure _

theorem Target.repeatsLines_readValue (t : Target) (withData : List Nat) (value : String)
    (line : Int) : RepeatsLines (t.readValue withData value line) := by
  cases t with
  | property p => exact p.repeatsLines_readValue value line
  | radius => exact repeatsLines_pure _
  | entryColor => exact repeatsLines_pure _
  | entryData n =>
      show RepeatsLines (if n ∈ withData then _ else _)
      split
      · exact repeatsLines_reject rfl line
      · refine RepeatsLines.bind ?_ fun _ => repeatsLines_pure _
        refine (repeatsLines_mapM (fun _ => repeatsLines_orFault _) _).bind fun _ => ?_
        split
        · exact repeatsLines_pure _
        · exact repeatsLines_reject rfl line

/-! ## Keys -/

theorem subset_of_mem_splitAt {sep : Char} {cs p : List Char} (h : p ∈ splitAt sep cs) :
    p ⊆ cs := by
  induction cs generalizing p with
  | nil =>
      rw [splitAt, List.mem_singleton] at h
      exact h ▸ List.Subset.refl _
  | cons c cs ih =>
      rw [splitAt] at h
      split at h
      · rcases List.mem_cons.mp h with rfl | h
        · exact List.nil_subset _
        · exact List.subset_cons_of_subset c (ih h)
      · split at h
        · rename_i hnil
          exact absurd hnil (splitAt_ne_nil sep cs)
        · rename_i q qs hqs
          rw [hqs] at ih
          rcases List.mem_cons.mp h with rfl | h
          · exact List.cons_subset_cons c (ih List.mem_cons_self)
          · exact List.subset_cons_of_subset c (ih (List.mem_cons_of_mem q h))

theorem OneLine.of_subset {as bs : List Char} (h : OneLine bs) (hsubset : as ⊆ bs) : OneLine as :=
  ⟨fun hfeed => h.1 (hsubset hfeed), fun hreturn => h.2 (hsubset hreturn)⟩

/-- What is said to be unknown is the key or a part of it. -/
theorem repeatsLines_read {key : String} (hkey : OneLine key.toList) (line : Int) :
    RepeatsLines (Target.read key line) := by
  have hpart : ∀ part ∈ (splitAt ' ' key.toList).map String.ofList, OneLine part.toList := by
    rw [List.forall_mem_map]
    intro piece hpiece
    rw [String.toList_ofList]
    exact hkey.of_subset (subset_of_mem_splitAt hpiece)
  unfold Target.read
  split
  · exact repeatsLines_pure _
  · split
    · split
      · exact (repeatsLines_readNumber _ _ _).bind fun _ => repeatsLines_pure _
      · exact repeatsLines_reject rfl line
    · rename_i number rest hparts
      split
      · rename_i characteristic
        refine (repeatsLines_readNumber _ _ _).bind fun n => ?_
        split
        · exact repeatsLines_pure _
        · exact repeatsLines_pure _
        · rintro p hp text htext
          cases hp
          obtain rfl := Option.some.inj htext
          exact hpart _ (by rw [hparts]; simp)
      · exact repeatsLines_reject rfl line
    · rintro p hp text htext
      cases hp
      obtain rfl := Option.some.inj htext
      exact hkey

/-! ## Charts -/

theorem repeatsLines_readStatementsFrom {items : List Item}
    (h : ∀ item ∈ items, OneLine item.key.toList) (withData : List Nat) :
    RepeatsLines (readStatementsFrom withData items) := by
  induction items generalizing withData with
  | nil => exact repeatsLines_pure _
  | cons item items ih =>
      obtain ⟨hitem, hitems⟩ := List.forall_mem_cons.mp h
      have hread : RepeatsLines (item.read withData) :=
        (repeatsLines_read hitem _).bind fun _ =>
          (Target.repeatsLines_readValue _ _ _ _).bind fun _ => repeatsLines_pure _
      exact hread.bind fun _ => (ih hitems _).bind fun _ => repeatsLines_pure _

theorem repeatsLines_required (p : Property) (f : Fact → Option α) (ss : List Statement) :
    RepeatsLines (required p f ss) := by
  unfold required
  split
  · exact repeatsLines_pure _
  · exact repeatsLines_reject rfl _

theorem Outline.repeatsLines_ofStatements (ss : List Statement) :
    RepeatsLines (Outline.ofStatements ss) := by
  unfold Outline.ofStatements
  iterate 14 refine RepeatsLines.bind (repeatsLines_required _ _ _) fun _ => ?_
  exact repeatsLines_pure _

theorem repeatsLines_ringLabels (scale : Nat) (intervals : Option Nat)
    (given : Option (Stated (List String))) :
    RepeatsLines (ringLabels scale intervals given) := by
  unfold ringLabels
  split
  · exact repeatsLines_pure _
  · exact repeatsLines_pure _
  · exact repeatsLines_pure _
  · exact (repeatsLines_orFault _).bind fun _ => repeatsLines_ite _ rfl _

theorem repeatsLines_readEntry (ss : List Statement) (entries radii : Stated Nat) (number : Nat) :
    RepeatsLines (readEntry ss entries radii number) := by
  unfold readEntry
  split
  · exact repeatsLines_reject rfl _
  · exact repeatsLines_reject rfl _
  · exact repeatsLines_reject rfl _
  · exact repeatsLines_ite _ rfl _

theorem Chart.repeatsLines_ofStatements (ss : List Statement) :
    RepeatsLines (Chart.ofStatements ss) := by
  refine (Outline.repeatsLines_ofStatements ss).bind fun o => ?_
  refine RepeatsLines.bind (repeatsLines_ite _ rfl _) fun _ => ?_
  refine RepeatsLines.bind (repeatsLines_ite _ rfl _) fun radii => ?_
  refine RepeatsLines.bind (repeatsLines_ite _ rfl _) fun _ => ?_
  refine (repeatsLines_ringLabels _ _ _).bind fun labels => ?_
  have hentry := repeatsLines_readEntry ss o.entries o.radii
  exact (repeatsLines_mapM hentry _).bind fun _ => repeatsLines_pure _

/-- A document that is rejected is rejected in one line. -/
theorem Chart.oneLine_message_of_parse {text : String} {p : Problem}
    (h : Chart.parse text = .error (.problem p)) : OneLine p.message.toList := by
  apply Problem.oneLine_message
  rw [Chart.parse, bind_eq_error_iff] at h
  rcases h with hread | ⟨items, hread, hitems⟩
  · obtain ⟨l, _, hl⟩ := of_readItems_eq_error hread
    cases hl
    have hnone : l.problem.cause.repeated? = none := by
      unfold Line.problem
      split <;> rfl
    rw [hnone]
    exact fun _ => nofun
  · rw [readItems, orProblem_eq_ok_iff] at hread
    have hkeys : ∀ item ∈ items, OneLine item.key.toList := by
      intro item hitem
      obtain ⟨path, hpath, _, _, hkey, _⟩ := exists_path_of_resolve hread hitem
      rw [hkey]
      exact oneLine_joinWords fun w hw => (isWord_of_mem_pathsFrom hpath w hw).1
    exact (repeatsLines_readStatementsFrom hkeys []).bind
      Chart.repeatsLines_ofStatements p hitems

end RadarChart
