import RadarChart.Proofs.Chart.Language

/-!
# Looking things up in items

What the statements of items say first or last is said by the items: by the
first one that speaks of the thing, or by the last one. What is found has the
line of that item.
-/

namespace RadarChart

/-- The first item that says one of the facts is at the line and says it of the value. -/
def FirstSaid {α : Type} (items : List Item) (fact : α → Fact) (value : α) (line : Int) : Prop :=
  ∃ before item after, items = before ++ item :: after ∧ item.line = line ∧
    item.Says (fact value) ∧ ∀ x ∈ before, ∀ v, ¬ x.Says (fact v)

/-- The last item that says one of the facts is at the line and says it of the value. -/
def LastSaid {α : Type} (items : List Item) (fact : α → Fact) (value : α) (line : Int) : Prop :=
  ∃ before item after, items = before ++ item :: after ∧ item.line = line ∧
    item.Says (fact value) ∧ ∀ x ∈ after, ∀ v, ¬ x.Says (fact v)

theorem FirstSaid.saidAt {α : Type} {items : List Item} {fact : α → Fact} {value : α}
    {line : Int} (h : FirstSaid items fact value line) : SaidAt items (fact value) line := by
  obtain ⟨before, item, after, rfl, hline, hsaid, _⟩ := h
  exact ⟨item, List.mem_append_right _ List.mem_cons_self, hline, hsaid⟩

theorem LastSaid.saidAt {α : Type} {items : List Item} {fact : α → Fact} {value : α}
    {line : Int} (h : LastSaid items fact value line) : SaidAt items (fact value) line := by
  obtain ⟨before, item, after, rfl, hline, hsaid, _⟩ := h
  exact ⟨item, List.mem_append_right _ List.mem_cons_self, hline, hsaid⟩

theorem firstSaid_reverse_iff {α : Type} {items : List Item} {fact : α → Fact} {value : α}
    {line : Int} : FirstSaid items.reverse fact value line ↔ LastSaid items fact value line := by
  constructor
  · rintro ⟨before, item, after, hitems, hline, hsaid, hbefore⟩
    refine ⟨after.reverse, item, before.reverse, ?_, hline, hsaid, ?_⟩
    · rw [← List.reverse_reverse items, hitems]
      simp
    · exact fun x hx => hbefore x (List.mem_reverse.mp hx)
  · rintro ⟨before, item, after, rfl, hline, hsaid, hafter⟩
    refine ⟨after.reverse, item, before.reverse, by simp, hline, hsaid, ?_⟩
    exact fun x hx => hafter x (List.mem_reverse.mp hx)

section
variable {items : List Item} {ss : List Statement}
  (hofs : List.Forall₂ (fun item s => s.IsOf item) items ss)
  {α : Type} {f : Fact → Option α} {fact : α → Fact} (hf : ∀ g v, f g = some v ↔ g = fact v)

include hofs hf

theorem firstStated?_eq_none_iff :
    firstStated? f ss = none ↔ ∀ v, ¬ Said items (fact v) := by
  simp only [firstStated?, List.findSome?_eq_none_iff, Statement.stated?, Option.map_eq_none_iff,
    said_iff hofs]
  constructor
  · rintro h v ⟨s, hs, hfact⟩
    have hnone := h s hs
    rw [(hf _ v).mpr hfact] at hnone
    cases hnone
  · intro h s hs
    cases hfact : f s.fact with
    | none => rfl
    | some v => exact absurd ⟨s, hs, (hf _ v).mp hfact⟩ (h v)

theorem firstStated?_eq_some_iff {value : α} {line : Int} :
    firstStated? f ss = some ⟨line, value⟩ ↔ FirstSaid items fact value line := by
  induction hofs with
  | nil => simp [firstStated?, FirstSaid]
  | @cons item s items ss hof hofs ih =>
      have hsaid : ∀ v, item.Says (fact v) ↔ f s.fact = some v := by
        intro v
        rw [hf]
        exact ⟨fun h => hof.2.unique h, fun h => h ▸ hof.2⟩
      rw [firstStated?, List.findSome?_cons, Statement.stated?]
      cases hfact : f s.fact with
      | some v =>
          -- the first item speaks of the thing, so the search ends there
          constructor
          · rintro h
            obtain ⟨rfl, rfl⟩ := Stated.mk.inj (Option.some.inj h)
            exact ⟨[], item, items, rfl, hof.1.symm, (hsaid v).mpr hfact, by simp⟩
          · rintro ⟨before, x, after, hsplit, rfl, hx, hbefore⟩
            cases before with
            | nil =>
                obtain ⟨rfl, rfl⟩ := List.cons.inj hsplit
                rw [hsaid, hfact] at hx
                rw [Option.some.inj hx, ← hof.1]
                rfl
            | cons y before =>
                obtain ⟨rfl, rfl⟩ := List.cons.inj hsplit
                exact absurd ((hsaid v).mpr hfact) (hbefore _ List.mem_cons_self v)
      | none =>
          have hsilent : ∀ v, ¬ item.Says (fact v) := by
            intro v hv
            rw [hsaid, hfact] at hv
            cases hv
          show firstStated? f ss = _ ↔ _
          rw [ih]
          constructor
          · rintro ⟨before, x, after, rfl, hline, hx, hbefore⟩
            exact ⟨item :: before, x, after, rfl, hline, hx,
              List.forall_mem_cons.mpr ⟨hsilent, hbefore⟩⟩
          · rintro ⟨before, x, after, hsplit, hline, hx, hbefore⟩
            cases before with
            | nil =>
                obtain ⟨rfl, rfl⟩ := List.cons.inj hsplit
                exact absurd hx (hsilent value)
            | cons y before =>
                obtain ⟨rfl, rfl⟩ := List.cons.inj hsplit
                exact ⟨before, x, after, rfl, hline, hx, (List.forall_mem_cons.mp hbefore).2⟩

theorem lastStated?_eq_none_iff :
    lastStated? f ss = none ↔ ∀ v, ¬ Said items (fact v) := by
  rw [lastStated?, firstStated?_eq_none_iff (List.forall₂_reverse_iff.mpr hofs) hf]
  simp [Said]

theorem lastStated?_eq_some_iff {value : α} {line : Int} :
    lastStated? f ss = some ⟨line, value⟩ ↔ LastSaid items fact value line := by
  rw [lastStated?, firstStated?_eq_some_iff (List.forall₂_reverse_iff.mpr hofs) hf,
    firstSaid_reverse_iff]

end

end RadarChart
