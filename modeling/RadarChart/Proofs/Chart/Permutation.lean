import Mathlib.Data.List.Forall2
import RadarChart.Proofs.Chart.Meaning

/-!
# The order of the items

Items that are put in another order are accepted as before. What is found for a
property does not change, for a property has one key, and neither do the data
of an entry, for a second item that gives them is refused. The label of a
radius and the color of an entry may depend on the order, but only where two
keys name them.
-/

namespace RadarChart

open Text

/-! ## Statements in another order -/

/-- Items in another order make the same statements in another order. -/
theorem exists_readStatements_of_perm {items others : List Item} {ss : List Statement}
    (hperm : items.Perm others) (h : readStatements items = .ok ss) :
    ∃ us, readStatements others = .ok us ∧ us.Perm ss := by
  obtain ⟨hread, hnodup, _⟩ := readStatementsFrom_eq_ok_iff.mp h
  obtain ⟨us, hread', hss⟩ := List.perm_comp_forall₂ hperm.symm hread
  refine ⟨us, readStatementsFrom_eq_ok_iff.mpr ⟨hread', ?_, fun _ _ => List.not_mem_nil⟩, hss⟩
  exact (hss.filterMap _).nodup_iff.mpr hnodup

/-- What one statement only says is found wherever the statement stands. -/
theorem firstStated?_of_unique {α : Type} {f : Fact → Option α} {ss : List Statement}
    {s : Statement} {value : α} (hs : s ∈ ss) (hvalue : f s.fact = some value)
    (hunique : ∀ u ∈ ss, (f u.fact).isSome → u = s) :
    firstStated? f ss = some ⟨s.line, value⟩ := by
  obtain ⟨stated, hstated⟩ := exists_firstStated? hs hvalue
  obtain ⟨u, hu, hline, hfound⟩ := exists_of_firstStated? hstated
  obtain rfl := hunique u hu (by rw [hfound]; rfl)
  rw [hstated, hline, Option.some.inj (hvalue.symm.trans hfound)]

section
variable {items : List Item} {ss us : List Statement} (hkeys : (items.map (·.key)).Nodup)
  (hofs : List.Forall₂ (fun item s => s.IsOf item) items ss) (hss : us.Perm ss)

include hkeys hofs hss

/-- What is said of a property, and its line, are found in any order. -/
theorem firstStated?_eq_of_perm {α : Type} {f : Fact → Option α} {p : Property}
    (hf : ∀ g, (f g).isSome ↔ g.target = .property p) : firstStated? f us = firstStated? f ss := by
  cases hfound : firstStated? f ss with
  | none =>
      rw [firstStated?, List.findSome?_eq_none_iff] at hfound ⊢
      exact fun u hu => hfound u (hss.mem_iff.mp hu)
  | some stated =>
      obtain ⟨s, hs, hline, hvalue⟩ := exists_of_firstStated? hfound
      have hsaid : ∀ {u}, u ∈ ss → SaidAt items u.fact u.line := by
        intro u hu
        obtain ⟨item, hitem, hof⟩ := exists_left_of_forall₂ hofs hu
        exact ⟨item, hitem, hof.1.symm, hof.2⟩
      have hunique : ∀ u ∈ us, (f u.fact).isSome → u = s := by
        intro u hu hfu
        obtain ⟨hfact, hlines⟩ := (hsaid (hss.mem_iff.mp hu)).unique hkeys (hsaid hs)
          ((hf _).mp hfu) ((hf _).mp (by rw [hvalue]; rfl))
        cases u
        cases s
        exact (Statement.mk.injEq _ _ _ _).mpr ⟨hlines, hfact⟩
      rw [firstStated?_of_unique (hss.mem_iff.mpr hs) hvalue hunique, hline]

/-- The rings have the same values in any order. -/
theorem Outline.IsOf.rings_of_perm {o o' : Outline} (ho : o.IsOf ss) (ho' : o'.IsOf us) :
    o'.scale = o.scale ∧ o'.intervals = o.intervals := by
  have hf : ∀ g : Fact, (g.quantity? .scale).isSome ↔ g.target = .property (.quantity .scale) :=
    fun _ => Fact.isSome_quantity?
  have hscale := ho'.scale
  rw [firstValue?, firstStated?_eq_of_perm hkeys hofs hss hf, ← firstValue?, ho.scale] at hscale
  have hintervals := ho'.intervals
  rw [firstStated?_eq_of_perm hkeys hofs hss fun _ => Fact.isSome_intervals?,
    ho.intervals] at hintervals
  exact ⟨(Option.some.inj hscale).symm, (Option.some.inj hintervals).symm⟩

end

/-! ## Acceptance -/

section
variable {items others : List Item} (hperm : items.Perm others)

include hperm

theorem said_iff_of_perm {fact : Fact} : Said others fact ↔ Said items fact := by
  simp only [Said, hperm.mem_iff]

theorem Accepted.perm (h : Accepted items) : Accepted others := by
  constructor
  · simpa only [hperm.mem_iff] using h.forms
  · simpa only [hperm.mem_iff] using h.required
  · simpa only [said_iff_of_perm hperm] using h.intervals
  · simpa only [said_iff_of_perm hperm] using h.radii
  · simpa only [said_iff_of_perm hperm] using h.colors
  · simpa only [said_iff_of_perm hperm] using h.data
  · simpa only [hperm.mem_iff] using h.dataOnce
  · simpa only [said_iff_of_perm hperm] using h.dataCount
  · simpa only [said_iff_of_perm hperm] using h.labels

theorem exists_ofItems_of_perm (hkeys : (items.map (·.key)).Nodup) {c : Chart}
    (h : Chart.ofItems items = .ok c) : ∃ d, Chart.ofItems others = .ok d := by
  simp only [Chart.ofItems, bind_eq_ok_iff] at h
  obtain ⟨ss, hread, hchart⟩ := h
  obtain ⟨us, hread', hss⟩ := exists_readStatements_of_perm hperm hread
  obtain ⟨hofs, hnodup, _⟩ := forall₂_isOf_of_readStatementsFrom hread
  obtain ⟨hofs', _⟩ := forall₂_isOf_of_readStatementsFrom hread'
  have haccepted : Accepted others := (accepted_of_ofStatements hkeys hofs hnodup hchart).perm hperm
  obtain ⟨o, _, labels, _, ho, _, _, _, hlabels, _⟩ := Chart.ofStatements_eq_ok_iff.mp hchart
  obtain ⟨o', ho'⟩ := haccepted.exists_outline hofs'
  -- numerals have no bound here, so that the rings are labelled is carried over as it is
  obtain ⟨hscale, hintervals⟩ := ho.rings_of_perm hkeys hofs hss ho'
  rw [← hscale, ← hintervals, ← firstStated?_eq_of_perm hkeys hofs hss
    fun _ => Fact.isSome_intervalLabels?] at hlabels
  obtain ⟨d, hd⟩ := haccepted.exists_ofStatements hofs' ho' hlabels
  exact ⟨d, bind_eq_ok_iff.mpr ⟨us, hread', hd⟩⟩

end

/-! ## Meaning -/

/-- No two keys name the target. -/
def NamedOnce (items : List Item) (t : Target) : Prop :=
  ∀ x ∈ items, ∀ y ∈ items, t.Key x.key → t.Key y.key → x.key = y.key

/-- Keys name different targets where they are read differently. -/
theorem namedOnce_of_read {items : List Item} {t : Target}
    (hdigits : ∀ item ∈ items, DigitsWithin digitLimit item.key.toList)
    (hread : ∀ x ∈ items, ∀ y ∈ items, Target.read x.key 0 = Target.read y.key 0 → x.key = y.key) :
    NamedOnce items t := by
  intro x hx y hy hxkey hykey
  apply hread x hx y hy
  rw [Target.read_of_key hxkey (hdigits x hx), Target.read_of_key hykey (hdigits y hy)]

section
variable {items : List Item} {t : Target} {v : String}

theorem OnlyNamed.lastNamed (h : OnlyNamed items t v) : LastNamed items t v := by
  obtain ⟨before, item, after, hitems, hkey, hvalue, hothers⟩ := h
  exact ⟨before, item, after, hitems, hkey, hvalue,
    fun x hx => hothers x (List.mem_append_right _ hx)⟩

section
variable (hkeys : (items.map (·.key)).Nodup) (honce : NamedOnce items t)

include hkeys honce

/-- An item that names what no other key names is the only one. -/
theorem onlyNamed_of_mem {item : Item} (hitem : item ∈ items) (hkey : t.Key item.key)
    (hvalue : item.value = v) : OnlyNamed items t v := by
  obtain ⟨before, after, rfl⟩ := List.append_of_mem hitem
  refine ⟨before, item, after, rfl, hkey, hvalue, ?_⟩
  intro x hx hxkey
  have hmem : x ∈ before ++ item :: after :=
    List.perm_middle.mem_iff.mpr (List.mem_cons_of_mem _ hx)
  have hsame : x = item :=
    List.inj_on_of_nodup_map hkeys hmem hitem (honce x hmem item hitem hxkey hkey)
  exact (List.nodup_middle.mp hkeys.of_map).notMem (hsame ▸ hx)

theorem firstNamed_iff_onlyNamed : FirstNamed items t v ↔ OnlyNamed items t v := by
  constructor
  · rintro ⟨before, item, after, hitems, hkey, hvalue, _⟩
    exact onlyNamed_of_mem hkeys honce (by simp [hitems]) hkey hvalue
  · exact OnlyNamed.firstNamed

theorem lastNamed_iff_onlyNamed : LastNamed items t v ↔ OnlyNamed items t v := by
  constructor
  · rintro ⟨before, item, after, hitems, hkey, hvalue, _⟩
    exact onlyNamed_of_mem hkeys honce (by simp [hitems]) hkey hvalue
  · exact OnlyNamed.lastNamed

end

section
variable {others : List Item} (hperm : items.Perm others)

include hperm

theorem NamedOnce.perm (h : NamedOnce items t) : NamedOnce others t := by
  simpa only [NamedOnce, hperm.mem_iff] using h

theorem OnlyNamed.perm (h : OnlyNamed items t v) : OnlyNamed others t v := by
  obtain ⟨before, item, after, rfl, hkey, hvalue, hothers⟩ := h
  have hitem : item ∈ others := hperm.mem_iff.mp (List.mem_append_right _ List.mem_cons_self)
  obtain ⟨before', after', rfl⟩ := List.append_of_mem hitem
  have hrest : (before ++ after).Perm (before' ++ after') :=
    (List.perm_middle.symm.trans (hperm.trans List.perm_middle)).cons_inv
  exact ⟨before', item, after', rfl, hkey, hvalue, fun x hx => hothers x (hrest.mem_iff.mpr hx)⟩

theorem saidUnder_iff_of_perm {p : Property} {fact : Fact} :
    SaidUnder others p fact ↔ SaidUnder items p fact := by
  simp only [SaidUnder, hperm.mem_iff]

theorem saidOr_iff_of_perm {p : Property} {fact : Fact} {default : Prop} :
    SaidOr others p fact default ↔ SaidOr items p fact default := by
  simp only [SaidOr, saidUnder_iff_of_perm hperm, hperm.mem_iff]

end

end

/-- Items that name no radius and no color of an entry twice mean the same in any order. -/
theorem Chart.MeantBy.perm {items others : List Item} (hkeys : (items.map (·.key)).Nodup)
    (hperm : items.Perm others)
    (honce : ∀ n, NamedOnce items (.radius n) ∧ NamedOnce items (.entryColor n)) {c : Chart}
    (h : c.MeantBy items) : c.MeantBy others := by
  have hkeys' : (others.map (·.key)).Nodup := (hperm.map _).nodup_iff.mp hkeys
  have honly : ∀ {t v}, OnlyNamed others t v ↔ OnlyNamed items t v :=
    ⟨fun h => h.perm hperm.symm, fun h => h.perm hperm⟩
  have hunder : ∀ {p fact}, SaidUnder others p fact ↔ SaidUnder items p fact :=
    saidUnder_iff_of_perm hperm
  have hor : ∀ {p fact default}, SaidOr others p fact default ↔ SaidOr items p fact default :=
    saidOr_iff_of_perm hperm
  constructor
  · simpa only [hunder] using h.size
  · simpa only [hunder] using h.quantity
  · exact hunder.mpr h.background
  · exact hunder.mpr h.textColor
  · exact hunder.mpr h.strokeColor
  · exact hunder.mpr h.filledEntries
  · simpa only [hunder] using h.intervals
  · exact hunder.mpr h.top
  · exact hor.mpr h.intervalBackground
  · exact hor.mpr h.intervalStrokeColor
  · exact hor.mpr h.hideLabels
  · exact hor.mpr h.intervalLabels
  · intro i label
    have hradius := (honce (i + 1)).1
    rw [h.radii, firstNamed_iff_onlyNamed hkeys hradius,
      firstNamed_iff_onlyNamed hkeys' (hradius.perm hperm), honly]
  · intro i e
    have hcolor := (honce (i + 1)).2
    rw [h.entries, lastNamed_iff_onlyNamed hkeys hcolor,
      lastNamed_iff_onlyNamed hkeys' (hcolor.perm hperm)]
    simp only [honly]

theorem ofItems_of_perm {items others : List Item} (hkeys : (items.map (·.key)).Nodup)
    (hperm : items.Perm others)
    (honce : ∀ n, NamedOnce items (.radius n) ∧ NamedOnce items (.entryColor n)) {c : Chart}
    (h : Chart.ofItems items = .ok c) : Chart.ofItems others = .ok c := by
  obtain ⟨d, hd⟩ := exists_ofItems_of_perm hperm hkeys h
  have hkeys' : (others.map (·.key)).Nodup := (hperm.map _).nodup_iff.mp hkeys
  have hc : c.MeantBy others := (meantBy_of_ofItems hkeys h).perm hkeys hperm honce
  rw [hd, hc.unique hkeys' (meantBy_of_ofItems hkeys' hd)]

/-- Items in another order are accepted as before, and give the same chart
where no two keys name one radius or the color of one entry. -/
theorem Chart.ofItems_perm {items others : List Item} (hkeys : (items.map (·.key)).Nodup)
    (hperm : items.Perm others) :
    ((∃ c, Chart.ofItems items = .ok c) ↔ ∃ c, Chart.ofItems others = .ok c) ∧
      ((∀ n, NamedOnce items (.radius n) ∧ NamedOnce items (.entryColor n)) →
        ∀ c, Chart.ofItems items = .ok c ↔ Chart.ofItems others = .ok c) := by
  have hkeys' : (others.map (·.key)).Nodup := (hperm.map _).nodup_iff.mp hkeys
  refine ⟨⟨?_, ?_⟩, ?_⟩
  · rintro ⟨c, hc⟩
    exact exists_ofItems_of_perm hperm hkeys hc
  · rintro ⟨c, hc⟩
    exact exists_ofItems_of_perm hperm.symm hkeys' hc
  · intro honce c
    have honce' : ∀ n, NamedOnce others (.radius n) ∧ NamedOnce others (.entryColor n) :=
      fun n => ⟨(honce n).1.perm hperm, (honce n).2.perm hperm⟩
    exact ⟨ofItems_of_perm hkeys hperm honce, ofItems_of_perm hkeys' hperm.symm honce'⟩

/-- The items of the small document that name nothing twice. -/
def plainItems : List Item :=
  smallItems.dropLast

def plainChart : Chart :=
  { smallChart with entries := [⟨"y", [1, 0, 2]⟩] }

theorem ofItems_reverse_plainItems :
    (plainItems.map (·.key)).Nodup ∧ plainItems.Perm plainItems.reverse ∧
      (∀ n, NamedOnce plainItems (.radius n) ∧ NamedOnce plainItems (.entryColor n)) ∧
      Chart.ofItems plainItems = .ok plainChart ∧
      Chart.ofItems plainItems.reverse = .ok plainChart := by
  have hkeys : (plainItems.map (·.key)).Nodup := by decide +kernel
  have hperm : plainItems.Perm plainItems.reverse := (List.reverse_perm _).symm
  have hlengths : ∀ item ∈ plainItems, item.key.toList.length ≤ digitLimit := by decide +kernel
  have honce : ∀ t, NamedOnce plainItems t := fun t =>
    namedOnce_of_read (fun item hitem => digitsWithin_of_length_le (hlengths item hitem))
      (by decide +kernel)
  have hchart : Chart.ofItems plainItems = .ok plainChart := by decide +kernel
  exact ⟨hkeys, hperm, fun n => ⟨honce _, honce _⟩, hchart,
    ((Chart.ofItems_perm hkeys hperm).2 (fun n => ⟨honce _, honce _⟩) plainChart).mp hchart⟩

/-- A radius that two keys name has the label of the one that comes first. -/
example : (Chart.ofItems repeatingItems.reverse).map (·.radii) =
    .ok ["second", "b", "late"] := by
  decide +kernel

end RadarChart
