import Mathlib.Data.List.Nodup
import RadarChart.Proofs.Document.Form

/-!
# What items say

The fact that an item states is determined by the item, and its key by what the
fact is about. Of items with distinct keys no two can therefore speak of the
same property.
-/

namespace RadarChart

open Text

/-- What a fact is about. -/
def Fact.target : Fact → Target
  | .size _ _ => .property .size
  | .quantity q _ => .property (.quantity q)
  | .paint p _ => .property (.paint p)
  | .flag f _ => .property (.flag f)
  | .intervals _ => .property .intervals
  | .top _ => .property .top
  | .intervalLabels _ => .property .intervalLabels
  | .radius n _ => .radius n
  | .entryData n _ => .entryData n
  | .entryColor n _ => .entryColor n

theorem Target.Value.target_eq {t : Target} {value : String} {fact : Fact}
    (h : t.Value value fact) : fact.target = t := by
  cases h with
  | property hproperty => cases hproperty <;> rfl
  | radius n => rfl
  | entryColor n => rfl
  | entryData _ _ _ => rfl

theorem Item.Says.key {item : Item} {fact : Fact} (h : item.Says fact) :
    fact.target.Key item.key := by
  obtain ⟨t, hkey, hvalue⟩ := h
  rwa [hvalue.target_eq]

theorem Item.Says.key_eq_name {item : Item} {fact : Fact} {p : Property} (h : item.Says fact)
    (hp : fact.target = .property p) : item.key = p.name := by
  have hkey := h.key
  rw [hp] at hkey
  generalize htext : item.key = key at hkey
  cases hkey with
  | property => rfl

/-- The value of a property says one thing. -/
theorem Property.Value.unique {p : Property} {value : String} {f g : Fact}
    (hf : p.Value value f) (hg : p.Value value g) : f = g := by
  have hmem : 'n' ∈ "none".toList := by decide
  cases hf with
  | size hvalue has hbs =>
      cases hg with
      | size hvalue' has' hbs' =>
          obtain ⟨ds, es, hpieces, ⟨_, rfl⟩, _, rfl⟩ := pieces_of_isNumeral has hbs
          obtain ⟨ds', es', hpieces', ⟨_, rfl⟩, _, rfl⟩ := pieces_of_isNumeral has' hbs'
          rw [← hvalue, hvalue', hpieces'] at hpieces
          obtain ⟨rfl, rfl⟩ : ds' = ds ∧ es' = es := by simpa using hpieces
          rfl
  | quantity hn =>
      cases hg with
      | quantity hm => rw [hn.unique hm]
  | paint c => cases hg with | paint => rfl
  | yes hyes =>
      cases hg with
      | yes => rfl
      | no hno =>
          have hword := (ofList_trim_eq_iff (by decide)).mpr hyes
          rw [(ofList_trim_eq_iff (by decide)).mpr hno] at hword
          exact absurd hword (by decide)
  | no hno =>
      cases hg with
      | no => rfl
      | yes hyes =>
          have hword := (ofList_trim_eq_iff (by decide)).mpr hyes
          rw [(ofList_trim_eq_iff (by decide)).mpr hno] at hword
          exact absurd hword (by decide)
  | withoutRings hnone =>
      cases hg with
      | withoutRings => rfl
      | rings hm => exact absurd hm (not_isNumeral_of_padded hnone hmem rfl rfl)
  | rings hn =>
      cases hg with
      | withoutRings hnone => exact absurd hn (not_isNumeral_of_padded hnone hmem rfl rfl)
      | rings hm => rw [hn.unique hm]
  | top hmem hword =>
      cases hg with
      | top hmem' hword' =>
          have hbare : ∀ w ∈ topWords, Bare isBlank w.1.toList := by decide
          have hsame := (ofList_trim_eq_iff (hbare _ hmem)).mpr hword
          rw [(ofList_trim_eq_iff (hbare _ hmem')).mpr hword'] at hsame
          have hinj : ∀ w ∈ topWords, ∀ v ∈ topWords, w.1 = v.1 → w.2 = v.2 := by decide
          exact congrArg Fact.top (hinj _ hmem _ hmem' hsame.symm)
  | intervalLabels hspaced hne =>
      cases hg with
      | intervalLabels hspaced' =>
          rw [← words_eq_iff.mpr hspaced, ← words_eq_iff.mpr hspaced']
      | blankLabels hspaced' =>
          rw [← words_eq_iff.mpr hspaced, words_eq_iff.mpr hspaced'] at hne
          exact absurd rfl hne
  | blankLabels hspaced =>
      cases hg with
      | intervalLabels hspaced' hne =>
          rw [← words_eq_iff.mpr hspaced', words_eq_iff.mpr hspaced] at hne
          exact absurd rfl hne
      | blankLabels => rfl

theorem Target.Value.unique {t : Target} {value : String} {f g : Fact}
    (hf : t.Value value f) (hg : t.Value value g) : f = g := by
  cases hf with
  | property hf => cases hg with | property hg => exact hf.unique hg
  | radius => cases hg with | radius => rfl
  | entryColor => cases hg with | entryColor => rfl
  | entryData hspaced hne hnumerals =>
      cases hg with
      | entryData hspaced' hne' hnumerals' =>
          rw [← words_eq_iff.mpr hspaced] at hnumerals
          rw [← words_eq_iff.mpr hspaced'] at hnumerals'
          have hunique : Relator.RightUnique IsNumeral := fun _ _ _ hn hm => hn.unique hm
          rw [hunique.forall₂ hnumerals hnumerals']

/-- An item says one thing. -/
theorem Item.Says.unique {item : Item} {f g : Fact} (hf : item.Says f) (hg : item.Says g) :
    f = g := by
  obtain ⟨t, hkey, hvalue⟩ := hf
  obtain ⟨u, hkey', hvalue'⟩ := hg
  obtain rfl := hkey.unique hkey'
  exact hvalue.unique hvalue'

/-- Some item says the fact. -/
def Said (items : List Item) (fact : Fact) : Prop :=
  ∃ item ∈ items, item.Says fact

theorem said_of_mem {items : List Item} {ss : List Statement}
    (h : List.Forall₂ (fun item s => s.IsOf item) items ss) {s : Statement} (hs : s ∈ ss) :
    Said items s.fact := by
  obtain ⟨item, hitem, hof⟩ := exists_left_of_forall₂ h hs
  exact ⟨item, hitem, hof.2⟩

theorem mem_filterMap_fact_iff {α : Type} {f : Fact → Option α} {ss : List Statement} {a : α} :
    a ∈ ss.filterMap (fun s => f s.fact) ↔ ∃ fact, (∃ s ∈ ss, s.fact = fact) ∧ f fact = some a := by
  rw [List.mem_filterMap]
  constructor
  · rintro ⟨s, hs, ha⟩
    exact ⟨s.fact, ⟨s, hs, rfl⟩, ha⟩
  · rintro ⟨_, ⟨s, hs, rfl⟩, ha⟩
    exact ⟨s, hs, ha⟩

/-- An item at the line says the fact. -/
def SaidAt (items : List Item) (fact : Fact) (line : Int) : Prop :=
  ∃ item ∈ items, item.line = line ∧ item.Says fact

theorem SaidAt.said {items : List Item} {fact : Fact} {line : Int} (h : SaidAt items fact line) :
    Said items fact := by
  obtain ⟨item, hitem, _, hsaid⟩ := h
  exact ⟨item, hitem, hsaid⟩

theorem SaidAt.exists_item {items : List Item} {fact : Fact} {line : Int}
    (h : SaidAt items fact line) : ∃ item ∈ items, item.line = line := by
  obtain ⟨item, hitem, hline, _⟩ := h
  exact ⟨item, hitem, hline⟩

theorem Said.exists_line {items : List Item} {fact : Fact} (h : Said items fact) :
    ∃ line, SaidAt items fact line := by
  obtain ⟨item, hitem, hsaid⟩ := h
  exact ⟨item.line, item, hitem, rfl, hsaid⟩

/-- What is said of a property is the value of some item. -/
theorem Said.exists_value {items : List Item} {fact : Fact} {p : Property} (h : Said items fact)
    (hp : fact.target = .property p) : ∃ item ∈ items, p.Value item.value fact := by
  obtain ⟨item, hitem, t, _, hvalue⟩ := h
  obtain rfl : t = .property p := hvalue.target_eq.symm.trans hp
  cases hvalue with
  | property hproperty => exact ⟨item, hitem, hproperty⟩

/-! ## Items with distinct keys -/

section
variable {items : List Item} {ss : List Statement} (hkeys : (items.map (·.key)).Nodup)

theorem said_iff (h : List.Forall₂ (fun item s => s.IsOf item) items ss) {fact : Fact} :
    Said items fact ↔ ∃ s ∈ ss, s.fact = fact := by
  constructor
  · rintro ⟨item, hitem, hsaid⟩
    obtain ⟨s, hs, hof⟩ := exists_right_of_forall₂ h hitem
    exact ⟨s, hs, hof.2.unique hsaid⟩
  · rintro ⟨s, hs, rfl⟩
    exact said_of_mem h hs

theorem mem_filterMap_iff_said (h : List.Forall₂ (fun item s => s.IsOf item) items ss)
    {α : Type} {f : Fact → Option α} {a : α} :
    a ∈ ss.filterMap (fun s => f s.fact) ↔ ∃ fact, Said items fact ∧ f fact = some a := by
  simp only [mem_filterMap_fact_iff, said_iff h]

theorem mem_dataNumbers_iff (h : List.Forall₂ (fun item s => s.IsOf item) items ss) {n : Nat} :
    n ∈ dataNumbers ss ↔ ∃ values, Said items (.entryData n values) := by
  rw [dataNumbers, mem_filterMap_iff_said h]
  simp [Fact.dataNumber?_eq_some_iff]

include hkeys

/-- A property has one value, at one line. -/
theorem SaidAt.unique {f g : Fact} {p : Property} {l m : Int} (hf : SaidAt items f l)
    (hg : SaidAt items g m) (hfp : f.target = .property p) (hgp : g.target = .property p) :
    f = g ∧ l = m := by
  obtain ⟨x, hx, rfl, hsaidf⟩ := hf
  obtain ⟨y, hy, rfl, hsaidg⟩ := hg
  have hxy : x = y := by
    apply List.inj_on_of_nodup_map hkeys hx hy
    rw [hsaidf.key_eq_name hfp, hsaidg.key_eq_name hgp]
  subst hxy
  exact ⟨hsaidf.unique hsaidg, rfl⟩

theorem Said.unique {f g : Fact} {p : Property} (hf : Said items f) (hg : Said items g)
    (hfp : f.target = .property p) (hgp : g.target = .property p) : f = g := by
  obtain ⟨_, hl⟩ := hf.exists_line
  obtain ⟨_, hm⟩ := hg.exists_line
  exact (hl.unique hkeys hm hfp hgp).1

end

end RadarChart
