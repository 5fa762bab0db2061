import RadarChart.Proofs.Chart.Lookup
import RadarChart.Proofs.Chart.Soundness

/-!
# What accepted items mean

The chart of items as it can be read off the items themselves, wherever in the
document they stand: each property has the value of its own key, a radius the
first label given to it, an entry its last color and its only data, and what is
not stated follows other values of the same chart. Items have one meaning, and
reading them finds it.
-/

namespace RadarChart

open Text

/-- The first item whose key names the target has the value. -/
def FirstNamed (items : List Item) (t : Target) (value : String) : Prop :=
  ∃ before item after, items = before ++ item :: after ∧ t.Key item.key ∧ item.value = value ∧
    ∀ x ∈ before, ¬ t.Key x.key

/-- The last item whose key names the target has the value. -/
def LastNamed (items : List Item) (t : Target) (value : String) : Prop :=
  ∃ before item after, items = before ++ item :: after ∧ t.Key item.key ∧ item.value = value ∧
    ∀ x ∈ after, ¬ t.Key x.key

/-- One item only has a key that names the target, and it has the value. -/
def OnlyNamed (items : List Item) (t : Target) (value : String) : Prop :=
  ∃ before item after, items = before ++ item :: after ∧ t.Key item.key ∧ item.value = value ∧
    ∀ x ∈ before ++ after, ¬ t.Key x.key

/-- The value under the key of the property says the fact. -/
def SaidUnder (items : List Item) (p : Property) (fact : Fact) : Prop :=
  ∃ item ∈ items, item.key = p.name ∧ p.Value item.value fact

/-- The fact is said under the key of the property, or else no item has that
key and the default holds. -/
def SaidOr (items : List Item) (p : Property) (fact : Fact) (default : Prop) : Prop :=
  SaidUnder items p fact ∨ (∀ item ∈ items, item.key ≠ p.name) ∧ default

/-- The number that a chart has for a quantity. -/
def Chart.quantity (c : Chart) : Quantity → Int
  | .margin => c.margin
  | .textSize => c.textSize
  | .mainStrokeWidth => c.mainStrokeWidth
  | .entryStrokeWidth => c.entryStrokeWidth
  | .scale => c.scale
  | .radii => c.radii.length
  | .entries => c.entries.length

/-- The chart is what the items mean. -/
structure Chart.MeantBy (items : List Item) (c : Chart) : Prop where
  size : ∃ width height : Nat, SaidUnder items .size (.size width height) ∧
    c.width = width ∧ c.height = height
  quantity : ∀ q, ∃ n : Nat, SaidUnder items (.quantity q) (.quantity q n) ∧ c.quantity q = n
  background : SaidUnder items (.paint .background) (.paint .background c.background)
  textColor : SaidUnder items (.paint .text) (.paint .text c.textColor)
  strokeColor : SaidUnder items (.paint .stroke) (.paint .stroke c.strokeColor)
  filledEntries : SaidUnder items (.flag .filledEntries) (.flag .filledEntries c.filledEntries)
  intervals : ∃ step : Option Nat, SaidUnder items .intervals (.intervals step) ∧
    c.intervals = step.map Int.ofNat
  top : SaidUnder items .top (.top c.top)
  intervalBackground : SaidOr items (.paint .intervalBackground)
    (.paint .intervalBackground c.intervalBackground) (c.intervalBackground = c.background)
  intervalStrokeColor : SaidOr items (.paint .intervalStroke)
    (.paint .intervalStroke c.intervalStrokeColor) (c.intervalStrokeColor = c.textColor)
  hideLabels : SaidOr items (.flag .hideLabels) (.flag .hideLabels c.hideLabels)
    (c.hideLabels = false)
  intervalLabels : SaidOr items .intervalLabels (.intervalLabels c.intervalLabels)
    (∃ values, c.ringValues = .ok values ∧ c.intervalLabels = values.map toString)
  radii : ∀ i label, c.radii[i]? = some label ↔ FirstNamed items (.radius (i + 1)) label
  entries : ∀ i e, c.entries[i]? = some e ↔
    LastNamed items (.entryColor (i + 1)) e.color ∧
      ∃ (text : String) (values : List Nat), OnlyNamed items (.entryData (i + 1)) text ∧
        Target.Value (.entryData (i + 1)) text (.entryData (i + 1) values) ∧
        e.data = values.map Int.ofNat

/-! ## What is named -/

theorem Item.says_radius_iff {item : Item} {n : Nat} {label : String} :
    item.Says (.radius n label) ↔ Target.Key (.radius n) item.key ∧ item.value = label := by
  constructor
  · intro h
    obtain ⟨t, hkey, hvalue⟩ := h
    cases hvalue with
    | property hproperty => cases hproperty
    | radius => exact ⟨hkey, rfl⟩
  · rintro ⟨hkey, rfl⟩
    exact ⟨_, hkey, .radius n item.value⟩

theorem Item.says_entryColor_iff {item : Item} {n : Nat} {color : String} :
    item.Says (.entryColor n color) ↔
      Target.Key (.entryColor n) item.key ∧ item.value = color := by
  constructor
  · intro h
    obtain ⟨t, hkey, hvalue⟩ := h
    cases hvalue with
    | property hproperty => cases hproperty
    | entryColor => exact ⟨hkey, rfl⟩
  · rintro ⟨hkey, rfl⟩
    exact ⟨_, hkey, .entryColor n item.value⟩

theorem saidUnder_iff_said {items : List Item} {p : Property} {fact : Fact}
    (hp : fact.target = .property p) : SaidUnder items p fact ↔ Said items fact := by
  constructor
  · rintro ⟨item, hitem, hkey, hvalue⟩
    exact ⟨item, hitem, .property p, hkey ▸ .property p, .property hvalue⟩
  · rintro ⟨item, hitem, hsaid⟩
    have hkey := hsaid.key_eq_name hp
    obtain ⟨t, _, hvalue⟩ := hsaid
    obtain rfl : t = .property p := hvalue.target_eq.symm.trans hp
    cases hvalue with
    | property hproperty => exact ⟨item, hitem, hkey, hproperty⟩

theorem firstNamed_reverse_iff {items : List Item} {t : Target} {value : String} :
    FirstNamed items.reverse t value ↔ LastNamed items t value := by
  constructor
  · rintro ⟨before, item, after, hitems, hkey, hvalue, hbefore⟩
    refine ⟨after.reverse, item, before.reverse, ?_, hkey, hvalue, ?_⟩
    · rw [← List.reverse_reverse items, hitems]
      simp
    · exact fun x hx => hbefore x (List.mem_reverse.mp hx)
  · rintro ⟨before, item, after, rfl, hkey, hvalue, hafter⟩
    refine ⟨after.reverse, item, before.reverse, by simp, hkey, hvalue, ?_⟩
    exact fun x hx => hafter x (List.mem_reverse.mp hx)

section
variable {items : List Item} {t : Target} {fact : String → Fact}
  (hnamed : ∀ {item : Item} {value}, item.Says (fact value) ↔ t.Key item.key ∧ item.value = value)

include hnamed

/-- Where the value under a key counts as it is, to be named is to be said. -/
theorem firstNamed_iff {value : String} :
    FirstNamed items t value ↔ ∃ line, FirstSaid items fact value line := by
  constructor
  · rintro ⟨before, item, after, hitems, hkey, hvalue, hbefore⟩
    refine ⟨item.line, before, item, after, hitems, rfl, hnamed.mpr ⟨hkey, hvalue⟩, ?_⟩
    exact fun x hx v hsaid => hbefore x hx (hnamed.mp hsaid).1
  · rintro ⟨_, before, item, after, hitems, _, hsaid, hbefore⟩
    obtain ⟨hkey, hvalue⟩ := hnamed.mp hsaid
    refine ⟨before, item, after, hitems, hkey, hvalue, ?_⟩
    exact fun x hx hx' => hbefore x hx x.value (hnamed.mpr ⟨hx', rfl⟩)

theorem lastNamed_iff {value : String} :
    LastNamed items t value ↔ ∃ line, LastSaid items fact value line := by
  rw [← firstNamed_reverse_iff, firstNamed_iff hnamed]
  simp only [firstSaid_reverse_iff]

end

theorem FirstNamed.unique {items : List Item} {t : Target} {v w : String}
    (hv : FirstNamed items t v) (hw : FirstNamed items t w) : v = w := by
  obtain ⟨before, x, after, rfl, hx, rfl, hbefore⟩ := hv
  obtain ⟨before', y, after', hsplit, hy, rfl, hbefore'⟩ := hw
  rcases List.append_eq_append_iff.mp hsplit with ⟨as, rfl, htail⟩ | ⟨as, rfl, htail⟩
  · cases as with
    | nil => exact congrArg Item.value (List.cons.inj htail).1
    | cons z zs =>
        obtain ⟨rfl, _⟩ := List.cons.inj htail
        exact absurd hx (hbefore' _ (List.mem_append_right _ List.mem_cons_self))
  · cases as with
    | nil => exact congrArg Item.value (List.cons.inj htail).1.symm
    | cons z zs =>
        obtain ⟨rfl, _⟩ := List.cons.inj htail
        exact absurd hy (hbefore _ (List.mem_append_right _ List.mem_cons_self))

theorem LastNamed.unique {items : List Item} {t : Target} {v w : String}
    (hv : LastNamed items t v) (hw : LastNamed items t w) : v = w :=
  (firstNamed_reverse_iff.mpr hv).unique (firstNamed_reverse_iff.mpr hw)

theorem OnlyNamed.firstNamed {items : List Item} {t : Target} {v : String}
    (h : OnlyNamed items t v) : FirstNamed items t v := by
  obtain ⟨before, item, after, hitems, hkey, hvalue, hothers⟩ := h
  exact ⟨before, item, after, hitems, hkey, hvalue,
    fun x hx => hothers x (List.mem_append_left _ hx)⟩

/-! ## Numbered lists -/

/-- An element for each number from 1 on stands at the place before that number. -/
theorem getElem?_eq_some_iff_of_range' {α : Type} {R : Nat → α → Prop} {count : Nat} {xs : List α}
    (h : List.Forall₂ R (List.range' 1 count) xs) (hR : Relator.RightUnique R) {i : Nat} {x : α} :
    xs[i]? = some x ↔ i < count ∧ R (i + 1) x := by
  obtain ⟨hlength, hget⟩ := List.forall₂_iff_get.mp h
  rw [List.length_range'] at hlength
  have hat : ∀ (hi : i < xs.length), R (i + 1) xs[i] := by
    intro hi
    have hi' := hget i (by rw [List.length_range']; omega) hi
    simpa [Nat.add_comm] using hi'
  rw [List.getElem?_eq_some_iff]
  constructor
  · rintro ⟨hi, rfl⟩
    exact ⟨hlength ▸ hi, hat hi⟩
  · rintro ⟨hi, hx⟩
    have hi' : i < xs.length := hlength ▸ hi
    exact ⟨hi', hR (hat hi') hx⟩

theorem forall₂_filterMap {α β : Type} {f : α → Option β} {xs : List α}
    (h : ∀ x ∈ xs, (f x).isSome) : List.Forall₂ (fun x y => f x = some y) xs (xs.filterMap f) := by
  induction xs with
  | nil => exact .nil
  | cons x xs ih =>
      obtain ⟨hx, hxs⟩ := List.forall_mem_cons.mp h
      obtain ⟨y, hy⟩ := Option.isSome_iff_exists.mp hx
      rw [List.filterMap_cons_some hy]
      exact .cons hy (ih hxs)

/-! ## The meaning that is read -/

section
variable {items : List Item} {ss : List Statement} (hkeys : (items.map (·.key)).Nodup)
  (hofs : List.Forall₂ (fun item s => s.IsOf item) items ss)

include hofs

theorem saidUnder_of_firstValue? {α : Type} {f : Fact → Option α} {value : α} {p : Property}
    {fact : Fact} (hf : ∀ g, f g = some value ↔ g = fact) (hp : fact.target = .property p)
    (h : firstValue? f ss = some value) : SaidUnder items p fact :=
  (saidUnder_iff_said hp).mpr (said_of_firstValue? hofs (fun g => (hf g).mp) h)

/-- A property of which nothing is found has no item. -/
theorem key_ne_name_of_firstValue?_eq_none {α : Type} {f : Fact → Option α} {p : Property}
    (hf : ∀ g, (f g).isSome ↔ g.target = .property p) (h : firstValue? f ss = none) :
    ∀ item ∈ items, item.key ≠ p.name := by
  intro item hitem hkey
  obtain ⟨s, hs, _, hsaid⟩ := exists_right_of_forall₂ hofs hitem
  have htarget : s.fact.target = .property p := hsaid.key.unique (hkey ▸ .property p)
  obtain ⟨value, hvalue⟩ := Option.isSome_iff_exists.mp ((hf s.fact).mpr htarget)
  obtain ⟨stated, hstated⟩ := exists_firstStated? hs hvalue
  rw [firstValue?, hstated] at h
  cases h

/-- What a look-up with a default finds is said, or it is the default. -/
theorem saidOr_of_getD {α : Type} {f : Fact → Option α} {p : Property} {fact : α → Fact}
    {value default : α} (hf : ∀ g v, f g = some v ↔ g = fact v)
    (hp : ∀ v, (fact v).target = .property p) (hsome : ∀ g, (f g).isSome ↔ g.target = .property p)
    (h : (firstValue? f ss).getD default = value) :
    SaidOr items p (fact value) (value = default) := by
  cases hfound : firstValue? f ss with
  | none =>
      rw [hfound] at h
      exact Or.inr ⟨key_ne_name_of_firstValue?_eq_none hofs hsome hfound, h.symm⟩
  | some v =>
      rw [hfound] at h
      obtain rfl : v = value := h
      exact Or.inl (saidUnder_of_firstValue? hofs (fun g => hf g v) (hp v) hfound)

theorem firstValue?_radius_eq_some_iff {n : Nat} {label : String} :
    firstValue? (·.radius? n) ss = some label ↔ FirstNamed items (.radius n) label := by
  rw [firstNamed_iff Item.says_radius_iff, firstValue?, Option.map_eq_some_iff]
  simp only [← firstStated?_eq_some_iff hofs fun _ _ => Fact.radius?_eq_some_iff]
  constructor
  · rintro ⟨⟨line, _⟩, h, rfl⟩
    exact ⟨line, h⟩
  · rintro ⟨line, h⟩
    exact ⟨_, h, rfl⟩

theorem exists_lastStated?_entryColor_iff {n : Nat} {color : String} :
    (∃ line, lastStated? (·.entryColor? n) ss = some ⟨line, color⟩) ↔
      LastNamed items (.entryColor n) color := by
  rw [lastNamed_iff Item.says_entryColor_iff]
  simp only [← lastStated?_eq_some_iff hofs fun _ _ => Fact.entryColor?_eq_some_iff]

include hkeys

/-- Of items that give no entry data twice, one only names the data of an entry. -/
theorem exists_firstStated?_entryData_iff (hnodup : (dataNumbers ss).Nodup) {n : Nat}
    {values : List Nat} :
    (∃ line, firstStated? (·.entryData? n) ss = some ⟨line, values⟩) ↔
      ∃ text, OnlyNamed items (.entryData n) text ∧
        Target.Value (.entryData n) text (.entryData n values) := by
  simp only [firstStated?_eq_some_iff hofs fun _ _ => Fact.entryData?_eq_some_iff]
  constructor
  · rintro ⟨_, before, item, after, hitems, _, hsaid, _⟩
    obtain ⟨t, hkey, hvalue⟩ := id hsaid
    obtain rfl : Target.entryData n = t := hvalue.target_eq
    refine ⟨item.value, ⟨before, item, after, hitems, hkey, rfl, ?_⟩, hvalue⟩
    intro x hx hxkey
    -- such an item would give the entry data as well, so it is the same one
    have hmem : x ∈ items ∧ item ∈ items := by
      rw [hitems]
      rcases List.mem_append.mp hx with hx | hx <;> simp [hx]
    obtain ⟨s, hs, _, hxsaid⟩ := exists_right_of_forall₂ hofs hmem.1
    obtain ⟨vs, hfact⟩ : ∃ vs, s.fact = .entryData n vs := by
      have htarget : s.fact.target = .entryData n := hxsaid.key.unique hxkey
      obtain ⟨vs, hvs⟩ := Option.isSome_iff_exists.mp (Fact.isSome_entryData?.mpr htarget)
      exact ⟨vs, Fact.entryData?_eq_some_iff.mp hvs⟩
    have hsame : x = item :=
      (nodup_dataNumbers_iff hkeys hofs).mp hnodup x hmem.1 item hmem.2 n vs values
        (hfact ▸ hxsaid) hsaid
    rw [hitems] at hkeys
    exact (List.nodup_middle.mp hkeys.of_map).notMem (hsame ▸ hx)
  · rintro ⟨text, ⟨before, item, after, rfl, hkey, rfl, hothers⟩, hvalue⟩
    refine ⟨item.line, before, item, after, rfl, rfl, ⟨_, hkey, hvalue⟩, ?_⟩
    exact fun x hx v hsaid => hothers x (List.mem_append_left _ hx) hsaid.key

omit hkeys hofs in
theorem lt_of_firstValue?_radius {count i : Nat} {label : String}
    (hcovers : covers (ss.filterMap (·.fact.radiusNumber?)) count = true)
    (h : firstValue? (·.radius? (i + 1)) ss = some label) : i < count := by
  obtain ⟨stated, hstated, rfl⟩ := exists_stated h
  obtain ⟨s, hs, _, hfact⟩ := exists_of_firstStated? hstated
  have hnumber : s.fact.radiusNumber? = some (i + 1) :=
    Fact.radiusNumber?_eq_some_iff.mpr ⟨_, Fact.radius?_eq_some_iff.mp hfact⟩
  exact ((covers_iff.mp hcovers (i + 1)).mp (List.mem_filterMap.mpr ⟨s, hs, hnumber⟩)).2

omit hkeys in
/-- The labels are the first ones named. -/
theorem getElem?_radii_iff {count : Nat}
    (hcovers : covers (ss.filterMap (·.fact.radiusNumber?)) count = true) {i : Nat}
    {label : String} :
    ((List.range' 1 count).filterMap fun n => firstValue? (·.radius? n) ss)[i]? = some label ↔
      FirstNamed items (.radius (i + 1)) label := by
  have hunique : Relator.RightUnique fun n label => firstValue? (·.radius? n) ss = some label :=
    fun _ _ _ hx hy => Option.some.inj (hx.symm.trans hy)
  have hlisted := forall₂_filterMap (isSome_firstValue?_radius hcovers)
  rw [getElem?_eq_some_iff_of_range' hlisted hunique, ← firstValue?_radius_eq_some_iff hofs]
  exact and_iff_right_of_imp (lt_of_firstValue?_radius hcovers)

omit hkeys in
theorem lt_of_lastNamed_entryColor {count i : Nat} {color : String}
    (hcovers : covers (ss.filterMap (·.fact.entryNumber?)) count = true)
    (h : LastNamed items (.entryColor (i + 1)) color) : i < count := by
  obtain ⟨line, hlast⟩ := (exists_lastStated?_entryColor_iff hofs).mpr h
  obtain ⟨s, hs, _, hfact⟩ := exists_of_lastStated? hlast
  have hnumber : s.fact.entryNumber? = some (i + 1) :=
    Fact.entryNumber?_eq_some_iff.mpr (Or.inl ⟨_, Fact.entryColor?_eq_some_iff.mp hfact⟩)
  exact ((covers_iff.mp hcovers (i + 1)).mp (List.mem_filterMap.mpr ⟨s, hs, hnumber⟩)).2

/-- An entry that is read has the last color and the only data under its number. -/
theorem named_of_readEntry (hnodup : (dataNumbers ss).Nodup) {entries radii : Stated Nat} {n : Nat}
    {e : Entry} (h : readEntry ss entries radii n = .ok e) :
    LastNamed items (.entryColor n) e.color ∧
      ∃ (text : String) (values : List Nat), OnlyNamed items (.entryData n) text ∧
        Target.Value (.entryData n) text (.entryData n values) ∧
        e.data = values.map Int.ofNat := by
  obtain ⟨⟨line, color⟩, ⟨line', values⟩, hcolor, hdata, _, rfl⟩ := readEntry_eq_ok_iff.mp h
  obtain ⟨text, honly, hvalue⟩ :=
    (exists_firstStated?_entryData_iff hkeys hofs hnodup).mp ⟨line', hdata⟩
  exact ⟨(exists_lastStated?_entryColor_iff hofs).mp ⟨line, hcolor⟩, text, values, honly, hvalue,
    rfl⟩

/-- The entries are those whose colors and data are named. -/
theorem getElem?_entries_iff (hnodup : (dataNumbers ss).Nodup) {count radii : Stated Nat}
    {entries : List Entry}
    (hcovers : covers (ss.filterMap (·.fact.entryNumber?)) count.value = true)
    (h : List.Forall₂ (fun n e => readEntry ss count radii n = .ok e)
      (List.range' 1 count.value) entries) {i : Nat} {e : Entry} :
    entries[i]? = some e ↔ LastNamed items (.entryColor (i + 1)) e.color ∧
      ∃ (text : String) (values : List Nat), OnlyNamed items (.entryData (i + 1)) text ∧
        Target.Value (.entryData (i + 1)) text (.entryData (i + 1) values) ∧
        e.data = values.map Int.ofNat := by
  have hunique : Relator.RightUnique fun n e => readEntry ss count radii n = .ok e :=
    fun _ _ _ hx hy => Except.ok.inj (hx.symm.trans hy)
  have hread : ∀ {e : Entry}, entries[i]? = some e → readEntry ss count radii (i + 1) = .ok e :=
    fun he => ((getElem?_eq_some_iff_of_range' h hunique).mp he).2
  constructor
  · intro he
    exact named_of_readEntry hkeys hofs hnodup (hread he)
  · -- the number is counted, so an entry was read for it, and what that has is determined
    rintro ⟨hcolor, text, values, honly, hvalue, hdata⟩
    have hlength := h.length_eq
    rw [List.length_range'] at hlength
    have hi : i < entries.length := hlength ▸ lt_of_lastNamed_entryColor hofs hcovers hcolor
    obtain ⟨f, hf⟩ : ∃ f, entries[i]? = some f := ⟨_, List.getElem?_eq_getElem hi⟩
    obtain ⟨hcolor', text', values', honly', hvalue', hdata'⟩ :=
      named_of_readEntry hkeys hofs hnodup (hread hf)
    obtain rfl := honly.firstNamed.unique honly'.firstNamed
    cases hvalue.unique hvalue'
    have hfe : f = e := by
      cases f
      cases e
      exact (Entry.mk.injEq _ _ _ _).mpr ⟨hcolor'.unique hcolor, hdata'.trans hdata.symm⟩
    rw [hf, hfe]

omit hkeys in
/-- The labels of the rings are those under their key, or else the values of the rings. -/
theorem saidOr_intervalLabels {scale : Nat} {intervals : Option Nat} {labels : List String}
    (hsteps : firstValue? (·.intervals?) ss = some intervals)
    (h : ringLabels scale intervals (firstStated? (·.intervalLabels?) ss) = .ok labels) {c : Chart}
    (hscale : c.scale = scale) (hintervals : c.intervals = intervals.map Int.ofNat) :
    SaidOr items .intervalLabels (.intervalLabels labels)
      (∃ values, c.ringValues = .ok values ∧ labels = values.map toString) := by
  rw [ringLabels_eq_ok_iff] at h
  cases hgiven : firstStated? (·.intervalLabels?) ss with
  | some stated =>
      have hfound : firstValue? (·.intervalLabels?) ss = some labels := by
        rw [firstValue?, hgiven, Option.map_some]
        cases intervals with
        | none => rw [hgiven] at h; rw [h]
        | some step => rw [hgiven] at h; rw [h.2.2]
      exact Or.inl (saidUnder_of_firstValue? hofs (fun _ => Fact.intervalLabels?_eq_some_iff) rfl
        hfound)
  | none =>
      have hnone : firstValue? (·.intervalLabels?) ss = none := by rw [firstValue?, hgiven]; rfl
      refine Or.inr ⟨key_ne_name_of_firstValue?_eq_none hofs
        (fun _ => Fact.isSome_intervalLabels?) hnone, ?_⟩
      rw [hgiven] at h
      unfold Chart.ringValues
      cases intervals with
      | none => exact ⟨[], by rw [hintervals]; rfl, h.symm⟩
      | some step =>
          have hpos : 1 ≤ step :=
            (said_of_firstValue? hofs (fun _ => Fact.intervals?_eq_some_iff.mp) hsteps).step_pos
          refine ⟨ringSteps scale step, ?_, h.symm⟩
          rw [hintervals, hscale]
          exact if_neg (Int.natCast_ne_zero.mpr (by omega))

/-- Statements that were read from items give the chart that the items mean. -/
theorem meantBy_of_ofStatements (hnodup : (dataNumbers ss).Nodup) {c : Chart}
    (h : Chart.ofStatements ss = .ok c) : c.MeantBy items := by
  obtain ⟨o, radii, labels, entries, ho, hfits, hradii, hnumbers, hlabels, hentries, rfl⟩ :=
    Chart.ofStatements_eq_ok_iff.mp h
  have hquantity : ∀ {q : Quantity} {n : Nat}, firstValue? (·.quantity? q) ss = some n →
      SaidUnder items (.quantity q) (.quantity q n) :=
    fun h => saidUnder_of_firstValue? hofs (fun _ => Fact.quantity?_eq_some_iff) rfl h
  have hpaint : ∀ {p : Paint} {text : String}, firstValue? (·.paint? p) ss = some text →
      SaidUnder items (.paint p) (.paint p text) :=
    fun h => saidUnder_of_firstValue? hofs (fun _ => Fact.paint?_eq_some_iff) rfl h
  have hpaintOr : ∀ (p : Paint) (default : String), SaidOr items (.paint p)
      (.paint p ((firstValue? (·.paint? p) ss).getD default))
      ((firstValue? (·.paint? p) ss).getD default = default) :=
    fun p _ => saidOr_of_getD hofs (fun _ _ => Fact.paint?_eq_some_iff) (fun _ => rfl)
      (fun _ => Fact.isSome_paint?) rfl
  obtain ⟨hcovers, rfl⟩ := radiusLabels_eq_ok_iff.mp hradii
  constructor
  · exact ⟨_, _, saidUnder_of_firstValue? hofs (fun _ => Fact.size?_eq_some_iff) rfl ho.size,
      rfl, rfl⟩
  · intro q
    cases q with
    | margin => exact ⟨_, hquantity ho.margin, rfl⟩
    | textSize => exact ⟨_, hquantity ho.textSize, rfl⟩
    | mainStrokeWidth => exact ⟨_, hquantity ho.mainStrokeWidth, rfl⟩
    | entryStrokeWidth => exact ⟨_, hquantity ho.entryStrokeWidth, rfl⟩
    | scale => exact ⟨_, hquantity ho.scale, rfl⟩
    | radii =>
        refine ⟨_, hquantity ho.value_radii, ?_⟩
        exact congrArg Nat.cast (length_radiusLabels hradii)
    | entries =>
        refine ⟨_, hquantity ho.value_entries, ?_⟩
        have hlength := hentries.length_eq
        rw [List.length_range'] at hlength
        exact congrArg Nat.cast hlength.symm
  · exact hpaint ho.background
  · exact hpaint ho.textColor
  · exact hpaint ho.strokeColor
  · exact saidUnder_of_firstValue? hofs (fun _ => Fact.flag?_eq_some_iff) rfl ho.filledEntries
  · exact ⟨_, saidUnder_of_firstValue? hofs (fun _ => Fact.intervals?_eq_some_iff) rfl
      ho.value_intervals, rfl⟩
  · exact saidUnder_of_firstValue? hofs (fun _ => Fact.top?_eq_some_iff) rfl ho.top
  · exact hpaintOr .intervalBackground o.background
  · exact hpaintOr .intervalStroke o.textColor
  · exact saidOr_of_getD hofs (fun _ _ => Fact.flag?_eq_some_iff) (fun _ => rfl)
      (fun _ => Fact.isSome_flag?) rfl
  · exact saidOr_intervalLabels hofs ho.value_intervals hlabels rfl rfl
  · exact fun i label => getElem?_radii_iff hofs hcovers
  · exact fun i e => getElem?_entries_iff hkeys hofs hnodup hnumbers hentries

end

/-! ## One meaning -/

section
variable {items : List Item} (hkeys : (items.map (·.key)).Nodup)

include hkeys

theorem SaidUnder.unique {p : Property} {f g : Fact} (hf : SaidUnder items p f)
    (hg : SaidUnder items p g) : f = g := by
  obtain ⟨x, hx, hxkey, hf⟩ := hf
  obtain ⟨y, hy, hykey, hg⟩ := hg
  obtain rfl : x = y := List.inj_on_of_nodup_map hkeys hx hy (hxkey.trans hykey.symm)
  exact hf.unique hg

theorem SaidOr.unique {α : Type} {p : Property} {fact : α → Fact} {P Q : Prop} {v w : α}
    (hfact : ∀ {a b}, fact a = fact b → a = b) (hv : SaidOr items p (fact v) P)
    (hw : SaidOr items p (fact w) Q) (hdefault : P → Q → v = w) : v = w := by
  rcases hv with hv | ⟨hnone, hv⟩ <;> rcases hw with hw | ⟨hnone', hw⟩
  · exact hfact (hv.unique hkeys hw)
  · obtain ⟨item, hitem, hkey, _⟩ := hv
    exact absurd hkey (hnone' item hitem)
  · obtain ⟨item, hitem, hkey, _⟩ := hw
    exact absurd hkey (hnone item hitem)
  · exact hdefault hv hw

/-- Items with distinct keys mean one chart. -/
theorem Chart.MeantBy.unique {c d : Chart} (hc : c.MeantBy items) (hd : d.MeantBy items) :
    c = d := by
  obtain ⟨width, height, hsize, hwidth, hheight⟩ := hc.size
  obtain ⟨width', height', hsize', hwidth', hheight'⟩ := hd.size
  cases hsize.unique hkeys hsize'
  have hquantity : ∀ q, c.quantity q = d.quantity q := by
    intro q
    obtain ⟨n, hn, hcq⟩ := hc.quantity q
    obtain ⟨m, hm, hdq⟩ := hd.quantity q
    cases hn.unique hkeys hm
    rw [hcq, hdq]
  have hbackground : c.background = d.background :=
    (Fact.paint.inj (hc.background.unique hkeys hd.background)).2
  have htextColor : c.textColor = d.textColor :=
    (Fact.paint.inj (hc.textColor.unique hkeys hd.textColor)).2
  have hstrokeColor : c.strokeColor = d.strokeColor :=
    (Fact.paint.inj (hc.strokeColor.unique hkeys hd.strokeColor)).2
  have hfilled : c.filledEntries = d.filledEntries :=
    (Fact.flag.inj (hc.filledEntries.unique hkeys hd.filledEntries)).2
  have hscale : c.scale = d.scale := hquantity .scale
  have hintervals : c.intervals = d.intervals := by
    obtain ⟨step, hstep, hcstep⟩ := hc.intervals
    obtain ⟨step', hstep', hdstep⟩ := hd.intervals
    cases hstep.unique hkeys hstep'
    rw [hcstep, hdstep]
  have htop : c.top = d.top := Fact.top.inj (hc.top.unique hkeys hd.top)
  have hintervalBackground : c.intervalBackground = d.intervalBackground :=
    hc.intervalBackground.unique hkeys (fun h => (Fact.paint.inj h).2) hd.intervalBackground
      fun hcolor hcolor' => by rw [hcolor, hcolor', hbackground]
  have hintervalStroke : c.intervalStrokeColor = d.intervalStrokeColor :=
    hc.intervalStrokeColor.unique hkeys (fun h => (Fact.paint.inj h).2) hd.intervalStrokeColor
      fun hcolor hcolor' => by rw [hcolor, hcolor', htextColor]
  have hhide : c.hideLabels = d.hideLabels :=
    hc.hideLabels.unique hkeys (fun h => (Fact.flag.inj h).2) hd.hideLabels
      fun hflag hflag' => by rw [hflag, hflag']
  have hlabels : c.intervalLabels = d.intervalLabels := by
    refine hc.intervalLabels.unique hkeys Fact.intervalLabels.inj hd.intervalLabels ?_
    rintro ⟨values, hvalues, hlabels⟩ ⟨values', hvalues', hlabels'⟩
    rw [Chart.ringValues, hintervals, hscale, ← Chart.ringValues, hvalues'] at hvalues
    rw [hlabels, hlabels', Except.ok.inj hvalues]
  have hradii : c.radii = d.radii := by
    apply List.ext_getElem?
    intro i
    ext label
    rw [hc.radii, hd.radii]
  have hentries : c.entries = d.entries := by
    apply List.ext_getElem?
    intro i
    ext e
    rw [hc.entries, hd.entries]
  cases c
  cases d
  exact (Chart.mk.injEq ..).mpr ⟨hwidth.trans hwidth'.symm, hheight.trans hheight'.symm,
    hquantity .margin, hbackground, htextColor, hstrokeColor, hintervalBackground,
    hintervalStroke, hquantity .textSize, hquantity .mainStrokeWidth, hquantity .entryStrokeWidth,
    hfilled, hscale, hintervals, htop, hradii, hentries, hlabels, hhide⟩

end

theorem meantBy_of_ofItems {items : List Item} (hkeys : (items.map (·.key)).Nodup) {c : Chart}
    (h : Chart.ofItems items = .ok c) : c.MeantBy items := by
  simp only [Chart.ofItems, bind_eq_ok_iff] at h
  obtain ⟨ss, hss, h⟩ := h
  obtain ⟨hofs, hnodup, _⟩ := forall₂_isOf_of_readStatementsFrom hss
  exact meantBy_of_ofStatements hkeys hofs hnodup h

/-- Items with distinct keys that are accepted give the one chart that they mean. -/
theorem Chart.meaning_of_ofItems {items : List Item} {c : Chart}
    (hkeys : (items.map (·.key)).Nodup) (h : Chart.ofItems items = .ok c) :
    c.MeantBy items ∧ ∀ d : Chart, d.MeantBy items → d = c := by
  have hc : c.MeantBy items := meantBy_of_ofItems hkeys h
  exact ⟨hc, fun d hd => hd.unique hkeys hc⟩

/-- Items that speak of a radius and of a color more than once, under different
keys, and that state the sources of the defaults late. -/
def repeatingItems : List Item :=
  [ ⟨"entry 01 color", 1, "blue"⟩, ⟨"radius 2", 2, "b"⟩, ⟨"radius 001", 3, "first"⟩,
    ⟨"radius 1", 4, "second"⟩, ⟨"entry 1 data", 5, "1 0 2"⟩, ⟨"radius 03", 6, ""⟩,
    ⟨"radius 3", 7, "late"⟩, ⟨"radii", 8, "3"⟩, ⟨"entries", 9, "1"⟩, ⟨"entry 1 color", 10, "red"⟩,
    ⟨"size", 11, "9 x 8"⟩, ⟨"margin", 12, "0"⟩, ⟨"text size", 13, "8"⟩,
    ⟨"stroke color", 14, "gray"⟩, ⟨"main stroke width", 15, "1"⟩, ⟨"entry stroke width", 16, "2"⟩,
    ⟨"filled entries", 17, "yes"⟩, ⟨"top", 18, "first side"⟩, ⟨"intervals", 19, "2"⟩,
    ⟨"scale", 20, "4"⟩, ⟨"text color", 21, "black"⟩, ⟨"background", 22, "white"⟩ ]

def repeatingChart : Chart :=
  { width := 9, height := 8, margin := 0, background := "white", textColor := "black"
    strokeColor := "gray", intervalBackground := "white", intervalStrokeColor := "black"
    textSize := 8, mainStrokeWidth := 1, entryStrokeWidth := 2, filledEntries := true, scale := 4
    intervals := some 2, top := .firstSide, radii := ["first", "b", ""]
    entries := [⟨"red", [1, 0, 2]⟩], intervalLabels := ["0", "2", "4"], hideLabels := false }

theorem meaning_repeatingItems :
    (repeatingItems.map (·.key)).Nodup ∧ Chart.ofItems repeatingItems = .ok repeatingChart ∧
      repeatingChart.MeantBy repeatingItems ∧
      ∀ d : Chart, d.MeantBy repeatingItems → d = repeatingChart := by
  have hkeys : (repeatingItems.map (·.key)).Nodup := by decide +kernel
  have hchart : Chart.ofItems repeatingItems = .ok repeatingChart := by decide +kernel
  exact ⟨hkeys, hchart, Chart.meaning_of_ofItems hkeys hchart⟩

end RadarChart
