import RadarChart.Document.Statement
import RadarChart.Proofs.Document.Success
import RadarChart.Proofs.Text.Numeral

/-!
# The form of keys and values

What a key is about and what a value says, as relations: `Target.Key` lists
the keys of each target and `Target.Value` the values that it may have. An item
that is read follows them, and an item that follows them is read as long as the
texts in which it has numbers hold no digits beyond the limit.
-/

namespace RadarChart

open Text

/-! ## The relations -/

/-- The keys of a target. A key of a radius or an entry is divided by single
spaces, so its number may be padded by other blanks only. -/
inductive Target.Key : Target → String → Prop where
  | property (p : Property) : Key (.property p) p.name
  | radius {key : String} {cs : List Char} {n : Nat} :
      key.toList = "radius ".toList ++ cs → ' ' ∉ cs → IsNumeral cs n → 1 ≤ n →
      Key (.radius n) key
  | entryData {key : String} {cs : List Char} {n : Nat} :
      key.toList = "entry ".toList ++ cs ++ " data".toList → ' ' ∉ cs → IsNumeral cs n → 1 ≤ n →
      Key (.entryData n) key
  | entryColor {key : String} {cs : List Char} {n : Nat} :
      key.toList = "entry ".toList ++ cs ++ " color".toList → ' ' ∉ cs → IsNumeral cs n → 1 ≤ n →
      Key (.entryColor n) key

/-- The words for the three directions. -/
def topWords : List (String × Orientation) :=
  [("first radius", .firstRadius), ("first side", .firstSide), ("last side", .lastSide)]

/-- The values of a property, each with what it says. -/
inductive Property.Value : Property → String → Fact → Prop where
  | size {value : String} {as bs : List Char} {width height : Nat} :
      value.toList = as ++ 'x' :: bs → IsNumeral as width → IsNumeral bs height →
      1 ≤ width → 1 ≤ height → Value .size value (.size width height)
  | quantity {q : Quantity} {value : String} {n : Nat} :
      IsNumeral value.toList n → q.minimum ≤ n → Value (.quantity q) value (.quantity q n)
  | paint (c : Paint) (value : String) : Value (.paint c) value (.paint c value)
  | yes {f : Flag} {value : String} :
      Padded isBlank "yes".toList value.toList → Value (.flag f) value (.flag f true)
  | no {f : Flag} {value : String} :
      Padded isBlank "no".toList value.toList → Value (.flag f) value (.flag f false)
  | withoutRings {value : String} :
      Padded isBlank "none".toList value.toList → Value .intervals value (.intervals none)
  | rings {value : String} {n : Nat} :
      IsNumeral value.toList n → 1 ≤ n → Value .intervals value (.intervals (some n))
  | top {value word : String} {o : Orientation} :
      (word, o) ∈ topWords → Padded isBlank word.toList value.toList → Value .top value (.top o)
  | intervalLabels {value : String} {ws : List (List Char)} :
      Spaced ws value.toList → ws ≠ [] →
      Value .intervalLabels value (.intervalLabels (ws.map String.ofList))
  | blankLabels {value : String} :
      Spaced [] value.toList → Value .intervalLabels value (.intervalLabels [""])

/-- The values of a target, each with what it says. -/
inductive Target.Value : Target → String → Fact → Prop where
  | property {p : Property} {value : String} {fact : Fact} :
      p.Value value fact → Value (.property p) value fact
  | radius (n : Nat) (value : String) : Value (.radius n) value (.radius n value)
  | entryColor (n : Nat) (value : String) : Value (.entryColor n) value (.entryColor n value)
  | entryData {n : Nat} {value : String} {ws : List (List Char)} {values : List Nat} :
      Spaced ws value.toList → ws ≠ [] → List.Forall₂ IsNumeral ws values →
      Value (.entryData n) value (.entryData n values)

/-- What an item says, by the form of its key and its value. -/
def Item.Says (item : Item) (fact : Fact) : Prop :=
  ∃ t : Target, t.Key item.key ∧ t.Value item.value fact

/-! ## Keys -/

theorem readNumber_eq_ok {what : Numbered} {cs : List Char} {line : Int} {n : Nat}
    (h : readNumber what cs line = .ok n) : IsNumeral cs n ∧ 1 ≤ n := by
  simp only [readNumber, bind_eq_ok_iff, orFault_eq_ok_iff] at h
  obtain ⟨value?, hvalue, h⟩ := h
  split at h
  · simp at h
  · simp at h
  · rw [pure_eq_ok_iff] at h
    subst h
    exact ⟨isNumeral_of_readNumeral hvalue, Nat.succ_pos _⟩

theorem readNumber_of_isNumeral {what : Numbered} {cs : List Char} {line : Int} {n : Nat}
    (h : IsNumeral cs n) (hn : 1 ≤ n) (hcs : DigitsWithin digitLimit cs) :
    readNumber what cs line = .ok n := by
  obtain ⟨m, rfl⟩ : ∃ m, n = m + 1 := ⟨n - 1, by omega⟩
  simp only [readNumber, bind_eq_ok_iff, orFault_eq_ok_iff]
  exact ⟨some (m + 1), readNumeral_of_isNumeral h hcs, rfl⟩

/-- The parts of a key are the pieces between its spaces. -/
theorem map_splitAt_eq_iff {cs : List Char} {parts : List String} :
    (splitAt ' ' cs).map String.ofList = parts ↔ splitAt ' ' cs = parts.map String.toList := by
  constructor
  · rintro rfl
    simp
  · intro h
    rw [h]
    simp

theorem splitAt_radius {key : String} {cs : List Char}
    (hkey : key.toList = "radius ".toList ++ cs) (hcs : ' ' ∉ cs) :
    (splitAt ' ' key.toList).map String.ofList = ["radius", String.ofList cs] := by
  have hsplit : key.toList = "radius".toList ++ ' ' :: cs := by rw [hkey]; rfl
  rw [map_splitAt_eq_iff, hsplit, splitAt_append (by decide), splitAt_of_not_mem hcs]
  simp

theorem splitAt_entry {key : String} {cs name : List Char}
    (hkey : key.toList = "entry ".toList ++ cs ++ ' ' :: name) (hcs : ' ' ∉ cs)
    (hname : ' ' ∉ name) :
    (splitAt ' ' key.toList).map String.ofList =
      ["entry", String.ofList cs, String.ofList name] := by
  have hsplit : key.toList = "entry".toList ++ ' ' :: (cs ++ ' ' :: name) := by
    rw [hkey, List.append_assoc]; rfl
  rw [map_splitAt_eq_iff, hsplit, splitAt_append (by decide), splitAt_append hcs,
    splitAt_of_not_mem hname]
  simp

theorem Property.ofName?_eq_none {key : String} (h : ∀ p ∈ Property.all, p.name ≠ key) :
    Property.ofName? key = none := by
  cases hp : Property.ofName? key with
  | none => rfl
  | some p => exact absurd (Property.name_of_ofName? hp) (h p (Property.mem_all p))

/-- No property has the key of a radius or an entry. -/
theorem Property.name_ne_numbered {p : Property} {cs : List Char} :
    p.name.toList ≠ "radius ".toList ++ cs ∧
      p.name.toList ≠ "entry ".toList ++ cs ++ " data".toList ∧
      p.name.toList ≠ "entry ".toList ++ cs ++ " color".toList := by
  have hall : ∀ p ∈ Property.all,
      ¬ "radius ".toList <+: p.name.toList ∧ ¬ " data".toList <:+ p.name.toList ∧
        ¬ ("entry ".toList <+: p.name.toList ∧ " color".toList <:+ p.name.toList) := by
    decide
  obtain ⟨hradius, hdata, hcolor⟩ := hall p (Property.mem_all p)
  refine ⟨fun h => hradius ?_, fun h => hdata ?_, fun h => hcolor ⟨?_, ?_⟩⟩
  · rw [h]; exact List.prefix_append _ _
  · rw [h]; exact List.suffix_append _ _
  · rw [h, List.append_assoc]; exact List.prefix_append _ _
  · rw [h]; exact List.suffix_append _ _

theorem Target.key_of_read {key : String} {line : Int} {t : Target}
    (h : Target.read key line = .ok t) : t.Key key := by
  unfold Target.read at h
  split at h
  · rename_i p hp
    rw [pure_eq_ok_iff] at h
    subst h
    rw [← Property.name_of_ofName? hp]
    exact .property p
  · split at h
    · rename_i number rest hparts
      split at h
      · simp only [bind_eq_ok_iff, pure_eq_ok_iff] at h
        obtain ⟨n, hread, rfl⟩ := h
        obtain ⟨hnumeral, hn⟩ := readNumber_eq_ok hread
        obtain ⟨hkey, _, hspace⟩ := splitAt_eq_pair_iff.mp (map_splitAt_eq_iff.mp hparts)
        exact .radius hkey hspace hnumeral hn
      · exact absurd h reject_ne_ok
    · rename_i number rest hparts
      split at h
      · rename_i characteristic
        simp only [bind_eq_ok_iff] at h
        obtain ⟨n, hread, h⟩ := h
        obtain ⟨hnumeral, hn⟩ := readNumber_eq_ok hread
        obtain ⟨_, hkey, _, hrest⟩ := splitAt_eq_cons_cons (map_splitAt_eq_iff.mp hparts)
        obtain ⟨rfl, hspace, _⟩ := splitAt_eq_pair_iff.mp hrest
        have hentry : key.toList =
            "entry ".toList ++ number.toList ++ ' ' :: characteristic.toList := by
          rw [hkey, List.append_assoc]; rfl
        split at h
        · rw [pure_eq_ok_iff] at h
          subst h
          exact .entryData hentry hspace hnumeral hn
        · rw [pure_eq_ok_iff] at h
          subst h
          exact .entryColor hentry hspace hnumeral hn
        · exact absurd h reject_ne_ok
      · exact absurd h reject_ne_ok
    · exact absurd h reject_ne_ok

theorem Target.read_of_key {key : String} {line : Int} {t : Target} (h : t.Key key)
    (hkey : DigitsWithin digitLimit key.toList) : Target.read key line = .ok t := by
  cases h with
  | property p => rw [Target.read, Property.ofName?_name]; rfl
  | @radius _ cs n hform hspace hnumeral hn =>
      have hcs : DigitsWithin digitLimit cs :=
        hkey.of_isInfix (hform ▸ (List.suffix_append _ _).isInfix)
      have hnone : Property.ofName? key = none :=
        Property.ofName?_eq_none fun p _ hp => Property.name_ne_numbered.1 (hp ▸ hform)
      rw [Target.read, hnone, splitAt_radius hform hspace]
      simp only [String.toList_ofList, readNumber_of_isNumeral hnumeral hn hcs]
      rfl
  | @entryData _ cs n hform hspace hnumeral hn =>
      have hcs : DigitsWithin digitLimit cs :=
        hkey.of_isInfix (hform ▸ List.infix_append _ _ _)
      have hnone : Property.ofName? key = none :=
        Property.ofName?_eq_none fun p _ hp => Property.name_ne_numbered.2.1 (hp ▸ hform)
      rw [Target.read, hnone, splitAt_entry hform hspace (by decide)]
      simp only [String.toList_ofList, readNumber_of_isNumeral hnumeral hn hcs]
      rfl
  | @entryColor _ cs n hform hspace hnumeral hn =>
      have hcs : DigitsWithin digitLimit cs :=
        hkey.of_isInfix (hform ▸ List.infix_append _ _ _)
      have hnone : Property.ofName? key = none :=
        Property.ofName?_eq_none fun p _ hp => Property.name_ne_numbered.2.2 (hp ▸ hform)
      rw [Target.read, hnone, splitAt_entry hform hspace (by decide)]
      simp only [String.toList_ofList, readNumber_of_isNumeral hnumeral hn hcs]
      rfl

/-- A key is the name of a property, or its parts are those of a radius or an entry. -/
theorem Target.Key.name_or_parts {key : String} {t : Target} (h : t.Key key) :
    (∃ p : Property, t = .property p ∧ key = p.name) ∨
      (∀ p : Property, key ≠ p.name) ∧ ∃ cs n, IsNumeral cs n ∧
        ((t = .radius n ∧ splitAt ' ' key.toList = ["radius".toList, cs]) ∨
          (t = .entryData n ∧ splitAt ' ' key.toList = ["entry".toList, cs, "data".toList]) ∨
          (t = .entryColor n ∧ splitAt ' ' key.toList = ["entry".toList, cs, "color".toList])) := by
  cases h with
  | property p => exact Or.inl ⟨p, rfl, rfl⟩
  | radius hform hspace hn =>
      refine Or.inr ⟨?_, _, _, hn, Or.inl ⟨rfl, ?_⟩⟩
      · rintro p rfl
        exact Property.name_ne_numbered.1 hform
      · simpa using map_splitAt_eq_iff.mp (splitAt_radius hform hspace)
  | @entryData _ cs _ hform hspace hn =>
      have hparts := @splitAt_entry key cs "data".toList hform hspace (by decide)
      refine Or.inr ⟨?_, _, _, hn, Or.inr (Or.inl ⟨rfl, ?_⟩)⟩
      · rintro p rfl
        exact Property.name_ne_numbered.2.1 hform
      · simpa using map_splitAt_eq_iff.mp hparts
  | @entryColor _ cs _ hform hspace hn =>
      have hparts := @splitAt_entry key cs "color".toList hform hspace (by decide)
      refine Or.inr ⟨?_, _, _, hn, Or.inr (Or.inr ⟨rfl, ?_⟩)⟩
      · rintro p rfl
        exact Property.name_ne_numbered.2.2 hform
      · simpa using map_splitAt_eq_iff.mp hparts

/-- A key is about one target. -/
theorem Target.Key.unique {key : String} {t u : Target} (ht : t.Key key) (hu : u.Key key) :
    t = u := by
  rcases ht.name_or_parts with ⟨p, rfl, rfl⟩ | ⟨hnone, cs, n, hn, ht⟩
  · rcases hu.name_or_parts with ⟨q, rfl, hname⟩ | ⟨hnone, _⟩
    · have hfound := Property.ofName?_name p
      rw [hname, Property.ofName?_name] at hfound
      rw [Option.some.inj hfound]
    · exact absurd rfl (hnone p)
  · rcases hu.name_or_parts with ⟨q, rfl, rfl⟩ | ⟨_, ds, m, hm, hu⟩
    · exact absurd rfl (hnone q)
    · -- the parts agree, and with them the words around the number
      have hwords : "radius".toList ≠ "entry".toList ∧ "data".toList ≠ "color".toList := by decide
      rcases ht with ⟨rfl, hparts⟩ | ⟨rfl, hparts⟩ | ⟨rfl, hparts⟩ <;>
        rcases hu with ⟨rfl, hsame⟩ | ⟨rfl, hsame⟩ | ⟨rfl, hsame⟩ <;>
        rw [hparts] at hsame <;>
        simp only [List.cons.injEq, hwords.1, hwords.1.symm, hwords.2, hwords.2.symm, false_and,
          and_false, reduceCtorEq] at hsame
      all_goals
        obtain ⟨_, rfl, _⟩ := hsame
        rw [IsNumeral.unique hn hm]

/-! ## Values -/

/-- Whether a fact has numbers that its value is read for. -/
def Fact.hasNumbers : Fact → Bool
  | .size _ _ | .quantity _ _ | .intervals (some _) | .entryData _ _ => true
  | _ => false

theorem readAtLeast_eq_ok_iff {minimum : Nat} {p : Property} {n m : Nat} {line : Int} :
    readAtLeast minimum p n line = .ok m ↔ minimum ≤ n ∧ n = m := by
  unfold readAtLeast
  split <;> rename_i h
  · simp [h]
  · simp [h]

theorem value_of_readSize {value : String} {line : Int} {fact : Fact}
    (h : readSize value.toList line = .ok fact) : Property.Value .size value fact := by
  unfold readSize at h
  split at h
  · rename_i ds es hpieces
    obtain ⟨as, _, hsplit, has, hrest⟩ := List.map_eq_cons_iff.mp hpieces
    obtain ⟨bs, _, rfl, hbs, hnil⟩ := List.map_eq_cons_iff.mp hrest
    obtain rfl := List.map_eq_nil_iff.mp hnil
    obtain ⟨hvalue, _⟩ := splitAt_eq_pair_iff.mp hsplit
    simp only [bind_eq_ok_iff, orFault_eq_ok_iff, numeralValue_eq_ok_iff] at h
    obtain ⟨width, ⟨_, hwidth⟩, height, ⟨_, hheight⟩, h⟩ := h
    split at h
    · rename_i hmin
      rw [pure_eq_ok_iff] at h
      subst h
      exact .size hvalue (isNumeral_iff.mpr ⟨ds, has, hwidth⟩)
        (isNumeral_iff.mpr ⟨es, hbs, hheight⟩) hmin.1 hmin.2
    · exact absurd h reject_ne_ok
  · exact absurd h reject_ne_ok

/-- A size is divided into its two numerals: no numeral holds the sign between them. -/
theorem pieces_of_isNumeral {as bs : List Char} {width height : Nat} (has : IsNumeral as width)
    (hbs : IsNumeral bs height) :
    ∃ ds es, (splitAt 'x' (as ++ 'x' :: bs)).map numeralDigits? = [some ds, some es] ∧
      (numeralDigits? as = some ds ∧ width = Nat.ofDigitChars 10 ds 0) ∧
      numeralDigits? bs = some es ∧ height = Nat.ofDigitChars 10 es 0 := by
  have hx : ∀ {cs : List Char} {n : Nat}, IsNumeral cs n → 'x' ∉ cs := by
    intro cs n hn hmem
    rcases hn.isDigit_or_isAsciiBlank hmem with h | h <;> exact absurd h (by decide)
  obtain ⟨ds, hds, hwidth⟩ := isNumeral_iff.mp has
  obtain ⟨es, hes, hheight⟩ := isNumeral_iff.mp hbs
  refine ⟨ds, es, ?_, ⟨hds, hwidth⟩, hes, hheight⟩
  rw [splitAt_append (hx has), splitAt_of_not_mem (hx hbs), List.map_cons, List.map_cons, hds,
    hes, List.map_nil]

theorem readSize_of_form {as bs : List Char} {width height : Nat} {line : Int}
    (has : IsNumeral as width) (hbs : IsNumeral bs height)
    (hcs : DigitsWithin digitLimit (as ++ 'x' :: bs)) :
    readSize (as ++ 'x' :: bs) line =
      if 1 ≤ width ∧ 1 ≤ height then pure (.size width height)
      else reject (.belowMinimum .size 1) line := by
  obtain ⟨ds, es, hpieces, ⟨hds, rfl⟩, hes, rfl⟩ := pieces_of_isNumeral has hbs
  have hdslen : ds.length ≤ digitLimit :=
    length_le_of_numeralDigits? hds (hcs.of_isInfix (List.prefix_append _ _).isInfix)
  have heslen : es.length ≤ digitLimit :=
    length_le_of_numeralDigits? hes
      (hcs.of_isInfix ((List.suffix_cons _ _).trans (List.suffix_append _ _)).isInfix)
  rw [readSize, hpieces]
  simp only [numeralValue, if_pos hdslen, if_pos heslen]
  rfl

theorem readQuantity_of_isNumeral {q : Quantity} {cs : List Char} {n : Nat} {line : Int}
    (hn : IsNumeral cs n) (hcs : DigitsWithin digitLimit cs) :
    readQuantity q cs line =
      if q.minimum ≤ n then pure (.quantity q n)
      else reject (.belowMinimum (.quantity q) q.minimum) line := by
  rw [readQuantity, readNumeral_of_isNumeral hn hcs]
  show (readAtLeast _ _ _ _ >>= fun m => pure (Fact.quantity q m)) = _
  unfold readAtLeast
  split <;> rfl

theorem value_of_readQuantity {q : Quantity} {value : String} {line : Int} {fact : Fact}
    (h : readQuantity q value.toList line = .ok fact) :
    Property.Value (.quantity q) value fact := by
  simp only [readQuantity, bind_eq_ok_iff, orFault_eq_ok_iff] at h
  obtain ⟨number?, hread, h⟩ := h
  cases number? with
  | none => exact absurd h reject_ne_ok
  | some n =>
      simp only [bind_eq_ok_iff, readAtLeast_eq_ok_iff, pure_eq_ok_iff] at h
      obtain ⟨_, ⟨hmin, rfl⟩, rfl⟩ := h
      exact .quantity (isNumeral_of_readNumeral hread) hmin

theorem readIntervals_of_isNumeral {cs : List Char} {n : Nat} {line : Int}
    (hn : IsNumeral cs n) (hcs : DigitsWithin digitLimit cs) :
    readIntervals cs line =
      if 1 ≤ n then pure (.intervals (some n)) else reject (.belowMinimum .intervals 1) line := by
  rw [readIntervals, readNumeral_of_isNumeral hn hcs]
  show (readAtLeast _ _ _ _ >>= fun m => pure (Fact.intervals (some m))) = _
  unfold readAtLeast
  split <;> rfl

theorem value_of_readIntervals {value : String} {line : Int} {fact : Fact}
    (h : readIntervals value.toList line = .ok fact) : Property.Value .intervals value fact := by
  simp only [readIntervals, bind_eq_ok_iff, orFault_eq_ok_iff] at h
  obtain ⟨number?, hread, h⟩ := h
  cases number? with
  | none =>
      simp only at h
      split at h
      · rename_i hnone
        rw [pure_eq_ok_iff] at h
        subst h
        exact .withoutRings ((trim_eq_iff (by decide)).mp hnone)
      · exact absurd h reject_ne_ok
  | some n =>
      simp only [bind_eq_ok_iff, readAtLeast_eq_ok_iff, pure_eq_ok_iff] at h
      obtain ⟨_, ⟨hmin, rfl⟩, rfl⟩ := h
      exact .rings (isNumeral_of_readNumeral hread) hmin

theorem ofList_trim_eq_iff {cs : List Char} {word : String} (h : Bare isBlank word.toList) :
    String.ofList (trim isBlank cs) = word ↔ Padded isBlank word.toList cs := by
  rw [← trim_eq_iff h, ← String.ofList_inj, String.ofList_toList]

theorem value_of_readFlag {f : Flag} {value : String} {line : Int} {fact : Fact}
    (h : readFlag f value.toList line = .ok fact) : Property.Value (.flag f) value fact := by
  unfold readFlag at h
  split at h
  · rename_i hyes
    rw [pure_eq_ok_iff] at h
    subst h
    exact .yes ((ofList_trim_eq_iff (by decide)).mp hyes)
  · rename_i hno
    rw [pure_eq_ok_iff] at h
    subst h
    exact .no ((ofList_trim_eq_iff (by decide)).mp hno)
  · exact absurd h reject_ne_ok

theorem value_of_readTop {value : String} {line : Int} {fact : Fact}
    (h : readTop value.toList line = .ok fact) : Property.Value .top value fact := by
  unfold readTop at h
  split at h
  · rename_i hword
    rw [pure_eq_ok_iff] at h
    subst h
    exact .top (by decide) ((ofList_trim_eq_iff (by decide)).mp hword)
  · rename_i hword
    rw [pure_eq_ok_iff] at h
    subst h
    exact .top (by decide) ((ofList_trim_eq_iff (by decide)).mp hword)
  · rename_i hword
    rw [pure_eq_ok_iff] at h
    subst h
    exact .top (by decide) ((ofList_trim_eq_iff (by decide)).mp hword)
  · exact absurd h reject_ne_ok

theorem listWords_of_ne_nil {cs : List Char} (h : words cs ≠ []) : listWords cs = words cs := by
  unfold listWords
  split
  · contradiction
  · rfl

theorem listWords_of_nil {cs : List Char} (h : words cs = []) : listWords cs = [[]] := by
  rw [listWords, h]

theorem Property.value_of_readValue {p : Property} {value : String} {line : Int} {fact : Fact}
    (h : p.readValue value line = .ok fact) : p.Value value fact := by
  cases p with
  | size => exact value_of_readSize h
  | quantity q => exact value_of_readQuantity h
  | paint c =>
      rw [Property.readValue, pure_eq_ok_iff] at h
      subst h
      exact .paint c value
  | flag f => exact value_of_readFlag h
  | intervals => exact value_of_readIntervals h
  | top => exact value_of_readTop h
  | intervalLabels =>
      rw [Property.readValue, pure_eq_ok_iff] at h
      subst h
      by_cases hnil : words value.toList = []
      · rw [listWords_of_nil hnil]
        exact .blankLabels (words_eq_iff.mp hnil)
      · rw [listWords_of_ne_nil hnil]
        exact .intervalLabels (spaced_words value.toList) hnil

theorem Property.readValue_of_value {p : Property} {value : String} {line : Int} {fact : Fact}
    (h : p.Value value fact)
    (hvalue : fact.hasNumbers = true → DigitsWithin digitLimit value.toList) :
    p.readValue value line = .ok fact := by
  cases h with
  | size hsplit has hbs hwidth hheight =>
      have hdigits := hvalue rfl
      rw [hsplit] at hdigits
      rw [Property.readValue, hsplit, readSize_of_form has hbs hdigits, if_pos ⟨hwidth, hheight⟩]
      rfl
  | quantity hnumeral hmin =>
      rw [Property.readValue, readQuantity_of_isNumeral hnumeral (hvalue rfl), if_pos hmin]
      rfl
  | paint c => rfl
  | yes hword =>
      rw [Property.readValue, readFlag, (ofList_trim_eq_iff (by decide)).mpr hword]
      rfl
  | no hword =>
      rw [Property.readValue, readFlag, (ofList_trim_eq_iff (by decide)).mpr hword]
      rfl
  | withoutRings hword =>
      have hread : readNumeral value.toList = .ok none := by
        rw [readNumeral_eq_ok_none_iff]
        intro n
        exact not_isNumeral_of_padded hword (show 'n' ∈ "none".toList by decide) rfl rfl
      -- the numeral is tried first, so it must fail before the word counts
      simp only [Property.readValue, readIntervals, bind_eq_ok_iff, orFault_eq_ok_iff]
      exact ⟨none, hread, by simp [(trim_eq_iff (by decide)).mpr hword]⟩
  | rings hnumeral hmin =>
      rw [Property.readValue, readIntervals_of_isNumeral hnumeral (hvalue rfl), if_pos hmin]
      rfl
  | top hmem hword =>
      simp only [topWords, List.mem_cons, Prod.mk.injEq, List.not_mem_nil, or_false] at hmem
      rcases hmem with ⟨rfl, rfl⟩ | ⟨rfl, rfl⟩ | ⟨rfl, rfl⟩
      · rw [Property.readValue, readTop, (ofList_trim_eq_iff (by decide)).mpr hword]
        rfl
      · rw [Property.readValue, readTop, (ofList_trim_eq_iff (by decide)).mpr hword]
        rfl
      · rw [Property.readValue, readTop, (ofList_trim_eq_iff (by decide)).mpr hword]
        rfl
  | intervalLabels hspaced hne =>
      rw [← words_eq_iff] at hspaced
      subst hspaced
      rw [Property.readValue, listWords_of_ne_nil hne]
      rfl
  | blankLabels hspaced =>
      rw [Property.readValue, listWords_of_nil (words_eq_iff.mpr hspaced)]
      rfl

theorem allNumbers_eq_ok_iff {position : Nat} {numbers : List (Option Nat)} {ns : List Nat} :
    allNumbers position numbers = .ok ns ↔ numbers = ns.map some := by
  induction numbers generalizing position ns with
  | nil => cases ns <;> simp [allNumbers]
  | cons number numbers ih =>
      cases number with
      | none => cases ns <;> simp [allNumbers]
      | some n =>
          simp only [allNumbers, map_eq_ok_iff, ih]
          constructor
          · rintro ⟨ms, rfl, rfl⟩
            rfl
          · intro h
            cases ns with
            | nil => exact absurd h (List.cons_ne_nil _ _)
            | cons m ms =>
                obtain ⟨hm, hms⟩ := List.cons.inj h
                exact ⟨ms, hms, by rw [Option.some.inj hm]⟩

/-- Data are read exactly where every word of the list is read as a number. -/
theorem readData_eq_ok_iff {cs : List Char} {line : Int} {ns : List Nat} :
    readData cs line = .ok ns ↔
      List.Forall₂ (fun w n => readNumeral w = .ok (some n)) (listWords cs) ns := by
  simp only [readData, bind_eq_ok_iff, mapM_eq_ok_iff, orFault_eq_ok_iff]
  constructor
  · rintro ⟨numbers, hread, h⟩
    split at h
    · rename_i ms hms
      rw [pure_eq_ok_iff] at h
      subst h
      rw [allNumbers_eq_ok_iff.mp hms, List.forall₂_map_right_iff] at hread
      exact hread
    · exact absurd h reject_ne_ok
  · intro h
    refine ⟨ns.map some, List.forall₂_map_right_iff.mpr h, ?_⟩
    rw [allNumbers_eq_ok_iff.mpr rfl]
    rfl

theorem Target.value_of_readValue {t : Target} {withData : List Nat} {value : String} {line : Int}
    {fact : Fact} (h : t.readValue withData value line = .ok fact) : t.Value value fact := by
  cases t with
  | property p => exact .property (Property.value_of_readValue h)
  | radius n =>
      rw [Target.readValue, pure_eq_ok_iff] at h
      subst h
      exact .radius n value
  | entryColor n =>
      rw [Target.readValue, pure_eq_ok_iff] at h
      subst h
      exact .entryColor n value
  | entryData n =>
      rw [Target.readValue] at h
      split at h
      · exact absurd h reject_ne_ok
      · simp only [bind_eq_ok_iff, readData_eq_ok_iff, pure_eq_ok_iff] at h
        obtain ⟨ns, hread, rfl⟩ := h
        have hnumerals : List.Forall₂ IsNumeral (listWords value.toList) ns :=
          hread.imp fun _ _ => isNumeral_of_readNumeral
        by_cases hnil : words value.toList = []
        · -- a value without words counts as one empty word, which is no numeral
          rw [listWords_of_nil hnil] at hread
          obtain _ | ⟨hempty, _⟩ := hread
          exact absurd hempty (by simp [readNumeral, numeralDigits?, trim, trimLeft])
        · rw [listWords_of_ne_nil hnil] at hnumerals
          exact .entryData (spaced_words value.toList) hnil hnumerals

theorem Target.readValue_of_value {t : Target} {withData : List Nat} {value : String} {line : Int}
    {fact : Fact} (h : t.Value value fact)
    (hvalue : fact.hasNumbers = true → DigitsWithin digitLimit value.toList)
    (hnew : ∀ n values, fact = .entryData n values → n ∉ withData) :
    t.readValue withData value line = .ok fact := by
  cases h with
  | property hproperty => exact Property.readValue_of_value hproperty hvalue
  | radius n => rfl
  | entryColor n => rfl
  | entryData hspaced hne hnumerals =>
      rw [← words_eq_iff] at hspaced
      subst hspaced
      rw [Target.readValue, if_neg (hnew _ _ rfl)]
      simp only [bind_eq_ok_iff, readData_eq_ok_iff, listWords_of_ne_nil hne]
      refine ⟨_, ?_, rfl⟩
      refine List.Forall₂.imp ?_ ((List.forall₂_and_left _ _).mpr ⟨fun w hw => hw, hnumerals⟩)
      rintro w n ⟨hw, hn⟩
      have hpart := (spaced_words value.toList).infix_of_mem hw
      exact readNumeral_of_isNumeral hn ((hvalue rfl).of_isInfix hpart)

/-! ## Items -/

/-- The statement is what the item says, at the line of the item. -/
def Statement.IsOf (item : Item) (s : Statement) : Prop :=
  s.line = item.line ∧ item.Says s.fact

/-- The texts of an item that are read for numbers have no digits beyond the limit. -/
def Item.Readable (item : Item) (fact : Fact) : Prop :=
  DigitsWithin digitLimit item.key.toList ∧
    (fact.hasNumbers = true → DigitsWithin digitLimit item.value.toList)

/-- The entry that a fact gives data. -/
def Fact.dataNumber? : Fact → Option Nat
  | .entryData n _ => some n
  | _ => none

theorem Fact.dataNumber?_eq_some_iff {fact : Fact} {n : Nat} :
    fact.dataNumber? = some n ↔ ∃ values, fact = .entryData n values := by
  cases fact <;> simp [Fact.dataNumber?]

/-- The entries that are given data, as often as they are. -/
def dataNumbers (ss : List Statement) : List Nat :=
  ss.filterMap (·.fact.dataNumber?)

theorem mem_dataNumbers_cons {s : Statement} {ss : List Statement} {n : Nat} :
    n ∈ dataNumbers (s :: ss) ↔ n ∈ s.fact.dataNumber? ∨ n ∈ dataNumbers ss := by
  simp [dataNumbers]

theorem nodup_dataNumbers_cons {s : Statement} {ss : List Statement} :
    (dataNumbers (s :: ss)).Nodup ↔
      (∀ n ∈ s.fact.dataNumber?, n ∉ dataNumbers ss) ∧ (dataNumbers ss).Nodup := by
  unfold dataNumbers
  rw [List.filterMap_cons]
  cases s.fact.dataNumber? with
  | none => simp
  | some n => simp [List.nodup_cons]

theorem Fact.mem_addData {withData : List Nat} {fact : Fact} {n : Nat} :
    n ∈ fact.addData withData ↔ n ∈ fact.dataNumber? ∨ n ∈ withData := by
  cases fact <;> simp [Fact.addData, Fact.dataNumber?, eq_comm]

theorem Item.isOf_of_read {withData : List Nat} {item : Item} {s : Statement}
    (h : item.read withData = .ok s) :
    s.IsOf item ∧ ∀ n ∈ s.fact.dataNumber?, n ∉ withData := by
  simp only [Item.read, bind_eq_ok_iff, pure_eq_ok_iff] at h
  obtain ⟨t, ht, fact, hfact, rfl⟩ := h
  refine ⟨⟨rfl, t, Target.key_of_read ht, Target.value_of_readValue hfact⟩, ?_⟩
  intro n hn hmem
  cases t with
  | entryData m =>
      rw [Target.readValue] at hfact
      split at hfact
      · exact reject_ne_ok hfact
      · rename_i hm
        simp only [bind_eq_ok_iff, pure_eq_ok_iff] at hfact
        obtain ⟨values, _, rfl⟩ := hfact
        obtain rfl : m = n := by simpa [Fact.dataNumber?] using hn
        exact hm hmem
  | property p =>
      cases Target.value_of_readValue hfact with
      | property hp => cases hp <;> simp [Fact.dataNumber?] at hn
  | radius m => cases Target.value_of_readValue hfact; simp [Fact.dataNumber?] at hn
  | entryColor m => cases Target.value_of_readValue hfact; simp [Fact.dataNumber?] at hn

theorem Item.read_of_isOf {withData : List Nat} {item : Item} {s : Statement} (h : s.IsOf item)
    (hread : item.Readable s.fact) (hnew : ∀ n ∈ s.fact.dataNumber?, n ∉ withData) :
    item.read withData = .ok s := by
  obtain ⟨line, fact⟩ := s
  obtain ⟨rfl, t, hkey, hvalue⟩ := h
  simp only [Item.read, bind_eq_ok_iff, pure_eq_ok_iff]
  refine ⟨t, Target.read_of_key hkey hread.1, fact, ?_, rfl⟩
  apply Target.readValue_of_value hvalue hread.2
  rintro n values rfl
  exact hnew n rfl

/-- Which entries have data matters to an item only where it gives data to one of them. -/
theorem Item.read_eq_ok_iff (withData : List Nat) {item : Item} {s : Statement} :
    item.read withData = .ok s ↔
      item.read [] = .ok s ∧ ∀ n ∈ s.fact.dataNumber?, n ∉ withData := by
  constructor
  · intro h
    refine ⟨?_, (Item.isOf_of_read h).2⟩
    simp only [Item.read, bind_eq_ok_iff, pure_eq_ok_iff] at h ⊢
    obtain ⟨t, ht, fact, hfact, rfl⟩ := h
    refine ⟨t, ht, fact, ?_, rfl⟩
    cases t with
    | property p => exact hfact
    | radius n => exact hfact
    | entryColor n => exact hfact
    | entryData n =>
        rw [Target.readValue] at hfact ⊢
        split at hfact
        · exact absurd hfact reject_ne_ok
        · rwa [if_neg List.not_mem_nil]
  · rintro ⟨h, hnew⟩
    simp only [Item.read, bind_eq_ok_iff, pure_eq_ok_iff] at h ⊢
    obtain ⟨t, ht, fact, hfact, rfl⟩ := h
    refine ⟨t, ht, fact, ?_, rfl⟩
    cases t with
    | property p => exact hfact
    | radius n => exact hfact
    | entryColor n => exact hfact
    | entryData n =>
        cases Target.value_of_readValue hfact
        rw [Target.readValue, if_neg (hnew n rfl)]
        rwa [Target.readValue, if_neg List.not_mem_nil] at hfact

/-- Items are read exactly where each of them is on its own, and no entry is
given data twice. -/
theorem readStatementsFrom_eq_ok_iff {withData : List Nat} {items : List Item}
    {ss : List Statement} :
    readStatementsFrom withData items = .ok ss ↔
      List.Forall₂ (fun item s => item.read [] = .ok s) items ss ∧ (dataNumbers ss).Nodup ∧
        ∀ n ∈ dataNumbers ss, n ∉ withData := by
  induction items generalizing withData ss with
  | nil =>
      rw [readStatementsFrom, pure_eq_ok_iff, List.forall₂_nil_left_iff]
      constructor
      · rintro rfl
        simp [dataNumbers]
      · rintro ⟨rfl, _⟩
        rfl
  | cons item items ih =>
      simp only [readStatementsFrom, bind_eq_ok_iff, pure_eq_ok_iff,
        Item.read_eq_ok_iff withData, ih, Fact.mem_addData, not_or]
      constructor
      · -- the data of the later items avoid those of this one as well
        rintro ⟨s, ⟨hs, hnew⟩, ss, ⟨hread, hnodup, hnews⟩, rfl⟩
        refine ⟨.cons hs hread, ?_, ?_⟩
        · exact nodup_dataNumbers_cons.mpr ⟨fun n hn hmem => (hnews n hmem).1 hn, hnodup⟩
        · intro n hmem
          rcases mem_dataNumbers_cons.mp hmem with hn | hmem
          · exact hnew n hn
          · exact (hnews n hmem).2
      · rintro ⟨_ | ⟨hs, hread⟩, hnodup, hnew⟩
        obtain ⟨hfirst, hrest⟩ := nodup_dataNumbers_cons.mp hnodup
        refine ⟨_, ⟨hs, ?_⟩, _, ⟨hread, hrest, ?_⟩, rfl⟩
        · intro n hn
          exact hnew n (mem_dataNumbers_cons.mpr (Or.inl hn))
        · intro n hmem
          exact ⟨fun hn => hfirst n hn hmem, hnew n (mem_dataNumbers_cons.mpr (Or.inr hmem))⟩

/-- What is read follows the forms, and no entry is given data twice. -/
theorem forall₂_isOf_of_readStatementsFrom {withData : List Nat} {items : List Item}
    {ss : List Statement} (h : readStatementsFrom withData items = .ok ss) :
    List.Forall₂ (fun item s => s.IsOf item) items ss ∧ (dataNumbers ss).Nodup ∧
      ∀ n ∈ dataNumbers ss, n ∉ withData := by
  obtain ⟨hread, hnodup, hnew⟩ := readStatementsFrom_eq_ok_iff.mp h
  exact ⟨hread.imp fun _ _ hs => (Item.isOf_of_read hs).1, hnodup, hnew⟩

/-- What follows the forms is read, as long as no entry is given data twice. -/
theorem readStatementsFrom_of_forall₂_isOf {withData : List Nat} {items : List Item}
    {ss : List Statement}
    (h : List.Forall₂ (fun item s => s.IsOf item ∧ item.Readable s.fact) items ss)
    (hnodup : (dataNumbers ss).Nodup) (hnew : ∀ n ∈ dataNumbers ss, n ∉ withData) :
    readStatementsFrom withData items = .ok ss := by
  refine readStatementsFrom_eq_ok_iff.mpr ⟨h.imp fun _ _ hs => ?_, hnodup, hnew⟩
  exact Item.read_of_isOf hs.1 hs.2 fun _ _ => List.not_mem_nil

end RadarChart
