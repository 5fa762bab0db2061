import RadarChart.Proofs.Document.Failure
import RadarChart.Proofs.Document.Said

/-!
# The mistakes of an item

What can be wrong with a key and with a value, as relations beside those for
the forms that are right. An item with short numerals is read without a fault:
it says something, or it has a mistake, and then the mistake is reported at
the line of the item. Whether data are a mistake depends on the items before.
-/

namespace RadarChart

open Text

/-! ## The relations -/

/-- What is wrong with a number in a key. -/
inductive NumberMistake (what : Numbered) (cs : List Char) : Cause → Prop where
  | notNumeral : (∀ n, ¬ IsNumeral cs n) → NumberMistake what cs (.invalidSpec what)
  | zero : IsNumeral cs 0 → NumberMistake what cs (.specOutOfRange what)

/-- What is wrong with a key that is no property. -/
inductive KeyMistake (key : String) : Cause → Prop where
  | unknown : ¬ "radius ".toList <+: key.toList → ¬ "entry ".toList <+: key.toList →
      KeyMistake key (.unknownProperty key)
  | radiusParts {cs : List Char} : key.toList = "radius ".toList ++ cs → ' ' ∈ cs →
      KeyMistake key (.invalidSpec .radius)
  | radiusNumber {cs : List Char} {cause : Cause} : key.toList = "radius ".toList ++ cs →
      ' ' ∉ cs → NumberMistake .radius cs cause → KeyMistake key cause
  | entryParts {cs : List Char} : key.toList = "entry ".toList ++ cs → cs.count ' ' ≠ 1 →
      KeyMistake key (.invalidSpec .entry)
  | entryNumber {cs name : List Char} {cause : Cause} :
      key.toList = "entry ".toList ++ cs ++ ' ' :: name → ' ' ∉ cs → ' ' ∉ name →
      NumberMistake .entry cs cause → KeyMistake key cause
  | characteristic {cs : List Char} {name : String} {n : Nat} :
      key.toList = "entry ".toList ++ cs ++ ' ' :: name.toList → ' ' ∉ cs → ' ' ∉ name.toList →
      IsNumeral cs n → 1 ≤ n → name ≠ "data" → name ≠ "color" →
      KeyMistake key (.unknownCharacteristic name)

/-- What is wrong with the value of a property. -/
inductive Property.Mistake : Property → String → Cause → Prop where
  | size {value : String} :
      (∀ as bs width height, value.toList = as ++ 'x' :: bs → IsNumeral as width →
        ¬ IsNumeral bs height) → Mistake .size value (.improperValue .size)
  | emptySize {value : String} {as bs : List Char} {width height : Nat} :
      value.toList = as ++ 'x' :: bs → IsNumeral as width → IsNumeral bs height →
      ¬ (1 ≤ width ∧ 1 ≤ height) → Mistake .size value (.belowMinimum .size 1)
  | quantity {q : Quantity} {value : String} : (∀ n, ¬ IsNumeral value.toList n) →
      Mistake (.quantity q) value (.improperValue (.quantity q))
  | smallQuantity {q : Quantity} {value : String} {n : Nat} : IsNumeral value.toList n →
      n < q.minimum → Mistake (.quantity q) value (.belowMinimum (.quantity q) q.minimum)
  | flag {f : Flag} {value : String} : ¬ Padded isBlank "yes".toList value.toList →
      ¬ Padded isBlank "no".toList value.toList →
      Mistake (.flag f) value (.improperValue (.flag f))
  | intervals {value : String} : (∀ n, ¬ IsNumeral value.toList n) →
      ¬ Padded isBlank "none".toList value.toList →
      Mistake .intervals value (.improperValue .intervals)
  | zeroIntervals {value : String} : IsNumeral value.toList 0 →
      Mistake .intervals value (.belowMinimum .intervals 1)
  | top {value : String} :
      (∀ word o, (word, o) ∈ topWords → ¬ Padded isBlank word.toList value.toList) →
      Mistake .top value (.improperValue .top)

/-- What is wrong with the value of a target, where `given` are the entries
that have been given data. -/
inductive Target.Mistake (given : Nat → Prop) : Target → String → Cause → Prop where
  | property {p : Property} {value : String} {cause : Cause} :
      p.Mistake value cause → Mistake given (.property p) value cause
  | repeated {n : Nat} (value : String) : given n →
      Mistake given (.entryData n) value (.repeatedData n)
  | noData {n : Nat} {value : String} : ¬ given n → Spaced [] value.toList →
      Mistake given (.entryData n) value (.notANumber 1)
  | data {n : Nat} {value : String} {before after : List (List Char)} {w : List Char} :
      ¬ given n → Spaced (before ++ w :: after) value.toList →
      (∀ v ∈ before, ∃ m, IsNumeral v m) → (∀ m, ¬ IsNumeral w m) →
      Mistake given (.entryData n) value (.notANumber (before.length + 1))

/-- What is wrong with an item. -/
inductive Item.Mistake (given : Nat → Prop) (item : Item) : Cause → Prop where
  | key {cause : Cause} : (∀ p : Property, p.name ≠ item.key) → KeyMistake item.key cause →
      Mistake given item cause
  | value {t : Target} {cause : Cause} : t.Key item.key → t.Mistake given item.value cause →
      Mistake given item cause

/-! ## Keys -/

/-- A text with short runs of digits is read as the numeral that it is, or as none. -/
theorem readNumeral_cases {cs : List Char} (h : DigitsWithin digitLimit cs) :
    (∃ n, IsNumeral cs n ∧ readNumeral cs = .ok (some n)) ∨
      (∀ n, ¬ IsNumeral cs n) ∧ readNumeral cs = .ok none := by
  by_cases hcs : ∃ n, IsNumeral cs n
  · obtain ⟨n, hn⟩ := hcs
    exact Or.inl ⟨n, hn, readNumeral_of_isNumeral hn h⟩
  · rw [not_exists] at hcs
    exact Or.inr ⟨hcs, readNumeral_eq_ok_none_iff.mpr hcs⟩

theorem readNumber_eq_error_iff {what : Numbered} {cs : List Char} {line : Int}
    {failure : Failure} (hcs : DigitsWithin digitLimit cs) :
    readNumber what cs line = .error failure ↔
      ∃ cause, NumberMistake what cs cause ∧ failure = .problem ⟨cause, line⟩ := by
  unfold readNumber
  constructor
  · intro h
    rcases readNumeral_cases hcs with ⟨n, hn, hread⟩ | ⟨hnone, hread⟩
    · rw [hread] at h
      cases n with
      | zero => exact ⟨_, .zero hn, reject_eq_error_iff.mp h⟩
      | succ n => cases h
    · rw [hread] at h
      exact ⟨_, .notNumeral hnone, reject_eq_error_iff.mp h⟩
  · rintro ⟨cause, hmistake, rfl⟩
    cases hmistake with
    | notNumeral hnone =>
        rw [readNumeral_eq_ok_none_iff.mpr hnone]
        rfl
    | zero hzero =>
        rw [readNumeral_of_isNumeral hzero hcs]
        rfl

theorem length_splitAt (sep : Char) (cs : List Char) :
    (splitAt sep cs).length = cs.count sep + 1 := by
  induction cs with
  | nil => rfl
  | cons c cs ih =>
      rw [splitAt]
      by_cases hc : c = sep
      · rw [if_pos hc, List.length_cons, ih, hc, List.count_cons_self]
      · rw [if_neg hc, List.count_cons_of_ne hc]
        split <;> rename_i hsplit
        · exact absurd hsplit (splitAt_ne_nil sep cs)
        · rw [hsplit] at ih
          exact ih

/-- A key that starts with a word and a space is divided after that word, and
what follows has the pieces that it has alone. -/
theorem parts_of_prefix (word : String) {key : String} {cs : List Char} (hword : ' ' ∉ word.toList)
    (hkey : key.toList = word.toList ++ ' ' :: cs) :
    ∃ number rest, (splitAt ' ' key.toList).map String.ofList = word :: number :: rest ∧
      rest.length = cs.count ' ' := by
  cases hsplit : splitAt ' ' cs with
  | nil => exact absurd hsplit (splitAt_ne_nil ' ' cs)
  | cons p ps =>
      have hlength : ps.length = cs.count ' ' := by
        have hcount := length_splitAt ' ' cs
        rw [hsplit, List.length_cons] at hcount
        omega
      refine ⟨String.ofList p, ps.map String.ofList, ?_, by rw [List.length_map, hlength]⟩
      rw [hkey, splitAt_append hword, hsplit]
      simp

/-- The pieces of a key say how it starts and how many spaces follow. -/
theorem prefix_of_parts {key word number : String} {rest : List String}
    (hparts : (splitAt ' ' key.toList).map String.ofList = word :: number :: rest) :
    ∃ cs, key.toList = word.toList ++ ' ' :: cs ∧ cs.count ' ' = rest.length ∧
      splitAt ' ' cs = number.toList :: rest.map String.toList := by
  obtain ⟨cs, hkey, _, hcs⟩ := splitAt_eq_cons_cons (map_splitAt_eq_iff.mp hparts)
  refine ⟨cs, hkey, ?_, hcs⟩
  have hcount := length_splitAt ' ' cs
  rw [hcs, List.length_cons, List.length_map] at hcount
  omega

theorem Property.name_ne_of_ofName?_eq_none {key : String} (h : Property.ofName? key = none)
    (p : Property) : p.name ≠ key := by
  rintro rfl
  rw [Property.ofName?_name] at h
  cases h

theorem keyMistake_of_read {key : String} {line : Int} {failure : Failure}
    (hkey : DigitsWithin digitLimit key.toList) (h : Target.read key line = .error failure) :
    (∀ p : Property, p.name ≠ key) ∧
      ∃ cause, KeyMistake key cause ∧ failure = .problem ⟨cause, line⟩ := by
  unfold Target.read at h
  split at h
  · cases h
  rename_i hnone
  refine ⟨Property.name_ne_of_ofName?_eq_none hnone, ?_⟩
  split at h
  · rename_i number rest hparts
    obtain ⟨cs, hform, hcount, hcs⟩ := prefix_of_parts hparts
    split at h
    · simp only [bind_eq_error_iff, pure_ne_error, and_false, exists_false, or_false] at h
      obtain ⟨rfl, hspace⟩ := splitAt_eq_singleton hcs
      have hnumber : DigitsWithin digitLimit number.toList :=
        hkey.of_isInfix (hform ▸ ((List.suffix_cons _ _).trans (List.suffix_append _ _)).isInfix)
      obtain ⟨cause, hmistake, rfl⟩ := (readNumber_eq_error_iff hnumber).mp h
      exact ⟨cause, .radiusNumber hform hspace hmistake, rfl⟩
    · rename_i hrest
      have hpos : 0 < cs.count ' ' := by
        rw [hcount]
        exact List.length_pos_iff.mpr hrest
      exact ⟨_, .radiusParts hform (List.count_pos_iff.mp hpos), reject_eq_error_iff.mp h⟩
  · rename_i number rest hparts
    obtain ⟨cs, hform, hcount, hcs⟩ := prefix_of_parts hparts
    split at h
    · rename_i name
      obtain ⟨rfl, hspace, hname⟩ := splitAt_eq_pair_iff.mp hcs
      have hentry : key.toList = "entry ".toList ++ number.toList ++ ' ' :: name.toList := by
        rw [hform, List.append_assoc]
        rfl
      have hnumber : DigitsWithin digitLimit number.toList :=
        hkey.of_isInfix (hentry ▸ List.infix_append _ _ _)
      rw [bind_eq_error_iff] at h
      rcases h with h | ⟨n, hn, h⟩
      · obtain ⟨cause, hmistake, rfl⟩ := (readNumber_eq_error_iff hnumber).mp h
        exact ⟨cause, .entryNumber hentry hspace hname hmistake, rfl⟩
      · obtain ⟨hnumeral, hpos⟩ := readNumber_eq_ok hn
        split at h
        · cases h
        · cases h
        · rename_i hdata hcolor
          exact ⟨_, .characteristic hentry hspace hname hnumeral hpos hdata hcolor,
            reject_eq_error_iff.mp h⟩
    · rename_i hrest
      refine ⟨_, .entryParts hform ?_, reject_eq_error_iff.mp h⟩
      rw [hcount]
      intro hone
      obtain ⟨name, rfl⟩ := List.length_eq_one_iff.mp hone
      exact hrest name rfl
  · rename_i hradius hentry
    refine ⟨_, .unknown ?_ ?_, reject_eq_error_iff.mp h⟩
    · rintro ⟨cs, hcs⟩
      obtain ⟨number, rest, hparts, _⟩ := parts_of_prefix "radius" (by decide) hcs.symm
      exact hradius number rest hparts
    · rintro ⟨cs, hcs⟩
      obtain ⟨number, rest, hparts, _⟩ := parts_of_prefix "entry" (by decide) hcs.symm
      exact hentry number rest hparts

theorem read_of_keyMistake {key : String} {line : Int} {cause : Cause}
    (hkey : DigitsWithin digitLimit key.toList) (hname : ∀ p : Property, p.name ≠ key)
    (h : KeyMistake key cause) : Target.read key line = .error (.problem ⟨cause, line⟩) := by
  have hnone : Property.ofName? key = none := Property.ofName?_eq_none fun p _ => hname p
  cases h with
  | unknown hradius hentry =>
      rw [Target.read, hnone]
      simp only
      split
      · rename_i hparts
        obtain ⟨cs, hform, _⟩ := prefix_of_parts hparts
        exact absurd ⟨cs, hform.symm⟩ hradius
      · rename_i hparts
        obtain ⟨cs, hform, _⟩ := prefix_of_parts hparts
        exact absurd ⟨cs, hform.symm⟩ hentry
      · rfl
  | @radiusParts cs hform hspace =>
      obtain ⟨number, rest, hparts, hrest⟩ := parts_of_prefix "radius" (by decide) hform
      have hpos : 0 < rest.length := hrest ▸ List.count_pos_iff.mpr hspace
      obtain ⟨part, rest, rfl⟩ := List.exists_cons_of_length_pos hpos
      rw [Target.read, hnone, hparts]
      rfl
  | @radiusNumber cs _ hform hspace hmistake =>
      have hcs : DigitsWithin digitLimit cs :=
        hkey.of_isInfix (hform ▸ (List.suffix_append _ _).isInfix)
      rw [Target.read, hnone, splitAt_radius hform hspace]
      simp only [String.toList_ofList, bind_eq_error_iff]
      exact Or.inl ((readNumber_eq_error_iff hcs).mpr ⟨cause, hmistake, rfl⟩)
  | @entryParts cs hform hcount =>
      obtain ⟨number, rest, hparts, hrest⟩ := parts_of_prefix "entry" (by decide) hform
      replace hcount : rest.length ≠ 1 := fun hone => hcount (hrest.symm.trans hone)
      rw [Target.read, hnone, hparts]
      simp only
      split
      · exact absurd rfl hcount
      · rfl
  | @entryNumber cs name _ hform hspace hnameSpace hmistake =>
      have hcs : DigitsWithin digitLimit cs := hkey.of_isInfix (hform ▸ List.infix_append _ _ _)
      rw [Target.read, hnone, splitAt_entry hform hspace hnameSpace]
      simp only [String.toList_ofList, bind_eq_error_iff]
      exact Or.inl ((readNumber_eq_error_iff hcs).mpr ⟨cause, hmistake, rfl⟩)
  | @characteristic cs name n hform hspace hnameSpace hnumeral hn hdata hcolor =>
      have hcs : DigitsWithin digitLimit cs := hkey.of_isInfix (hform ▸ List.infix_append _ _ _)
      rw [Target.read, hnone, splitAt_entry hform hspace hnameSpace]
      simp only [String.toList_ofList, String.ofList_toList, bind_eq_error_iff]
      exact Or.inr ⟨n, readNumber_of_isNumeral hnumeral hn hcs, rfl⟩

/-! ## Values -/

/-- A text that is not two numerals around the sign is no size. -/
theorem readSize_of_not_form {cs : List Char} {line : Int}
    (h : ∀ as bs width height, cs = as ++ 'x' :: bs → IsNumeral as width →
      ¬ IsNumeral bs height) :
    readSize cs line = reject (.improperValue .size) line := by
  unfold readSize
  split
  · rename_i ds es hpieces
    obtain ⟨as, _, hsplit, has, hrest⟩ := List.map_eq_cons_iff.mp hpieces
    obtain ⟨bs, _, rfl, hbs, hnil⟩ := List.map_eq_cons_iff.mp hrest
    obtain rfl := List.map_eq_nil_iff.mp hnil
    obtain ⟨htext, _⟩ := splitAt_eq_pair_iff.mp hsplit
    exact absurd (isNumeral_iff.mpr ⟨es, hbs, rfl⟩)
      (h as bs _ _ htext (isNumeral_iff.mpr ⟨ds, has, rfl⟩))
  · rfl

theorem readQuantity_of_not_isNumeral {q : Quantity} {cs : List Char} {line : Int}
    (h : ∀ n, ¬ IsNumeral cs n) :
    readQuantity q cs line = reject (.improperValue (.quantity q)) line := by
  rw [readQuantity, readNumeral_eq_ok_none_iff.mpr h]
  rfl

theorem readIntervals_of_not_isNumeral {cs : List Char} {line : Int}
    (h : ∀ n, ¬ IsNumeral cs n) :
    readIntervals cs line =
      if trim isBlank cs = "none".toList then pure (.intervals none)
      else reject (.improperValue .intervals) line := by
  rw [readIntervals, readNumeral_eq_ok_none_iff.mpr h]
  rfl

theorem Property.mistake_of_readValue {p : Property} {value : String} {line : Int}
    {failure : Failure} (hvalue : DigitsWithin digitLimit value.toList)
    (h : p.readValue value line = .error failure) :
    ∃ cause, p.Mistake value cause ∧ failure = .problem ⟨cause, line⟩ := by
  cases p with
  | size =>
      by_cases hform : ∃ as bs width height, value.toList = as ++ 'x' :: bs ∧
          IsNumeral as width ∧ IsNumeral bs height
      · obtain ⟨as, bs, width, height, hsplit, has, hbs⟩ := hform
        rw [Property.readValue, hsplit, readSize_of_form has hbs (hsplit ▸ hvalue)] at h
        split at h
        · cases h
        · rename_i hempty
          exact ⟨_, .emptySize hsplit has hbs hempty, reject_eq_error_iff.mp h⟩
      · have hnone : ∀ as bs width height, value.toList = as ++ 'x' :: bs → IsNumeral as width →
            ¬ IsNumeral bs height :=
          fun as bs width height hsplit has hbs =>
            hform ⟨as, bs, width, height, hsplit, has, hbs⟩
        rw [Property.readValue, readSize_of_not_form hnone] at h
        exact ⟨_, .size hnone, reject_eq_error_iff.mp h⟩
  | quantity q =>
      by_cases hform : ∃ n, IsNumeral value.toList n
      · obtain ⟨n, hn⟩ := hform
        rw [Property.readValue, readQuantity_of_isNumeral hn hvalue] at h
        split at h
        · cases h
        · rename_i hmin
          exact ⟨_, .smallQuantity hn (Nat.lt_of_not_le hmin), reject_eq_error_iff.mp h⟩
      · rw [not_exists] at hform
        rw [Property.readValue, readQuantity_of_not_isNumeral hform] at h
        exact ⟨_, .quantity hform, reject_eq_error_iff.mp h⟩
  | paint c => cases h
  | flag f =>
      rw [Property.readValue, readFlag] at h
      split at h
      · cases h
      · cases h
      · rename_i hyes hno
        refine ⟨_, .flag ?_ ?_, reject_eq_error_iff.mp h⟩
        · exact fun hword => hyes ((ofList_trim_eq_iff (by decide)).mpr hword)
        · exact fun hword => hno ((ofList_trim_eq_iff (by decide)).mpr hword)
  | intervals =>
      by_cases hform : ∃ n, IsNumeral value.toList n
      · obtain ⟨n, hn⟩ := hform
        rw [Property.readValue, readIntervals_of_isNumeral hn hvalue] at h
        split at h
        · cases h
        · rename_i hmin
          obtain rfl : n = 0 := by omega
          exact ⟨_, .zeroIntervals hn, reject_eq_error_iff.mp h⟩
      · rw [not_exists] at hform
        rw [Property.readValue, readIntervals_of_not_isNumeral hform] at h
        split at h
        · cases h
        · rename_i hword
          refine ⟨_, .intervals hform ?_, reject_eq_error_iff.mp h⟩
          exact fun hpadded => hword ((trim_eq_iff (by decide)).mpr hpadded)
  | top =>
      rw [Property.readValue, readTop] at h
      split at h
      · cases h
      · cases h
      · cases h
      · rename_i hradius hfirst hlast
        refine ⟨_, .top ?_, reject_eq_error_iff.mp h⟩
        intro word o hword hpadded
        simp only [topWords, List.mem_cons, Prod.mk.injEq, List.not_mem_nil, or_false] at hword
        rcases hword with ⟨rfl, -⟩ | ⟨rfl, -⟩ | ⟨rfl, -⟩
        · exact hradius ((ofList_trim_eq_iff (by decide)).mpr hpadded)
        · exact hfirst ((ofList_trim_eq_iff (by decide)).mpr hpadded)
        · exact hlast ((ofList_trim_eq_iff (by decide)).mpr hpadded)
  | intervalLabels => cases h

theorem Property.readValue_of_mistake {p : Property} {value : String} {line : Int} {cause : Cause}
    (hvalue : DigitsWithin digitLimit value.toList) (h : p.Mistake value cause) :
    p.readValue value line = .error (.problem ⟨cause, line⟩) := by
  cases h with
  | size hnone => exact readSize_of_not_form hnone
  | emptySize hsplit has hbs hempty =>
      rw [Property.readValue, hsplit, readSize_of_form has hbs (hsplit ▸ hvalue), if_neg hempty]
      rfl
  | quantity hnone => exact readQuantity_of_not_isNumeral hnone
  | smallQuantity hn hlt =>
      rw [Property.readValue, readQuantity_of_isNumeral hn hvalue, if_neg (Nat.not_le.mpr hlt)]
      rfl
  | flag hyes hno =>
      rw [Property.readValue, readFlag]
      split
      · rename_i hword
        exact absurd ((ofList_trim_eq_iff (by decide)).mp hword) hyes
      · rename_i hword
        exact absurd ((ofList_trim_eq_iff (by decide)).mp hword) hno
      · rfl
  | intervals hnone hword =>
      rw [Property.readValue, readIntervals_of_not_isNumeral hnone,
        if_neg fun htrim => hword ((trim_eq_iff (by decide)).mp htrim)]
      rfl
  | zeroIntervals hn =>
      rw [Property.readValue, readIntervals_of_isNumeral hn hvalue]
      rfl
  | top hnone =>
      rw [Property.readValue, readTop]
      split
      · rename_i hword
        exact absurd ((ofList_trim_eq_iff (by decide)).mp hword)
          (hnone "first radius" .firstRadius (by decide))
      · rename_i hword
        exact absurd ((ofList_trim_eq_iff (by decide)).mp hword)
          (hnone "first side" .firstSide (by decide))
      · rename_i hword
        exact absurd ((ofList_trim_eq_iff (by decide)).mp hword)
          (hnone "last side" .lastSide (by decide))
      · rfl

/-! ## Data -/

/-- Either all elements satisfy a property, or there is a first one that does not. -/
theorem forall_or_exists_first {α : Type} (P : α → Prop) (xs : List α) :
    (∀ x ∈ xs, P x) ∨
      ∃ before x after, xs = before ++ x :: after ∧ (∀ y ∈ before, P y) ∧ ¬ P x := by
  induction xs with
  | nil => exact Or.inl (by simp)
  | cons x xs ih =>
      by_cases hx : P x
      · rcases ih with hall | ⟨before, y, after, rfl, hbefore, hy⟩
        · exact Or.inl (List.forall_mem_cons.mpr ⟨hx, hall⟩)
        · exact Or.inr ⟨x :: before, y, after, rfl, List.forall_mem_cons.mpr ⟨hx, hbefore⟩, hy⟩
      · exact Or.inr ⟨[], x, xs, rfl, by simp, hx⟩

/-- Numbers that were read from words stop at the first word that is none. -/
theorem allNumbers_of_first {position : Nat} {numbers : List (Option Nat)}
    {before after : List (List Char)} {w : List Char}
    (hread : List.Forall₂ (fun v number? => readNumeral v = .ok number?)
      (before ++ w :: after) numbers)
    (hbefore : ∀ v ∈ before, ∃ m, IsNumeral v m) (hw : ∀ m, ¬ IsNumeral w m) :
    allNumbers position numbers = .error (position + before.length) := by
  induction before generalizing position numbers with
  | nil =>
      obtain _ | ⟨hnone, _⟩ := hread
      rw [readNumeral_eq_ok_none_iff.mpr hw] at hnone
      cases hnone
      rfl
  | cons v before ih =>
      obtain ⟨⟨m, hm⟩, hbefore⟩ := List.forall_mem_cons.mp hbefore
      obtain _ | ⟨hv, hrest⟩ := hread
      rename_i number? numbers
      cases number? with
      | none => exact absurd hm (readNumeral_eq_ok_none_iff.mp hv m)
      | some n =>
          rw [allNumbers, ih hrest hbefore, List.length_cons]
          show Except.error (position + 1 + before.length) = _
          rw [Nat.add_assoc, Nat.add_comm 1]

theorem readData_of_first {cs : List Char} {line : Int} {before after : List (List Char)}
    {w : List Char} (hwithin : ∀ v ∈ listWords cs, DigitsWithin digitLimit v)
    (hcs : listWords cs = before ++ w :: after) (hbefore : ∀ v ∈ before, ∃ m, IsNumeral v m)
    (hw : ∀ m, ¬ IsNumeral w m) :
    readData cs line = .error (.problem ⟨.notANumber (before.length + 1), line⟩) := by
  have hpartner : ∀ v ∈ listWords cs, ∃ number?, readNumeral v = .ok number? := by
    intro v hv
    rcases readNumeral_cases (hwithin v hv) with ⟨n, _, hread⟩ | ⟨_, hread⟩
    · exact ⟨_, hread⟩
    · exact ⟨_, hread⟩
  obtain ⟨numbers, hnumbers⟩ := exists_forall₂ hpartner
  -- the words are all read before the first of them is found to be no number
  have hread : (listWords cs).mapM (fun v => orFault (readNumeral v)) = .ok numbers :=
    mapM_eq_ok_iff.mpr (hnumbers.imp fun _ _ h => orFault_eq_ok_iff.mpr h)
  rw [hcs] at hnumbers
  rw [readData, bind_eq_error_iff]
  refine Or.inr ⟨numbers, hread, ?_⟩
  rw [allNumbers_of_first hnumbers hbefore hw, Nat.add_comm 1]
  rfl

theorem exists_first_of_readData {cs : List Char} {line : Int} {failure : Failure}
    (hwithin : ∀ v ∈ listWords cs, DigitsWithin digitLimit v)
    (h : readData cs line = .error failure) :
    ∃ before w after, listWords cs = before ++ w :: after ∧
      (∀ v ∈ before, ∃ m, IsNumeral v m) ∧ (∀ m, ¬ IsNumeral w m) ∧
      failure = .problem ⟨.notANumber (before.length + 1), line⟩ := by
  rcases forall_or_exists_first (fun v => ∃ m, IsNumeral v m) (listWords cs) with
    hall | ⟨before, w, after, hcs, hbefore, hw⟩
  · obtain ⟨ns, hns⟩ := exists_forall₂ hall
    have hread : readData cs line = .ok ns := by
      rw [readData_eq_ok_iff]
      refine List.Forall₂.imp ?_ ((List.forall₂_and_left _ _).mpr ⟨fun v hv => hv, hns⟩)
      rintro v n ⟨hv, hn⟩
      exact readNumeral_of_isNumeral hn (hwithin v hv)
    rw [hread] at h
    cases h
  · rw [not_exists] at hw
    rw [readData_of_first hwithin hcs hbefore hw] at h
    exact ⟨before, w, after, hcs, hbefore, hw, (Except.error.inj h).symm⟩

theorem digitsWithin_of_mem_listWords {limit : Nat} {cs w : List Char}
    (hcs : DigitsWithin limit cs) (hw : w ∈ listWords cs) : DigitsWithin limit w := by
  by_cases hnil : words cs = []
  · rw [listWords_of_nil hnil, List.mem_singleton] at hw
    subst hw
    exact digitsWithin_of_length_le (Nat.zero_le limit)
  · rw [listWords_of_ne_nil hnil] at hw
    exact hcs.of_isInfix ((spaced_words cs).infix_of_mem hw)

theorem not_isNumeral_nil (n : Nat) : ¬ IsNumeral [] n := by
  rintro ⟨ds, ⟨before, after, hnil, _⟩, hne, _⟩
  simp_all

/-! ## Items -/

section
variable {t : Target} {withData : List Nat} {value : String} {line : Int}

theorem Target.mistake_of_readValue {failure : Failure}
    (hvalue : DigitsWithin digitLimit value.toList)
    (h : t.readValue withData value line = .error failure) :
    ∃ cause, t.Mistake (· ∈ withData) value cause ∧ failure = .problem ⟨cause, line⟩ := by
  cases t with
  | property p =>
      obtain ⟨cause, hmistake, rfl⟩ := Property.mistake_of_readValue hvalue h
      exact ⟨cause, .property hmistake, rfl⟩
  | radius n => cases h
  | entryColor n => cases h
  | entryData n =>
      rw [Target.readValue] at h
      by_cases hn : n ∈ withData
      · rw [if_pos hn] at h
        exact ⟨_, .repeated value hn, reject_eq_error_iff.mp h⟩
      · simp only [if_neg hn, bind_eq_error_iff, pure_ne_error, and_false, exists_false,
          or_false] at h
        obtain ⟨before, w, after, hwords, hbefore, hw, rfl⟩ :=
          exists_first_of_readData (fun v hv => digitsWithin_of_mem_listWords hvalue hv) h
        by_cases hnil : words value.toList = []
        · -- the one empty word that stands for no words is the first one
          rw [listWords_of_nil hnil] at hwords
          cases before with
          | nil => exact ⟨_, .noData hn (words_eq_iff.mp hnil), rfl⟩
          | cons v before => simp at hwords
        · rw [listWords_of_ne_nil hnil, words_eq_iff] at hwords
          exact ⟨_, .data hn hwords hbefore hw, rfl⟩

theorem Target.readValue_of_mistake {cause : Cause}
    (hvalue : DigitsWithin digitLimit value.toList)
    (h : t.Mistake (· ∈ withData) value cause) :
    t.readValue withData value line = .error (.problem ⟨cause, line⟩) := by
  have hwithin : ∀ v ∈ listWords value.toList, DigitsWithin digitLimit v :=
    fun v hv => digitsWithin_of_mem_listWords hvalue hv
  cases h with
  | property hmistake => exact Property.readValue_of_mistake hvalue hmistake
  | repeated _ hn =>
      rw [Target.readValue, if_pos hn]
      rfl
  | noData hn hspaced =>
      have hwords : listWords value.toList = [] ++ [] :: [] :=
        listWords_of_nil (words_eq_iff.mpr hspaced)
      rw [Target.readValue, if_neg hn,
        readData_of_first hwithin hwords (by simp) not_isNumeral_nil]
      rfl
  | data hn hspaced hbefore hw =>
      have hwords := words_eq_iff.mpr hspaced
      have hne : words value.toList ≠ [] := by simp [hwords]
      rw [← listWords_of_ne_nil hne] at hwords
      rw [Target.readValue, if_neg hn, readData_of_first hwithin hwords hbefore hw]
      rfl

end

/-- An item with short numerals fails exactly where it has a mistake. -/
theorem Item.read_eq_error_iff {withData : List Nat} {item : Item} {failure : Failure}
    (hdigits : DigitsWithin digitLimit item.key.toList ∧
      DigitsWithin digitLimit item.value.toList) :
    item.read withData = .error failure ↔
      ∃ cause, item.Mistake (· ∈ withData) cause ∧ failure = .problem ⟨cause, item.line⟩ := by
  obtain ⟨hkey, hvalue⟩ := hdigits
  simp only [Item.read, bind_eq_error_iff, pure_ne_error, and_false, exists_false, or_false]
  constructor
  · rintro (h | ⟨t, ht, h⟩)
    · obtain ⟨hname, cause, hmistake, rfl⟩ := keyMistake_of_read hkey h
      exact ⟨cause, .key hname hmistake, rfl⟩
    · obtain ⟨cause, hmistake, rfl⟩ := Target.mistake_of_readValue hvalue h
      exact ⟨cause, .value (Target.key_of_read ht) hmistake, rfl⟩
  · rintro ⟨cause, hmistake, rfl⟩
    cases hmistake with
    | key hname hmistake => exact Or.inl (read_of_keyMistake hkey hname hmistake)
    | value ht hmistake =>
        exact Or.inr ⟨_, Target.read_of_key ht hkey, Target.readValue_of_mistake hvalue hmistake⟩

end RadarChart
