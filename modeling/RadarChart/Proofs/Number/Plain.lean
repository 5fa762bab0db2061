import RadarChart.Number.Fixed
import RadarChart.Proofs.Document.Success
import RadarChart.Text.Escape
import RadarChart.Text.Numeral

/-!
# Numbers are plain text

A number is written in digits, a sign and a point, and what is no number in
three letters. None of these characters means anything in markup, so numbers
stand in it as they are.
-/

namespace RadarChart

open Text

/-- A character that a number can be written with. -/
def isNumberChar (c : Char) : Bool :=
  c.isDigit || ['-', '.', 'n', 'a', 'i', 'f'].contains c

theorem escape_eq_self {cs : List Char} (h : ∀ c ∈ cs, isNumberChar c = true) :
    escape cs = cs := by
  have hchar : ∀ c ∈ cs, escapeChar c = [c] := by
    intro c hc
    have hne : ∀ d, isNumberChar d = false → c ≠ d := by
      rintro d hd rfl
      rw [h c hc] at hd
      cases hd
    rw [escapeChar, if_neg (hne _ (by decide)), if_neg (hne _ (by decide)),
      if_neg (hne _ (by decide)), if_neg (hne _ (by decide))]
  rw [escape_eq_flatMap, List.flatMap_congr hchar]
  exact List.flatMap_singleton' cs

theorem isNumberChar_of_mem_toDigits {n : Nat} {c : Char} (h : c ∈ Nat.toDigits 10 n) :
    isNumberChar c = true := by
  have hdigit := Nat.isDigit_of_mem_toDigits (by decide) (by decide) h
  simp [isNumberChar, hdigit]

namespace Fixed

theorem forall_mem_unitsText (places n : Nat) :
    ∀ c ∈ unitsText places n, isNumberChar c = true := by
  have hpadded : ∀ c ∈ paddedDigits (places + 1) n, isNumberChar c = true := by
    intro c hc
    rcases List.mem_append.mp hc with hc | hc
    · rw [List.eq_of_mem_replicate hc]
      decide
    · exact isNumberChar_of_mem_toDigits hc
  intro c hc
  unfold unitsText at hc
  split at hc
  · exact hpadded c hc
  · rcases List.mem_append.mp hc with hc | hc
    · exact hpadded c (List.mem_of_mem_take hc)
    · rcases List.mem_cons.mp hc with rfl | hc
      · decide
      · exact hpadded c (List.mem_of_mem_drop hc)

theorem forall_mem_plain (places : Nat) (x : Float) :
    ∀ c ∈ plain places x, isNumberChar c = true := by
  have hsign : ∀ negative, ∀ c ∈ plain.sign negative, isNumberChar c = true := by
    intro negative
    cases negative <;> exact List.all_eq_true.mp (by decide)
  unfold plain
  cases Binary64.Datum.ofFloat x with
  | nan =>
      show ∀ c ∈ ['n', 'a', 'n'], isNumberChar c = true
      exact List.all_eq_true.mp (by decide)
  | infinite negative =>
      rw [List.forall_mem_append]
      exact ⟨hsign negative, List.all_eq_true.mp (by decide)⟩
  | finite negative significand exponent =>
      rw [List.forall_mem_append]
      exact ⟨hsign negative, forall_mem_unitsText _ _⟩

theorem mem_of_mem_dropTrailing {c d : Char} {cs : List Char} (h : d ∈ dropTrailing c cs) :
    d ∈ cs := by
  rw [dropTrailing, List.mem_reverse] at h
  exact List.mem_reverse.mp ((List.dropWhile_suffix _).mem h)

/-- Trimming drops characters, and puts a zero where none is left. -/
theorem trimmedText_eq (cs : List Char) : ∃ ds, (∀ d ∈ ds, d ∈ cs) ∧
    trimmedText cs = if ds = ['-', '0'] ∨ ds = [] then ['0'] else ds := by
  refine ⟨_, ?_, rfl⟩
  intro d hd
  split at hd
  · split at hd
    · rename_i rest hrest
      apply mem_of_mem_dropTrailing (c := '0')
      rw [← List.mem_reverse, hrest]
      exact List.mem_cons_of_mem _ (List.mem_reverse.mp hd)
    · exact mem_of_mem_dropTrailing (List.mem_reverse.mp (List.mem_reverse.mp hd))
  · exact hd

end Fixed

theorem escape_write {x : Float} {precision : Int} {s : String}
    (h : Fixed.write x precision = .ok s) : escape s.toList = s.toList := by
  obtain ⟨places, _, rfl⟩ := map_eq_ok_iff.mp h
  rw [String.toList_ofList]
  apply escape_eq_self
  obtain ⟨ds, hds, htext⟩ := Fixed.trimmedText_eq (Fixed.plain places x)
  rw [Fixed.trimmed, htext]
  split
  · exact List.all_eq_true.mp (by decide)
  · exact fun c hc => Fixed.forall_mem_plain places x c (hds c hc)

theorem escape_writeInteger {n : Int} {s : String} (h : writeInteger n = .ok s) :
    escape s.toList = s.toList := by
  unfold writeInteger at h
  split at h
  · cases h
    apply escape_eq_self
    intro c hc
    cases n with
    | ofNat n =>
        have htext : (toString (Int.ofNat n)).toList = Nat.toDigits 10 n := by
          simp [toString, Int.repr, Nat.repr]
        rw [htext] at hc
        exact isNumberChar_of_mem_toDigits hc
    | negSucc n =>
        have htext : (toString (Int.negSucc n)).toList = '-' :: Nat.toDigits 10 (n + 1) := by
          simp [toString, Int.repr, Nat.repr]
        rw [htext] at hc
        rcases List.mem_cons.mp hc with rfl | hc
        · decide
        · exact isNumberChar_of_mem_toDigits hc
  · cases h

end RadarChart
