import RadarChart.Proofs.Chart.Renumbering

/-!
# Comments and blank lines

A line that is blank or a comment is numbered and then forgotten. Wherever it
is put into a document, the lines behind it get the next number and nothing
else changes: not the keys, not even where a line continues the one in front of
the comment, and not what is found wrong.
-/

namespace RadarChart

open Text

/-- The new number of a line once another one has been put in behind line `q`. -/
def displaced (q : Nat) (n : Int) : Int :=
  if n ≤ q then n else n + 1

theorem displaced_le_displaced {q : Nat} {m n : Int} (h : m ≤ n) :
    displaced q m ≤ displaced q n := by
  unfold displaced
  split <;> split <;> omega

/-! ## Numbers -/

theorem numberLines_append (first : Nat) (ls ms : List (List Char)) :
    numberLines first (ls ++ ms) =
      numberLines first ls ++ numberLines (first + ls.length) ms := by
  simp only [numberLines_eq, List.zipIdx_append, List.filter_append, List.map_append]

theorem numberLines_succ (first : Nat) (ls : List (List Char)) :
    numberLines (first + 1) ls = (numberLines first ls).map (·.renumber (· + 1)) := by
  induction ls generalizing first with
  | nil => rfl
  | cons l ls ih =>
      rw [numberLines, numberLines]
      by_cases hl : isMeaningful l = true
      · rw [if_pos hl, if_pos hl, List.map_cons, ih]
        rfl
      · rw [if_neg hl, if_neg hl, ih]

theorem numberLines_silent {c : List Char} (hc : IsSilent c) (first : Nat)
    (ls : List (List Char)) : numberLines first (c :: ls) = numberLines (first + 1) ls := by
  rw [numberLines, if_neg (not_isSilent_iff.not_right.mp hc)]

/-- Behind the silent line each number is the next one, and before it none changes. -/
theorem numberLines_insert {c : List Char} (hc : IsSilent c) (before after : List (List Char)) :
    numberLines 1 (before ++ c :: after) =
      (numberLines 1 (before ++ after)).map (·.renumber (displaced before.length)) := by
  rw [numberLines_append, numberLines_append, numberLines_silent hc,
    numberLines_succ (1 + before.length), List.map_append]
  congr 1
  · refine (List.map_id _).symm.trans (List.map_congr_left fun l hl => ?_)
    obtain ⟨_, _, hlast⟩ := of_mem_numberLines hl
    rw [Line.renumber, displaced, if_pos (by omega)]
    rfl
  · refine List.map_congr_left fun l hl => ?_
    obtain ⟨_, hfirst, _⟩ := of_mem_numberLines hl
    rw [Line.renumber, Line.renumber, displaced, if_neg (by push_cast at hfirst; omega)]

/-! ## Documents -/

theorem readLines_insert {before after : List String} {c : String}
    (hone : ∀ l ∈ before ++ after, OneLine l.toList) (hc : OneLine c.toList)
    (hsilent : IsSilent c.toList) :
    readLines ("\n".intercalate (before ++ c :: after)) =
      (readLines ("\n".intercalate (before ++ after))).map
        (·.renumber (displaced before.length)) := by
  have hlonger : ∀ l ∈ before ++ c :: after, OneLine l.toList := by
    intro l hl
    rcases List.mem_cons.mp (List.perm_middle.mem_iff.mp hl) with rfl | hl
    · exact hc
    · exact hone l hl
  rw [readLines_join hone, readLines_join hlonger, List.map_append, List.map_append, List.map_cons,
    numberLines_insert hsilent, List.length_map]

/-- A comment or a blank line that is put into a document keeps every key and
value, the chart and what is found wrong. The problem of a document without
any other line stays at line 1. -/
theorem Chart.parse_insert_silent {before after : List String} {c : String}
    (hone : ∀ l ∈ before ++ after, OneLine l.toList) (hc : OneLine c.toList)
    (hsilent : IsSilent c.toList) :
    let text := "\n".intercalate (before ++ after)
    let longer := "\n".intercalate (before ++ c :: after)
    let f := displaced before.length
    readItems longer = renumbered f (List.map (·.renumber f)) (readItems text) ∧
      (readLines text ≠ [] → Chart.parse longer = (Chart.parse text).mapError (·.renumber f)) ∧
      (readLines text = [] → Chart.parse text = reject (.missingProperty .size) 1 ∧
        Chart.parse longer = reject (.missingProperty .size) 1) := by
  intro text longer f
  have hread : readLines longer = (readLines text).map (·.renumber f) :=
    readLines_insert hone hc hsilent
  have hempty : ∀ {t : String}, readLines t = [] →
      Chart.parse t = reject (.missingProperty .size) 1 := by
    intro t ht
    rw [Chart.parse, readItems, ht]
    rfl
  refine ⟨readItems_renumber hread, ?_, ?_⟩
  · intro hne
    exact Chart.parse_renumber hread displaced_le_displaced fun hnil => absurd hnil hne
  · intro hnil
    exact ⟨hempty hnil, hempty (by rw [hread, hnil]; rfl)⟩

/-- A comment between a line and the one that continues it, in a document that lacks the size. -/
theorem insert_silent_continued :
    IsSilent "  # 7: c".toList ∧
      readItems "radius 1: a\n  # 7: c\n 2: b" =
        .ok [⟨"radius 1", 1, "a"⟩, ⟨"radius 2", 3, "b"⟩] ∧
      Chart.parse "radius 1: a\n 2: b" = reject (.missingProperty .size) 2 ∧
      Chart.parse "radius 1: a\n  # 7: c\n 2: b" = reject (.missingProperty .size) 3 := by
  have hone : ∀ l ∈ ["radius 1: a"] ++ [" 2: b"], OneLine l.toList := by decide
  have hc : OneLine "  # 7: c".toList := by decide
  have hsilent : IsSilent "  # 7: c".toList := by decide
  obtain ⟨hitems, hparse, _⟩ := Chart.parse_insert_silent hone hc hsilent
  have hread : readItems "radius 1: a\n 2: b" =
      .ok [⟨"radius 1", 1, "a"⟩, ⟨"radius 2", 2, "b"⟩] := by decide +kernel
  have hmissing : Chart.parse "radius 1: a\n 2: b" = reject (.missingProperty .size) 2 := by
    decide +kernel
  have hne : readLines "radius 1: a\n 2: b" ≠ [] := by decide +kernel
  refine ⟨hsilent, hitems.trans ?_, hmissing, (hparse hne).trans ?_⟩
  · exact congrArg _ hread
  · exact congrArg _ hmissing

end RadarChart
