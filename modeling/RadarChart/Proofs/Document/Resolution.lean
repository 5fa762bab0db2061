import Mathlib.Data.List.Nodup
import RadarChart.Proofs.Document.Block
import RadarChart.Proofs.Document.Success
import RadarChart.Proofs.Text.Word

/-!
# The resolution in closed form

The keys of a document are those of its lines in their blocks. A document
resolves exactly where every line has a colon and no two lines have the same
key; otherwise the first line that breaks this is the problem.
-/

namespace RadarChart

open Text

/-- The keys after each of the lines, where `path` is the active path before. -/
def keysFrom (path : List (List Char)) (ls : List Line) : List String :=
  (pathsFrom path ls).map fun q => String.ofList (joinWords q)

theorem keysFrom_nil (lines : List Line) : keysFrom [] lines = keys lines := by
  rw [keysFrom, keys, pathsFrom_eq_keyPaths]
  exact List.map_congr_left fun path _ => ofList_joinWords path

theorem length_keysFrom (path : List (List Char)) (ls : List Line) :
    (keysFrom path ls).length = ls.length := by
  rw [keysFrom, List.length_map, length_pathsFrom]

theorem keys_of_flush {lines : List Line} (h : ∀ l ∈ lines, l.indented = false) :
    keys lines = lines.map fun l => String.ofList (joinWords l.words) := by
  rw [← keysFrom_nil, keysFrom, pathsFrom_of_flush h, List.map_map]
  rfl

/-- What a line states under its key. -/
def Line.item (key : String) (l : Line) : Item :=
  ⟨key, l.number, String.ofList l.value⟩

/-- Line `i` is a problem: it has no colon, or its key was seen before or is
that of an earlier line. -/
def FailsAfter (seen ks : List String) (ls : List Line) (i : Nat) : Prop :=
  ∃ l key, ls[i]? = some l ∧ ks[i]? = some key ∧
    (':' ∉ l.text.toList ∨ key ∈ seen ∨ key ∈ ks.take i)

section
variable {seen ks : List String} {key : String} {l : Line} {ls : List Line}

theorem failsAfter_zero :
    FailsAfter seen (key :: ks) (l :: ls) 0 ↔ ':' ∉ l.text.toList ∨ key ∈ seen := by
  simp [FailsAfter]

theorem failsAfter_succ {i : Nat} :
    FailsAfter seen (key :: ks) (l :: ls) (i + 1) ↔ FailsAfter (key :: seen) ks ls i := by
  simp only [FailsAfter, List.getElem?_cons_succ, List.take_succ_cons, List.mem_cons]
  constructor
  · rintro ⟨m, k, hm, hk, h | h | h | h⟩
    · exact ⟨m, k, hm, hk, Or.inl h⟩
    · exact ⟨m, k, hm, hk, Or.inr (Or.inl (Or.inr h))⟩
    · exact ⟨m, k, hm, hk, Or.inr (Or.inl (Or.inl h))⟩
    · exact ⟨m, k, hm, hk, Or.inr (Or.inr h)⟩
  · rintro ⟨m, k, hm, hk, h | (h | h) | h⟩
    · exact ⟨m, k, hm, hk, Or.inl h⟩
    · exact ⟨m, k, hm, hk, Or.inr (Or.inr (Or.inl h))⟩
    · exact ⟨m, k, hm, hk, Or.inr (Or.inl h)⟩
    · exact ⟨m, k, hm, hk, Or.inr (Or.inr (Or.inr h))⟩

end

/-- The problem of a line: a colon that is missing counts before a key. -/
def Line.problem (l : Line) : Problem :=
  ⟨if ':' ∈ l.text.toList then .repeatedKey else .noColon, l.number⟩

/-- The outcome for lines with the given keys, after the keys seen before: the
items of all the lines, or the problem of the first line that is one. -/
def IsOutcome (seen ks : List String) (ls : List Line) : Except Problem (List Item) → Prop
  | .ok items => (∀ i, ¬ FailsAfter seen ks ls i) ∧ items = List.zipWith Line.item ks ls
  | .error problem => ∃ i l, ls[i]? = some l ∧ FailsAfter seen ks ls i ∧
      (∀ k < i, ¬ FailsAfter seen ks ls k) ∧ problem = l.problem

/-- One step of the induction: a first line that is no problem. -/
theorem IsOutcome.cons {seen ks : List String} {key : String} {l : Line} {ls : List Line}
    {outcome : Except Problem (List Item)} (hcolon : ':' ∈ l.text.toList) (hkey : key ∉ seen)
    (h : IsOutcome (key :: seen) ks ls outcome) :
    IsOutcome seen (key :: ks) (l :: ls) (outcome.map (l.item key :: ·)) := by
  have hzero : ¬ FailsAfter seen (key :: ks) (l :: ls) 0 := by
    rw [failsAfter_zero]
    exact not_or.mpr ⟨not_not.mpr hcolon, hkey⟩
  cases outcome with
  | ok items =>
      obtain ⟨hnone, rfl⟩ := h
      refine ⟨?_, rfl⟩
      intro i
      cases i with
      | zero => exact hzero
      | succ i => exact fun hi => hnone i (failsAfter_succ.mp hi)
  | error problem =>
      obtain ⟨i, m, hm, hfails, hfirst, rfl⟩ := h
      refine ⟨i + 1, m, hm, failsAfter_succ.mpr hfails, ?_, rfl⟩
      intro k hk
      cases k with
      | zero => exact hzero
      | succ k => exact fun h => hfirst k (by omega) (failsAfter_succ.mp h)

theorem resolveFrom_cons (path : List (List Char)) (seen : List String) (l : Line)
    (ls : List Line) : resolveFrom path seen (l :: ls) =
      if ':' ∈ l.text.toList then
        let key := String.ofList (joinWords (extendPath path l.parts))
        if key ∈ seen then .error ⟨.repeatedKey, l.number⟩
        else (resolveFrom (extendPath path l.parts) (key :: seen) ls).map (l.item key :: ·)
      else .error ⟨.noColon, l.number⟩ := by
  rw [resolveFrom, ofText?_toList]
  by_cases hcolon : ':' ∈ l.text.toList
  · rw [if_pos hcolon, if_pos hcolon]
    rfl
  · rw [if_neg hcolon, if_neg hcolon]

theorem isOutcome_resolveFrom (path : List (List Char)) (seen : List String) (ls : List Line) :
    IsOutcome seen (keysFrom path ls) ls (resolveFrom path seen ls) := by
  -- both the path and the keys seen change from line to line
  induction ls generalizing path seen with
  | nil => exact ⟨by simp [FailsAfter], rfl⟩
  | cons l ls ih =>
      have hkeys : keysFrom path (l :: ls) =
          String.ofList (joinWords (extendPath path l.parts)) ::
            keysFrom (extendPath path l.parts) ls := rfl
      rw [resolveFrom_cons, hkeys]
      by_cases hcolon : ':' ∈ l.text.toList
      · rw [if_pos hcolon]
        simp only
        split <;> rename_i hseen
        · refine ⟨0, l, rfl, failsAfter_zero.mpr (Or.inr hseen), by simp, ?_⟩
          rw [Line.problem, if_pos hcolon]
        · exact (ih _ _).cons hcolon hseen
      · rw [if_neg hcolon]
        refine ⟨0, l, rfl, failsAfter_zero.mpr (Or.inl hcolon), by simp, ?_⟩
        rw [Line.problem, if_neg hcolon]

section
variable {seen ks : List String} {ls : List Line} {outcome : Except Problem (List Item)}

theorem IsOutcome.eq_ok_iff (h : IsOutcome seen ks ls outcome) {items : List Item} :
    outcome = .ok items ↔
      (∀ i, ¬ FailsAfter seen ks ls i) ∧ items = List.zipWith Line.item ks ls := by
  cases outcome with
  | ok got =>
      obtain ⟨hnone, rfl⟩ := h
      simp [hnone, eq_comm]
  | error problem =>
      obtain ⟨i, _, _, hfails, _⟩ := h
      constructor
      · intro h
        cases h
      · intro h
        exact absurd hfails (h.1 i)

theorem IsOutcome.eq_error_iff (h : IsOutcome seen ks ls outcome) {problem : Problem} :
    outcome = .error problem ↔ ∃ i l, ls[i]? = some l ∧ FailsAfter seen ks ls i ∧
      (∀ k < i, ¬ FailsAfter seen ks ls k) ∧ problem = l.problem := by
  cases outcome with
  | ok got =>
      obtain ⟨hnone, _⟩ := h
      constructor
      · intro h
        cases h
      · rintro ⟨i, _, _, hfails, _⟩
        exact absurd hfails (hnone i)
  | error got =>
      obtain ⟨i, l, hl, hfails, hfirst, rfl⟩ := h
      constructor
      · intro h
        exact ⟨i, l, hl, hfails, hfirst, (Except.error.inj h).symm⟩
      · rintro ⟨k, m, hm, hfailsk, hfirstk, rfl⟩
        -- there is only one first failing line
        have hki : k = i := by
          rcases Nat.lt_trichotomy k i with hlt | heq | hlt
          · exact absurd hfailsk (hfirst k hlt)
          · exact heq
          · exact absurd hfails (hfirstk i hlt)
        subst hki
        rw [hl] at hm
        rw [Option.some.inj hm]

end

/-! ## Every document -/

theorem nodup_iff_not_mem_take {α : Type} {xs : List α} :
    xs.Nodup ↔ ∀ i x, xs[i]? = some x → x ∉ xs.take i := by
  rw [List.nodup_iff_getElem?_ne_getElem?]
  constructor
  · intro h i x hx hmem
    obtain ⟨k, hk, hkx⟩ := List.mem_take_iff_getElem.mp hmem
    obtain ⟨hi, _⟩ := List.getElem?_eq_some_iff.mp hx
    have hki : k < i := by omega
    refine h k i hki hi ?_
    rw [hx, List.getElem?_eq_getElem (by omega), hkx]
  · intro h i j hij hj heq
    have hx : xs[j]? = some xs[j] := List.getElem?_eq_getElem hj
    refine h j xs[j] hx (List.mem_take_iff_getElem.mpr ⟨i, by omega, ?_⟩)
    rw [hx] at heq
    exact (List.getElem?_eq_some_iff.mp heq).2

/-- Line `i` cannot be resolved: it has no colon, or an earlier line has its key. -/
def Fails (lines : List Line) (i : Nat) : Prop :=
  ∃ l key, lines[i]? = some l ∧ (keys lines)[i]? = some key ∧
    (':' ∉ l.text.toList ∨ key ∈ (keys lines).take i)

theorem fails_iff {lines : List Line} {i : Nat} :
    FailsAfter [] (keys lines) lines i ↔ Fails lines i := by
  simp only [FailsAfter, Fails, List.not_mem_nil, false_or]

theorem length_keys (lines : List Line) : (keys lines).length = lines.length := by
  rw [← keysFrom_nil, length_keysFrom]

theorem forall_not_fails_iff {lines : List Line} :
    (∀ i, ¬ Fails lines i) ↔ (∀ l ∈ lines, ':' ∈ l.text.toList) ∧ (keys lines).Nodup := by
  have hlength := length_keys lines
  constructor
  · intro h
    constructor
    · intro l hl
      obtain ⟨i, hi, rfl⟩ := List.mem_iff_getElem.mp hl
      have hkey : i < (keys lines).length := by omega
      by_contra hcolon
      exact h i ⟨lines[i], (keys lines)[i], by simp, by simp, Or.inl hcolon⟩
    · rw [nodup_iff_not_mem_take]
      intro i key hkey hmem
      obtain ⟨hi, _⟩ := List.getElem?_eq_some_iff.mp hkey
      have hline : i < lines.length := by omega
      exact h i ⟨lines[i], key, by simp, hkey, Or.inr hmem⟩
  · rintro ⟨hcolon, hnodup⟩ i ⟨l, key, hl, hkey, h | h⟩
    · exact h (hcolon l (List.mem_of_getElem? hl))
    · exact nodup_iff_not_mem_take.mp hnodup i key hkey h

theorem isOutcome_resolve (lines : List Line) :
    IsOutcome [] (keys lines) lines (resolve lines) := by
  rw [← keysFrom_nil]
  exact isOutcome_resolveFrom [] [] lines

theorem resolve_eq_ok_iff {lines : List Line} {items : List Item} :
    resolve lines = .ok items ↔ (∀ l ∈ lines, ':' ∈ l.text.toList) ∧ (keys lines).Nodup ∧
      items = List.zipWith Line.item (keys lines) lines := by
  rw [(isOutcome_resolve lines).eq_ok_iff, ← and_assoc, ← forall_not_fails_iff]
  simp only [fails_iff]

theorem resolve_eq_error_iff {lines : List Line} {problem : Problem} :
    resolve lines = .error problem ↔ ∃ i l, lines[i]? = some l ∧ Fails lines i ∧
      (∀ k < i, ¬ Fails lines k) ∧ problem = l.problem := by
  rw [(isOutcome_resolve lines).eq_error_iff]
  simp only [fails_iff]

/-- The word at a place of a path is that of the last line of the block that
starts at the place or before. -/
theorem exists_blockPath_source {lines block : List Line} (hblock : block ∈ blocks lines)
    {j p : Nat} (hj : j < block.length) (hp : p < depth block j) :
    ∃ i l w, i ≤ j ∧ block[i]? = some l ∧ shift block i ≤ p ∧
      (∀ k, i < k → k ≤ j → p < shift block k) ∧
      l.words[p - shift block i]? = some w ∧ (blockPath block j)[p]? = some w := by
  obtain ⟨hlength, hwords⟩ := isPath_blockPath (indented_of_mem_blocks hblock) hj
  have hword : (blockPath block j)[p]? = some (blockPath block j)[p] :=
    List.getElem?_eq_getElem (by omega)
  have hsource := hwords p hp
  rw [hword, sourceWord?, Option.bind_eq_some_iff] at hsource
  obtain ⟨i, hi, hsource⟩ := hsource
  obtain ⟨ws, hws, hw⟩ := Option.bind_eq_some_iff.mp hsource
  obtain ⟨l, hl, rfl⟩ := Option.map_eq_some_iff.mp hws
  obtain ⟨hij, hshift, hlast⟩ := sourceLine?_eq_some hi
  exact ⟨i, l, _, hij, hl, hshift, hlast, hw, hword⟩

/-- The resolution of any lines in closed form: what the path of each line in
its block is, when all lines resolve and to what, and which problem is
reported otherwise. -/
theorem resolve_closed_form (lines : List Line) :
    (∀ block ∈ blocks lines, ∀ j < block.length,
      (blockPath block j).length = depth block j ∧
      ∀ p < depth block j, ∃ i l w, i ≤ j ∧ block[i]? = some l ∧ shift block i ≤ p ∧
        (∀ k, i < k → k ≤ j → p < shift block k) ∧
        l.words[p - shift block i]? = some w ∧ (blockPath block j)[p]? = some w) ∧
    (keys lines).length = lines.length ∧
    (∀ items, resolve lines = .ok items ↔
      (∀ l ∈ lines, ':' ∈ l.text.toList) ∧ (keys lines).Nodup ∧
      items = List.zipWith Line.item (keys lines) lines) ∧
    (∀ problem, resolve lines = .error problem ↔
      ∃ i l, lines[i]? = some l ∧ Fails lines i ∧ (∀ k < i, ¬ Fails lines k) ∧
        problem = l.problem) := by
  refine ⟨?_, length_keys lines, fun items => resolve_eq_ok_iff,
    fun problem => resolve_eq_error_iff⟩
  intro block hblock j hj
  exact ⟨(isPath_blockPath (indented_of_mem_blocks hblock) hj).1,
    fun p hp => exists_blockPath_source hblock hj hp⟩

/-- A block whose third line is longer than the path that it continues. -/
def nestedLines : List Line :=
  [⟨1, "text color: black"⟩, ⟨2, "  size: 16"⟩, ⟨3, "  a b c: x"⟩, ⟨4, "  z: y"⟩]

theorem resolve_nestedLines :
    (blockPath nestedLines 3).length = 3 ∧
    (∃ i l w, i ≤ 3 ∧ nestedLines[i]? = some l ∧ shift nestedLines i ≤ 1 ∧
      (∀ k, i < k → k ≤ 3 → 1 < shift nestedLines k) ∧
      l.words[1 - shift nestedLines i]? = some w ∧ (blockPath nestedLines 3)[1]? = some w) ∧
    resolve nestedLines = .ok
      [⟨"text color", 1, "black"⟩, ⟨"text size", 2, "16"⟩, ⟨"a b c", 3, "x"⟩,
        ⟨"a b z", 4, "y"⟩] := by
  obtain ⟨hpath, _, hok, _⟩ := resolve_closed_form nestedLines
  have hblock : nestedLines ∈ blocks nestedLines := by decide
  have hdepth : depth nestedLines 3 = 3 := by decide
  obtain ⟨hlength, hwords⟩ := hpath nestedLines hblock 3 (by decide)
  refine ⟨hlength.trans hdepth, hwords 1 (by rw [hdepth]; decide), ?_⟩
  exact (hok _).mpr ⟨by decide, by decide, by decide⟩

end RadarChart
