import RadarChart.Proofs.Document.Source

/-!
# Documents one after the other

From line to line a resolution carries the active path and the keys seen. Of
what is in front of a line that is not indented only the keys matter: that
line starts a path of its own, but its key must be new. So lines that start
with such a line resolve behind others as they do alone, up to the first key
that the others have.
-/

namespace RadarChart

open Text

/-! ## What is carried over -/

/-- The active path after all of the lines, where `path` is the one before. -/
def pathAfter (path : List (List Char)) (ls : List Line) : List (List Char) :=
  ls.foldl (fun path l => extendPath path l.parts) path

section
variable {path : List (List Char)} {seen : List String} {as bs : List Line}

/-- Lines resolve behind others from the path that these leave, and with their keys seen. -/
theorem resolveFrom_append : resolveFrom path seen (as ++ bs) =
    resolveFrom path seen as >>= fun items =>
      (resolveFrom (pathAfter path as) ((items.map (·.key)).reverse ++ seen) bs).map
        (items ++ ·) := by
  induction as generalizing path seen with
  | nil =>
      show _ = (resolveFrom path seen bs).map id
      rw [Except.map_id]
      rfl
  | cons a as ih =>
      rw [List.cons_append, resolveFrom_cons, resolveFrom_cons]
      by_cases hcolon : ':' ∈ a.text.toList
      · rw [if_pos hcolon, if_pos hcolon]
        simp only
        split
        · rfl
        · rw [ih]
          cases resolveFrom _ _ as with
          | error problem => rfl
          | ok items =>
              simp only [Except.map, bind, Except.bind, pathAfter, List.foldl_cons, List.map_cons,
                Line.item, List.reverse_cons, List.append_assoc, List.singleton_append]
              cases resolveFrom _ _ bs <;> rfl
      · rw [if_neg hcolon, if_neg hcolon]
        rfl

/-- Before a line that is not indented the active path does not matter. -/
theorem resolveFrom_of_flush (h : ∀ l ∈ bs.head?, l.indented = false) :
    resolveFrom path seen bs = resolveFrom [] seen bs := by
  cases bs with
  | nil => rfl
  | cons b bs =>
      have hflush : b.parts.indented = false := h b rfl
      have hpath : extendPath path b.parts = b.parts.words := by simp [extendPath, hflush]
      rw [resolveFrom_cons, resolveFrom_cons, hpath, extendPath_nil]

end

/-! ## Lines behind others -/

/-- Behind lines that resolve to the items, line `i` cannot be resolved: it cannot be resolved
without them either, or one of the items has its key. -/
def FailsBehind (items : List Item) (lines : List Line) (i : Nat) : Prop :=
  Fails lines i ∨ ∃ key, (keys lines)[i]? = some key ∧ key ∈ items.map (·.key)

section
variable {items : List Item} {as bs : List Line}

theorem failsAfter_iff_failsBehind {i : Nat} :
    FailsAfter (items.map (·.key)).reverse (keys bs) bs i ↔ FailsBehind items bs i := by
  simp only [FailsAfter, FailsBehind, Fails, List.mem_reverse]
  constructor
  · rintro ⟨l, key, hl, hkey, h | h | h⟩
    · exact Or.inl ⟨l, key, hl, hkey, Or.inl h⟩
    · exact Or.inr ⟨key, hkey, h⟩
    · exact Or.inl ⟨l, key, hl, hkey, Or.inr h⟩
  · rintro (⟨l, key, hl, hkey, h | h⟩ | ⟨key, hkey, h⟩)
    · exact ⟨l, key, hl, hkey, Or.inl h⟩
    · exact ⟨l, key, hl, hkey, Or.inr (Or.inr h)⟩
    · obtain ⟨hi, _⟩ := List.getElem?_eq_some_iff.mp hkey
      rw [length_keys] at hi
      exact ⟨bs[i], key, List.getElem?_eq_getElem hi, hkey, Or.inr (Or.inl h)⟩

theorem forall_not_failsBehind_iff :
    (∀ i, ¬ FailsBehind items bs i) ↔
      (∀ i, ¬ Fails bs i) ∧ (items.map (·.key)).Disjoint (keys bs) := by
  simp only [FailsBehind, not_or, forall_and]
  refine and_congr_right fun _ => ?_
  constructor
  · intro h key hitem hkey
    obtain ⟨i, hi⟩ := List.mem_iff_getElem?.mp hkey
    exact h i ⟨key, hi, hitem⟩
  · rintro h i ⟨key, hkey, hitem⟩
    exact h hitem (List.mem_of_getElem? hkey)

/-- The keys that lines resolve to are all that they need of what is in front of them. -/
theorem isOutcome_behind (items : List Item) (bs : List Line) :
    IsOutcome (items.map (·.key)).reverse (keys bs) bs
      (resolveFrom [] (items.map (·.key)).reverse bs) := by
  rw [← keysFrom_nil]
  exact isOutcome_resolveFrom [] _ bs

theorem resolve_append (h : ∀ l ∈ bs.head?, l.indented = false) :
    resolve (as ++ bs) = resolve as >>= fun items =>
      (resolveFrom [] (items.map (·.key)).reverse bs).map (items ++ ·) := by
  rw [resolve, resolveFrom_append]
  simp only [resolveFrom_of_flush h, List.append_nil]
  rfl

theorem resolveFrom_behind_eq_ok_iff {more : List Item} :
    resolveFrom [] (items.map (·.key)).reverse bs = .ok more ↔
      resolve bs = .ok more ∧ (items.map (·.key)).Disjoint (more.map (·.key)) := by
  rw [(isOutcome_behind items bs).eq_ok_iff, (isOutcome_resolve bs).eq_ok_iff]
  simp only [failsAfter_iff_failsBehind, forall_not_failsBehind_iff, fails_iff]
  have hkeys := map_key_zipWith_item (length_keys bs)
  constructor
  · rintro ⟨⟨hnone, hdisjoint⟩, rfl⟩
    exact ⟨⟨hnone, rfl⟩, hkeys.symm ▸ hdisjoint⟩
  · rintro ⟨⟨hnone, rfl⟩, hdisjoint⟩
    exact ⟨⟨hnone, hkeys ▸ hdisjoint⟩, rfl⟩

end

/-- A document whose second part starts with a line that is not indented. If the first part does
not resolve, neither does the whole, with the same problem. Otherwise the whole resolves exactly
where the second part does alone, to keys that the first part has not, and then to the items of
both; and if it does not, the problem is that of the first line of the second part that fails alone
or whose key the first part has. -/
theorem resolve_append_of_flush {as bs : List Line} (h : ∀ l ∈ bs.head?, l.indented = false) :
    (∀ problem, resolve as = .error problem → resolve (as ++ bs) = .error problem) ∧
    ∀ items, resolve as = .ok items →
      (∀ whole, resolve (as ++ bs) = .ok whole ↔ ∃ more, resolve bs = .ok more ∧
        (items.map (·.key)).Disjoint (more.map (·.key)) ∧ whole = items ++ more) ∧
      ∀ problem, resolve (as ++ bs) = .error problem ↔ ∃ i l, bs[i]? = some l ∧
        FailsBehind items bs i ∧ (∀ k < i, ¬ FailsBehind items bs k) ∧ problem = l.problem := by
  rw [resolve_append h]
  constructor
  · intro problem hfirst
    rw [hfirst]
    rfl
  · intro items hfirst
    rw [hfirst]
    constructor
    · intro whole
      show (resolveFrom [] (items.map (·.key)).reverse bs).map (items ++ ·) = .ok whole ↔ _
      simp only [map_eq_ok_iff, resolveFrom_behind_eq_ok_iff, and_assoc, @eq_comm _ whole]
    · intro problem
      show (resolveFrom [] (items.map (·.key)).reverse bs).map (items ++ ·) = .error problem ↔ _
      simp only [← failsAfter_iff_failsBehind]
      rw [← (isOutcome_behind items bs).eq_error_iff]
      cases resolveFrom [] (items.map (·.key)).reverse bs <;> simp [Except.map]

/-- A block of two lines. -/
def textLines : List Line :=
  [⟨1, "text color: black"⟩, ⟨2, "  size: 16"⟩]

/-- A block whose second line takes the place of its first one, and has a key of `textLines`. -/
def clashingLines : List Line :=
  [⟨3, "text: x"⟩, ⟨4, "  text size: 8"⟩, ⟨5, "margin"⟩]

/-- A block that would continue a key of `textLines` if its first line were indented. -/
def marginLines : List Line :=
  [⟨3, "size: 9 x 8"⟩, ⟨4, "  margin: 0"⟩]

theorem resolve_append_textLines :
    (∀ l ∈ clashingLines.head?, l.indented = false) ∧
    (∀ l ∈ marginLines.head?, l.indented = false) ∧
    resolve textLines = .ok [⟨"text color", 1, "black"⟩, ⟨"text size", 2, "16"⟩] ∧
    resolve (textLines ++ clashingLines) = .error ⟨.repeatedKey, 4⟩ ∧
    resolve (textLines ++ marginLines) = .ok [⟨"text color", 1, "black"⟩, ⟨"text size", 2, "16"⟩,
      ⟨"size", 3, "9 x 8"⟩, ⟨"margin", 4, "0"⟩] ∧
    resolve clashingLines = .error ⟨.noColon, 5⟩ ∧
    resolve (clashingLines ++ marginLines) = .error ⟨.noColon, 5⟩ := by
  have hclashing : ∀ l ∈ clashingLines.head?, l.indented = false := by decide
  have hmargin : ∀ l ∈ marginLines.head?, l.indented = false := by decide
  have htext : resolve textLines = .ok [⟨"text color", 1, "black"⟩, ⟨"text size", 2, "16"⟩] := by
    decide
  have hfails : resolve clashingLines = .error ⟨.noColon, 5⟩ := by decide
  refine ⟨hclashing, hmargin, htext, ?_, ?_, hfails, ?_⟩
  · have hkeys : keys clashingLines = ["text", "text size", "margin"] := by decide
    have hfirst : ¬ FailsBehind [⟨"text color", 1, "black"⟩, ⟨"text size", 2, "16"⟩]
        clashingLines 0 := by
      have hline : clashingLines[0]? = some ⟨3, "text: x"⟩ := rfl
      simp [FailsBehind, Fails, hkeys, hline]
    refine (((resolve_append_of_flush hclashing).2 _ htext).2 _).mpr
      ⟨1, ⟨4, "  text size: 8"⟩, rfl, Or.inr ⟨"text size", by decide, by decide⟩, ?_, by decide⟩
    intro k hk
    rwa [Nat.lt_one_iff.mp hk]
  · exact (((resolve_append_of_flush hmargin).2 _ htext).1 _).mpr
      ⟨[⟨"size", 3, "9 x 8"⟩, ⟨"margin", 4, "0"⟩], by decide, List.disjoint_left.mpr (by decide),
        rfl⟩
  · exact (resolve_append_of_flush hmargin).1 _ hfails

end RadarChart
