import RadarChart.Text.Blank

/-!
# Padding and words as relations

`Padded` says where a trimmed text stands in the full one, and `Spaced` how a
text is made of its words. Both are stated without the functions that take the
text apart, and the functions compute exactly what they describe. The pieces
between separators are described by the separators that they leave out.
-/

namespace RadarChart.Text

/-! ## Padding -/

/-- The text is `w` with characters of the class around it. -/
def Padded (p : Char → Bool) (w cs : List Char) : Prop :=
  ∃ before after, cs = before ++ w ++ after ∧
    (∀ c ∈ before, p c = true) ∧ ∀ c ∈ after, p c = true

theorem Padded.refl (p : Char → Bool) (w : List Char) : Padded p w w :=
  ⟨[], [], by simp, by simp, by simp⟩

theorem Padded.append {p : Char → Bool} {w cs before after : List Char} (h : Padded p w cs)
    (hbefore : ∀ c ∈ before, p c = true) (hafter : ∀ c ∈ after, p c = true) :
    Padded p w (before ++ cs ++ after) := by
  obtain ⟨as, bs, rfl, has, hbs⟩ := h
  refine ⟨before ++ as, bs ++ after, by simp only [List.append_assoc], ?_, ?_⟩
  · exact List.forall_mem_append.mpr ⟨hbefore, has⟩
  · exact List.forall_mem_append.mpr ⟨hbs, hafter⟩

/-- The text neither starts nor ends with a character of the class. -/
def Bare (p : Char → Bool) (w : List Char) : Prop :=
  (∀ c ∈ w.head?, p c = false) ∧ ∀ c ∈ w.getLast?, p c = false

instance (p : Char → Bool) (w : List Char) : Decidable (Bare p w) :=
  decidable_of_iff ((w.head?.all fun c => !p c) ∧ w.getLast?.all fun c => !p c)
    (by simp [Bare, Option.all_eq_true])

theorem bare_of_forall {p : Char → Bool} {w : List Char} (h : ∀ c ∈ w, p c = false) : Bare p w :=
  ⟨fun c hc => h c (List.mem_of_mem_head? hc), fun c hc => h c (List.mem_of_getLast? hc)⟩

theorem trimLeft_append_of_forall {p : Char → Bool} {before : List Char}
    (h : ∀ c ∈ before, p c = true) (cs : List Char) :
    trimLeft p (before ++ cs) = trimLeft p cs := by
  induction before with
  | nil => rfl
  | cons c before ih =>
      have hc : p c = true := h c List.mem_cons_self
      show trimLeft p (c :: (before ++ cs)) = _
      rw [trimLeft, List.dropWhile_cons_of_pos hc]
      exact ih fun d hd => h d (List.mem_cons_of_mem c hd)

theorem trimLeft_eq_self {p : Char → Bool} {w : List Char} (h : ∀ c ∈ w.head?, p c = false) :
    trimLeft p w = w := by
  cases w with
  | nil => rfl
  | cons c w => simp [trimLeft, h c rfl]

/-- Only characters of the class are trimmed on the left. -/
theorem exists_append_trimLeft (p : Char → Bool) (cs : List Char) :
    ∃ before, cs = before ++ trimLeft p cs ∧ ∀ c ∈ before, p c = true := by
  refine ⟨cs.takeWhile p, List.takeWhile_append_dropWhile.symm, ?_⟩
  intro c hc
  exact List.all_eq_true.mp List.all_takeWhile c hc

/-- A text that was trimmed on the left starts with no character of the class. -/
theorem not_of_head?_trimLeft {p : Char → Bool} {cs : List Char} :
    ∀ c ∈ (trimLeft p cs).head?, p c = false := by
  intro c hc
  have h := List.head?_dropWhile_not p cs
  rwa [← trimLeft, Option.mem_def.mp hc] at h

theorem trimRight_cons (p : Char → Bool) (c : Char) (cs : List Char) :
    trimRight p (c :: cs) =
      if trimRight p cs = [] then (if p c then [] else [c]) else c :: trimRight p cs := by
  rw [trimRight]
  cases trimRight p cs <;> simp

theorem trimRight_eq_nil {p : Char → Bool} {cs : List Char} (h : ∀ c ∈ cs, p c = true) :
    trimRight p cs = [] := by
  induction cs with
  | nil => rfl
  | cons c cs ih =>
      have hcs : trimRight p cs = [] := ih fun d hd => h d (List.mem_cons_of_mem c hd)
      rw [trimRight_cons, if_pos hcs, if_pos (h c List.mem_cons_self)]

theorem trimRight_append_of_forall {p : Char → Bool} {w after : List Char}
    (hw : ∀ c ∈ w.getLast?, p c = false) (h : ∀ c ∈ after, p c = true) :
    trimRight p (w ++ after) = w := by
  induction w with
  | nil => exact trimRight_eq_nil h
  | cons c w ih =>
      show trimRight p (c :: (w ++ after)) = _
      rw [trimRight_cons]
      cases w with
      | nil =>
          have hc : p c = false := hw c rfl
          simp [trimRight_eq_nil h, hc]
      | cons d w =>
          have htail : trimRight p (d :: w ++ after) = d :: w :=
            ih fun e he => hw e (by rw [List.getLast?_cons_cons]; exact he)
          rw [htail, if_neg (List.cons_ne_nil d w)]

/-- Only characters of the class are trimmed on the right. -/
theorem exists_trimRight_append (p : Char → Bool) (cs : List Char) :
    ∃ after, cs = trimRight p cs ++ after ∧ ∀ c ∈ after, p c = true := by
  induction cs with
  | nil => exact ⟨[], rfl, by simp⟩
  | cons c cs ih =>
      obtain ⟨after, hcs, hafter⟩ := ih
      rw [trimRight_cons]
      by_cases hnil : trimRight p cs = []
      · have hall : ∀ d ∈ cs, p d = true := by
          rw [hnil, List.nil_append] at hcs
          rw [hcs]
          exact hafter
        by_cases hc : p c = true
        · refine ⟨c :: cs, by simp [hnil, hc], ?_⟩
          simpa [hc] using hall
        · exact ⟨cs, by simp [hnil, hc], hall⟩
      · refine ⟨after, ?_, hafter⟩
        rw [if_neg hnil, List.cons_append, ← hcs]

theorem padded_trim (p : Char → Bool) (cs : List Char) : Padded p (trim p cs) cs := by
  obtain ⟨before, hcs, hbefore⟩ := exists_append_trimLeft p cs
  obtain ⟨after, hleft, hafter⟩ := exists_trimRight_append p (trimLeft p cs)
  refine ⟨before, after, ?_, hbefore, hafter⟩
  rw [List.append_assoc, trim, ← hleft, ← hcs]

/-- Trimming gives a bare text exactly where that text stands between padding. -/
theorem trim_eq_iff {p : Char → Bool} {w cs : List Char} (hw : Bare p w) :
    trim p cs = w ↔ Padded p w cs := by
  constructor
  · rintro rfl
    exact padded_trim p cs
  · rintro ⟨before, after, rfl, hbefore, hafter⟩
    rw [trim, List.append_assoc, trimLeft_append_of_forall hbefore]
    cases w with
    | nil =>
        obtain ⟨_, hsplit, _⟩ := exists_append_trimLeft p after
        refine trimRight_eq_nil fun c hc => hafter c ?_
        rw [List.nil_append] at hc
        rw [hsplit]
        exact List.mem_append_right _ hc
    | cons c w =>
        rw [trimLeft_eq_self (by simpa using hw.1 c rfl)]
        exact trimRight_append_of_forall hw.2 hafter

/-! ## Pieces -/

theorem splitAt_of_not_mem {sep : Char} {cs : List Char} (h : sep ∉ cs) :
    splitAt sep cs = [cs] := by
  induction cs with
  | nil => rfl
  | cons c cs ih =>
      rw [List.mem_cons, not_or] at h
      rw [splitAt, if_neg (Ne.symm h.1), ih h.2]

theorem splitAt_append {sep : Char} {as : List Char} (h : sep ∉ as) (bs : List Char) :
    splitAt sep (as ++ sep :: bs) = as :: splitAt sep bs := by
  induction as with
  | nil => rw [List.nil_append, splitAt, if_pos rfl]
  | cons a as ih =>
      rw [List.mem_cons, not_or] at h
      rw [List.cons_append, splitAt, if_neg (Ne.symm h.1), ih h.2]

theorem splitAt_intercalate {sep : Char} {ps : List (List Char)} (hne : ps ≠ [])
    (h : ∀ p ∈ ps, sep ∉ p) : splitAt sep ([sep].intercalate ps) = ps := by
  induction ps with
  | nil => exact absurd rfl hne
  | cons p ps ih =>
      obtain ⟨hp, hps⟩ := List.forall_mem_cons.mp h
      cases ps with
      | nil => rw [List.intercalate_singleton, splitAt_of_not_mem hp]
      | cons q qs =>
          rw [List.intercalate_cons_cons, List.append_assoc, List.singleton_append,
            splitAt_append hp, ih (List.cons_ne_nil q qs) hps]

theorem not_mem_of_mem_splitAt {sep : Char} {cs p : List Char} (h : p ∈ splitAt sep cs) :
    sep ∉ p := by
  induction cs generalizing p with
  | nil =>
      rw [splitAt, List.mem_singleton] at h
      subst h
      exact List.not_mem_nil
  | cons c cs ih =>
      rw [splitAt] at h
      split at h
      · rcases List.mem_cons.mp h with rfl | h
        · exact List.not_mem_nil
        · exact ih h
      · rename_i hc
        split at h
        · rename_i hnil
          exact absurd hnil (splitAt_ne_nil sep cs)
        · rename_i q qs hqs
          rw [hqs] at ih
          rcases List.mem_cons.mp h with rfl | h
          · rw [List.mem_cons, not_or]
            exact ⟨Ne.symm hc, ih List.mem_cons_self⟩
          · exact ih (List.mem_cons_of_mem q h)

/-- The last piece is what is left where no separator is. -/
theorem splitAt_eq_singleton {sep : Char} {cs p : List Char} (h : splitAt sep cs = [p]) :
    cs = p ∧ sep ∉ p := by
  by_cases hmem : sep ∈ cs
  · obtain ⟨as, bs, rfl, has⟩ := List.eq_append_cons_of_mem hmem
    rw [splitAt_append has] at h
    exact absurd (List.cons.inj h).2 (splitAt_ne_nil sep bs)
  · rw [splitAt_of_not_mem hmem] at h
    obtain ⟨rfl, _⟩ := List.cons.inj h
    exact ⟨rfl, hmem⟩

/-- A piece that another one follows ends at the first separator. -/
theorem splitAt_eq_cons_cons {sep : Char} {cs p q : List Char} {ps : List (List Char)}
    (h : splitAt sep cs = p :: q :: ps) :
    ∃ rest, cs = p ++ sep :: rest ∧ sep ∉ p ∧ splitAt sep rest = q :: ps := by
  by_cases hmem : sep ∈ cs
  · obtain ⟨as, bs, rfl, has⟩ := List.eq_append_cons_of_mem hmem
    rw [splitAt_append has] at h
    obtain ⟨rfl, hbs⟩ := List.cons.inj h
    exact ⟨bs, rfl, has, hbs⟩
  · rw [splitAt_of_not_mem hmem] at h
    exact absurd (List.cons.inj h).2 (List.cons_ne_nil q ps).symm

/-- A text has two pieces exactly where it holds one separator. -/
theorem splitAt_eq_pair_iff {sep : Char} {cs as bs : List Char} :
    splitAt sep cs = [as, bs] ↔ cs = as ++ sep :: bs ∧ sep ∉ as ∧ sep ∉ bs := by
  constructor
  · intro h
    obtain ⟨rest, rfl, has, hrest⟩ := splitAt_eq_cons_cons h
    obtain ⟨rfl, hbs⟩ := splitAt_eq_singleton hrest
    exact ⟨rfl, has, hbs⟩
  · rintro ⟨rfl, has, hbs⟩
    rw [splitAt_append has, splitAt_of_not_mem hbs]

/-! ## Words -/

/-- The text consists of the words, none empty and none with a blank inside,
and of the blanks between and around them. -/
inductive Spaced : List (List Char) → List Char → Prop where
  | nil : Spaced [] []
  | blank {c : Char} {cs : List Char} {ws : List (List Char)} :
      isBlank c = true → Spaced ws cs → Spaced ws (c :: cs)
  | word {w cs : List Char} {ws : List (List Char)} :
      w ≠ [] → (∀ c ∈ w, isBlank c = false) → (∀ c ∈ cs.head?, isBlank c = true) →
      Spaced ws cs → Spaced (w :: ws) (w ++ cs)

theorem words_append {w cs : List Char} (hne : w ≠ []) (hw : ∀ c ∈ w, isBlank c = false)
    (hcs : ∀ c ∈ cs.head?, isBlank c = true) : words (w ++ cs) = w :: words cs := by
  induction w with
  | nil => exact absurd rfl hne
  | cons c w ih =>
      have hc : isBlank c = false := hw c List.mem_cons_self
      cases w with
      | nil =>
          cases cs with
          | nil => simp [words, hc]
          | cons d cs =>
              have hd : isBlank d = true := hcs d rfl
              simp [words, hc, hd]
      | cons d w =>
          have hd : isBlank d = false := hw d (by simp)
          have htail : words (d :: (w ++ cs)) = (d :: w) :: words cs :=
            ih (List.cons_ne_nil d w) fun e he => hw e (List.mem_cons_of_mem c he)
          show words (c :: d :: (w ++ cs)) = _
          rw [words, if_neg (by simp [hc])]
          simp only [hd, htail]
          simp

/-- Blanks in front of a text make no word. -/
theorem words_append_of_forall {before : List Char} (h : ∀ c ∈ before, isBlank c = true)
    (cs : List Char) : words (before ++ cs) = words cs := by
  induction before with
  | nil => rfl
  | cons c before ih =>
      obtain ⟨hc, hbefore⟩ := List.forall_mem_cons.mp h
      rw [List.cons_append, words_cons_blank hc, ih hbefore]

theorem Spaced.words_eq {ws : List (List Char)} {cs : List Char} (h : Spaced ws cs) :
    words cs = ws := by
  induction h with
  | nil => rfl
  | blank hc _ ih => rw [words_cons_blank hc, ih]
  | word hne hw hcs _ ih => rw [words_append hne hw hcs, ih]

/-- A text that starts with a character of a word starts with that word. -/
theorem Spaced.exists_word {c : Char} {cs : List Char} {ws : List (List Char)}
    (h : Spaced ws (c :: cs)) (hc : isBlank c = false) :
    ∃ w rest vs, ws = w :: vs ∧ c :: cs = w ++ rest ∧ (∀ d ∈ w, isBlank d = false) ∧
      (∀ d ∈ rest.head?, isBlank d = true) ∧ Spaced vs rest := by
  generalize htext : c :: cs = text at h
  cases h with
  | nil => exact absurd htext (List.cons_ne_nil c cs)
  | blank hd _ =>
      obtain ⟨rfl, rfl⟩ := List.cons.inj htext
      rw [hc] at hd
      exact absurd hd Bool.false_ne_true
  | word _ hw hrest hvs => exact ⟨_, _, _, rfl, rfl, hw, hrest, hvs⟩

theorem spaced_words (cs : List Char) : Spaced (words cs) cs := by
  fun_induction words cs with
  | case1 => exact .nil
  | case2 c cs hc ih => exact .blank hc ih
  | case3 c hc => exact .word (by simp) (by simpa using hc) (by simp) .nil
  | case4 c hc d ds hd ih => exact .word (by simp) (by simpa using hc) (by simpa using hd) ih
  | case5 c hc d ds hd hw ih =>
      -- the next character starts a word, so there are words
      obtain ⟨w, _, vs, hnil, _⟩ := ih.exists_word (by simpa using hd)
      rw [hw] at hnil
      exact absurd hnil (List.cons_ne_nil w vs).symm
  | case6 c hc d ds hd w ws hw ih =>
      -- the word goes on, and the character is put in front of it
      obtain ⟨v, rest, vs, hvs, htext, hv, hrest, hspaced⟩ := ih.exists_word (by simpa using hd)
      rw [hw] at hvs
      obtain ⟨rfl, rfl⟩ := List.cons.inj hvs
      have hcw : ∀ e ∈ c :: w, isBlank e = false := by
        intro e he
        rcases List.mem_cons.mp he with rfl | he
        · simpa using hc
        · exact hv e he
      have hword : c :: d :: ds = (c :: w) ++ rest := by rw [htext, List.cons_append]
      rw [hw, hword]
      exact .word (List.cons_ne_nil c w) hcw hrest hspaced

theorem Spaced.infix_of_mem {ws : List (List Char)} {cs w : List Char} (h : Spaced ws cs)
    (hw : w ∈ ws) : w <:+: cs := by
  induction h with
  | nil => exact absurd hw List.not_mem_nil
  | blank _ _ ih => exact (ih hw).trans (List.suffix_cons _ _).isInfix
  | word _ _ _ _ ih =>
      rcases List.mem_cons.mp hw with rfl | hw
      · exact (List.prefix_append _ _).isInfix
      · exact (ih hw).trans (List.suffix_append _ _).isInfix

/-- What the first word starts with has only blanks before it. -/
theorem Spaced.exists_blanks {ws : List (List Char)} {cs w : List Char} (h : Spaced ws cs)
    (hw : w ∈ ws.head?) {c : Char} (hc : c ∈ w.head?) :
    ∃ blanks rest, (∀ b ∈ blanks, isBlank b = true) ∧ cs = blanks ++ c :: rest := by
  induction h with
  | nil => cases hw
  | @blank b cs ws hb _ ih =>
      obtain ⟨blanks, rest, hblanks, rfl⟩ := ih hw
      exact ⟨b :: blanks, rest, List.forall_mem_cons.mpr ⟨hb, hblanks⟩, rfl⟩
  | word _ _ _ _ _ =>
      obtain rfl := Option.some.inj hw
      obtain ⟨tail, rfl⟩ := List.head?_eq_some_iff.mp hc
      exact ⟨[], _, List.forall_mem_nil _, rfl⟩

/-- The words of a text are those that it consists of. -/
theorem words_eq_iff {ws : List (List Char)} {cs : List Char} : words cs = ws ↔ Spaced ws cs := by
  constructor
  · rintro rfl
    exact spaced_words cs
  · exact Spaced.words_eq

/-! ## Words joined by single spaces -/

/-- A text that can be a word: it is not empty and holds no blank. -/
def IsWord (w : List Char) : Prop :=
  w ≠ [] ∧ ∀ c ∈ w, isBlank c = false

instance (w : List Char) : Decidable (IsWord w) :=
  decidable_of_iff (w ≠ [] ∧ w.all fun c => !isBlank c) (by simp [IsWord])

theorem ofList_joinWords (ws : List (List Char)) :
    String.ofList (joinWords ws) = " ".intercalate (ws.map String.ofList) := by
  fun_induction joinWords ws with
  | case1 => rfl
  | case2 w => simp
  | case3 w ws hne ih =>
      have hrest : ws.map String.ofList ≠ [] := by simpa using hne
      rw [List.map_cons, String.intercalate_cons_of_ne_nil hrest, ← ih]
      simp [← String.toList_inj]

theorem spaced_joinWords {ws : List (List Char)} (h : ∀ w ∈ ws, IsWord w) :
    Spaced ws (joinWords ws) := by
  fun_induction joinWords ws with
  | case1 => exact .nil
  | case2 w =>
      obtain ⟨hne, hw⟩ := h w List.mem_cons_self
      have hspaced : Spaced [w] (w ++ []) := .word hne hw (by simp) .nil
      rwa [List.append_nil] at hspaced
  | case3 w ws _ ih =>
      obtain ⟨hword, hwords⟩ := List.forall_mem_cons.mp h
      exact .word hword.1 hword.2 (by simp; decide) (.blank (by decide) (ih hwords))

theorem words_joinWords {ws : List (List Char)} (h : ∀ w ∈ ws, IsWord w) :
    words (joinWords ws) = ws :=
  (spaced_joinWords h).words_eq

theorem mem_joinWords {ws : List (List Char)} {c : Char} (h : c ∈ joinWords ws) :
    c = ' ' ∨ ∃ w ∈ ws, c ∈ w := by
  fun_induction joinWords ws with
  | case1 => exact absurd h List.not_mem_nil
  | case2 w => exact Or.inr ⟨w, List.mem_cons_self, h⟩
  | case3 w ws _ ih =>
      rcases List.mem_append.mp h with h | h
      · exact Or.inr ⟨w, List.mem_cons_self, h⟩
      · rcases List.mem_cons.mp h with rfl | h
        · exact Or.inl rfl
        · rcases ih h with hc | ⟨v, hv, hc⟩
          · exact Or.inl hc
          · exact Or.inr ⟨v, List.mem_cons_of_mem w hv, hc⟩

theorem head?_joinWords {w : List Char} {ws : List (List Char)} (h : w ≠ []) :
    (joinWords (w :: ws)).head? = w.head? := by
  cases ws with
  | nil => rfl
  | cons v ws =>
      rw [joinWords, List.head?_append, List.head?_eq_some_head h, Option.some_or]
      simp

end RadarChart.Text
