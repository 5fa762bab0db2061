/-!
# Blank characters and words

Two classes of blank characters are used. `isBlank` is the wide one, over all
of Unicode; it separates words, indents lines and surrounds values.
`isAsciiBlank` is the narrow one; it may surround the parts of a number. Both
work on lists of characters, the form in which texts are taken apart.
-/

namespace RadarChart.Text

/-- A blank character of any script: the tabulators and line ends, the four
separators `1C` to `1F`, and the spaces and line separators of Unicode. -/
def isBlank (c : Char) : Bool :=
  let n := c.toNat
  (0x09 ≤ n && n ≤ 0x0D) || (0x1C ≤ n && n ≤ 0x20) || n == 0x85 || n == 0xA0 ||
    n == 0x1680 || (0x2000 ≤ n && n ≤ 0x200A) || n == 0x2028 || n == 0x2029 ||
    n == 0x202F || n == 0x205F || n == 0x3000

/-- A blank character of the ASCII range: space, tabulators and line ends. -/
def isAsciiBlank (c : Char) : Bool :=
  let n := c.toNat
  (0x09 ≤ n && n ≤ 0x0D) || n == 0x20

/-- Every ASCII blank is a blank. -/
theorem isBlank_of_isAsciiBlank {c : Char} (h : isAsciiBlank c = true) : isBlank c = true := by
  simp only [isAsciiBlank, isBlank, Bool.or_eq_true, Bool.and_eq_true, decide_eq_true_eq,
    beq_iff_eq] at h ⊢
  omega

/-- The text without the characters of the class that it starts with. -/
def trimLeft (p : Char → Bool) (cs : List Char) : List Char :=
  cs.dropWhile p

/-- The text without the characters of the class that it ends with. -/
def trimRight (p : Char → Bool) : List Char → List Char
  | [] => []
  | c :: cs =>
    match trimRight p cs with
    | [] => if p c then [] else [c]
    | d :: ds => c :: d :: ds

/-- The text without the characters of the class at either end. -/
def trim (p : Char → Bool) (cs : List Char) : List Char :=
  trimRight p (trimLeft p cs)

/-- The maximal runs of characters that are not blank, in order. -/
def words : List Char → List (List Char)
  | [] => []
  | c :: cs =>
    if isBlank c then words cs
    else
      match cs with
      | [] => [[c]]
      | d :: _ =>
        if isBlank d then [c] :: words cs
        else
          match words cs with
          | [] => [[c]]
          | w :: ws => (c :: w) :: ws

/-- The pieces between the occurrences of `sep`, empty ones included: one more
than there are occurrences. -/
def splitAt (sep : Char) : List Char → List (List Char)
  | [] => [[]]
  | c :: cs =>
    if c = sep then [] :: splitAt sep cs
    else
      match splitAt sep cs with
      | [] => [[c]]
      | p :: ps => (c :: p) :: ps

/-- The words joined by single spaces. -/
def joinWords : List (List Char) → List Char
  | [] => []
  | [w] => w
  | w :: ws => w ++ ' ' :: joinWords ws

@[simp] theorem trimRight_nil (p : Char → Bool) : trimRight p [] = [] := rfl

@[simp] theorem words_nil : words [] = [] := rfl

theorem words_cons_blank {c : Char} (h : isBlank c = true) (cs : List Char) :
    words (c :: cs) = words cs := by
  simp [words, h]

/-- Every word is non-empty. -/
theorem ne_nil_of_mem_words {cs w : List Char} (h : w ∈ words cs) : w ≠ [] := by
  fun_induction words cs with
  | case1 => simp at h
  | case2 c cs hc ih => exact ih h
  | case3 c hc => simp_all
  | case4 c hc d ds hd ih =>
    rcases List.mem_cons.mp h with rfl | h
    · simp
    · exact ih h
  | case5 c hc d ds hd hw ih => simp_all
  | case6 c hc d ds hd w ws hw ih =>
    rw [hw] at h
    rcases List.mem_cons.mp h with rfl | h
    · simp
    · exact ih (by simp [hw, h])

/-- No word holds a blank. -/
theorem not_isBlank_of_mem_words {cs w : List Char} (h : w ∈ words cs) {x : Char} (hx : x ∈ w) :
    isBlank x = false := by
  fun_induction words cs generalizing w with
  | case1 => simp at h
  | case2 c cs hc ih => exact ih h hx
  | case3 c hc => simp_all
  | case4 c hc d ds hd ih =>
    rcases List.mem_cons.mp h with rfl | h
    · simp_all
    · exact ih h hx
  | case5 c hc d ds hd hw ih => simp_all
  | case6 c hc d ds hd w ws hw ih =>
    rw [hw] at h
    rcases List.mem_cons.mp h with rfl | h
    · rcases List.mem_cons.mp hx with rfl | hx
      · simpa using hc
      · exact ih (by simp [hw]) hx
    · exact ih (by simp [hw, h]) hx

/-- Splitting gives at least one piece. -/
theorem splitAt_ne_nil (sep : Char) (cs : List Char) : splitAt sep cs ≠ [] := by
  fun_induction splitAt sep cs <;> simp

end RadarChart.Text
