import Mathlib.Data.List.SplitBy
import RadarChart.Document.KeyPath

/-!
# Blocks of lines

A block is a line with the indented lines that follow it. The path of a line is
described here from its block alone: each line covers the end of the path from
its shift on, and the word at a place comes from the last line that covers it.
The active path that the resolution carries from line to line is that path.
-/

namespace RadarChart

open Text

/-! ## The path of a line in its block -/

/-- The key words of a line, those before its first colon. -/
def Line.words (l : Line) : List (List Char) :=
  Text.words (l.text.toList.takeWhile (· != ':'))

def Line.indented (l : Line) : Bool :=
  l.text.toList.head?.any isBlank

/-- The text after the first colon, without the blanks that it starts with. -/
def Line.value (l : Line) : List Char :=
  trimLeft isBlank ((l.text.toList.dropWhile (· != ':')).drop 1)

/-- The blocks of a document. Each line that is not indented starts one. -/
def blocks (lines : List Line) : List (List Line) :=
  lines.splitBy fun _ l => l.indented

/-- How many key words the line at a place of the block has. -/
def wordCount (block : List Line) (i : Nat) : Nat :=
  (block[i]?.map (·.words.length)).getD 0

/-- The most key words that a line of the block has up to the given one. -/
def depth (block : List Line) (i : Nat) : Nat :=
  ((List.range (i + 1)).map (wordCount block)).foldr max 0

/-- Where in the path of its line the words of the line start. -/
def shift (block : List Line) (i : Nat) : Nat :=
  depth block i - wordCount block i

/-- The last line up to `j` that starts at `p` or before. -/
def sourceLine? (block : List Line) (j p : Nat) : Option Nat :=
  ((List.range (j + 1)).filter fun i => shift block i ≤ p).getLast?

/-- The word that the last such line has there. -/
def sourceWord? (block : List Line) (j p : Nat) : Option (List Char) :=
  (sourceLine? block j p).bind fun i => (block[i]?.map (·.words)).bind (·[p - shift block i]?)

/-- The path of a line of the block. -/
def blockPath (block : List Line) (j : Nat) : List (List Char) :=
  (List.range (depth block j)).filterMap (sourceWord? block j)

/-- The key paths of a document, one for each line. -/
def keyPaths (lines : List Line) : List (List (List Char)) :=
  (blocks lines).flatMap fun block => (List.range block.length).map (blockPath block)

/-- The keys of a document: the words of each path with single spaces between. -/
def keys (lines : List Line) : List String :=
  (keyPaths lines).map fun path => " ".intercalate (path.map String.ofList)

/-! ## From one line to the next -/

section
variable {block : List Line}

theorem depth_zero : depth block 0 = wordCount block 0 := by
  simp [depth]

theorem depth_succ (j : Nat) :
    depth block (j + 1) = max (depth block j) (wordCount block (j + 1)) := by
  have hfold : ∀ (ns : List Nat) (n : Nat), (ns ++ [n]).foldr max 0 = max (ns.foldr max 0) n := by
    intro ns n
    induction ns with
    | nil => simp
    | cons m ns ih => rw [List.cons_append, List.foldr_cons, ih, List.foldr_cons, Nat.max_assoc]
  rw [depth, List.range_succ, List.map_append, List.map_singleton, hfold, depth]

theorem sourceLine?_succ (j p : Nat) :
    sourceLine? block (j + 1) p =
      if shift block (j + 1) ≤ p then some (j + 1) else sourceLine? block j p := by
  rw [sourceLine?, List.range_succ, List.filter_append]
  split <;> rename_i h
  · simp [h]
  · simp [h, sourceLine?]

/-- The line found is the last one that starts at `p` or before. -/
theorem sourceLine?_eq_some {j p i : Nat} (h : sourceLine? block j p = some i) :
    i ≤ j ∧ shift block i ≤ p ∧ ∀ k, i < k → k ≤ j → p < shift block k := by
  induction j with
  | zero =>
      have hmem := List.mem_of_getLast? h
      simp only [List.mem_filter, List.mem_range, decide_eq_true_eq] at hmem
      refine ⟨by omega, hmem.2, ?_⟩
      intro k hik hk
      omega
  | succ j ih =>
      rw [sourceLine?_succ] at h
      split at h <;> rename_i hcovered
      · obtain rfl := Option.some.inj h
        refine ⟨Nat.le_refl _, hcovered, ?_⟩
        intro k hik hk
        omega
      · obtain ⟨hij, hshift, hlast⟩ := ih h
        refine ⟨by omega, hshift, ?_⟩
        intro k hik hk
        by_cases hkj : k = j + 1
        · rw [hkj]
          omega
        · exact hlast k hik (by omega)

/-- A path that holds, at each of as many places as the block is deep, the word
of the last line that covers the place. -/
def IsPath (block : List Line) (j : Nat) (path : List (List Char)) : Prop :=
  path.length = depth block j ∧ ∀ p < depth block j, sourceWord? block j p = path[p]?

theorem isPath_zero {l : Line} (h : block[0]? = some l) : IsPath block 0 l.words := by
  have hcount : wordCount block 0 = l.words.length := by simp [wordCount, h]
  have hshift : shift block 0 = 0 := by rw [shift, depth_zero, Nat.sub_self]
  refine ⟨by rw [depth_zero, hcount], ?_⟩
  intro p _
  simp [sourceWord?, sourceLine?, hshift, h]

/-- The words of the next line replace as many at the end of the path. -/
theorem IsPath.succ {j : Nat} {path : List (List Char)} {l : Line} (hpath : IsPath block j path)
    (h : block[j + 1]? = some l) :
    IsPath block (j + 1) (path.take (path.length - l.words.length) ++ l.words) := by
  obtain ⟨hlength, hwords⟩ := hpath
  have hcount : wordCount block (j + 1) = l.words.length := by simp [wordCount, h]
  have hdepth : depth block (j + 1) = max (depth block j) (wordCount block (j + 1)) :=
    depth_succ j
  have hshift : shift block (j + 1) = path.length - l.words.length := by
    rw [shift, hdepth, hcount, hlength]
    omega
  constructor
  · simp only [List.length_append, List.length_take]
    omega
  · intro p hp
    rw [sourceWord?, sourceLine?_succ]
    by_cases hcovered : shift block (j + 1) ≤ p
    · -- the next line covers the place
      rw [if_pos hcovered, List.getElem?_append_right (by simp; omega)]
      simp only [Option.bind_some, h, Option.map_some, List.length_take]
      congr 1
      omega
    · -- the place keeps its word, and the path has not grown
      rw [if_neg hcovered, List.getElem?_append_left (by simp; omega),
        List.getElem?_take_of_lt (by omega)]
      exact hwords p (by omega)

theorem filterMap_getElem?_range {α : Type} (xs : List α) :
    (List.range xs.length).filterMap (fun (i : Nat) => xs[i]?) = xs := by
  induction xs with
  | nil => rfl
  | cons x xs ih =>
      rw [List.length_cons, List.range_succ_eq_map,
        List.filterMap_cons_some List.getElem?_cons_zero, List.filterMap_map]
      exact congrArg (x :: ·) ih

theorem IsPath.eq_blockPath {j : Nat} {path : List (List Char)} (h : IsPath block j path) :
    blockPath block j = path := by
  obtain ⟨hlength, hwords⟩ := h
  rw [blockPath, ← hlength]
  rw [← hlength] at hwords
  calc (List.range path.length).filterMap (sourceWord? block j)
      = (List.range path.length).filterMap fun (p : Nat) => path[p]? :=
        List.filterMap_congr fun p hp => hwords p (List.mem_range.mp hp)
    _ = path := filterMap_getElem?_range path

end

/-! ## Along the lines -/

def Line.parts (l : Line) : LineParts :=
  ⟨l.indented, l.words, l.value⟩

theorem ofText?_toList (l : Line) :
    LineParts.ofText? l.text.toList = if ':' ∈ l.text.toList then some l.parts else none :=
  rfl

/-- The active path after each of the lines, where `path` is the one before. -/
def pathsFrom (path : List (List Char)) : List Line → List (List (List Char))
  | [] => []
  | l :: ls => extendPath path l.parts :: pathsFrom (extendPath path l.parts) ls

theorem length_pathsFrom (path : List (List Char)) (ls : List Line) :
    (pathsFrom path ls).length = ls.length := by
  induction ls generalizing path with
  | nil => rfl
  | cons l ls ih => rw [pathsFrom, List.length_cons, List.length_cons, ih]

theorem extendPath_nil (p : LineParts) : extendPath [] p = p.words := by
  simp [extendPath]

/-- Before a line that is not indented the active path does not matter. -/
theorem pathsFrom_eq_of_flush {ls : List Line} (h : ∀ l ∈ ls.head?, l.indented = false)
    (path : List (List Char)) : pathsFrom path ls = pathsFrom [] ls := by
  cases ls with
  | nil => rfl
  | cons l ls =>
      have hflush : l.parts.indented = false := h l rfl
      have hpath : extendPath path l.parts = l.parts.words := by simp [extendPath, hflush]
      rw [pathsFrom, pathsFrom, hpath, extendPath_nil]

theorem pathsFrom_of_flush {ls : List Line} (h : ∀ l ∈ ls, l.indented = false)
    (path : List (List Char)) : pathsFrom path ls = ls.map (·.words) := by
  induction ls generalizing path with
  | nil => rfl
  | cons l ls ih =>
      obtain ⟨hl, hls⟩ := List.forall_mem_cons.mp h
      have hpath : extendPath path l.parts = l.words := if_neg (by simp [Line.parts, hl])
      rw [pathsFrom, hpath, ih hls, List.map_cons]

theorem pathsFrom_append {as bs : List Line} (h : ∀ l ∈ bs.head?, l.indented = false)
    (path : List (List Char)) :
    pathsFrom path (as ++ bs) = pathsFrom path as ++ pathsFrom [] bs := by
  induction as generalizing path with
  | nil => exact pathsFrom_eq_of_flush h path
  | cons a as ih => rw [List.cons_append, pathsFrom, pathsFrom, ih, List.cons_append]

theorem getElem?_pathsFrom_succ {ls : List Line} {path q : List (List Char)} {j : Nat} {l : Line}
    (hq : (pathsFrom path ls)[j]? = some q) (hl : ls[j + 1]? = some l) :
    (pathsFrom path ls)[j + 1]? = some (extendPath q l.parts) := by
  induction ls generalizing path j with
  | nil => exact absurd hl (by simp)
  | cons m ls ih =>
      rw [pathsFrom, List.getElem?_cons_succ]
      rw [pathsFrom] at hq
      rw [List.getElem?_cons_succ] at hl
      cases j with
      | zero =>
          obtain rfl : extendPath path m.parts = q := by simpa using hq
          cases ls with
          | nil => exact absurd hl (by simp)
          | cons k ls =>
              obtain rfl : k = l := by simpa using hl
              rfl
      | succ j => exact ih hq hl

/-- Along a block the active path is the path described by the block. -/
theorem isPath_of_getElem?_pathsFrom {block : List Line} (h : ∀ l ∈ block.tail, l.indented = true)
    {j : Nat} (hj : j < block.length) :
    ∃ path, (pathsFrom [] block)[j]? = some path ∧ IsPath block j path := by
  -- over the places of the block, not its lines: each path needs the one before
  induction j with
  | zero =>
      cases block with
      | nil => exact absurd hj (Nat.not_lt_zero 0)
      | cons l ls =>
          refine ⟨l.words, ?_, isPath_zero rfl⟩
          rw [pathsFrom, extendPath_nil]
          rfl
  | succ j ih =>
      obtain ⟨path, hpath, hispath⟩ := ih (by omega)
      have hl : block[j + 1]? = some block[j + 1] := List.getElem?_eq_getElem hj
      have hindented : block[j + 1].indented = true := by
        apply h
        rw [List.mem_iff_getElem]
        exact ⟨j, by simp; omega, by simp⟩
      have hextend : extendPath path block[j + 1].parts =
          path.take (path.length - block[j + 1].words.length) ++ block[j + 1].words := by
        exact if_pos hindented
      refine ⟨_, getElem?_pathsFrom_succ hpath hl, ?_⟩
      rw [hextend]
      exact hispath.succ hl

theorem isPath_blockPath {block : List Line} (h : ∀ l ∈ block.tail, l.indented = true) {j : Nat}
    (hj : j < block.length) : IsPath block j (blockPath block j) := by
  obtain ⟨path, _, hpath⟩ := isPath_of_getElem?_pathsFrom h hj
  rwa [hpath.eq_blockPath]

theorem pathsFrom_block {block : List Line} (h : ∀ l ∈ block.tail, l.indented = true) :
    pathsFrom [] block = (List.range block.length).map (blockPath block) := by
  apply List.ext_getElem
  · rw [length_pathsFrom, List.length_map, List.length_range]
  · intro j hj _
    rw [length_pathsFrom] at hj
    obtain ⟨path, hpath, hispath⟩ := isPath_of_getElem?_pathsFrom h hj
    rw [List.getElem_map, List.getElem_range, hispath.eq_blockPath]
    exact (List.getElem?_eq_some_iff.mp hpath).2

theorem indented_of_mem_tail {block : List Line}
    (h : block.IsChain fun _ l => l.indented = true) : ∀ l ∈ block.tail, l.indented = true := by
  induction block with
  | nil => simp
  | cons l block ih =>
      cases block with
      | nil => simp
      | cons m block =>
          obtain ⟨hm, hblock⟩ := List.isChain_cons_cons.mp h
          intro k hk
          rcases List.mem_cons.mp hk with rfl | hk
          · exact hm
          · exact ih hblock k hk

theorem pathsFrom_flatten {bs : List (List Line)} (hne : [] ∉ bs)
    (h : bs.IsChain fun a b => ∃ (_ : a ≠ []) (hb : b ≠ []), (b.head hb).indented = false) :
    pathsFrom [] bs.flatten = bs.flatMap (pathsFrom []) := by
  induction bs with
  | nil => rfl
  | cons b bs ih =>
      rw [List.mem_cons, not_or] at hne
      -- the next block starts with a line that forgets the path of this one
      have hnext : ∀ l ∈ bs.flatten.head?, l.indented = false := by
        cases bs with
        | nil => simp
        | cons c cs =>
            obtain ⟨⟨_, hc, hflush⟩, _⟩ := List.isChain_cons_cons.mp h
            intro l hl
            rw [List.flatten_cons, List.head?_append_of_ne_nil c hc,
              List.head?_eq_some_head hc] at hl
            exact Option.some.inj hl ▸ hflush
      rw [List.flatten_cons, pathsFrom_append hnext, List.flatMap_cons, ih hne.2 h.tail]

theorem indented_of_mem_blocks {lines block : List Line} (h : block ∈ blocks lines) :
    ∀ l ∈ block.tail, l.indented = true :=
  indented_of_mem_tail (List.isChain_of_mem_splitBy h)

/-- The active paths of a document are the paths of its lines in their blocks. -/
theorem pathsFrom_eq_keyPaths (lines : List Line) : pathsFrom [] lines = keyPaths lines := by
  calc pathsFrom [] lines
      = pathsFrom [] (blocks lines).flatten := by rw [blocks, List.flatten_splitBy]
    _ = (blocks lines).flatMap (pathsFrom []) :=
        pathsFrom_flatten (List.nil_notMem_splitBy _ _)
          (List.isChain_getLast_head_splitBy (fun _ l => l.indented) lines)
    _ = keyPaths lines := by
        rw [keyPaths]
        apply List.flatMap_congr
        intro block hblock
        exact pathsFrom_block (indented_of_mem_blocks hblock)

end RadarChart
