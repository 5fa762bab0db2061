import Mathlib.Data.List.Basic
import RadarChart.Command.Session
import RadarChart.Proofs.Document.Line
import RadarChart.Proofs.Text.Utf8

/-!
# Charts from files

A text is divided at line feeds, with or without a carriage return in front of
them; a file has all of its line ends unified before that. Both ways number the
lines alike, whichever ends they have, and no other character divides a line.
So a document in a file gives the chart that its text gives.
-/

namespace RadarChart

open Text

/-! ## Unified line ends -/

theorem unifyLineEnds_cons {c : Char} (hc : c ≠ '\r') (cs : List Char) :
    unifyLineEnds (c :: cs) = c :: unifyLineEnds cs := by
  rw [unifyLineEnds]
  · exact fun _ h _ => hc h
  · exact hc

theorem unifyLineEnds_append {l : List Char} (hl : '\r' ∉ l) (cs : List Char) :
    unifyLineEnds (l ++ cs) = l ++ unifyLineEnds cs := by
  induction l with
  | nil => rfl
  | cons c l ih =>
      rw [List.mem_cons, not_or] at hl
      rw [List.cons_append, unifyLineEnds_cons (Ne.symm hl.1), ih hl.2, List.cons_append]

/-- A carriage return that no line feed follows is a line end of its own. -/
theorem unifyLineEnds_return {cs : List Char} (h : '\n' ∉ cs.head?) :
    unifyLineEnds ('\r' :: cs) = '\n' :: unifyLineEnds cs := by
  rw [unifyLineEnds]
  rintro cs rfl
  exact h rfl

/-- If each of the line ends becomes a line feed in front of whatever follows, the text
becomes its lines with line feeds. -/
theorem Ended.unify {ends ls : List (List Char)} {cs : List Char} (hone : ∀ l ∈ ls, OneLine l)
    (h : Ended ends ls cs)
    (hends : ∀ e ∈ ends, ∀ {ms : List (List Char)} {ds : List Char}, (∀ l ∈ ms, OneLine l) →
      Ended ends ms ds → unifyLineEnds (e ++ ds) = '\n' :: unifyLineEnds ds) :
    Ended [['\n']] ls (unifyLineEnds cs) := by
  induction h with
  | nil => exact .nil
  | last l =>
      rw [← List.append_nil l, unifyLineEnds_append (hone l List.mem_cons_self).2]
      rw [unifyLineEnds, List.append_nil]
      exact .last l
  | @cons l e cs ls he hcs ih =>
      obtain ⟨hl, hls⟩ := List.forall_mem_cons.mp hone
      rw [List.append_assoc, unifyLineEnds_append hl.2, hends e he hls hcs]
      have hrest : Ended [['\n']] (l :: ls) (l ++ ['\n'] ++ unifyLineEnds cs) :=
        .cons List.mem_cons_self (ih hls)
      rwa [List.append_assoc] at hrest

theorem Ended.not_mem_of_return {ls : List (List Char)} {cs : List Char}
    (hone : ∀ l ∈ ls, OneLine l) (h : Ended [['\r']] ls cs) : '\n' ∉ cs := by
  induction h with
  | nil => exact List.not_mem_nil
  | last l => exact (hone l List.mem_cons_self).1
  | @cons l e cs ls he _ ih =>
      obtain ⟨hl, hls⟩ := List.forall_mem_cons.mp hone
      obtain rfl := List.mem_singleton.mp he
      simp only [List.mem_append, not_or]
      exact ⟨⟨hl.1, by decide⟩, ih hls⟩

/-- In a file a line may also be ended by a carriage return alone, if all lines are. -/
theorem ended_unifyLineEnds {ls : List (List Char)} {cs : List Char} (hone : ∀ l ∈ ls, OneLine l)
    (h : Ended lineEnds ls cs ∨ Ended [['\r']] ls cs) :
    Ended [['\n']] ls (unifyLineEnds cs) := by
  rcases h with h | h
  · refine h.unify hone ?_
    intro e he ms ds _ _
    simp only [lineEnds, List.mem_cons, List.not_mem_nil, or_false] at he
    rcases he with rfl | rfl
    · exact unifyLineEnds_cons (by decide) ds
    · rfl
  · refine h.unify hone ?_
    intro e he ms ds hms hds
    obtain rfl := List.mem_singleton.mp he
    exact unifyLineEnds_return fun hfeed => hds.not_mem_of_return hms (List.mem_of_mem_head? hfeed)

/-! ## Reading a file -/

/-- A path that leads to a file brings what is in it. -/
theorem FileTree.read_of_walk {t : FileTree} {path : String} {place : Place} {content : ByteArray}
    (hpath : checkPath path = .ok ()) (hwalk : t.walk (t.start path) (pathNames path) = .ok place)
    (hfile : t.find? place = some (.file content)) : t.read path = .ok content := by
  simp only [FileTree.read, hpath, hwalk, refusing, bind, Except.bind, hfile]
  rfl

theorem readText_toUTF8 (text : String) :
    readText text.toUTF8 = .ok (String.ofList (unifyLineEnds text.toList)) := by
  rw [readText, decodeUtf8_toUTF8]

/-- Understanding a text gives its chart, whatever has been recorded before. -/
theorem run_understand (text : String) (records : List Record) :
    ((understand text).run.run records).1 = (Chart.parse text).mapError Stop.ofFailure := by
  rw [understand, Chart.parse, readItems]
  cases resolve (readLines text) with
  | error problem => rfl
  | ok items =>
      rw [Logged.ofProblem, pure_bind]
      show _ = (Chart.ofItems items).mapError Stop.ofFailure
      cases Chart.ofItems items <;> rfl

theorem numberLines_toList (first : Nat) (lines : List String) :
    numberLines first (lines.map String.toList) =
      ((lines.zipIdx first).filter fun p => ¬ IsSilent p.1.toList).map fun p => ⟨p.2, p.1⟩ := by
  rw [numberLines_eq, List.zipIdx_map, List.filter_map, List.map_map]
  refine List.map_congr_left fun p _ => ?_
  simp

/-- A file is understood as its text is, with line feeds between its lines. -/
theorem loadChart_of_ended {lines : List String} (hone : ∀ l ∈ lines, OneLine l.toList)
    {text : String} (h : Ended lineEnds (lines.map String.toList) text.toList ∨
      Ended [['\r']] (lines.map String.toList) text.toList) :
    loadChart (.ok text.toUTF8) = understand ("\n".intercalate lines) := by
  have hone' : ∀ l ∈ lines.map String.toList, OneLine l := List.forall_mem_map.mpr hone
  have hlines : readLines (String.ofList (unifyLineEnds text.toList)) =
      readLines ("\n".intercalate lines) := by
    rw [readLines_join hone]
    apply readLines_of_ended hone'
    rw [String.toList_ofList]
    exact (ended_unifyLineEnds hone' h).mono lineFeed_subset_lineEnds
  have hload : loadChart (.ok text.toUTF8) =
      understand (String.ofList (unifyLineEnds text.toList)) := by
    simp only [loadChart, Logged.ofFileStop, pure_bind, readText_toUTF8, Logged.ofFault]
  rw [hload, understand, understand, hlines]

/-- Lines are read alike whether a line feed ends them or a carriage return and
a line feed, and a file of them, in which a carriage return alone may end all
lines as well, gives the chart of their text. -/
theorem Chart.reading_of_ended {lines : List String} (hone : ∀ l ∈ lines, OneLine l.toList) :
    (∀ text : String, Ended lineEnds (lines.map String.toList) text.toList →
      readLines text =
          ((lines.zipIdx 1).filter fun p => ¬ IsSilent p.1.toList).map (fun p => ⟨p.2, p.1⟩) ∧
        Chart.parse text = Chart.parse ("\n".intercalate lines)) ∧
      ∀ (text : String) (t : FileTree) (path : String),
        Ended lineEnds (lines.map String.toList) text.toList ∨
          Ended [['\r']] (lines.map String.toList) text.toList →
        t.read path = .ok text.toUTF8 →
        loadChart (t.read path) = understand ("\n".intercalate lines) ∧
          ∀ records, ((loadChart (t.read path)).run.run records).1 =
            (Chart.parse ("\n".intercalate lines)).mapError Stop.ofFailure := by
  constructor
  · intro text h
    have hread : readLines text = numberLines 1 (lines.map String.toList) :=
      readLines_of_ended (List.forall_mem_map.mpr hone) h
    refine ⟨hread.trans (numberLines_toList 1 lines), ?_⟩
    rw [Chart.parse, Chart.parse, readItems, readItems, hread, readLines_join hone]
  · intro text t path h hfile
    have hload : loadChart (t.read path) = understand ("\n".intercalate lines) := by
      rw [hfile, loadChart_of_ended hone h]
    refine ⟨hload, ?_⟩
    intro records
    rw [hload, run_understand]

/-- Lines with a blank one, a comment, and characters that end no line. -/
def unevenLines : List String :=
  ["radius 1: a\x0bb", "", "\t# c", " 2: d\u2028"]

/-- The lines in a file, each ended by a carriage return. -/
def unevenTree : FileTree :=
  ⟨[], [(["a"], .file "radius 1: a\x0bb\r\r\t# c\r 2: d\u2028\r".toUTF8)]⟩

theorem reading_unevenLines :
    readLines "radius 1: a\x0bb\r\n\n\t# c\n 2: d\u2028" =
        [⟨1, "radius 1: a\x0bb"⟩, ⟨4, " 2: d\u2028"⟩] ∧
      ((loadChart (unevenTree.read "a")).run.run []).1 =
        .error (.problem ⟨.missingProperty .size, 4⟩) := by
  have hone : ∀ l ∈ unevenLines, OneLine l.toList := by decide
  have hmixed : Ended lineEnds (unevenLines.map String.toList)
      "radius 1: a\x0bb\r\n\n\t# c\n 2: d\u2028".toList := by
    have htext : "radius 1: a\x0bb\r\n\n\t# c\n 2: d\u2028".toList =
        "radius 1: a\x0bb".toList ++ "\r\n".toList ++ ("".toList ++ "\n".toList ++
          ("\t# c".toList ++ "\n".toList ++ " 2: d\u2028".toList)) := by decide
    rw [htext]
    exact .cons (by decide) (.cons (by decide) (.cons (by decide) (.last _)))
  have hreturns : Ended [['\r']] (unevenLines.map String.toList)
      "radius 1: a\x0bb\r\r\t# c\r 2: d\u2028\r".toList := by
    have htext : "radius 1: a\x0bb\r\r\t# c\r 2: d\u2028\r".toList =
        "radius 1: a\x0bb".toList ++ "\r".toList ++ ("".toList ++ "\r".toList ++
          ("\t# c".toList ++ "\r".toList ++ (" 2: d\u2028".toList ++ "\r".toList ++ []))) := by
      decide
    rw [htext]
    exact .cons (by decide) (.cons (by decide) (.cons (by decide) (.cons (by decide) .nil)))
  have hfile : unevenTree.read "a" =
      .ok "radius 1: a\x0bb\r\r\t# c\r 2: d\u2028\r".toUTF8 := by
    have hpath : FileTree.checkPath "a" = .ok () := by
      rw [FileTree.checkPath, if_neg (by simp), if_neg (by decide), if_neg (by decide)]
    have hwalk : unevenTree.walk (unevenTree.start "a") (FileTree.pathNames "a") = .ok ["a"] := by
      decide +kernel
    exact FileTree.read_of_walk hpath hwalk rfl
  obtain ⟨htext, hload⟩ := Chart.reading_of_ended hone
  refine ⟨(htext _ hmixed).1.trans (by decide), ?_⟩
  rw [(hload _ _ _ (Or.inr hreturns) hfile).2 []]
  decide +kernel

end RadarChart
