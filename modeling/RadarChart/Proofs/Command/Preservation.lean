import RadarChart.Proofs.Command.Arguments
import RadarChart.Proofs.Command.FileTree
import RadarChart.Proofs.Command.Work
import RadarChart.Proofs.Drawing.Total
import RadarChart.Proofs.Layout.Limits

/-!
# What a failed run leaves

A run that does not get done leaves every file as it was and makes no other.
At most there are new directories on the way to the file that it was to write.
This rests on a drawing that cannot fail once its file is open: the chart has
been read and laid out by then, and the precision is one of those offered.
The one exception is a precision that was left empty, which nobody looks at
before the file is open, and the file stays empty.
-/

namespace RadarChart

open FileTree

/-! ## Running a command -/

namespace Command

variable {c : Command} {verbose : Bool} {t : FileTree}

/-- What reading the file of a command brings. -/
def source (c : Command) (t : FileTree) : Except FileStop ByteArray :=
  (c.chart?.map t.read).getD (.ok ByteArray.empty)

/-- A command that does not get done has touched nothing, because its work has failed, or it has
failed to save what it had to write. -/
theorem run_cases (h : (c.run verbose t).2.ending ≠ .done) :
    (c.run verbose t).1 = t ∧ (∃ stop, ((c.work (c.source t)).run.run []).1 = .error stop) ∨
      ∃ result after path text stop,
      (c.work (c.source t)).Yields [] result after ∧ result.output = some (path, text) ∧
      t.save path text = ((c.run verbose t).1, .error stop) ∧
      (c.run verbose t).2.ending = .ofStop (.ofFileStop stop) := by
  unfold run at h ⊢
  rcases hwork : (c.work (c.source t)).run.run [] with ⟨stop | result, after⟩
  · refine Or.inl ⟨?_, stop, rfl⟩
    rw [source] at hwork
    simp only [hwork]
  · refine Or.inr ⟨result, after, ?_⟩
    have hyields : (c.work (c.source t)).Yields [] result after := hwork
    rw [source] at hwork
    simp only [hwork] at h ⊢
    cases houtput : result.output with
    | none =>
        simp only [houtput] at h
        exact absurd rfl h
    | some output =>
        obtain ⟨path, text⟩ := output
        simp only [houtput] at h ⊢
        rcases hsave : t.save path text with ⟨u, stop | _⟩
        · exact ⟨path, text, stop, hyields, rfl, hsave, rfl⟩
        · rw [hsave] at h
          exact absurd rfl h

/-- What becomes of a command that has something to write and fails to save it. -/
theorem run_of_save_error {result : Result} {after : List Record} {u : FileTree} {path : String}
    {text : Except Fault String} {stop : FileStop}
    (h : (c.work (c.source t)).Yields [] result after) (houtput : result.output = some (path, text))
    (hsave : t.save path text = (u, .error stop)) :
    (c.run verbose t).1 = u ∧ (c.run verbose t).2.ending = .ofStop (.ofFileStop stop) := by
  have hwork : (c.work ((c.chart?.map t.read).getD (.ok ByteArray.empty))).run.run [] =
      (.ok result, after) := h
  simp only [run, hwork, houtput, hsave, and_self]

/-- A command whose work fails changes nothing. -/
theorem run_of_not_yields (h : ∀ result after, ¬ (c.work (c.source t)).Yields [] result after) :
    (c.run verbose t).1 = t := by
  unfold run
  rcases hwork : (c.work (c.source t)).run.run [] with ⟨stop | result, after⟩
  · rw [source] at hwork
    simp only [hwork]
  · exact absurd hwork (h result after)

/-- The precision of the drawing was left empty. -/
def LacksPrecision : Command → Prop
  | .render _ _ precision _ => precision = none
  | _ => False

/-- What is to be written can be written, unless the precision was left empty. -/
theorem exists_text_of_yields {source : Except FileStop ByteArray} {result : Result}
    {before after : List Record} (h : (c.work source).Yields before result after)
    (hoffered : ∀ chart output precision charWidth,
      c = .render chart output (some precision) charWidth → 0 ≤ precision ∧ precision ≤ 10)
    {path : String} {text : Except Fault String} (houtput : result.output = some (path, text)) :
    (∃ written, text = .ok written) ∨ (c.LacksPrecision ∧ text = .error .missingPrecision) := by
  rcases (output_of_yields h houtput).2 with
    ⟨chart, precision, charWidth, d, g, rfl, ⟨_, document, _, _, hparse⟩, hg, rfl⟩ | rfl
  · cases precision with
    | none => exact Or.inr ⟨rfl, rfl⟩
    | some precision =>
        obtain ⟨hpos, hle⟩ := hoffered _ _ _ _ rfl
        have hmax : (10 : Int) ≤ Fixed.maxPlaces := by decide
        exact Or.inl (Chart.exists_toSvg hparse hg hpos (hle.trans hmax))
  · exact Or.inl ⟨_, rfl⟩

end Command

/-! ## Running a command line -/

/-- The file that a command line is to write. -/
def Arguments.output? (args : List String) : Option String :=
  match Arguments.read args with
  | .ok invocation => invocation.command.output?
  | .error _ => none

/-- A command line that leaves the precision of its drawing empty. -/
def Arguments.LeavePrecisionEmpty (args : List String) : Prop :=
  ∃ invocation, Arguments.read args = .ok invocation ∧ invocation.command.LacksPrecision

/-- A run that does not get done spares all files, or it had no precision to draw with. -/
theorem Session.spared_or_emptied {s : Session} {args : List String}
    (h : (s.run args).2.ending ≠ .done) :
    Spared (Arguments.output? args) s.tree (s.run args).1.tree ∨
      Arguments.LeavePrecisionEmpty args ∧
      (s.run args).2.ending = .crashed .missingPrecision ∧
      ∃ path ∈ Arguments.output? args, Emptied path s.tree (s.run args).1.tree := by
  unfold Arguments.LeavePrecisionEmpty
  unfold Session.run Arguments.output? at *
  cases hread : Arguments.read args with
  | error usage => exact Or.inl (.refl none s.tree)
  | ok invocation =>
      simp only [hread] at h ⊢
      rcases Command.run_cases h with
        ⟨htree, _⟩ | ⟨result, after, path, text, stop, hyields, houtput, hsave, hending⟩
      · rw [htree]
        exact Or.inl (.refl _ s.tree)
      · have hpath := (Command.output_of_yields hyields houtput).1
        rw [hpath]
        have htext := Command.exists_text_of_yields hyields
          (fun _ _ _ _ hcommand => Arguments.offered_of_read hread hcommand) houtput
        rcases save_cases hsave with hspared | ⟨fault, rfl, rfl, hemptied⟩
        · exact Or.inl hspared
        · rcases htext with ⟨_, hwritten⟩ | ⟨hlacks, hfault⟩
          · cases hwritten
          · cases hfault
            exact Or.inr ⟨⟨invocation, rfl, hlacks⟩, hending, path, rfl, hemptied⟩

/-- A drawing whose chart is not there, is no chart or has no layout leaves no trace. -/
theorem Session.tree_run_of_no_layout {s : Session} {args : List String} {verbose : Bool}
    {chart : String} {output : Option String} {precision : Option Int} {charWidth : Option Float}
    (hread : Arguments.read args = .ok ⟨verbose, .render chart output precision charWidth⟩)
    (h : ∀ c g, Brings (s.tree.read chart) c → c.layout (Command.measurer charWidth) ≠ .ok g) :
    (s.run args).1.tree = s.tree := by
  rw [Session.run, hread]
  refine Command.run_of_not_yields fun result after hyields => ?_
  obtain ⟨c, g, _, hbrings, hg, _⟩ := Command.yields_work_render_iff.mp ⟨after, hyields⟩
  exact h c g hbrings hg

/-- A run that does not get done leaves every file as it was and makes none; all that is new are
directories on the way to its output. Only where the precision was left empty, it can be that
the run crashes for that and leaves its output empty. A drawing without a chart or without a layout
changes nothing at all, not even then. -/
theorem Session.run_keeps_files (s : Session) (args : List String) :
    ((s.run args).2.ending ≠ .done →
      (¬ Arguments.LeavePrecisionEmpty args →
        Spared (Arguments.output? args) s.tree (s.run args).1.tree) ∧
      (Spared (Arguments.output? args) s.tree (s.run args).1.tree ∨
        (s.run args).2.ending = .crashed .missingPrecision ∧
        ∃ path ∈ Arguments.output? args, Emptied path s.tree (s.run args).1.tree)) ∧
    ∀ (verbose : Bool) (chart : String) (output : Option String) (precision : Option Int)
      (charWidth : Option Float),
      Arguments.read args = .ok ⟨verbose, .render chart output precision charWidth⟩ →
      (∀ c g, Brings (s.tree.read chart) c → c.layout (Command.measurer charWidth) ≠ .ok g) →
      (s.run args).1.tree = s.tree := by
  refine ⟨fun h => ?_, fun _ _ _ _ _ => Session.tree_run_of_no_layout⟩
  rcases Session.spared_or_emptied h with hspared | ⟨hempty, hrest⟩
  · exact ⟨fun _ => hspared, Or.inl hspared⟩
  · exact ⟨fun hgiven => absurd hempty hgiven, Or.inr hrest⟩

/-- A file with something in it, and no chart. -/
def lonelySession : Session :=
  ⟨⟨[], [(["o"], .file "old".toUTF8)]⟩, false⟩

theorem checkPath_of_mem {path : String} (h : path ∈ ["c", "o", "p"]) :
    checkPath path = .ok () := by
  fin_cases h <;> rw [checkPath, if_neg (by simp), if_neg (by decide), if_neg (by decide)]

theorem read_of_mem {name : String} (h : name ∈ ["c", "o", "p"]) {nodes : List (Place × Node)}
    {content : ByteArray} (hfile : nodes.lookup [name] = some (.file content)) :
    FileTree.read ⟨[], nodes⟩ name = .ok content := by
  have hnames : pathNames name = [name] := by fin_cases h <;> decide
  have hshort : ¬ (name = "" ∨ name = ".") ∧ name ≠ ".." ∧ ¬ nameLimit < name.utf8ByteSize := by
    fin_cases h <;> decide
  have hstart : FileTree.start ⟨[], nodes⟩ name = [] := ite_self _
  have hwalk : FileTree.walk ⟨[], nodes⟩ (FileTree.start ⟨[], nodes⟩ name) (pathNames name) =
      .ok [name] := by
    rw [hstart, hnames, walk, find?, if_pos rfl]
    simp only [if_neg hshort.1, if_neg hshort.2.1, if_neg hshort.2.2]
    rfl
  exact read_of_walk (checkPath_of_mem h) hwalk hfile

/-- A chart that is not there is not drawn over a file. -/
theorem run_keeps_files_lonelySession :
    (lonelySession.run ["render", "c", "o"]).2.ending =
        .refused "File error: [Errno 2] No such file or directory: 'c'\n" ∧
      ¬ Arguments.LeavePrecisionEmpty ["render", "c", "o"] ∧
      Spared (some "o") lonelySession.tree (lonelySession.run ["render", "c", "o"]).1.tree ∧
      (lonelySession.run ["render", "c", "o"]).1.tree = lonelySession.tree := by
  have hread : Arguments.read ["render", "c", "o"] =
      .ok ⟨false, .render "c" (some "o") (some defaultPrecision) (some defaultCharWidth)⟩ := rfl
  have hmissing : lonelySession.tree.read "c" = .error (.error ⟨.missing, "c"⟩) := by
    have hwalk : lonelySession.tree.walk (lonelySession.tree.start "c") (pathNames "c") =
        .ok ["c"] := by
      decide +kernel
    rw [FileTree.read, checkPath_of_mem List.mem_cons_self, hwalk]
    rfl
  have hending : (lonelySession.run ["render", "c", "o"]).2.ending =
      .refused "File error: [Errno 2] No such file or directory: 'c'\n" := by
    rw [Session.run, hread]
    simp only [Command.run, Command.chart?, Option.map_some, Option.getD_some, hmissing]
    decide +kernel
  have hgiven : ¬ Arguments.LeavePrecisionEmpty ["render", "c", "o"] := by
    rintro ⟨invocation, h, hlacks⟩
    rw [hread] at h
    cases h
    cases hlacks
  obtain ⟨hfailed, hundrawn⟩ := Session.run_keeps_files lonelySession ["render", "c", "o"]
  refine ⟨hending, hgiven, (hfailed (by rw [hending]; simp)).1 hgiven, hundrawn _ _ _ _ _ hread ?_⟩
  rintro c g ⟨_, _, hbytes, _⟩
  rw [hmissing] at hbytes
  cases hbytes

/-- The square chart, and a file with something in it. -/
def chartedSession : Session :=
  ⟨⟨[], [(["c"], .file (document (wideChart 100).lines).toUTF8), (["o"], .file "old".toUTF8)]⟩,
    false⟩

theorem parse_chartedSession :
    Chart.parse (document (wideChart 100).lines) = .ok (wideChart 100) := by
  have hshort : (100 : ℤ) < 10 ^ 4299 :=
    lt_of_lt_of_le (by norm_num : (100 : ℤ) < 10 ^ 3)
      (pow_le_pow_right₀ (by norm_num) (by norm_num))
  exact parse_wideChart (by norm_num) hshort

theorem brings_chartedSession : Brings (chartedSession.tree.read "c") (wideChart 100) := by
  have hread : chartedSession.tree.read "c" = .ok (document (wideChart 100).lines).toUTF8 :=
    read_of_mem List.mem_cons_self rfl
  rw [hread]
  refine brings_toUTF8 ?_ parse_chartedSession
  rw [toList_document]
  decide +kernel

theorem exists_layout_chartedSession (hsin : Computes Float.sin Real.sin)
    (hcos : Computes Float.cos Real.cos) :
    ∃ g : Geometry Float, (wideChart 100).layout (estimateWidth defaultCharWidth) = .ok g := by
  have hrange : (wideChart 100).InRange :=
    { moderate_squareChart with wide := by decide +kernel, tall := by decide +kernel }
  obtain ⟨g, hg⟩ := hrange.exists_floatLayout
    (Chart.wellFormed_of_parse parse_chartedSession) hsin hcos
  exact ⟨g, Chart.floatLayout_machine _ ▸ hg⟩

/-- A save to a file in a directory that is there, without a text. -/
theorem save_error {t : FileTree} {path : String} {place : Place} (fault : Fault)
    (hdirectory : (t.normalPlace path).dropLast = []) (hpath : checkPath path = .ok ())
    (htarget : t.target path = .ok place) :
    t.save path (.error fault) = (t.put place (.file ByteArray.empty), .error (.fault fault)) := by
  simp only [save, hdirectory, List.reverse_nil, ensureDirectory, hpath, htarget, refusing, bind,
    Except.bind]

/-- The drawing of the chart over the file, with the precision left empty. -/
def vagueCommand : Command :=
  .render "c" (some "o") none (some defaultCharWidth)

theorem run_vagueCommand (hsin : Computes Float.sin Real.sin) (hcos : Computes Float.cos Real.cos) :
    (vagueCommand.run false chartedSession.tree).1 =
        chartedSession.tree.put ["o"] (.file ByteArray.empty) ∧
      (vagueCommand.run false chartedSession.tree).2.ending = .crashed .missingPrecision := by
  obtain ⟨g, hg⟩ := exists_layout_chartedSession hsin hcos
  have hwork : ∃ after, (vagueCommand.work (vagueCommand.source chartedSession.tree)).Yields []
      ⟨"", some ("o", .error .missingPrecision)⟩ after :=
    Command.yields_work_render_iff.mpr ⟨wideChart 100, g, "o", brings_chartedSession, hg, rfl, rfl⟩
  obtain ⟨after, hyields⟩ := hwork
  have htarget : chartedSession.tree.target "o" = .ok ["o"] := by decide +kernel
  have hsave := save_error .missingPrecision (by decide +kernel)
    (checkPath_of_mem (List.mem_cons_of_mem _ List.mem_cons_self)) htarget
  exact Command.run_of_save_error hyields rfl hsave

/-- With the sine and the cosine of a machine that computes them, a run that leaves its precision
empty loses what was in the file. -/
theorem not_forall_run_sameFiles :
    ¬ (Computes Float.sin Real.sin ∧ Computes Float.cos Real.cos ∧
      ∀ (s : Session) (args : List String), (s.run args).2.ending ≠ .done →
        SameFiles s.tree (s.run args).1.tree) := by
  rintro ⟨hsin, hcos, hall⟩
  have hread : Arguments.read ["render", "c", "o", "--precision=--"] =
      .ok ⟨false, vagueCommand⟩ := rfl
  obtain ⟨htree, hending⟩ := run_vagueCommand hsin hcos
  have hrun : (chartedSession.run ["render", "c", "o", "--precision=--"]).1.tree =
        chartedSession.tree.put ["o"] (.file ByteArray.empty) ∧
      (chartedSession.run ["render", "c", "o", "--precision=--"]).2.ending =
        .crashed .missingPrecision := by
    rw [Session.run, hread]
    exact ⟨htree, hending⟩
  have hsame := hall chartedSession ["render", "c", "o", "--precision=--"] (by rw [hrun.2]; simp)
  rw [hrun.1] at hsame
  have hfile := (hsame ["o"] "old".toUTF8).mpr rfl
  rw [find?_put _ (List.cons_ne_nil _ _), if_pos rfl] at hfile
  have hbytes : Node.file ByteArray.empty ≠ .file "old".toUTF8 := by decide +kernel
  exact hbytes (Option.some.inj hfile)

end RadarChart
