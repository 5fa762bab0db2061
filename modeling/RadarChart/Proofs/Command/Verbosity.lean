import RadarChart.Command.Logger
import RadarChart.Proofs.Command.Preservation
import RadarChart.Proofs.Command.VerboseFlag

/-!
# Being verbose changes nothing but the log

Command lines are run one after another in a session. Whatever they do, and
however they end, is the same with and without their verbose flags, only that
more of the log is told. The log of a run is told in full, every record by one
line, once a command line up to that run could be read and had the flag. Until
then warnings alone are told, in few words.

The logger itself is set up again by every such command line. It never has
more than one handler, so a session need only remember whether it was set up.
-/

namespace RadarChart

open Arguments

/-! ## The logger -/

namespace Logger

/-- The logger of a session. -/
def standing (verbose : Bool) : Logger :=
  if verbose then ⟨.debug, [.debug]⟩ else fresh

theorem setUp_debug (verbose : Bool) : (standing verbose).setUp .debug = standing true := by
  cases verbose <;> rfl

theorem length_handlers_standing (verbose : Bool) : (standing verbose).handlers.length ≤ 1 := by
  cases verbose <;> decide

theorem lines_standing (verbose : Bool) (r : Record) :
    (standing verbose).lines r = (r.line? verbose).toList := by
  cases verbose with
  | true => rfl
  | false =>
      cases hwarning : r.isWarning <;>
        simp [standing, fresh, lines, LogLevel.admits, Record.line?, hwarning]

theorem log_standing (verbose : Bool) (records : List Record) :
    (standing verbose).log records = records.filterMap (·.line? verbose) := by
  rw [log, List.filterMap_eq_flatMap_toList]
  exact List.flatMap_congr fun r _ => lines_standing verbose r

end Logger

/-! ## What a log tells -/

namespace Record

/-- A line that tells a record in full begins like no other. -/
theorem head?_of_line? {r : Record} {verbose : Bool} {line : String}
    (h : r.line? verbose = some line) :
    line.toList.head? = some (if verbose then 's' else 'l') := by
  cases verbose with
  | true =>
      obtain rfl := Option.some.inj h
      simp only [String.append_assoc]
      rw [String.toList_append]
      rfl
  | false =>
      cases r with
      | tooLarge c factor =>
          obtain rfl := Option.some.inj h
          unfold message
          simp only [String.append_assoc]
          rw [String.toList_append]
          rfl
      | _ => cases h

/-- Every record that is told has one line. -/
theorem forall₂_line? (verbose : Bool) (records : List Record) :
    List.Forall₂ (fun r line => r.line? verbose = some line)
      (records.filter fun r => verbose || r.isWarning) (records.filterMap (·.line? verbose)) := by
  induction records with
  | nil => exact .nil
  | cons r records ih =>
      cases verbose with
      | true => exact .cons rfl ih
      | false =>
          cases r with
          | tooLarge c factor => exact .cons rfl ih
          | _ => exact ih

end Record

/-- The line that a run ends with where it is refused. -/
def Ending.line : Ending → String
  | .refused line => line
  | _ => ""

/-- What the log of a run tells, as it has been asked to be verbose or not. -/
structure Logs (asked : Prop) (report : Report) (log : List String) : Prop where
  /-- there is nothing but the log and the line of a refusal behind it -/
  stderr : report.stderr = String.join log ++ report.ending.line
  /-- every record by one line -/
  inFull : asked → List.Forall₂ (fun r line => r.line? true = some line) report.records log
  /-- every warning by one line -/
  inBrief : ¬ asked →
    List.Forall₂ (fun r line => r.line? false = some line)
      (report.records.filter (·.isWarning)) log
  toldInFull_iff : ∀ r ∈ report.records, (∃ line ∈ log, r.line? true = some line) ↔ asked

theorem Report.logs (report : Report) :
    Logs (report.verbose = true) report ((Logger.standing report.verbose).log report.records) := by
  rw [Logger.log_standing]
  refine ⟨rfl, fun hasked => ?_, fun hasked => ?_, fun r hr => ⟨?_, fun hasked => ?_⟩⟩
  · rw [hasked]
    simpa using Record.forall₂_line? true report.records
  · rw [Bool.not_eq_true] at hasked
    rw [hasked]
    exact Record.forall₂_line? false report.records
  · rintro ⟨line, hline, hfull⟩
    obtain ⟨w, _, hw⟩ := List.mem_filterMap.mp hline
    have hhead := Record.head?_of_line? hfull
    rw [Record.head?_of_line? hw] at hhead
    cases hverbose : report.verbose with
    | true => rfl
    | false => simp [hverbose] at hhead
  · rw [hasked]
    exact ⟨_, List.mem_filterMap.mpr ⟨r, hr, rfl⟩, rfl⟩

/-! ## Running a command -/

theorem Command.run_verbose (c : Command) (verbose : Bool) (t : FileTree) :
    c.run verbose t = ((c.run false t).1, { (c.run false t).2 with verbose := verbose }) := by
  simp only [Command.run]
  generalize (c.work ((c.chart?.map t.read).getD (.ok ByteArray.empty))).run.run [] = worked
  obtain ⟨stop | result, records⟩ := worked
  · rfl
  · dsimp only
    generalize result.output = output
    obtain _ | ⟨path, text⟩ := output
    · rfl
    · dsimp only
      generalize t.save path text = saved
      obtain ⟨u, stop | _⟩ := saved <;> rfl

/-! ## Running a command line -/

/-- Two runs that are told apart by nothing but how much of their log is told. -/
structure SameRun (x y : Session × Report) : Prop where
  tree : x.1.tree = y.1.tree
  ending : x.2.ending = y.2.ending
  stdout : x.2.stdout = y.2.stdout
  records : x.2.records = y.2.records

/-- The command line can be read, and it has a flag that asks to be verbose. -/
def AsksForVerbose (args : List String) : Prop :=
  (∃ invocation, read args = .ok invocation) ∧ ∃ arg ∈ programPart args, isVerboseFlag arg = true

namespace Session

variable {s s' : Session} {args args' : List String}

theorem sameRun_of_tree (htree : s.tree = s'.tree)
    (hargs : withoutVerbose args = withoutVerbose args') :
    SameRun (s.run args) (s'.run args') := by
  rw [run, run]
  rcases read_cases hargs with
    ⟨usage, hread, hread'⟩ | ⟨invocation, invocation', hread, hread', hcommand⟩
  · rw [hread, hread']
    exact ⟨htree, rfl, rfl, rfl⟩
  · simp only [hread, hread']
    rw [htree, hcommand, Command.run_verbose,
      Command.run_verbose _ (s'.verbose || invocation'.verbose)]
    exact ⟨rfl, rfl, rfl, rfl⟩

theorem verbose_report (s : Session) (args : List String) :
    (s.run args).2.verbose = (s.run args).1.verbose := by
  rw [run]
  cases read args with
  | error usage => rfl
  | ok invocation =>
      dsimp only
      rw [Command.run_verbose]

theorem verbose_run_iff (s : Session) (args : List String) :
    (s.run args).1.verbose = true ↔ s.verbose = true ∨ AsksForVerbose args := by
  rw [run, AsksForVerbose]
  cases h : read args with
  | error usage => simp
  | ok invocation => simp [← verbose_of_read h]

/-- The logger goes with the session. -/
theorem heed_standing (s : Session) (args : List String) :
    (Logger.standing s.verbose).heed args = Logger.standing (s.run args).1.verbose := by
  rw [run, Logger.heed]
  cases read args with
  | error usage => rfl
  | ok invocation =>
      dsimp only
      cases invocation.verbose with
      | false => rw [Bool.or_false]; rfl
      | true => rw [if_pos rfl, Logger.setUp_debug, Bool.or_true]

/-! ## Running several command lines -/

theorem after_cons (s : Session) (args : List String) (lines : List (List String)) :
    s.after (args :: lines) = (s.run args).1.after lines :=
  rfl

theorem tree_after {lines lines' : List (List String)} (htree : s.tree = s'.tree)
    (hlines : lines.map withoutVerbose = lines'.map withoutVerbose) :
    (s.after lines).tree = (s'.after lines').tree := by
  induction lines generalizing s s' lines' with
  | nil =>
      obtain rfl := List.map_eq_nil_iff.mp hlines.symm
      exact htree
  | cons args lines ih =>
      cases lines' with
      | nil => cases hlines
      | cons args' lines' =>
          obtain ⟨hargs, hlines⟩ := List.cons.inj hlines
          rw [after_cons, after_cons]
          exact ih (sameRun_of_tree htree hargs).tree hlines

theorem verbose_after_iff (lines : List (List String)) :
    (s.after lines).verbose = true ↔ s.verbose = true ∨ ∃ args ∈ lines, AsksForVerbose args := by
  induction lines generalizing s with
  | nil => simp [after]
  | cons args lines ih =>
      rw [after_cons, ih, verbose_run_iff]
      simp [or_assoc]

/-- The logger goes with the session from one command line to the next. -/
theorem foldl_heed (lines : List (List String)) :
    lines.foldl Logger.heed (Logger.standing s.verbose) =
      Logger.standing (s.after lines).verbose := by
  induction lines generalizing s with
  | nil => rfl
  | cons args lines ih => rw [List.foldl_cons, heed_standing, ih, after_cons]

theorem after_concat (s : Session) (lines : List (List String)) (args : List String) :
    s.after (lines ++ [args]) = ((s.after lines).run args).1 := by
  rw [after, List.foldl_append]
  rfl

/-- The session of a process that has not run a command line yet. -/
def start (tree : FileTree) : Session := ⟨tree, false⟩

theorem logger_after (tree : FileTree) (lines : List (List String)) :
    Logger.after lines = Logger.standing ((start tree).after lines).verbose :=
  foldl_heed (s := start tree) lines

/-- The log of a run is told as its command line and those before it have asked for. -/
theorem logs_run (tree : FileTree) (before : List (List String)) (args : List String) :
    Logs (∃ a ∈ before ++ [args], AsksForVerbose a) (((start tree).after before).run args).2
      ((Logger.after (before ++ [args])).log
        (((start tree).after before).run args).2.records) := by
  have hverbose : ((start tree).after (before ++ [args])).verbose =
      (((start tree).after before).run args).2.verbose := by
    rw [after_concat, verbose_report]
  have hasked : (((start tree).after before).run args).2.verbose = true ↔
      ∃ a ∈ before ++ [args], AsksForVerbose a := by
    rw [← hverbose, verbose_after_iff]
    exact or_iff_right Bool.false_ne_true
  rw [logger_after tree, hverbose, ← hasked]
  exact Report.logs _

/-- Verbose flags change nothing but the log. Any run of a session does the same and ends alike
whichever flags its command line and those before it have. Its log is told in full, by one line for
each record, if one of these command lines could be read and had a flag. -/
theorem verbose_changes_log_only (tree : FileTree) {before before' : List (List String)}
    {args args' : List String} (hbefore : before.map withoutVerbose = before'.map withoutVerbose)
    (hargs : withoutVerbose args = withoutVerbose args') :
    SameRun (((start tree).after before).run args) (((start tree).after before').run args') ∧
      Logs (∃ a ∈ before ++ [args], AsksForVerbose a) (((start tree).after before).run args).2
        ((Logger.after (before ++ [args])).log
          (((start tree).after before).run args).2.records) ∧
      Logs (∃ a ∈ before' ++ [args'], AsksForVerbose a) (((start tree).after before').run args').2
        ((Logger.after (before' ++ [args'])).log
          (((start tree).after before').run args').2.records) :=
  ⟨sameRun_of_tree (tree_after rfl hbefore) hargs, logs_run tree before args,
    logs_run tree before' args'⟩

/-- A document that gives the size of a chart and nothing else. -/
def sparseTree : FileTree := ⟨[], [(["c"], .file "size: 9 x 8".toUTF8)]⟩

theorem stderr_sparseTree (verbose : Bool) :
    ((Command.validate "c").run verbose sparseTree).2.stderr =
      (if verbose then "spider_chart - DEBUG - resolved 1 keys\n" else "") ++
        "Chart error: Missing property 'margin' at ln. 1\n" := by
  have hread : sparseTree.read "c" = .ok "size: 9 x 8".toUTF8 :=
    read_of_mem List.mem_cons_self rfl
  simp only [Command.run, Command.chart?, Option.map_some, Option.getD_some, hread]
  cases verbose <;> decide +kernel

/-- A flag does not count on a command line that cannot be read. -/
theorem verbose_changes_log_only_sparseTree :
    [["-v"]].map withoutVerbose = [[]].map withoutVerbose ∧
      withoutVerbose ["validate", "c"] = withoutVerbose ["-v", "validate", "c"] ∧
      (((start sparseTree).after [["-v"]]).run ["validate", "c"]).2.stderr =
        "Chart error: Missing property 'margin' at ln. 1\n" ∧
      (((start sparseTree).after [[]]).run ["-v", "validate", "c"]).2.stderr =
        "spider_chart - DEBUG - resolved 1 keys\n" ++
          "Chart error: Missing property 'margin' at ln. 1\n" ∧
      SameRun (((start sparseTree).after [["-v"]]).run ["validate", "c"])
        (((start sparseTree).after [[]]).run ["-v", "validate", "c"]) := by
  have hbefore : [["-v"]].map withoutVerbose = [[]].map withoutVerbose := by decide
  have hargs : withoutVerbose ["validate", "c"] = withoutVerbose ["-v", "validate", "c"] := by
    decide
  obtain ⟨hsame, _, _⟩ := verbose_changes_log_only sparseTree hbefore hargs
  exact ⟨hbefore, hargs, stderr_sparseTree false, stderr_sparseTree true, hsame⟩

end Session

/-- However often it is asked to be verbose, the logger has one handler at most. -/
theorem Logger.length_handlers_after (lines : List (List String)) :
    (after lines).handlers.length ≤ 1 := by
  rw [Session.logger_after ⟨[], []⟩]
  exact length_handlers_standing _

end RadarChart
