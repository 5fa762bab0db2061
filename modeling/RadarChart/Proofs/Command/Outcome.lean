import RadarChart.Proofs.Chart.ProblemLine
import RadarChart.Proofs.Command.FileFault
import RadarChart.Proofs.Command.Stopped

/-!
# How a command ends

A command is done, or is refused in one line, or crashes. It crashes over what
is no mistake of a chart and no refusal of the file system: a file that is not
UTF-8, a number that is too long, a chart without a layout, a value that was
left empty, and a NUL character in a path.
-/

namespace RadarChart

open FileTree Logged Text

/-! ## Crashes -/

namespace Command

/-- What it takes for a command to crash with a fault. -/
inductive Crashes (c : Command) (t : FileTree) : Fault → Prop
  | chartPath {path : String} : c.chart? = some path → '\x00' ∈ path.toList →
      Crashes c t .nulInPath
  | undecodable {path : String} {bytes : ByteArray} {f : Utf8Fault} : c.chart? = some path →
      t.read path = .ok bytes → decodeUtf8 bytes.toList = .error f → Crashes c t (.undecodable f)
  | numeral {path : String} {bytes : ByteArray} {text : String} {f : Fault} :
      c.chart? = some path → t.read path = .ok bytes → readText bytes = .ok text →
      Chart.parse text = .error (.fault f) → ¬ DigitsWithin 4299 text.toList → Crashes c t f
  | layout {path : String} {d : Chart} {f : Fault} : c.chart? = some path →
      Brings (t.read path) d → d.layout (measurer c.charWidth?) = .error f →
      f ∈ [.integerTooLarge, .quotientTooLarge, .vanishingDivisor, .noPoints] ∨
        c.charWidth? = none ∧ f ∈ [.missingWidth, .countTooLarge] → Crashes c t f
  | noOutput {path : String} {d : Chart} {g : Geometry Float} : c.chart? = some path →
      Brings (t.read path) d → d.layout (measurer c.charWidth?) = .ok g → c.LacksOutput →
      Crashes c t .missingPath
  | save {result : Result} {after : List Record} {path : String} {text : Except Fault String}
      {u : FileTree} {f : Fault} : (c.work (c.source t)).Yields [] result after →
      result.output = some (path, text) → t.save path text = (u, .error (.fault f)) →
      f = .nulInPath ∧ ('\x00' ∈ path.toList ∨ ∃ name ∈ t.workingDirectory, '\x00' ∈ name.toList) ∨
        f = .missingPrecision ∧ c.LacksPrecision → Crashes c t f

theorem crashes_of_stops_load {c : Command} {t : FileTree} {path : String} {f : Fault}
    (hchart : c.chart? = some path) (h : (loadChart (t.read path)).Stops [] (.fault f)) :
    c.Crashes t f := by
  rcases stops_loadChart_iff.mp h with
    ⟨e, hread, he⟩ | ⟨bytes, hbytes, ⟨g, htext, hg⟩ | ⟨text, htext, failure, hparse, hfailure⟩⟩
  · cases e with
    | error e => cases he
    | fault g =>
        cases he
        obtain ⟨hnul, rfl⟩ := read_eq_fault_iff.mp hread
        exact .chartPath hchart hnul
  · cases hg
    rw [readText] at htext
    split at htext
    · cases htext
    · rename_i u hu
      cases htext
      exact .undecodable hchart hbytes hu
  · cases failure with
    | problem p => cases hfailure
    | fault g =>
        cases hfailure
        refine .numeral hchart hbytes htext hparse fun hdigits => ?_
        obtain ⟨p, hp, _⟩ := exists_problem_of_parse hdigits hparse
        cases hp

/-- A layout of a chart from a document fails over a number that is too large, a divisor that
vanishes, points without extrema, or a width that was left empty. -/
theorem mem_of_layout_eq_error {d : Chart} {charWidth : Option Float} {f : Fault}
    (hd : d.WellFormed) (h : d.layout (measurer charWidth) = .error f) :
    f ∈ [.integerTooLarge, .quotientTooLarge, .vanishingDivisor, .noPoints] ∨
      charWidth = none ∧ f ∈ [.missingWidth, .countTooLarge] := by
  cases hd.onlyFaults_layout f h with
  | @measure text size _ hf =>
      cases charWidth with
      | some width =>
          obtain rfl := onlyFaults_estimateWidth (P := (· = .integerTooLarge)) rfl _ _ _ _ hf
          simp
      | none =>
          refine Or.inr ⟨rfl, ?_⟩
          have hwidth : noWidth (α := Float) text size = .error f := hf
          cases size with
          | whole size =>
              rw [noWidth] at hwidth
              split at hwidth <;> cases hwidth <;> simp
          | scaled size =>
              cases hwidth
              simp
  | _ => simp

theorem length_toList_le (s : String) : s.toList.length ≤ s.utf8ByteSize := by
  obtain ⟨cs, rfl⟩ : ∃ cs, s = String.ofList cs := ⟨s.toList, String.ofList_toList.symm⟩
  rw [String.toList_ofList]
  induction cs with
  | nil => exact Nat.zero_le _
  | cons c cs ih =>
      have hpos := c.utf8Size_pos
      rw [String.ofList_cons, String.utf8ByteSize_append, String.utf8ByteSize_singleton,
        List.length_cons]
      omega

theorem digitsWithin_sampleDocument : DigitsWithin 4299 sampleDocument.toList := by
  have hlines : ∀ l ∈ sampleLines, l.utf8ByteSize ≤ 100 := by decide +kernel
  have hlength : ∀ l ∈ sampleLines, (l.toList ++ ['\n']).length ≤ 101 := by
    intro l hl
    rw [List.length_append, List.length_singleton]
    exact Nat.succ_le_succ ((length_toList_le l).trans (hlines l hl))
  apply digitsWithin_of_length_le
  rw [show sampleDocument = document sampleLines from rfl, toList_document, List.length_flatMap]
  refine (List.sum_le_card_nsmul _ 101 ?_).trans ?_
  · rw [List.forall_mem_map]
    exact hlength
  · rw [List.length_map]
    decide

/-- A command crashes over nothing else. The precision is one of those that are offered. -/
theorem crashes_iff {c : Command} {t : FileTree} {f : Fault}
    (hoffered : ∀ chart output precision charWidth,
      c = .render chart output (some precision) charWidth → 0 ≤ precision ∧ precision ≤ 10) :
    c.IsStopped t (.fault f) ↔ c.Crashes t f := by
  constructor
  · rintro (h | ⟨result, after, path, text, u, e, hyields, houtput, hsave, he⟩)
    · rcases stops_work_iff.mp h with
        ⟨path, hchart, h | ⟨d, hbrings, ⟨g, hlayout, hg⟩ | ⟨g, hlayout, hlacks, hg⟩⟩⟩ |
        ⟨_, failure, hparse, hfailure⟩
      · exact crashes_of_stops_load hchart h
      · cases hg
        obtain ⟨text, hparse⟩ := hbrings.exists_parse
        exact .layout hchart hbrings hlayout
          (mem_of_layout_eq_error (Chart.wellFormed_of_parse hparse) hlayout)
      · cases hg
        exact .noOutput hchart hbrings hlayout hlacks
      · obtain ⟨p, rfl, _⟩ := exists_problem_of_parse digitsWithin_sampleDocument hparse
        cases hfailure
    · cases e with
      | error e => cases he
      | fault g =>
          cases he
          refine .save hyields houtput hsave ?_
          rcases save_eq_fault hsave with hnul | htext
          · exact Or.inl hnul
          · rcases exists_text_of_yields hyields hoffered houtput with
              ⟨_, hwritten⟩ | ⟨hlacks, hmissing⟩
            · rw [htext] at hwritten
              cases hwritten
            · rw [htext] at hmissing
              cases hmissing
              exact Or.inr ⟨rfl, hlacks⟩
  · intro h
    have hload : ∀ {path}, c.chart? = some path → (loadChart (t.read path)).Stops [] (.fault f) →
        c.IsStopped t (.fault f) := fun hchart hstops =>
      Or.inl (stops_work_iff.mpr (Or.inl ⟨_, hchart, Or.inl hstops⟩))
    cases h with
    | chartPath hchart hnul =>
        exact hload hchart (stops_loadChart_iff.mpr
          (Or.inl ⟨_, read_eq_fault_iff.mpr ⟨hnul, rfl⟩, rfl⟩))
    | undecodable hchart hbytes hu =>
        refine hload hchart (stops_loadChart_iff.mpr (Or.inr ⟨_, hbytes, Or.inl ⟨_, ?_, rfl⟩⟩))
        rw [readText, hu]
    | numeral hchart hbytes htext hparse _ =>
        exact hload hchart (stops_loadChart_iff.mpr
          (Or.inr ⟨_, hbytes, Or.inr ⟨_, htext, _, hparse, rfl⟩⟩))
    | layout hchart hbrings hlayout _ =>
        exact Or.inl (stops_work_iff.mpr
          (Or.inl ⟨_, hchart, Or.inr ⟨_, hbrings, Or.inl ⟨_, hlayout, rfl⟩⟩⟩))
    | noOutput hchart hbrings hlayout hlacks =>
        exact Or.inl (stops_work_iff.mpr
          (Or.inl ⟨_, hchart, Or.inr ⟨_, hbrings, Or.inr ⟨_, hlayout, hlacks, rfl⟩⟩⟩))
    | save hyields houtput hsave _ =>
        exact Or.inr ⟨_, _, _, _, _, _, hyields, houtput, hsave, rfl⟩

end Command

/-! ## Running a command line -/

/-- A line with a message, and nothing behind it. -/
def IsMessage (kind line : String) : Prop :=
  ∃ message : String, OneLine message.toList ∧ line = kind ++ ": " ++ message ++ "\n"

theorem Report.stderr_of_refused {r : Report} {line : String} (h : r.ending = .refused line) :
    r.stderr = String.join (r.records.filterMap (·.line? r.verbose)) ++ line := by
  rw [stderr, h]

/-- A command line that asks for a command is done, or is refused with one line at the end of what
is told, or crashes; and it crashes over nothing but what the command crashes over. -/
theorem Session.run_outcome (s : Session) {args : List String} {invocation : Invocation}
    (hread : Arguments.read args = .ok invocation) :
    ((s.run args).2.ending = .done ∨
      (∃ line, (s.run args).2.ending = .refused line ∧
        (IsMessage "Chart error" line ∨ IsMessage "File error" line) ∧
        ∃ log, (s.run args).2.stderr = log ++ line) ∨
      ∃ f, (s.run args).2.ending = .crashed f) ∧
    ∀ f, (s.run args).2.ending = .crashed f ↔ invocation.command.Crashes s.tree f := by
  have hrun : (s.run args).2 =
      (invocation.command.run (s.verbose || invocation.verbose) s.tree).2 := by
    rw [Session.run, hread]
  rw [hrun]
  generalize (s.verbose || invocation.verbose) = verbose
  have hstopped : ∀ stop, invocation.command.IsStopped s.tree stop →
      (invocation.command.run verbose s.tree).2.ending = .ofStop stop := fun _ =>
    Command.ending_of_isStopped
  constructor
  · by_cases hdone : (invocation.command.run verbose s.tree).2.ending = .done
    · exact Or.inl hdone
    · obtain ⟨stop, hstop⟩ := Command.exists_isStopped hdone
      have hending := hstopped stop hstop
      cases stop with
      | problem p =>
          obtain ⟨text, hparse⟩ := hstop.exists_parse
          exact Or.inr (Or.inl ⟨_, hending, Or.inl ⟨_, Chart.oneLine_message_of_parse hparse, rfl⟩,
            _, Report.stderr_of_refused hending⟩)
      | file e =>
          exact Or.inr (Or.inl ⟨_, hending, Or.inr ⟨_, e.oneLine_message, rfl⟩, _,
            Report.stderr_of_refused hending⟩)
      | fault f => exact Or.inr (Or.inr ⟨f, hending⟩)
  · intro f
    rw [← Command.crashes_iff fun _ _ _ _ hcommand => Arguments.offered_of_read hread hcommand]
    constructor
    · intro hcrashed
      have hdone : (invocation.command.run verbose s.tree).2.ending ≠ .done := by
        rw [hcrashed]
        simp
      obtain ⟨stop, hstop⟩ := Command.exists_isStopped hdone
      have hending := hstopped stop hstop
      rw [hcrashed] at hending
      cases stop with
      | problem p => cases hending
      | file e => cases hending
      | fault g =>
          cases hending
          exact hstop
    · exact hstopped _

/-- A file with a byte that starts no character. -/
def garbledSession : Session :=
  ⟨⟨[], [(["c"], .file ⟨#[0xFF]⟩)]⟩, false⟩

theorem crashes_garbledSession : (Command.validate "c").Crashes garbledSession.tree
    (.undecodable ⟨0, [0xFF], .invalidStart⟩) := by
  have hfile : garbledSession.tree.read "c" = .ok ⟨#[0xFF]⟩ := read_of_mem List.mem_cons_self rfl
  exact .undecodable rfl hfile (by decide +kernel)

theorem run_outcome_garbledSession :
    Arguments.read ["validate", "c"] = .ok ⟨false, .validate "c"⟩ ∧
      (garbledSession.run ["validate", "c"]).2.ending =
        .crashed (.undecodable ⟨0, [0xFF], .invalidStart⟩) := by
  have hread : Arguments.read ["validate", "c"] = .ok ⟨false, .validate "c"⟩ := rfl
  exact ⟨hread, ((garbledSession.run_outcome hread).2 _).mpr crashes_garbledSession⟩

/-- Not every command line that asks for a command is done or refused. -/
theorem not_forall_run_handled :
    ¬ ∀ (s : Session) (args : List String) (invocation : Invocation),
      Arguments.read args = .ok invocation → (s.run args).2.ending.status = 0 ∨
        (s.run args).2.ending.status = 2 := by
  intro hall
  have hread : Arguments.read ["validate", "c"] = .ok ⟨false, .validate "c"⟩ := rfl
  have hcrash : (garbledSession.run ["validate", "c"]).2.ending =
      .crashed (.undecodable ⟨0, [0xFF], .invalidStart⟩) := by
    rw [Session.run, hread]
    have hstopped := (Command.crashes_iff (fun _ _ _ _ h => by cases h)).mpr crashes_garbledSession
    exact Command.ending_of_isStopped hstopped
  have hstatus := hall garbledSession ["validate", "c"] _ hread
  rw [hcrash] at hstatus
  exact absurd hstatus (by decide)

end RadarChart
