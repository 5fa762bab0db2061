import RadarChart.Chart.Reading
import RadarChart.Chart.Sample
import RadarChart.Command.Arguments
import RadarChart.Command.FileTree
import RadarChart.Command.Record
import RadarChart.Drawing.Svg

/-!
# Running commands

A command reads at most one file, works out everything else from it, and
writes at most one file at the end. The work in between is `Command.work`,
which touches no files and keeps its log records also when it fails.
`Session.run` runs a command line against a file tree. A session remembers
the tree and whether it has been asked to be verbose, which is all that the
program keeps of the state of its `Logger`.
-/

namespace RadarChart

open Text

/-- What keeps a command from being done. -/
inductive Stop where
  | problem (p : Problem)
  | file (e : FileError)
  | fault (f : Fault)
deriving DecidableEq, Repr

def Stop.ofFileStop : FileStop → Stop
  | .error e => .file e
  | .fault f => .fault f

def Stop.ofFailure : Failure → Stop
  | .problem p => .problem p
  | .fault f => .fault f

/-- Work that keeps a log. -/
abbrev Logged := ExceptT Stop (StateM (List Record))

namespace Logged

def record (r : Record) : Logged Unit :=
  modify (· ++ [r])

def ofFault {α : Type} : Except Fault α → Logged α
  | .ok a => pure a
  | .error f => throw (.fault f)

def ofProblem {α : Type} : Except Problem α → Logged α
  | .ok a => pure a
  | .error p => throw (.problem p)

def ofFailure {α : Type} : Except Failure α → Logged α
  | .ok a => pure a
  | .error failure => throw (.ofFailure failure)

def ofFileStop {α : Type} : Except FileStop α → Logged α
  | .ok a => pure a
  | .error stop => throw (.ofFileStop stop)

end Logged

/-! ## The work of a command -/

/-- The text of a chart's file: UTF-8, with all line ends unified. -/
def readText (bytes : ByteArray) : Except Fault String :=
  match decodeUtf8 bytes.toList with
  | .ok cs => .ok (String.ofList (unifyLineEnds cs))
  | .error f => .error (.undecodable f)

/-- The chart of a document. -/
def understand (text : String) : Logged Chart := do
  let items ← Logged.ofProblem (resolve (readLines text))
  Logged.record (.resolved items.length)
  let chart ← Logged.ofFailure (Chart.ofItems items)
  Logged.record (.validated chart)
  return chart

/-- The chart of a file, given what reading the file has brought. -/
def loadChart (source : Except FileStop ByteArray) : Logged Chart := do
  let bytes ← Logged.ofFileStop source
  let text ← Logged.ofFault (readText bytes)
  understand text

/-- The geometry of a chart whose texts are measured as said. -/
def layOut (c : Chart) (measure : TextMeasurer Float) : Logged (Geometry Float) := do
  let fit ← Logged.ofFault (c.fit measure)
  Logged.record (.fitted fit)
  if fit.isTooLarge then Logged.record (.tooLarge c fit.factor)
  let geometry ← Logged.ofFault (c.geometryAt measure fit.factor)
  Logged.record (.laidOut fit.factor geometry.rings.length geometry.entries.length)
  return geometry

/-- What a command has to say and to write when its work is done. -/
structure Result where
  stdout : String
  output : Option (String × Except Fault String)

/-- A brief account of a chart. -/
def Geometry.summary (g : Geometry Float) : String :=
  let c := g.chart
  "size: " ++ toString c.width ++ " x " ++ toString c.height
    ++ " (margin " ++ toString c.margin ++ ")\n"
  ++ "radii: " ++ toString c.radii.length ++ " (" ++ String.intercalate ", " c.radii ++ ")\n"
  ++ "entries: " ++ toString c.entries.length ++ "\n"
  ++ "scale: " ++ toString c.scale ++ " intervals: " ++ c.intervals.elim "none" toString ++ "\n"
  ++ "rings: " ++ toString g.rings.length ++ "\n"
  ++ "scale factor: " ++ decimals 4 g.scaleFactor ++ "\n"

/-- The file that a command reads. -/
def Command.chart? : Command → Option String
  | .render chart _ _ _ => some chart
  | .validate chart => some chart
  | .example _ => none

/-- The SVG text of a chart. A precision that was left empty says as little as
one that cannot be. -/
def Geometry.toSvgWith (g : Geometry Float) (precision : Option Int) : Except Fault String :=
  match precision with
  | some precision => g.toSvg precision
  | none => .error .missingPrecision

/-- The work of a command, given what reading its file has brought. -/
def Command.work (source : Except FileStop ByteArray) : Command → Logged Result
  | .render _ output precision charWidth => do
    let geometry ← layOut (← loadChart source) (charWidth.elim noWidth estimateWidth)
    match output with
    | some output => return ⟨"", some (output, geometry.toSvgWith precision)⟩
    | none => throw (.fault .missingPath)
  | .validate _ => do
    let geometry ← layOut (← loadChart source) (estimateWidth defaultCharWidth)
    return ⟨geometry.summary, none⟩
  | .example output => do
    let _ ← understand sampleDocument
    return ⟨"", some (output, .ok sampleDocument)⟩

/-! ## Running -/

/-- How a run ends. -/
inductive Ending where
  /-- there was nothing to do -/
  | usage (u : Usage)
  | done
  /-- a mistake in the chart or with a file -/
  | refused (line : String)
  | crashed (f : Fault)
deriving DecidableEq, Repr

def Ending.ofStop : Stop → Ending
  | .problem p => .refused ("Chart error: " ++ p.message ++ "\n")
  | .file e => .refused ("File error: " ++ e.message ++ "\n")
  | .fault f => .crashed f

def Ending.status : Ending → Nat
  | .usage u => u.status
  | .done => 0
  | .refused _ => 2
  | .crashed _ => 1

/-- What is seen of a run. -/
structure Report where
  ending : Ending
  verbose : Bool
  records : List Record
  stdout : String

/-- The lines of a run's log and of its refusal. -/
def Report.stderr (r : Report) : String :=
  String.join (r.records.filterMap (·.line? r.verbose))
    ++ match r.ending with
      | .refused line => line
      | _ => ""

/-- Runs a command on a tree. -/
def Command.run (c : Command) (verbose : Bool) (t : FileTree) : FileTree × Report :=
  let source := (c.chart?.map t.read).getD (.ok ByteArray.empty)
  match (c.work source).run.run [] with
  | (.error stop, records) => (t, ⟨.ofStop stop, verbose, records, ""⟩)
  | (.ok result, records) =>
    match result.output with
    | none => (t, ⟨.done, verbose, records, result.stdout⟩)
    | some (path, text) =>
      match t.save path text with
      | (t, .ok ()) => (t, ⟨.done, verbose, records, result.stdout⟩)
      | (t, .error stop) => (t, ⟨.ofStop (.ofFileStop stop), verbose, records, ""⟩)

structure Session where
  tree : FileTree
  verbose : Bool

/-- Runs a command line. A session that has been asked once to be verbose stays so. -/
def Session.run (s : Session) (args : List String) : Session × Report :=
  match Arguments.read args with
  | .error usage => (s, ⟨.usage usage, s.verbose, [], ""⟩)
  | .ok invocation =>
    let verbose := s.verbose || invocation.verbose
    let (tree, report) := invocation.command.run verbose s.tree
    (⟨tree, verbose⟩, report)

/-- The session after several command lines. -/
def Session.after (s : Session) (lines : List (List String)) : Session :=
  lines.foldl (fun s args => (s.run args).1) s

end RadarChart
