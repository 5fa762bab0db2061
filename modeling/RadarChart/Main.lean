import RadarChart.Command.Session

/-!
# The program

The command line on the files of the system. The part of the file system that
the paths of a command lead through is taken as a file tree, the command is
run on that tree, and what it has changed there is carried back. So this
module decides nothing: it only reads, writes and prints.
-/

namespace RadarChart

/-- The paths that a command is given. -/
def Command.paths : Command → List String
  | .render chart output _ _ => chart :: output.toList
  | .validate chart => [chart]
  | .example output => [output]

/-- The places that a path leads through, from its start on. -/
def FileTree.placesOf (t : FileTree) (path : String) : List Place :=
  let start := t.start path
  let step (visited : Place × List Place) (name : String) : Place × List Place :=
    let next :=
      if name = "" ∨ name = "." then visited.1
      else if name = ".." then visited.1.dropLast
      else visited.1 ++ [name]
    (next, visited.2 ++ [next])
  (List.range (start.length + 1)).map start.take ++ ((pathNames path).foldl step (start, [])).2

/-- What the system has at a place. A directory refuses to be read as a file. -/
def systemNode (p : Place) : IO (Option Node) := do
  try
    return some (.file (← IO.FS.readBinFile (FileTree.absolutePath "/" p)))
  catch
    | .inappropriateType _ code _ =>
      return if code.toNat = FileErrorKind.isDirectory.number then some .directory else none
    | .noFileOrDirectory _ _ _ | .invalidArgument _ _ _ => return none
    | e => throw e

/-- The part of the file system that the paths lead through. -/
def systemTree (paths : List String) : IO FileTree := do
  let names := FileTree.pathNames (← IO.currentDir).toString
  let empty : FileTree := ⟨names.filter (· != ""), []⟩
  (paths.flatMap empty.placesOf).foldlM (fun t p => do
    match ← systemNode p with
    | some node => return t.put p node
    | none => return t) empty

/-- Carries back what has changed, directories before what is in them. -/
def carryBack (before after : FileTree) : IO Unit :=
  after.nodes.forM fun (p, node) => do
    if before.find? p ≠ some node then
      match node with
      | .directory => IO.FS.createDir (FileTree.absolutePath "/" p)
      | .file content => IO.FS.writeBinFile (FileTree.absolutePath "/" p) content

def usageText : String :=
  "usage: radar-chart [-h] [-v] command ...\n\n" ++
  "  render chart output [--precision N] [--char-width EMS]\n" ++
  "  validate chart\n" ++
  "  example output\n"

end RadarChart

open RadarChart in
def main (args : List String) : IO UInt32 := do
  match Arguments.read args with
  | .error usage =>
    (if usage = .help then IO.print usageText else IO.eprint usageText)
    return UInt32.ofNat usage.status
  | .ok invocation =>
    let before ← systemTree invocation.command.paths
    let (after, report) := invocation.command.run invocation.verbose before
    carryBack before after
    IO.eprint report.stderr
    IO.print report.stdout
    if let .crashed fault := report.ending then IO.eprintln fault.message
    return UInt32.ofNat report.ending.status
