import RadarChart.Command.Arguments
import RadarChart.Command.Record

/-!
# The logger of a process

All log records go to one logger, which stays as it is from one command line
to the next. It has a level of its own, and its handlers have theirs. Every
handler tells a record that it admits. As long as there is no handler, a
warning is told in a few words and nothing else is.

A command line that asks to be verbose sets the logger up: the handlers that
are there are dropped before there is a new one, or a record would be told
once for each time the logger was set up.

The program does not run this logger. It runs `Session.run`, which keeps of
the logger only whether it was set up. `Logger` says what that stands for, and
`Session.logs_run` that a session tells the lines that its logger tells.
-/

namespace RadarChart

inductive LogLevel where
  | debug
  | warning
deriving DecidableEq, Repr

/-- Whether a record is of the level or above it. -/
def LogLevel.admits : LogLevel → Record → Bool
  | .debug, _ => true
  | .warning, r => r.isWarning

structure Logger where
  level : LogLevel
  /-- each with its own level -/
  handlers : List LogLevel
deriving DecidableEq, Repr

namespace Logger

/-- The logger of a process that has not run a command line yet. -/
def fresh : Logger := ⟨.warning, []⟩

def setUp (l : Logger) (level : LogLevel) : Logger :=
  let kept := if l.handlers.isEmpty then l.handlers else []
  ⟨level, kept ++ [level]⟩

/-- The lines that tell a record. -/
def lines (l : Logger) (r : Record) : List String :=
  if l.level.admits r then
    if l.handlers.isEmpty then (r.line? false).toList
    else (l.handlers.filter (·.admits r)).filterMap fun _ => r.line? true
  else []

def log (l : Logger) (records : List Record) : List String :=
  records.flatMap l.lines

/-- What a command line makes of the logger before its command is run. -/
def heed (l : Logger) (args : List String) : Logger :=
  match Arguments.read args with
  | .ok invocation => if invocation.verbose then l.setUp .debug else l
  | .error _ => l

/-- The logger after several command lines in one process. -/
def after (lines : List (List String)) : Logger :=
  lines.foldl heed fresh

end Logger

end RadarChart
