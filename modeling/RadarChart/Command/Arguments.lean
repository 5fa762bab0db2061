import RadarChart.Command.NumberArgument
import RadarChart.Drawing.Svg

/-!
# Command-line arguments

A command line is the program's own options, the name of a command, and the
options and operands of the command, in any order. Every argument is first
taken as a `Word`: an operand, or options, or the mark `--` after which all
arguments are operands. The words are then used up from left to right, and
what they ask for takes effect in that order, so a help option counts if
nothing before it is wrong.

Long options may be cut short as long as one option alone begins that way,
short ones may be written together, also behind an `=`, and a value may be
joined to its option by `=`. What looks like a negative number, or holds a
space, is an operand and not an unknown option.

Where an argument `--` comes to stand for a value, the value is left empty.
That is no mistake of the command line: only what needs the value fails.
-/

namespace RadarChart

open Text

/-- What the program is asked to do. All that a drawing takes besides the chart
may have been left empty. -/
inductive Command where
  | render (chart : String) (output : Option String) (precision : Option Int)
      (charWidth : Option Float)
  | validate (chart : String)
  | example (output : String)

structure Invocation where
  verbose : Bool
  command : Command

/-- Why there is nothing to do. -/
inductive Usage where
  | help
  | wrong
deriving DecidableEq, Repr

/-- The exit status of a program that has nothing to do. -/
def Usage.status : Usage → Nat
  | .help => 0
  | .wrong => 2

namespace Arguments

/-! ## Options -/

/-- An option without a value. -/
inductive Switch where
  | help
  | verbose
deriving DecidableEq, Repr

/-- An option with a value. -/
inductive Setting where
  | precision
  | charWidth
deriving DecidableEq, Repr

inductive LongOption where
  | switch (s : Switch)
  | setting (s : Setting)
deriving DecidableEq, Repr

/-- The options of the program or of a command. Those of one letter have no value. -/
structure Options where
  short : List (Char × Switch)
  long : List (String × LongOption)

def programOptions : Options where
  short := [('h', .help), ('v', .verbose)]
  long := [("--help", .switch .help), ("--verbose", .switch .verbose)]

def helpOptions : Options where
  short := [('h', .help)]
  long := [("--help", .switch .help)]

def renderOptions : Options where
  short := [('h', .help)]
  long := [("--help", .switch .help), ("--precision", .setting .precision),
    ("--char-width", .setting .charWidth)]

/-! ## Words -/

inductive Word where
  | operand
  /-- the first `--` -/
  | mark
  /-- options without values -/
  | switches (ss : List Switch)
  /-- an option with a value, joined to it or not -/
  | setting (s : Setting) (value : Option String)
  | unknown
  /-- an option together with what cannot be joined to it -/
  | malformed
deriving DecidableEq, Repr

/-- The short options of the given letters. None of them counts if one letter
is not that of an option. -/
def bundle (o : Options) (letters : List Char) : Word :=
  match letters.mapM fun c => o.short.lookup c with
  | none => .malformed
  | some ss => .switches ss

/-- The long option of the given name, with the value joined to it, if any. -/
def longWord (value : Option String) : LongOption → Word
  | .setting s => .setting s value
  | .switch s => if value.isNone then .switches [s] else .malformed

/-- Whether the argument is written like a negative number. -/
def isNegativeNumber (cs : List Char) : Bool :=
  match cs with
  | '-' :: cs =>
    let cs := if cs.getLast? = some '\n' then cs.dropLast else cs
    let isDigit (c : Char) : Bool := (digitValue? c).isSome
    match splitAt '.' cs with
    | [whole] => !whole.isEmpty && whole.all isDigit
    | [whole, places] => whole.all isDigit && !places.isEmpty && places.all isDigit
    | _ => false
  | _ => false

/-- What an argument is that names no option. -/
def unnamedWord (cs : List Char) : Word :=
  if isNegativeNumber cs || cs.contains ' ' then .operand else .unknown

/-- What an argument is. It is wrong from the start if it could be short for
several options. -/
def Word.read (o : Options) (arg : String) : Except Usage Word :=
  match arg.toList with
  | '-' :: '-' :: cs =>
    let name := String.ofList ('-' :: '-' :: cs.takeWhile (· != '='))
    let value := (cs.dropWhile (· != '=')).tail?.map String.ofList
    match o.long.lookup arg with
    | some option => .ok (longWord none option)
    | none =>
      match o.long.lookup name with
      | some option => .ok (longWord value option)
      | none =>
        match o.long.filter fun l => name.toList.isPrefixOf l.1.toList with
        | [] => .ok (unnamedWord arg.toList)
        | [l] => .ok (longWord value l.2)
        | _ => .error .wrong
  | '-' :: c :: cs =>
    if (o.short.lookup c).isNone then .ok (unnamedWord arg.toList)
    else
      match cs with
      | ['='] => .ok .malformed
      | '=' :: cs => .ok (bundle o (c :: cs))
      | _ => .ok (bundle o (c :: cs))
  | _ => .ok .operand

/-- The arguments as words. -/
def readWords (o : Options) : List String → Except Usage (List (String × Word))
  | [] => .ok []
  | arg :: args =>
    if arg = "--" then .ok ((arg, .mark) :: args.map fun a => (a, .operand))
    else do
      let word ← Word.read o arg
      let words ← readWords o args
      return (arg, word) :: words

/-! ## The arguments of a command -/

/-- What the arguments of a command have said so far. A value that was left
empty is `none`. -/
structure Collected where
  operands : List (Option String) := []
  precision : Option Int := some defaultPrecision
  charWidth : Option Float := some defaultCharWidth
  /-- whether there was an argument that nothing can be made of -/
  stray : Bool := false

/-- The effect of a setting. -/
def Collected.set (c : Collected) (s : Setting) (value : String) : Except Usage Collected :=
  match s with
  | .precision =>
    if value = "--" then .ok { c with precision := none }
    else
      match NumberArgument.readInt? value with
      | some n => if 0 ≤ n ∧ n ≤ 10 then .ok { c with precision := some n } else .error .wrong
      | none => .error .wrong
  | .charWidth =>
    if value = "--" then .ok { c with charWidth := none }
    else
      match NumberArgument.readFloat? value with
      | some x => .ok { c with charWidth := some x }
      | none => .error .wrong

/-- What the word before another one was, as far as operands go. -/
inductive Preceding where
  /-- an operand, or the mark right behind one -/
  | operand
  /-- a mark that belongs to the operand behind it -/
  | mark
  | other
deriving DecidableEq, Repr

/-- The value of an operand. Behind the mark an operand may be `--` itself, but
only the mark's own operand keeps such a value. -/
def operandValue (before : Preceding) (arg : String) : Option String :=
  if arg = "--" ∧ before ≠ .mark then none else some arg

/-- Uses up the words of a command that takes `wanted` more operands. The mark
needs an operand before it or behind it. -/
def collect (wanted : Nat) (before : Preceding) (c : Collected) :
    List (String × Word) → Except Usage Collected
  | [] => if wanted = 0 then .ok c else .error .wrong
  | (arg, .operand) :: words =>
    match wanted with
    | 0 => collect 0 .other { c with stray := true } words
    | n + 1 =>
      collect n .operand { c with operands := c.operands ++ [operandValue before arg] } words
  | (_, .mark) :: words =>
    if before = .operand then collect wanted .operand c words
    else if 0 < wanted && !words.isEmpty then collect wanted .mark c words
    else collect wanted .other { c with stray := true } words
  | (_, .switches ss) :: words =>
    if Switch.help ∈ ss then .error .help else collect wanted .other c words
  | (_, .setting s (some value)) :: words => do collect wanted .other (← c.set s value) words
  | (_, .setting s none) :: words =>
    match words with
    | (value, .operand) :: words => do collect wanted .other (← c.set s value) words
    | _ => .error .wrong
  | (_, .unknown) :: words => collect wanted .other { c with stray := true } words
  | (_, .malformed) :: _ => .error .wrong

/-- What is collected from the arguments of a command. -/
def readCommandArguments (o : Options) (wanted : Nat) (args : List String) :
    Except Usage Collected := do
  collect wanted .other {} (← readWords o args)

/-- The command of the given name with its arguments, and whether there was a
stray one. -/
def readCommand (name : String) (args : List String) : Except Usage (Command × Bool) :=
  match name with
  | "render" => do
    let c ← readCommandArguments renderOptions 2 args
    match c.operands with
    | [some chart, output] => return (.render chart output c.precision c.charWidth, c.stray)
    | _ => throw .wrong
  | "validate" => do
    let c ← readCommandArguments helpOptions 1 args
    match c.operands with
    | [some chart] => return (.validate chart, c.stray)
    | _ => throw .wrong
  | "example" => do
    let c ← readCommandArguments helpOptions 1 args
    match c.operands with
    | [some output] => return (.example output, c.stray)
    | _ => throw .wrong
  | _ => throw .wrong

/-! ## The whole command line -/

/-- Uses up the words of the program. The first operand names the command, and
all the arguments behind it are the command's. -/
def invoke (verbose stray : Bool) : List (String × Word) → Except Usage Invocation
  | (name, .operand) :: words => do
    let (command, strayInside) ← readCommand name (words.map (·.1))
    if stray || strayInside then throw .wrong
    return ⟨verbose, command⟩
  | (_, .switches ss) :: words =>
    if Switch.help ∈ ss then throw .help
    else invoke (verbose || Switch.verbose ∈ ss) stray words
  | (_, .unknown) :: words => invoke verbose true words
  | (_, .mark) :: _ | (_, .setting _ _) :: _ | (_, .malformed) :: _ | [] => throw .wrong

/-- What the arguments of the program ask for. -/
def read (args : List String) : Except Usage Invocation := do
  invoke false false (← readWords programOptions args)

end Arguments

end RadarChart
