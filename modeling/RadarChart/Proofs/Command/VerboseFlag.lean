import RadarChart.Command.Arguments
import RadarChart.Proofs.Document.Success

/-!
# Command lines and their verbose flags

A command line asks for the same without its verbose flags. Only the flags in
front of the name of the command are meant: what is behind it is the
command's own, and behind the mark `--` there are no flags at all. A command
line that can be read asks to be verbose exactly if it has such a flag.
-/

namespace RadarChart.Arguments

/-! ## Words -/

/-- Whether the name of the command is still to come behind the word. -/
def Word.inFront : Word → Bool
  | .operand | .mark => false
  | _ => true

/-- Whether all that the word does is to ask to be verbose. -/
def Word.isVerbose : Word → Bool
  | .switches ss => Switch.verbose ∈ ss && Switch.help ∉ ss
  | _ => false

/-- The words without those in front of the command that ask to be verbose. -/
def quietWords (words : List (String × Word)) : List (String × Word) :=
  (words.takeWhile (·.2.inFront)).filter (!·.2.isVerbose) ++ words.dropWhile (·.2.inFront)

variable {verbose stray : Bool} {arg : String} {args : List String} {word : Word}
  {words : List (String × Word)}

theorem quietWords_cons : quietWords ((arg, word) :: words) =
    if word.inFront then
      if word.isVerbose then quietWords words else (arg, word) :: quietWords words
    else (arg, word) :: words := by
  cases hfront : word.inFront <;> cases hverbose : word.isVerbose <;>
    simp [quietWords, hfront, hverbose]

theorem invoke_operand (name : String) : invoke verbose stray ((name, .operand) :: words) =
    match readCommand name (words.map (·.1)) with
    | .ok (command, inside) => if stray || inside then .error .wrong else .ok ⟨verbose, command⟩
    | .error usage => .error usage := by
  rw [invoke]
  cases readCommand name (words.map (·.1)) with
  | error usage => rfl
  | ok read =>
      obtain ⟨command, inside⟩ := read
      cases stray <;> cases inside <;> rfl

/-- The words that ask to be verbose make no difference to the command. -/
theorem invoke_quietWords (verbose verbose' stray : Bool) (words : List (String × Word)) :
    (invoke verbose stray words).map (·.command) =
      (invoke verbose' stray (quietWords words)).map (·.command) := by
  induction words generalizing verbose verbose' stray with
  | nil => rfl
  | cons word words ih =>
      obtain ⟨arg, word⟩ := word
      rw [quietWords_cons]
      cases word with
      | operand =>
          show _ = (invoke verbose' stray ((arg, .operand) :: words)).map _
          rw [invoke_operand, invoke_operand]
          cases readCommand arg (words.map (·.1)) with
          | error usage => rfl
          | ok read =>
              obtain ⟨command, inside⟩ := read
              cases stray <;> cases inside <;> rfl
      | mark | setting _ _ | malformed => rfl
      | unknown => exact ih verbose verbose' true
      | switches ss =>
          have hfront : (Word.switches ss).inFront = true := rfl
          rw [if_pos hfront, invoke]
          by_cases hhelp : Switch.help ∈ ss
          · have hkept : (Word.switches ss).isVerbose = false := by simp [Word.isVerbose, hhelp]
            rw [hkept, if_neg Bool.false_ne_true, invoke, if_pos hhelp, if_pos hhelp]
          · rw [if_neg hhelp]
            cases (Word.switches ss).isVerbose with
            | true => exact ih _ _ _
            | false =>
                rw [if_neg Bool.false_ne_true, invoke, if_neg hhelp]
                exact ih _ _ _

/-- What is invoked is verbose if a word in front of the command asks for it. -/
theorem verbose_of_invoke {invocation : Invocation}
    (h : invoke verbose stray words = .ok invocation) :
    invocation.verbose = true ↔
      verbose = true ∨ ∃ word ∈ words.takeWhile (·.2.inFront), word.2.isVerbose = true := by
  induction words generalizing verbose stray with
  | nil => cases h
  | cons word words ih =>
      obtain ⟨arg, word⟩ := word
      cases word with
      | operand =>
          rw [invoke_operand] at h
          split at h
          · split at h
            · cases h
            · cases h
              simp [Word.inFront]
          · cases h
      | mark | setting _ _ | malformed => cases h
      | unknown =>
          rw [invoke] at h
          rw [ih h]
          simp [Word.inFront, Word.isVerbose]
      | switches ss =>
          rw [invoke] at h
          split at h
          · cases h
          · rename_i hhelp
            rw [ih h]
            simp [Word.inFront, Word.isVerbose, hhelp, or_assoc]

/-! ## Arguments -/

/-- What the program takes an argument for while the name of the command is still to come. -/
def programWord (arg : String) : Word :=
  if arg = "--" then .mark
  else
    match Word.read programOptions arg with
    | .ok word => word
    | .error _ => .malformed

/-- Whether an argument is a verbose flag and nothing else, in whatever way it is written. -/
def isVerboseFlag (arg : String) : Bool :=
  (programWord arg).isVerbose

/-- The arguments in front of the name of the command. -/
def programPart (args : List String) : List String :=
  args.takeWhile fun arg => (programWord arg).inFront

/-- The command line without the verbose flags in front of the name of the command. -/
def withoutVerbose (args : List String) : List String :=
  (programPart args).filter (!isVerboseFlag ·) ++
    args.dropWhile fun arg => (programWord arg).inFront

theorem withoutVerbose_cons (h : programWord arg = word) : withoutVerbose (arg :: args) =
    if word.inFront then
      if word.isVerbose then withoutVerbose args else arg :: withoutVerbose args
    else arg :: args := by
  subst h
  cases hfront : (programWord arg).inFront <;> cases hverbose : (programWord arg).isVerbose <;>
    simp [withoutVerbose, programPart, isVerboseFlag, hfront, hverbose]

theorem readWords_cons {o : Options} (h : arg ≠ "--") :
    readWords o (arg :: args) =
      match Word.read o arg with
      | .ok word => (readWords o args).map ((arg, word) :: ·)
      | .error usage => .error usage := by
  rw [readWords, if_neg h]
  cases Word.read o arg with
  | error usage => rfl
  | ok word => cases readWords o args <;> rfl

theorem readWords_withoutVerbose (args : List String) :
    readWords programOptions (withoutVerbose args) =
      (readWords programOptions args).map quietWords := by
  induction args with
  | nil => rfl
  | cons arg args ih =>
      by_cases hmark : arg = "--"
      · subst hmark
        rw [withoutVerbose_cons rfl]
        rfl
      have hword : programWord arg = _ := if_neg hmark
      rw [withoutVerbose_cons hword, readWords_cons hmark]
      cases hread : Word.read programOptions arg with
      | error usage =>
          show readWords _ (arg :: _) = _
          rw [readWords_cons hmark, hread]
          rfl
      | ok word =>
          have hkept : ∀ rest, readWords programOptions (arg :: rest) =
              (readWords programOptions rest).map ((arg, word) :: ·) := fun rest => by
            rw [readWords_cons hmark, hread]
          cases hfront : word.inFront <;> cases hverbose : word.isVerbose <;>
            cases hrest : readWords programOptions args <;>
            simp [hkept, ih, hrest, quietWords_cons, hfront, hverbose, Except.map]

/-- The verbose flags in front of the command make no difference to what is asked for. -/
theorem read_withoutVerbose (args : List String) :
    (read args).map (·.command) = (read (withoutVerbose args)).map (·.command) := by
  rw [read, read, readWords_withoutVerbose]
  cases readWords programOptions args with
  | error usage => rfl
  | ok words => exact invoke_quietWords false false false words

example : withoutVerbose ["-v", "--verb", "validate", "-v"] = ["validate", "-v"] := by decide

/-- Command lines that differ in verbose flags alone are wrong alike or ask for the same command. -/
theorem read_cases {args' : List String} (hargs : withoutVerbose args = withoutVerbose args') :
    (∃ usage, read args = .error usage ∧ read args' = .error usage) ∨
      ∃ invocation invocation', read args = .ok invocation ∧ read args' = .ok invocation' ∧
        invocation.command = invocation'.command := by
  have hread : (read args).map (·.command) = (read args').map (·.command) := by
    rw [read_withoutVerbose, hargs, ← read_withoutVerbose]
  generalize read args = asked at hread ⊢
  generalize read args' = asked' at hread ⊢
  obtain usage | invocation := asked <;> obtain usage' | invocation' := asked'
  · cases hread
    exact Or.inl ⟨usage, rfl, rfl⟩
  · cases hread
  · cases hread
  · exact Or.inr ⟨invocation, invocation', rfl, rfl, Except.ok.inj hread⟩

/-- The words in front of the command are what the program takes its arguments there for. -/
theorem takeWhile_of_readWords (h : readWords programOptions args = .ok words) :
    words.takeWhile (·.2.inFront) = (programPart args).map fun arg => (arg, programWord arg) := by
  induction args generalizing words with
  | nil =>
      cases h
      rfl
  | cons arg args ih =>
      by_cases hmark : arg = "--"
      · subst hmark
        rw [readWords, if_pos rfl] at h
        cases h
        rfl
      · have hword : programWord arg = _ := if_neg hmark
        rw [readWords_cons hmark] at h
        cases hread : Word.read programOptions arg with
        | error usage =>
            rw [hread] at h
            cases h
        | ok word =>
            simp only [hread] at h hword
            obtain ⟨rest, hrest, rfl⟩ := map_eq_ok_iff.mp h
            cases hfront : word.inFront <;>
              simp [programPart, hword, hfront, ih hrest]

/-- A command line that can be read asks to be verbose if it has a flag for that. -/
theorem verbose_of_read {invocation : Invocation} (h : read args = .ok invocation) :
    invocation.verbose = true ↔ ∃ arg ∈ programPart args, isVerboseFlag arg = true := by
  obtain ⟨words, hwords, hinvoke⟩ := bind_eq_ok_iff.mp h
  rw [verbose_of_invoke hinvoke, takeWhile_of_readWords hwords]
  simp [isVerboseFlag]

end RadarChart.Arguments
