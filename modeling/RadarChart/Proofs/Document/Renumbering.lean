import RadarChart.Document.Statement
import RadarChart.Proofs.Document.Success

/-!
# Renumbered documents

The numbers of lines are carried along and never looked at: if the lines get
other numbers, the items and the statements get the same ones, and a problem is
found at the new number of its line. Every step of a reading has one law, and
the law of a sequence of steps follows from `bind_renumbered`.
-/

namespace RadarChart

open Text

/-! ## Renumbering -/

def Line.renumber (f : Int → Int) (l : Line) : Line :=
  { l with number := f l.number }

@[simp] theorem Line.number_renumber (f : Int → Int) (l : Line) :
    (l.renumber f).number = f l.number := rfl

@[simp] theorem Line.text_renumber (f : Int → Int) (l : Line) :
    (l.renumber f).text = l.text := rfl

def Item.renumber (f : Int → Int) (item : Item) : Item :=
  { item with line := f item.line }

def Statement.renumber (f : Int → Int) (s : Statement) : Statement :=
  { s with line := f s.line }

def Problem.renumber (f : Int → Int) (p : Problem) : Problem :=
  { p with line := f p.line }

/-- A fault is at no line. -/
def Failure.renumber (f : Int → Int) : Failure → Failure
  | .problem p => .problem (p.renumber f)
  | .fault x => .fault x

/-- The outcome of a reading after the lines got other numbers, where `g` is
what becomes of a result. -/
def renumbered {α β : Type} (f : Int → Int) (g : α → β) (x : Except Failure α) :
    Except Failure β :=
  (x.mapError (Failure.renumber f)).map g

section
variable {α β : Type} {f : Int → Int} {g : α → β}

theorem renumbered_orFault {x : Except Fault α} :
    renumbered f id (orFault x) = orFault x := by
  cases x <;> rfl

theorem renumbered_ite {P : Prop} [Decidable P] {x y : Except Failure α} :
    renumbered f g (if P then x else y) = if P then renumbered f g x else renumbered f g y :=
  apply_ite (renumbered f g) P x y

theorem renumbered_orProblem {x : Except Problem α} :
    renumbered f g (orProblem x) = orProblem ((x.mapError (·.renumber f)).map g) := by
  cases x <;> rfl

theorem renumbered_id (x : Except Failure α) :
    renumbered f id x = x.mapError (Failure.renumber f) := by
  cases x <;> rfl

/-- Two steps are renumbered one after the other. -/
theorem bind_renumbered {γ δ : Type} {k : γ → δ} {x : Except Failure α} {y : Except Failure β}
    {next : α → Except Failure γ} {next' : β → Except Failure δ} (hx : y = renumbered f g x)
    (hnext : ∀ a, next' (g a) = renumbered f k (next a)) :
    y >>= next' = renumbered f k (x >>= next) := by
  subst hx
  cases x with
  | error e => rfl
  | ok a => exact hnext a

/-- A list is renumbered element by element. -/
theorem mapM_renumbered {γ : Type} {read : γ → Except Failure α} {read' : γ → Except Failure β}
    (h : ∀ x, read' x = renumbered f g (read x)) (xs : List γ) :
    xs.mapM read' = renumbered f (List.map g) (xs.mapM read) := by
  induction xs with
  | nil => rfl
  | cons x xs ih =>
      rw [List.mapM_cons, List.mapM_cons]
      apply bind_renumbered (h x)
      intro a
      apply bind_renumbered ih
      intro as
      rfl

end

/-! ## Keys and values -/

section
variable (f : Int → Int)

theorem readNumber_renumber (what : Numbered) (cs : List Char) (line : Int) :
    readNumber what cs (f line) = renumbered f id (readNumber what cs line) := by
  apply bind_renumbered renumbered_orFault.symm
  rintro (_ | _ | n) <;> rfl

theorem Target.read_renumber (key : String) (line : Int) :
    Target.read key (f line) = renumbered f id (Target.read key line) := by
  unfold Target.read
  split
  · rfl
  · split
    · split
      · apply bind_renumbered (readNumber_renumber f _ _ line)
        intro n
        rfl
      · rfl
    · split
      · apply bind_renumbered (readNumber_renumber f _ _ line)
        intro n
        split <;> rfl
      · rfl
    · rfl

theorem readSize_renumber (cs : List Char) (line : Int) :
    readSize cs (f line) = renumbered f id (readSize cs line) := by
  unfold readSize
  split
  · apply bind_renumbered renumbered_orFault.symm
    intro width
    apply bind_renumbered renumbered_orFault.symm
    intro height
    rw [renumbered_ite]
    rfl
  · rfl

theorem readAtLeast_renumber (minimum : Nat) (p : Property) (n : Nat) (line : Int) :
    readAtLeast minimum p n (f line) = renumbered f id (readAtLeast minimum p n line) := by
  rw [readAtLeast, readAtLeast, renumbered_ite]
  rfl

theorem readQuantity_renumber (q : Quantity) (cs : List Char) (line : Int) :
    readQuantity q cs (f line) = renumbered f id (readQuantity q cs line) := by
  apply bind_renumbered renumbered_orFault.symm
  rintro (_ | n)
  · rfl
  · apply bind_renumbered (readAtLeast_renumber f _ _ n line)
    intro m
    rfl

theorem readIntervals_renumber (cs : List Char) (line : Int) :
    readIntervals cs (f line) = renumbered f id (readIntervals cs line) := by
  apply bind_renumbered renumbered_orFault.symm
  rintro (_ | n)
  · dsimp only
    rw [renumbered_ite]
    rfl
  · apply bind_renumbered (readAtLeast_renumber f _ _ n line)
    intro m
    rfl

theorem readFlag_renumber (flag : Flag) (cs : List Char) (line : Int) :
    readFlag flag cs (f line) = renumbered f id (readFlag flag cs line) := by
  unfold readFlag
  split <;> rfl

theorem readTop_renumber (cs : List Char) (line : Int) :
    readTop cs (f line) = renumbered f id (readTop cs line) := by
  unfold readTop
  split <;> rfl

theorem readData_renumber (cs : List Char) (line : Int) :
    readData cs (f line) = renumbered f id (readData cs line) := by
  apply bind_renumbered (mapM_renumbered (fun w => renumbered_orFault.symm) (listWords cs))
  intro numbers
  rw [List.map_id]
  split <;> rfl

theorem Property.readValue_renumber (p : Property) (value : String) (line : Int) :
    p.readValue value (f line) = renumbered f id (p.readValue value line) := by
  cases p with
  | size => exact readSize_renumber f _ line
  | quantity q => exact readQuantity_renumber f q _ line
  | paint p => rfl
  | flag flag => exact readFlag_renumber f flag _ line
  | intervals => exact readIntervals_renumber f _ line
  | top => exact readTop_renumber f _ line
  | intervalLabels => rfl

theorem Target.readValue_renumber (t : Target) (withData : List Nat) (value : String)
    (line : Int) : t.readValue withData value (f line) =
      renumbered f id (t.readValue withData value line) := by
  cases t with
  | property p => exact p.readValue_renumber f value line
  | radius n => rfl
  | entryColor n => rfl
  | entryData n =>
      rw [Target.readValue, Target.readValue, renumbered_ite]
      congr 1
      apply bind_renumbered (readData_renumber f _ line)
      intro values
      rfl

/-! ## Documents -/

/-- A statement is at the line of its item. -/
theorem Item.read_renumber (withData : List Nat) (item : Item) :
    (item.renumber f).read withData =
      renumbered f (Statement.renumber f) (item.read withData) := by
  apply bind_renumbered (Target.read_renumber f item.key item.line)
  intro t
  apply bind_renumbered (t.readValue_renumber f withData item.value item.line)
  intro fact
  rfl

theorem readStatementsFrom_renumber (withData : List Nat) (items : List Item) :
    readStatementsFrom withData (items.map (·.renumber f)) =
      renumbered f (List.map (·.renumber f)) (readStatementsFrom withData items) := by
  induction items generalizing withData with
  | nil => rfl
  | cons item items ih =>
      apply bind_renumbered (item.read_renumber f withData)
      intro s
      apply bind_renumbered (ih (s.fact.addData withData))
      intro ss
      rfl

theorem resolveFrom_renumber (path : List (List Char)) (seen : List String) (ls : List Line) :
    resolveFrom path seen (ls.map (·.renumber f)) =
      ((resolveFrom path seen ls).mapError (·.renumber f)).map (List.map (·.renumber f)) := by
  induction ls generalizing path seen with
  | nil => rfl
  | cons l ls ih =>
      simp only [List.map_cons, resolveFrom, Line.text_renumber, Line.number_renumber]
      split
      · rfl
      · split
        · rfl
        · rw [ih]
          cases resolveFrom _ _ ls <;> rfl

/-- The keys do not depend on the numbers of the lines. -/
theorem resolve_renumber (ls : List Line) :
    resolve (ls.map (·.renumber f)) =
      ((resolve ls).mapError (·.renumber f)).map (List.map (·.renumber f)) :=
  resolveFrom_renumber f [] [] ls

end

end RadarChart
