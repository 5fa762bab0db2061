import RadarChart.Command.Arguments
import RadarChart.Proofs.Document.Success

/-!
# What a command line can ask for

Whatever the arguments are and in whatever order they come, a precision that
is asked for is one of those that are offered, unless it was left empty.
-/

namespace RadarChart.Arguments

/-- The precision is one of those that are offered, or was left empty. -/
def Collected.Offered (c : Collected) : Prop :=
  ∀ precision ∈ c.precision, 0 ≤ precision ∧ precision ≤ 10

/-- A setting takes effect only where its value is offered. -/
theorem Collected.Offered.set {c d : Collected} (h : c.Offered) {s : Setting} {value : String}
    (hset : c.set s value = .ok d) : d.Offered := by
  cases s with
  | precision =>
      rw [Collected.set] at hset
      split at hset
      · cases hset
        exact fun _ hnone => nomatch hnone
      · split at hset
        · split at hset
          · rename_i hrange
            cases hset
            intro precision hprecision
            obtain rfl := Option.some.inj hprecision
            exact hrange
          · cases hset
        · cases hset
  | charWidth =>
      rw [Collected.set] at hset
      split at hset
      · cases hset
        exact h
      · split at hset
        · cases hset
          exact h
        · cases hset

/-- The words are used up one by one, and each leaves the precision alone or sets it. -/
theorem Collected.Offered.collect {wanted : Nat} {before : Preceding} {c d : Collected}
    {words : List (String × Word)} (h : c.Offered)
    (hcollect : Arguments.collect wanted before c words = .ok d) : d.Offered := by
  fun_induction Arguments.collect wanted before c words with
  | case1 =>
      cases hcollect
      exact h
  | case3 _ _ _ _ ih | case4 _ _ _ _ _ ih | case5 _ _ _ _ ih | case6 _ _ _ _ _ _ _ ih
  | case7 _ _ _ _ _ _ _ ih | case9 _ _ _ _ _ _ _ ih | case13 _ _ _ _ _ ih => exact ih h hcollect
  | case10 _ _ _ _ _ _ _ ih | case11 _ _ _ _ _ _ _ ih =>
      rw [bind_eq_ok_iff] at hcollect
      obtain ⟨e, hset, hcollect⟩ := hcollect
      exact ih e (h.set hset) hcollect
  | _ => cases hcollect

theorem readCommandArguments_offered {o : Options} {wanted : Nat} {args : List String}
    {c : Collected} (h : readCommandArguments o wanted args = .ok c) : c.Offered := by
  simp only [readCommandArguments, bind_eq_ok_iff] at h
  obtain ⟨words, _, h⟩ := h
  refine Collected.Offered.collect ?_ h
  intro precision hprecision
  obtain rfl := Option.some.inj hprecision
  decide

/-- A command that draws has an offered precision, or an empty one. -/
theorem readCommand_offered {name : String} {args : List String} {chart : String}
    {output : Option String} {precision : Int} {charWidth : Option Float} {stray : Bool}
    (h : readCommand name args = .ok (.render chart output (some precision) charWidth, stray)) :
    0 ≤ precision ∧ precision ≤ 10 := by
  unfold readCommand at h
  split at h
  · simp only [bind_eq_ok_iff] at h
    obtain ⟨c, hc, h⟩ := h
    split at h
    · simp only [pure_eq_ok_iff, Prod.mk.injEq, Command.render.injEq] at h
      obtain ⟨⟨_, _, hprecision, _⟩, _⟩ := h
      exact readCommandArguments_offered hc precision hprecision
    · cases h
  · simp only [bind_eq_ok_iff] at h
    obtain ⟨_, _, h⟩ := h
    split at h <;> cases h
  · simp only [bind_eq_ok_iff] at h
    obtain ⟨_, _, h⟩ := h
    split at h <;> cases h
  · cases h

/-- What is invoked has been read as a command from arguments. -/
theorem exists_readCommand_of_invoke {verbose stray : Bool} {words : List (String × Word)}
    {invocation : Invocation} (h : invoke verbose stray words = .ok invocation) :
    ∃ name args inside, readCommand name args = .ok (invocation.command, inside) := by
  fun_induction invoke verbose stray words with
  | case1 _ _ name words =>
      simp only [bind_eq_ok_iff] at h
      obtain ⟨⟨command, inside⟩, hcommand, h⟩ := h
      simp only at h
      split at h
      · cases h
      · obtain rfl := pure_eq_ok_iff.mp h
        exact ⟨name, words.map (·.1), inside, hcommand⟩
  | case3 _ _ _ _ _ _ ih | case4 _ _ _ _ ih => exact ih h
  | _ => cases h

/-- A precision that a command line asks for is one of those that are offered. -/
theorem offered_of_read {args : List String} {invocation : Invocation}
    (h : read args = .ok invocation) {chart : String} {output : Option String} {precision : Int}
    {charWidth : Option Float}
    (hcommand : invocation.command = .render chart output (some precision) charWidth) :
    0 ≤ precision ∧ precision ≤ 10 := by
  simp only [read, bind_eq_ok_iff] at h
  obtain ⟨words, _, h⟩ := h
  obtain ⟨name, inner, inside, hread⟩ := exists_readCommand_of_invoke h
  rw [hcommand] at hread
  exact readCommand_offered hread

end RadarChart.Arguments
