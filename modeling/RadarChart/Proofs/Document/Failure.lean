import RadarChart.Proofs.Document.Success

/-!
# Readings that fail

A reading fails exactly where one of its parts does and all parts before that
one succeed, and then it fails as that part does. Nothing behind the part
matters.
-/

namespace RadarChart

variable {ε α β : Type}

theorem bind_eq_error_iff {x : Except ε α} {f : α → Except ε β} {e : ε} :
    x >>= f = .error e ↔ x = .error e ∨ ∃ a, x = .ok a ∧ f a = .error e := by
  cases x with
  | error e' => simp [bind, Except.bind]
  | ok a => simp [bind, Except.bind]

/-- A reading that does not fail has a result. -/
theorem exists_eq_ok_iff {x : Except ε α} : (∃ a, x = .ok a) ↔ ∀ e, x ≠ .error e := by
  cases x <;> simp

@[simp] theorem pure_ne_error {a : α} {e : ε} : (pure a : Except ε α) ≠ .error e := by
  simp [pure, Except.pure]

@[simp] theorem reject_eq_error_iff {cause : Cause} {line : Int} {failure : Failure} :
    (reject cause line : Except Failure α) = .error failure ↔ failure = .problem ⟨cause, line⟩ := by
  simp [reject, eq_comm]

@[simp] theorem orFault_eq_error_iff {x : Except Fault α} {failure : Failure} :
    orFault x = .error failure ↔ ∃ f, x = .error f ∧ failure = .fault f := by
  cases x <;> simp [orFault, eq_comm]

@[simp] theorem orProblem_eq_error_iff {x : Except Problem α} {failure : Failure} :
    orProblem x = .error failure ↔ ∃ p, x = .error p ∧ failure = .problem p := by
  cases x <;> simp [orProblem, eq_comm]

/-- Reading a list one by one fails at the first element that cannot be read. -/
theorem mapM_eq_error_iff {f : α → Except ε β} {xs : List α} {e : ε} :
    xs.mapM f = .error e ↔
      ∃ before x after, xs = before ++ x :: after ∧ (∀ y ∈ before, ∃ b, f y = .ok b) ∧
        f x = .error e := by
  induction xs with
  | nil => simp
  | cons x xs ih =>
      rw [List.mapM_cons, bind_eq_error_iff]
      simp only [bind_eq_error_iff, pure_ne_error, and_false, exists_false, or_false, ih]
      constructor
      · rintro (hx | ⟨b, hb, before, y, after, rfl, hbefore, hy⟩)
        · exact ⟨[], x, xs, rfl, by simp, hx⟩
        · refine ⟨x :: before, y, after, rfl, ?_, hy⟩
          exact List.forall_mem_cons.mpr ⟨⟨b, hb⟩, hbefore⟩
      · rintro ⟨before, y, after, hxs, hbefore, hy⟩
        cases before with
        | nil =>
            obtain ⟨rfl, rfl⟩ := List.cons.inj hxs
            exact Or.inl hy
        | cons z before =>
            obtain ⟨rfl, rfl⟩ := List.cons.inj hxs
            obtain ⟨⟨b, hb⟩, hbefore⟩ := List.forall_mem_cons.mp hbefore
            exact Or.inr ⟨b, hb, before, y, after, rfl, hbefore, hy⟩

/-- Reading the numbers from 1 to a count fails at the least number that cannot be read. -/
theorem mapM_range'_eq_error_iff {f : Nat → Except ε β} {count : Nat} {e : ε} :
    (List.range' 1 count).mapM f = .error e ↔
      ∃ n, 1 ≤ n ∧ n ≤ count ∧ (∀ m, 1 ≤ m → m < n → ∃ b, f m = .ok b) ∧ f n = .error e := by
  rw [mapM_eq_error_iff]
  constructor
  · rintro ⟨before, n, after, hsplit, hbefore, hn⟩
    obtain ⟨k, hk, rfl, hrest⟩ := List.range'_eq_append_iff.mp hsplit
    obtain ⟨rfl, hpos, _⟩ := List.range'_eq_cons_iff.mp hrest.symm
    refine ⟨_, by omega, by omega, ?_, hn⟩
    intro m hm hlt
    exact hbefore m (List.mem_range'_1.mpr ⟨hm, by omega⟩)
  · rintro ⟨n, hpos, hle, hbefore, hn⟩
    refine ⟨List.range' 1 (n - 1), n, List.range' (n + 1) (count - n), ?_, ?_, hn⟩
    · rw [List.range'_eq_append_iff]
      refine ⟨n - 1, by omega, rfl, ?_⟩
      rw [eq_comm, List.range'_eq_cons_iff]
      refine ⟨by omega, by omega, ?_⟩
      congr 1
      omega
    · intro m hm
      rw [List.mem_range'_1] at hm
      exact hbefore m hm.1 (by omega)

end RadarChart
