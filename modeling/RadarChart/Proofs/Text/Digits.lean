import Mathlib.Data.List.Basic
import Mathlib.Data.List.Induction
import RadarChart.Proofs.Text.Numeral

/-!
# Rows of digits

A row of digits has a value, and a row of a given length is told by it. So is
a row that does not begin with a zero, or is a single zero: it is how its
value is written.
-/

namespace RadarChart.Text

theorem ofDigitChars_append (ds es : List Char) :
    Nat.ofDigitChars 10 (ds ++ es) 0 =
      Nat.ofDigitChars 10 ds 0 * 10 ^ es.length + Nat.ofDigitChars 10 es 0 := by
  rw [Nat.ofDigitChars_append, Nat.ofDigitChars_eq_ofDigitChars_zero, Nat.mul_comm]

theorem ofDigitChars_concat (ds : List Char) (d : Char) :
    Nat.ofDigitChars 10 (ds ++ [d]) 0 = 10 * Nat.ofDigitChars 10 ds 0 + (d.toNat - 48) := by
  rw [ofDigitChars_append, List.length_singleton, Nat.pow_one, Nat.mul_comm]
  simp [Nat.ofDigitChars]

theorem ofDigitChars_replicate_zero (k : Nat) :
    Nat.ofDigitChars 10 (List.replicate k '0') 0 = 0 := by
  induction k with
  | zero => rfl
  | succ k ih => rw [List.replicate_succ', ofDigitChars_concat, ih]; rfl

theorem digitChar_of_isDigit {d : Char} (h : d.isDigit = true) :
    (d.toNat - 48).digitChar = d := by
  have hrange := toNat_of_isDigit h
  apply Char.toNat_inj.mp
  rw [Nat.toNat_digitChar_of_lt_ten (by omega)]
  omega

/-- Rows of one length with one value are the same. -/
theorem eq_of_ofDigitChars_eq {ds es : List Char} (hds : ∀ d ∈ ds, d.isDigit = true)
    (hes : ∀ e ∈ es, e.isDigit = true) (hlength : ds.length = es.length)
    (h : Nat.ofDigitChars 10 ds 0 = Nat.ofDigitChars 10 es 0) : ds = es := by
  induction ds using List.reverseRecOn generalizing es with
  | nil => exact (List.length_eq_zero_iff.mp hlength.symm).symm
  | append_singleton ds d ih =>
      rcases List.eq_nil_or_concat' es with rfl | ⟨es, e, rfl⟩
      · simp at hlength
      · rw [List.forall_mem_append, List.forall_mem_singleton] at hds hes
        simp only [List.length_append, List.length_singleton, Nat.add_right_cancel_iff] at hlength
        have hd := toNat_of_isDigit hds.2
        have he := toNat_of_isDigit hes.2
        rw [ofDigitChars_concat, ofDigitChars_concat] at h
        rw [ih hds.1 hes.1 hlength (by omega)]
        have hsame : d.toNat = e.toNat := by omega
        rw [Char.toNat_inj.mp hsame]

/-- A row of digits as numbers are written: a single zero, or no zero at the start. -/
def IsWhole (ds : List Char) : Prop :=
  ds = ['0'] ∨ ∃ c cs, ds = c :: cs ∧ c.isDigit = true ∧ c ≠ '0' ∧ ∀ d ∈ cs, d.isDigit = true

theorem IsWhole.isDigit {ds : List Char} (h : IsWhole ds) : ∀ d ∈ ds, d.isDigit = true := by
  rcases h with rfl | ⟨c, cs, rfl, hc, _, hcs⟩
  · exact List.forall_mem_singleton.mpr rfl
  · exact List.forall_mem_cons.mpr ⟨hc, hcs⟩

theorem IsWhole.ne_nil {ds : List Char} (h : IsWhole ds) : ds ≠ [] := by
  rcases h with rfl | ⟨c, cs, rfl, _⟩ <;> exact List.cons_ne_nil _ _

theorem ofDigitChars_pos {c : Char} {cs : List Char} (hc : c.isDigit = true) (hne : c ≠ '0') :
    0 < Nat.ofDigitChars 10 (c :: cs) 0 := by
  have hrange := toNat_of_isDigit hc
  have hzero : c.toNat ≠ 48 := fun h => hne (Char.toNat_inj.mp h)
  have hone : Nat.ofDigitChars 10 [c] 0 = c.toNat - 48 := by simp [Nat.ofDigitChars]
  rw [← List.singleton_append, ofDigitChars_append, hone]
  exact Nat.add_pos_left (Nat.mul_pos (by omega) (Nat.pow_pos (by decide))) _

/-- Such a row is how its value is written. -/
theorem IsWhole.toDigits_eq {ds : List Char} (h : IsWhole ds) :
    Nat.toDigits 10 (Nat.ofDigitChars 10 ds 0) = ds := by
  rcases h with rfl | ⟨c, cs, rfl, hc, hne, hcs⟩
  · rfl
  · induction cs using List.reverseRecOn with
    | nil =>
        have hrange := toNat_of_isDigit hc
        have hone : Nat.ofDigitChars 10 [c] 0 = c.toNat - 48 := by simp [Nat.ofDigitChars]
        rw [hone, Nat.toDigits_of_lt_base (by omega), digitChar_of_isDigit hc]
    | append_singleton cs d ih =>
        rw [List.forall_mem_append, List.forall_mem_singleton] at hcs
        have hrange := toNat_of_isDigit hcs.2
        rw [← List.cons_append, ofDigitChars_concat,
          ← Nat.toDigits_append_toDigits (by decide) (ofDigitChars_pos hc hne) (by omega), ih hcs.1,
          Nat.toDigits_of_lt_base (by omega), digitChar_of_isDigit hcs.2]

theorem isWhole_toDigits (n : Nat) : IsWhole (Nat.toDigits 10 n) := by
  induction n using Nat.strongRecOn with
  | _ n ih =>
      have hlast : (n % 10).digitChar.isDigit = true := by
        rw [Nat.isDigit_digitChar, decide_eq_true_eq]
        omega
      by_cases hn : n < 10
      · rw [Nat.toDigits_of_lt_base hn]
        rw [Nat.mod_eq_of_lt hn] at hlast
        by_cases hzero : n = 0
        · exact Or.inl (by rw [hzero]; rfl)
        · exact Or.inr ⟨_, [], rfl, hlast, mt Nat.digitChar_eq_zero.mp hzero,
            List.forall_mem_nil _⟩
      · rw [Nat.toDigits_of_base_le (by decide) (by omega)]
        rcases ih (n / 10) (by omega) with hzero | ⟨c, cs, hcs, hc, hne, hdigits⟩
        · have hvalue := congrArg (Nat.ofDigitChars 10 · 0) hzero
          simp only [Nat.ofDigitChars_ten_toDigits] at hvalue
          have hnone : Nat.ofDigitChars 10 ['0'] 0 = 0 := rfl
          omega
        · refine Or.inr ⟨c, cs ++ [(n % 10).digitChar], by rw [hcs, List.cons_append], hc, hne, ?_⟩
          exact List.forall_mem_append.mpr ⟨hdigits, List.forall_mem_singleton.mpr hlast⟩

end RadarChart.Text
