import RadarChart.Proofs.Layout.Capacity
import RadarChart.Proofs.Chart.RoundTrip

/-!
# What a document can ask of floats

A chart that was read from a document and has no enormous numbers and no
extreme proportions is laid out. What is read has least values but no greatest
ones: a side that is too long for a float, or far longer than the other one, is
accepted and stops the layout.
-/

namespace RadarChart

open Binary64

/-! ## Enormous sides -/

theorem le_abs_half {n : ℤ} {j : ℕ} (hn : 2 ^ (j + 1) ≤ n) : 2 ^ j ≤ |(n / (2 : ℤ) : ℝ)| := by
  have hn : (2 ^ (j + 1) : ℝ) ≤ n := by exact_mod_cast hn
  rw [Int.cast_ofNat]
  refine le_trans ?_ (le_abs_self _)
  rw [le_div_iff₀ two_pos, ← pow_succ]
  exact hn

section
variable {sin cos : Float → Float}

/-- A side that is too long for a float has no middle. -/
theorem Chart.layout_of_enormous {c : Chart} {measure : TextMeasurer (FloatWith sin cos)}
    (h : 2 ^ 1025 ≤ c.width ∨ 2 ^ 1025 ≤ c.height) :
    c.layout measure = .error .quotientTooLarge := by
  have hhalf : ∀ n : ℤ, 2 ^ 1025 ≤ n →
      (Scalar.quotient n 2 : Except Fault (FloatWith sin cos)) = .error .quotientTooLarge :=
    fun n hn => quotient_eq_error (by decide) (le_abs_half hn)
  have hcenter : (c.center : Except Fault (Point (FloatWith sin cos))) =
      .error .quotientTooLarge := by
    rcases h with hwidth | hheight
    · rw [Chart.center, hhalf _ hwidth]
      rfl
    · have hwidth : OnlyFaults (· = .quotientTooLarge)
          (Scalar.quotient c.width 2 : Except Fault (FloatWith sin cos)) :=
        onlyFaults_quotient (P := (· = .quotientTooLarge)) rfl _ (by decide)
      rw [Chart.center, hhalf _ hheight]
      cases hx : (Scalar.quotient c.width 2 : Except Fault (FloatWith sin cos)) with
      | ok x => rfl
      | error f => rw [hwidth f hx]; rfl
  rw [Chart.layout, Chart.fit, hcenter]
  rfl

/-- A text has an estimated width, unless that is too large. -/
theorem onlyFaults_estimateWidth {α : Type} [Scalar α] {P : Fault → Prop}
    (h : P .integerTooLarge) (width : α) (text : String) (size : FontSize α) :
    OnlyFaults P (estimateWidth width text size) := by
  cases size with
  | whole size =>
      have hint := onlyFaults_ofInt (α := α) h (text.length * size)
      intro f hf
      cases hx : (Scalar.ofInt (text.length * size) : Except Fault α) with
      | ok x =>
          rw [estimateWidth, hx] at hf
          cases hf
      | error f' =>
          rw [estimateWidth, hx] at hf
          cases hf
          exact hint f hx
  | scaled size => exact onlyFaults_ok _

end

/-! ## A chart on a canvas of any width -/

def squareChart : Chart :=
  { width := 100, height := 100, margin := 0, background := "white", textColor := "black"
    strokeColor := "black", intervalBackground := "white", intervalStrokeColor := "black"
    textSize := 10, mainStrokeWidth := 1, entryStrokeWidth := 1, filledEntries := false
    scale := 1, intervals := none, top := .firstRadius, radii := ["", "", ""]
    entries := [⟨"red", [1, 1, 1]⟩], intervalLabels := [], hideLabels := false }

def wideChart (width : ℤ) : Chart :=
  { squareChart with width := width }

theorem wellFormed_squareChart : squareChart.WellFormed := by
  constructor <;> decide

theorem parse_wideChart {width : ℤ} (hpos : 1 ≤ width) (hshort : width < 10 ^ 4299) :
    Chart.parse (document (wideChart width).lines) = .ok (wideChart width) := by
  have hothers : ∀ n ∈ squareChart.integers.tail, n ≤ 100 := by decide
  have hlimit : (100 : ℤ) < 10 ^ 4299 :=
    lt_of_lt_of_le (by norm_num : (100 : ℤ) < 10 ^ 3)
      (pow_le_pow_right₀ (by norm_num) (by norm_num))
  have hwritable : (wideChart width).Writable :=
    { wellFormed := { wellFormed_squareChart with width := hpos }
      integers := List.forall_mem_cons.mpr ⟨hshort, fun n hn => (hothers n hn).trans_lt hlimit⟩
      texts := show ∀ text ∈ squareChart.texts, IsPlain text.toList by decide
      labels := fun hstates => absurd rfl hstates.1 }
  exact (hwritable.parse_of_facts (List.Perm.refl _)).1

theorem moderate_squareChart : squareChart.Moderate := by
  have hlabels : ∀ text ∈ squareChart.radii, text.length * squareChart.textSize ≤ 100 := by decide
  have hdata : ∀ e ∈ squareChart.entries, ∀ n ∈ e.data, n ≤ 100 := by decide
  have hsmall : ∀ n : ℤ, n ≤ 100 → n ≤ 2 ^ 1000 := fun n hn =>
    (hn.trans (by norm_num : (100 : ℤ) ≤ 2 ^ 7)).trans
      (pow_le_pow_right₀ (by norm_num) (by norm_num))
  exact {
    width := hsmall _ (by decide)
    height := hsmall _ (by decide)
    margin := hsmall _ (by decide)
    textSize := hsmall _ (by decide)
    labels := fun text htext => hsmall _ (hlabels text htext)
    data := fun e he n hn => by
      rw [show squareChart.scale = 1 from rfl, mul_one]
      exact hsmall n (hdata e he n hn)
    radii := show 3 ≤ 2 ^ 50 by norm_num }

/-! ## Functions on floats -/

/-- The number that a float stands for. -/
noncomputable def value (x : Float) : ℝ :=
  Classical.epsilon (StandsFor x)

theorem value_of_standsFor {x : Float} {r : ℝ} (h : StandsFor x r) : value x = r :=
  StandsFor.unique (Classical.epsilon_spec ⟨r, h⟩) h

/-- The function on numbers as one on floats, whose values are cut off after three decimals. -/
noncomputable def onFloats (g : ℝ → ℝ) (x : Float) : Float :=
  (ofRat? (⌊g (value x) * 1000⌋ / 1000)).getD 0.0

theorem abs_floor_div_sub_le (r : ℝ) : |(⌊r * 1000⌋ / 1000 : ℝ) - r| ≤ 1 / 1000 := by
  have hlow := Int.floor_le (r * 1000)
  have hhigh := Int.lt_floor_add_one (r * 1000)
  rw [abs_le]
  constructor
  · rw [le_sub_iff_add_le, le_div_iff₀ (by positivity)]
    linarith
  · rw [sub_le_iff_le_add, div_le_iff₀ (by positivity)]
    linarith

theorem computes_onFloats {g : ℝ → ℝ} (hg : ∀ r, |g r| ≤ 1) : Computes (onFloats g) g := by
  intro x r hx
  have hcast : ((⌊g r * 1000⌋ / 1000 : ℚ) : ℝ) = ⌊g r * 1000⌋ / 1000 := by
    push_cast
    rfl
  have hnear := abs_floor_div_sub_le (g r)
  have hbound : |(⌊g r * 1000⌋ / 1000 : ℝ)| ≤ 2 := by
    have hone := hg r
    rw [abs_le] at *
    constructor <;> linarith
  have hround := @exists_ofRat? (⌊g r * 1000⌋ / 1000)
  rw [hcast] at hround
  unfold onFloats
  rw [value_of_standsFor hx]
  refine (isNear_of_rounds (fun hle => ?_) hbound (by norm_num) hnear).mono (by norm_num)
  obtain ⟨y, v, hy, hv, hfor⟩ := hround hle
  exact ⟨v, hv, by rwa [hy]⟩

/-! ## Every document -/

/-- What the numbers of a chart decide about its layout over floats. -/
theorem Chart.layout_over_floats {sin cos : Float → Float} (hsin : Computes sin Real.sin)
    (hcos : Computes cos Real.cos) {text : String} {c : Chart} (h : Chart.parse text = .ok c) :
    (c.InRange → ∃ g, c.floatLayout sin cos = .ok g) ∧
    (c.Moderate → 2 ^ 58 * c.height ≤ c.width ∨ 2 ^ 58 * c.width ≤ c.height →
      c.floatLayout sin cos = .error .vanishingDivisor) ∧
    (2 ^ 1025 ≤ c.width ∨ 2 ^ 1025 ≤ c.height →
      c.floatLayout sin cos = .error .quotientTooLarge) ∧
    ((∃ g, c.floatLayout sin cos = .ok g) ∨
      ∃ f ∈ [Fault.integerTooLarge, .quotientTooLarge, .vanishingDivisor, .noPoints],
        c.floatLayout sin cos = .error f) := by
  have hc := Chart.wellFormed_of_parse h
  refine ⟨fun hr => hr.exists_floatLayout hc hsin hcos,
    fun hm => hm.floatLayout_eq_error hc hsin hcos, Chart.layout_of_enormous, ?_⟩
  cases hlayout : c.floatLayout sin cos with
  | ok g => exact Or.inl ⟨g, rfl⟩
  | error f =>
      refine Or.inr ⟨f, ?_, rfl⟩
      cases hc.onlyFaults_layout f hlayout with
      | measure hf =>
          obtain rfl := onlyFaults_estimateWidth (P := (· = .integerTooLarge)) rfl _ _ _ _ hf
          simp
      | _ => simp

theorem layout_over_floats_wideChart :
    (Computes (onFloats Real.sin) Real.sin ∧ Computes (onFloats Real.cos) Real.cos) ∧
    (Chart.parse (document (wideChart 100).lines) = .ok (wideChart 100) ∧
      (wideChart 100).InRange ∧
      ∃ g, (wideChart 100).floatLayout (onFloats Real.sin) (onFloats Real.cos) = .ok g) ∧
    (Chart.parse (document (wideChart (10 ^ 20)).lines) = .ok (wideChart (10 ^ 20)) ∧
      (wideChart (10 ^ 20)).Moderate ∧
      (wideChart (10 ^ 20)).floatLayout (onFloats Real.sin) (onFloats Real.cos) =
        .error .vanishingDivisor) ∧
    Chart.parse (document (wideChart (10 ^ 400)).lines) = .ok (wideChart (10 ^ 400)) ∧
      (wideChart (10 ^ 400)).floatLayout (onFloats Real.sin) (onFloats Real.cos) =
        .error .quotientTooLarge := by
  have hsin : Computes (onFloats Real.sin) Real.sin := computes_onFloats Real.abs_sin_le_one
  have hcos : Computes (onFloats Real.cos) Real.cos := computes_onFloats Real.abs_cos_le_one
  have hparse : ∀ k : ℕ, k < 4299 →
      Chart.parse (document (wideChart (10 ^ k)).lines) = .ok (wideChart (10 ^ k)) := fun k hk =>
    parse_wideChart (one_le_pow₀ (by norm_num)) (pow_lt_pow_right₀ (by norm_num) hk)
  have hsquare := hparse 2 (by norm_num)
  have hfar := hparse 20 (by norm_num)
  have henormous := hparse 400 (by norm_num)
  have hrange : (wideChart 100).InRange :=
    { moderate_squareChart with wide := by decide +kernel, tall := by decide +kernel }
  have hmoderate : (wideChart (10 ^ 20)).Moderate :=
    { moderate_squareChart with
      width := (by norm_num : (10 : ℤ) ^ 20 ≤ 2 ^ 100).trans
        (pow_le_pow_right₀ (by norm_num) (by norm_num)) }
  obtain ⟨hgeometry, _⟩ := Chart.layout_over_floats hsin hcos hsquare
  obtain ⟨_, hzero, _⟩ := Chart.layout_over_floats hsin hcos hfar
  obtain ⟨_, _, hlarge, _⟩ := Chart.layout_over_floats hsin hcos henormous
  exact ⟨⟨hsin, hcos⟩, ⟨hsquare, hrange, hgeometry hrange⟩,
    ⟨hfar, hmoderate, hzero hmoderate (Or.inl (by decide +kernel))⟩,
    henormous, hlarge (Or.inl (by decide +kernel))⟩

/-- On the floats of the machine too, a document is read that has no layout. -/
theorem not_forall_exists_layout :
    Chart.parse (document (wideChart (10 ^ 400)).lines) = .ok (wideChart (10 ^ 400)) ∧
      ¬ ∀ text c, Chart.parse text = .ok c →
        ∃ g : Geometry Float, c.layout (estimateWidth defaultCharWidth) = .ok g := by
  have hparse : Chart.parse (document (wideChart (10 ^ 400)).lines) = .ok (wideChart (10 ^ 400)) :=
    parse_wideChart (one_le_pow₀ (by norm_num)) (pow_lt_pow_right₀ (by norm_num) (by norm_num))
  refine ⟨hparse, fun hall => ?_⟩
  obtain ⟨g, hg⟩ := hall _ _ hparse
  have hwidth : (2 : ℤ) ^ 1025 ≤ (wideChart (10 ^ 400)).width := by decide +kernel
  have herror : (wideChart (10 ^ 400)).floatLayout Float.sin Float.cos = .error .quotientTooLarge :=
    Chart.layout_of_enormous (Or.inl hwidth)
  exact nomatch herror.symm.trans ((Chart.floatLayout_machine _).trans hg)

end RadarChart
