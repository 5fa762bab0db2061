import RadarChart.Proofs.Command.Preservation

/-!
# What stops a command

The work of a command is stopped by the file of its chart, by the first
problem of the chart, by a fault of the layout, or because the command itself
lacks what it needs. Work that is not stopped yields what there is to save,
and saving may stop the command as well.
-/

namespace RadarChart

open FileTree Logged Text

/-! ## What stops a command's work -/

namespace Logged
variable {α β : Type} {before : List Record} {stop : Stop}

/-- The work is stopped, with whatever log. -/
def Stops (x : Logged α) (before : List Record) (stop : Stop) : Prop :=
  (x.run.run before).1 = .error stop

theorem stops_bind_iff {x : Logged α} {f : α → Logged β} :
    (x >>= f).Stops before stop ↔
      x.Stops before stop ∨ ∃ a between, x.Yields before a between ∧ (f a).Stops between stop := by
  rw [Stops, run_bind]
  simp only [Stops, Yields]
  rcases x.run.run before with ⟨e | a, between⟩ <;> dsimp only
  · constructor
    · rintro ⟨rfl⟩
      exact Or.inl rfl
    · rintro (h | ⟨_, _, h, _⟩)
      · cases h
        rfl
      · cases h
  · constructor
    · exact fun h => Or.inr ⟨a, between, rfl, h⟩
    · rintro (h | ⟨_, _, h, hf⟩)
      · cases h
      · cases h
        exact hf

theorem not_stops_pure {a : α} : ¬ (pure a : Logged α).Stops before stop :=
  fun h => nomatch (show (Except.ok a : Except Stop α) = .error stop from h)

theorem stops_throw_iff {e : Stop} : (throw e : Logged α).Stops before stop ↔ stop = e := by
  show (Except.error e : Except Stop α) = .error stop ↔ _
  rw [Except.error.injEq, eq_comm]

theorem stops_ofFault_iff {x : Except Fault α} :
    (ofFault x).Stops before stop ↔ ∃ f, x = .error f ∧ stop = .fault f := by
  cases x with
  | error f => simp [ofFault, stops_throw_iff]
  | ok a => simp [ofFault, not_stops_pure]

theorem stops_ofFileStop_iff {x : Except FileStop α} :
    (ofFileStop x).Stops before stop ↔ ∃ e, x = .error e ∧ stop = .ofFileStop e := by
  cases x with
  | error e => simp [ofFileStop, stops_throw_iff]
  | ok a => simp [ofFileStop, not_stops_pure]

end Logged

variable {before : List Record} {stop : Stop}

theorem stops_understand_iff {text : String} : (understand text).Stops before stop ↔
    ∃ failure, Chart.parse text = .error failure ∧ stop = .ofFailure failure := by
  rw [Stops, run_understand]
  cases Chart.parse text <;> simp [Except.mapError, eq_comm]

theorem stops_loadChart_iff {source : Except FileStop ByteArray} :
    (loadChart source).Stops before stop ↔
      (∃ e, source = .error e ∧ stop = .ofFileStop e) ∨
      ∃ bytes, source = .ok bytes ∧ ((∃ f, readText bytes = .error f ∧ stop = .fault f) ∨
        ∃ text, readText bytes = .ok text ∧
          ∃ failure, Chart.parse text = .error failure ∧ stop = .ofFailure failure) := by
  simp only [loadChart, stops_bind_iff, stops_ofFileStop_iff, stops_ofFault_iff,
    stops_understand_iff, yields_ofFileStop_iff, yields_ofFault_iff]
  constructor
  · rintro (h | ⟨bytes, _, ⟨hbytes, _⟩, h | ⟨text, _, ⟨htext, _⟩, h⟩⟩)
    · exact Or.inl h
    · exact Or.inr ⟨bytes, hbytes, Or.inl h⟩
    · exact Or.inr ⟨bytes, hbytes, Or.inr ⟨text, htext, h⟩⟩
  · rintro (h | ⟨bytes, hbytes, h | ⟨text, htext, h⟩⟩)
    · exact Or.inl h
    · exact Or.inr ⟨bytes, before, ⟨hbytes, rfl⟩, Or.inl h⟩
    · exact Or.inr ⟨bytes, before, ⟨hbytes, rfl⟩, Or.inr ⟨text, before, ⟨htext, rfl⟩, h⟩⟩

theorem stops_layOut_iff {c : Chart} {measure : TextMeasurer Float} :
    (layOut c measure).Stops before stop ↔ ∃ f, c.layout measure = .error f ∧ stop = .fault f := by
  rw [Stops, run_layOut]
  cases c.layout measure <;> simp [Except.mapError, eq_comm]

namespace Command

/-- The width of characters that a command measures its texts with. -/
def charWidth? : Command → Option Float
  | .render _ _ _ charWidth => charWidth
  | _ => some defaultCharWidth

/-- The command has no place for what it draws. -/
def LacksOutput : Command → Prop
  | .render _ output _ _ => output = none
  | _ => False

/-- Work on the layout of a chart is stopped by the chart's file, by the layout, or by itself. -/
theorem stops_layOut_bind_iff {α : Type} {source : Except FileStop ByteArray}
    {measure : TextMeasurer Float} {k : Geometry Float → Logged α} {own : Geometry Float → Prop}
    (hk : ∀ g records, (k g).Stops records stop ↔ own g) :
    (loadChart source >>= fun d => layOut d measure >>= k).Stops before stop ↔
      (loadChart source).Stops before stop ∨ ∃ d, Brings source d ∧
        ((∃ f, d.layout measure = .error f ∧ stop = .fault f) ∨
        ∃ g, d.layout measure = .ok g ∧ own g) := by
  simp only [stops_bind_iff, stops_layOut_iff, hk]
  constructor
  · rintro (h | ⟨d, between, hload, h⟩)
    · exact Or.inl h
    · refine Or.inr ⟨d, yields_loadChart_iff.mp ⟨between, hload⟩, h.imp_right ?_⟩
      rintro ⟨g, after, hlayout, hown⟩
      exact ⟨g, yields_layOut_iff.mp ⟨after, hlayout⟩, hown⟩
  · rintro (h | ⟨d, hbrings, h⟩)
    · exact Or.inl h
    · obtain ⟨between, hload⟩ := yields_loadChart_iff.mpr hbrings
      refine Or.inr ⟨d, between, hload, h.imp_right ?_⟩
      rintro ⟨g, hlayout, hown⟩
      obtain ⟨after, hlayout⟩ := yields_layOut_iff.mpr hlayout
      exact ⟨g, after, hlayout, hown⟩

theorem stops_work_iff {c : Command} {t : FileTree} : (c.work (c.source t)).Stops [] stop ↔
    (∃ path, c.chart? = some path ∧ ((loadChart (t.read path)).Stops [] stop ∨
      ∃ d, Brings (t.read path) d ∧
        ((∃ f, d.layout (measurer c.charWidth?) = .error f ∧ stop = .fault f) ∨
        ∃ g, d.layout (measurer c.charWidth?) = .ok g ∧
          c.LacksOutput ∧ stop = .fault .missingPath))) ∨
    c.chart? = none ∧
      ∃ failure, Chart.parse sampleDocument = .error failure ∧ stop = .ofFailure failure := by
  cases c with
  | render chart output precision charWidth =>
      simp only [chart?, reduceCtorEq, false_and, or_false, Option.some.injEq, exists_eq_left']
      refine stops_layOut_bind_iff fun g records => ?_
      cases output with
      | none => simpa [LacksOutput] using stops_throw_iff
      | some path => simpa [LacksOutput] using not_stops_pure
  | validate chart =>
      simp only [chart?, reduceCtorEq, false_and, or_false, Option.some.injEq, exists_eq_left']
      refine stops_layOut_bind_iff fun g records => ?_
      simpa [LacksOutput] using not_stops_pure
  | «example» output =>
      simp only [work, stops_bind_iff, stops_understand_iff, chart?, reduceCtorEq, false_and,
        exists_false, false_or, true_and, not_stops_pure, and_false, or_false]

/-- What stops a command is its work, or the saving of what it has worked out. -/
def IsStopped (c : Command) (t : FileTree) (stop : Stop) : Prop :=
  (c.work (c.source t)).Stops [] stop ∨
    ∃ result after path text u e, (c.work (c.source t)).Yields [] result after ∧
      result.output = some (path, text) ∧ t.save path text = (u, .error e) ∧ stop = .ofFileStop e

section
variable {c : Command} {verbose : Bool} {t : FileTree} {stop : Stop}

theorem ending_of_isStopped (h : c.IsStopped t stop) :
    (c.run verbose t).2.ending = .ofStop stop := by
  rcases h with h | ⟨result, after, path, text, u, e, hyields, houtput, hsave, rfl⟩
  · unfold run
    rcases hwork : (c.work (c.source t)).run.run [] with ⟨e | result, after⟩
    · rw [Stops, hwork] at h
      cases h
      rw [source] at hwork
      simp only [hwork]
    · rw [Stops, hwork] at h
      cases h
  · exact (run_of_save_error hyields houtput hsave).2

theorem exists_isStopped (h : (c.run verbose t).2.ending ≠ .done) : ∃ stop, c.IsStopped t stop := by
  rcases run_cases h with
    ⟨_, stop, hstop⟩ | ⟨result, after, path, text, e, hyields, houtput, hsave, _⟩
  · exact ⟨stop, Or.inl hstop⟩
  · exact ⟨.ofFileStop e, Or.inr ⟨result, after, path, text, _, e, hyields, houtput, hsave, rfl⟩⟩

/-- A problem that stops a command is one that a document is reported for. -/
theorem IsStopped.exists_parse {p : Problem} (h : c.IsStopped t (.problem p)) :
    ∃ text, Chart.parse text = .error (.problem p) := by
  have hreported : ∀ {text failure}, Chart.parse text = .error failure →
      .problem p = Stop.ofFailure failure → Chart.parse text = .error (.problem p) := by
    intro text failure hparse hfailure
    cases failure with
    | problem q =>
        cases hfailure
        exact hparse
    | fault f => cases hfailure
  rcases h with h | ⟨_, _, _, _, _, e, _, _, _, he⟩
  · rcases stops_work_iff.mp h with
      ⟨path, _, h | ⟨_, _, ⟨_, _, h⟩ | ⟨_, _, _, h⟩⟩⟩ | ⟨_, failure, hparse, hfailure⟩
    · rcases stops_loadChart_iff.mp h with
        ⟨e, _, he⟩ | ⟨_, _, ⟨_, _, h⟩ | ⟨text, _, failure, hparse, hfailure⟩⟩
      · cases e <;> cases he
      · cases h
      · exact ⟨text, hreported hparse hfailure⟩
    · cases h
    · cases h
    · exact ⟨sampleDocument, hreported hparse hfailure⟩
  · cases e <;> cases he

end

end Command

end RadarChart
