import RadarChart.Proofs.Command.Loading
import RadarChart.Proofs.Document.Success

/-!
# What a command works out

The steps of a command keep a log, and none of them looks at it. So a chart is
loaded exactly where its file can be read, is UTF-8 and describes a chart, and
it is laid out exactly where it has a layout. What a command wants written is
the drawing of such a layout, or the sample document.
-/

namespace RadarChart

namespace Logged
variable {α β : Type} {before after : List Record}

/-- The work succeeds with a result, and has a log afterwards as it had one before. -/
def Yields (x : Logged α) (before : List Record) (a : α) (after : List Record) : Prop :=
  x.run.run before = (.ok a, after)

theorem run_bind (x : Logged α) (f : α → Logged β) (before : List Record) :
    (x >>= f).run.run before = match x.run.run before with
      | (.ok a, between) => (f a).run.run between
      | (.error stop, between) => (.error stop, between) := by
  simp only [ExceptT.run_bind, StateT.run_bind]
  show (match x.run.run before with | (a, between) => _) = _
  rcases x.run.run before with ⟨a | a, between⟩ <;> rfl

theorem yields_bind_iff {x : Logged α} {f : α → Logged β} {b : β} :
    (x >>= f).Yields before b after ↔
      ∃ a between, x.Yields before a between ∧ (f a).Yields between b after := by
  rw [Yields, run_bind]
  simp only [Yields]
  rcases x.run.run before with ⟨stop | a, between⟩
  · constructor
    · intro h
      cases h
    · rintro ⟨_, _, h, _⟩
      cases h
  · constructor
    · exact fun h => ⟨a, between, rfl, h⟩
    · rintro ⟨_, _, h, hf⟩
      cases h
      exact hf

theorem yields_pure_iff {a b : α} :
    (pure a : Logged α).Yields before b after ↔ a = b ∧ before = after := by
  show ((Except.ok a, before) : Except Stop α × List Record) = (.ok b, after) ↔ _
  simp

theorem not_yields_throw {stop : Stop} {a : α} :
    ¬ (throw stop : Logged α).Yields before a after := by
  show ¬ ((Except.error stop, before) : Except Stop α × List Record) = (.ok a, after)
  simp

theorem yields_ofFault_iff {x : Except Fault α} {a : α} :
    (ofFault x).Yields before a after ↔ x = .ok a ∧ before = after := by
  cases x with
  | error f => simp [ofFault, not_yields_throw]
  | ok b => simp [ofFault, yields_pure_iff]

theorem yields_ofFileStop_iff {x : Except FileStop α} {a : α} :
    (ofFileStop x).Yields before a after ↔ x = .ok a ∧ before = after := by
  cases x with
  | error p => simp [ofFileStop, not_yields_throw]
  | ok b => simp [ofFileStop, yields_pure_iff]

theorem exists_yields_iff {x : Logged α} {a : α} :
    (∃ after, x.Yields before a after) ↔ (x.run.run before).1 = .ok a := by
  constructor
  · rintro ⟨after, h⟩
    rw [h]
  · intro h
    exact ⟨(x.run.run before).2, Prod.ext h rfl⟩

end Logged

open Logged Text

variable {before after : List Record}

theorem yields_understand_iff {text : String} {c : Chart} :
    (∃ after, (understand text).Yields before c after) ↔ Chart.parse text = .ok c := by
  rw [exists_yields_iff, run_understand]
  cases Chart.parse text <;> simp [Except.mapError]

/-- What reading a file has brought is a document of the chart. -/
def Brings (source : Except FileStop ByteArray) (c : Chart) : Prop :=
  ∃ bytes text, source = .ok bytes ∧ readText bytes = .ok text ∧ Chart.parse text = .ok c

theorem Brings.exists_parse {source : Except FileStop ByteArray} {c : Chart}
    (h : Brings source c) : ∃ text, Chart.parse text = .ok c := by
  obtain ⟨_, text, _, _, hparse⟩ := h
  exact ⟨text, hparse⟩

theorem Brings.unique {source : Except FileStop ByteArray} {c d : Chart} (hc : Brings source c)
    (hd : Brings source d) : c = d := by
  obtain ⟨bytes, text, rfl, htext, hparse⟩ := hc
  obtain ⟨_, _, hbytes, htext', hparse'⟩ := hd
  obtain rfl := Except.ok.inj hbytes
  obtain rfl := Except.ok.inj (htext.symm.trans htext')
  exact Except.ok.inj (hparse.symm.trans hparse')

theorem brings_toUTF8 {text : String} {c : Chart} (hreturn : '\r' ∉ text.toList)
    (hparse : Chart.parse text = .ok c) : Brings (.ok text.toUTF8) c := by
  refine ⟨_, text, rfl, ?_, hparse⟩
  have hunified : unifyLineEnds text.toList = text.toList := by
    have happend := unifyLineEnds_append hreturn []
    rwa [unifyLineEnds, List.append_nil] at happend
  rw [readText_toUTF8, hunified, String.ofList_toList]

theorem yields_loadChart_iff {source : Except FileStop ByteArray} {c : Chart} :
    (∃ after, (loadChart source).Yields before c after) ↔ Brings source c := by
  simp only [loadChart, yields_bind_iff, yields_ofFileStop_iff, yields_ofFault_iff]
  constructor
  · rintro ⟨after, bytes, _, ⟨hbytes, _⟩, text, _, ⟨htext, _⟩, h⟩
    exact ⟨bytes, text, hbytes, htext, yields_understand_iff.mp ⟨after, h⟩⟩
  · rintro ⟨bytes, text, hbytes, htext, hparse⟩
    obtain ⟨after, h⟩ := yields_understand_iff.mpr hparse
    exact ⟨after, bytes, before, ⟨hbytes, rfl⟩, text, before, ⟨htext, rfl⟩, h⟩

/-- Laying out gives the chart's layout, whatever has been recorded before. -/
theorem run_layOut (c : Chart) (measure : TextMeasurer Float) (records : List Record) :
    ((layOut c measure).run.run records).1 = (c.layout measure).mapError Stop.fault := by
  rw [layOut, Chart.layout]
  cases c.fit measure with
  | error f => rfl
  | ok fit =>
      show _ = (c.geometryAt measure fit.factor).mapError Stop.fault
      rw [Logged.ofFault, pure_bind]
      by_cases hlarge : fit.isTooLarge = true
      · simp only [if_pos hlarge]
        cases c.geometryAt measure fit.factor <;> rfl
      · simp only [if_neg hlarge]
        cases c.geometryAt measure fit.factor <;> rfl

/-- A chart is laid out where it has a layout, whether its labels leave room for it or not. -/
theorem yields_layOut_iff {c : Chart} {measure : TextMeasurer Float} {g : Geometry Float} :
    (∃ after, (layOut c measure).Yields before g after) ↔ c.layout measure = .ok g := by
  rw [exists_yields_iff, run_layOut]
  cases c.layout measure <;> simp [Except.mapError]

/-! ## Commands -/

namespace Command

/-- The file that a command writes. -/
def output? : Command → Option String
  | .render _ output _ _ => output
  | .validate _ => none
  | .example output => some output

/-- The measurer that a width of characters stands for. -/
def measurer (charWidth : Option Float) : TextMeasurer Float :=
  charWidth.elim noWidth estimateWidth

theorem yields_work_render_iff {chart : String} {output : Option String} {precision : Option Int}
    {charWidth : Option Float} {source : Except FileStop ByteArray} {result : Result} :
    (∃ after, ((render chart output precision charWidth).work source).Yields before result after) ↔
      ∃ c g path, Brings source c ∧ c.layout (measurer charWidth) = .ok g ∧
        output = some path ∧ result = ⟨"", some (path, g.toSvgWith precision)⟩ := by
  simp only [work, yields_bind_iff]
  constructor
  · rintro ⟨after, c, _, hload, g, _, hlayout, h⟩
    have hbrings := yields_loadChart_iff.mp ⟨_, hload⟩
    have hg := yields_layOut_iff.mp ⟨_, hlayout⟩
    cases output with
    | none => exact absurd h not_yields_throw
    | some path =>
        obtain ⟨rfl, _⟩ := yields_pure_iff.mp h
        exact ⟨c, g, path, hbrings, hg, rfl, rfl⟩
  · rintro ⟨c, g, path, hbrings, hg, rfl, rfl⟩
    obtain ⟨between, hload⟩ := yields_loadChart_iff.mpr hbrings
    obtain ⟨after, hlayout⟩ := yields_layOut_iff.mpr hg
    exact ⟨after, c, between, hload, g, after, hlayout, yields_pure_iff.mpr ⟨rfl, rfl⟩⟩

/-- What is to be written is a drawing, or the sample document. -/
theorem output_of_yields {c : Command} {source : Except FileStop ByteArray} {result : Result}
    (h : (c.work source).Yields before result after) {path : String} {text : Except Fault String}
    (houtput : result.output = some (path, text)) :
    c.output? = some path ∧
      ((∃ chart precision charWidth d g, c = .render chart (some path) precision charWidth ∧
        Brings source d ∧ d.layout (measurer charWidth) = .ok g ∧
        text = g.toSvgWith precision) ∨
      text = .ok sampleDocument) := by
  cases c with
  | render chart output precision charWidth =>
      obtain ⟨d, g, _, hbrings, hg, rfl, rfl⟩ := yields_work_render_iff.mp ⟨after, h⟩
      cases houtput
      exact ⟨rfl, Or.inl ⟨chart, precision, charWidth, d, g, rfl, hbrings, hg, rfl⟩⟩
  | validate chart =>
      simp only [work, yields_bind_iff, yields_pure_iff] at h
      obtain ⟨_, _, _, _, _, _, rfl, _⟩ := h
      cases houtput
  | «example» output =>
      simp only [work, yields_bind_iff, yields_pure_iff] at h
      obtain ⟨_, _, _, rfl, _⟩ := h
      cases houtput
      exact ⟨rfl, Or.inr rfl⟩

end Command

end RadarChart
