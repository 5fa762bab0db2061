import RadarChart.Proofs.Command.Preservation
import RadarChart.Proofs.Command.Saving

/-!
# Checking and drawing agree

A chart is checked and drawn from the same geometry. So a chart is found fit
exactly if it can be drawn, where there is room for the drawing: both commands
end alike, with the same log, and what is written is the drawing of the
geometry that the account of the chart is about.
-/

namespace RadarChart

open FileTree Logged Text

/-! ## Operands -/

namespace Arguments

theorem Word.read_eq_operand {arg : String} (h : arg.toList.head? ≠ some '-') (o : Options) :
    Word.read o arg = .ok .operand := by
  rw [Word.read]
  split
  · rename_i heq
    rw [heq] at h
    exact absurd rfl h
  · rename_i heq
    rw [heq] at h
    exact absurd rfl h
  · rfl

theorem readWords_operands {o : Options} {args : List String}
    (h : ∀ arg ∈ args, arg.toList.head? ≠ some '-') :
    readWords o args = .ok (args.map fun arg => (arg, .operand)) := by
  induction args with
  | nil => rfl
  | cons arg args ih =>
      obtain ⟨harg, hargs⟩ := List.forall_mem_cons.mp h
      have hmark : arg ≠ "--" := by
        rintro rfl
        exact harg rfl
      rw [readWords, if_neg hmark, Word.read_eq_operand harg, ih hargs]
      rfl

theorem operandValue_eq {arg : String} (h : arg.toList.head? ≠ some '-') (before : Preceding) :
    operandValue before arg = some arg := by
  rw [operandValue, if_neg]
  rintro ⟨rfl, _⟩
  exact h rfl

variable {chart output : String}

theorem read_validate (hchart : chart.toList.head? ≠ some '-') :
    read ["validate", chart] = .ok ⟨false, .validate chart⟩ := by
  have hname : "validate".toList.head? ≠ some '-' := by decide
  have hinner : ∀ arg ∈ [chart], arg.toList.head? ≠ some '-' := by simpa using hchart
  rw [read, readWords_operands (List.forall_mem_cons.mpr ⟨hname, hinner⟩)]
  show invoke false false (("validate", .operand) :: [(chart, .operand)]) = _
  have hcollect : readCommandArguments helpOptions 1 [chart] =
      .ok { operands := [some chart] } := by
    rw [readCommandArguments, readWords_operands hinner]
    show collect 1 .other {} [(chart, .operand)] = _
    rw [collect, operandValue_eq hchart]
    rfl
  simp only [invoke, List.map_cons, List.map_nil, readCommand, hcollect]
  rfl

theorem read_render (hchart : chart.toList.head? ≠ some '-')
    (houtput : output.toList.head? ≠ some '-') :
    read ["render", chart, output] =
      .ok ⟨false, .render chart (some output) (some defaultPrecision) (some defaultCharWidth)⟩ := by
  have hname : "render".toList.head? ≠ some '-' := by decide
  have hinner : ∀ arg ∈ [chart, output], arg.toList.head? ≠ some '-' := by
    simpa using ⟨hchart, houtput⟩
  rw [read, readWords_operands (List.forall_mem_cons.mpr ⟨hname, hinner⟩)]
  show invoke false false (("render", .operand) :: [(chart, .operand), (output, .operand)]) = _
  have hcollect : readCommandArguments renderOptions 2 [chart, output] =
      .ok { operands := [some chart, some output] } := by
    rw [readCommandArguments, readWords_operands hinner]
    show collect 2 .other {} [(chart, .operand), (output, .operand)] = _
    rw [collect, collect, operandValue_eq hchart, operandValue_eq houtput]
    rfl
  simp only [invoke, List.map_cons, List.map_nil, readCommand, hcollect]
  rfl

end Arguments

/-! ## The geometry of a file -/

theorem Logged.run_bind_pure {α β : Type} (x : Logged α) (f : α → β) (before : List Record) :
    (x >>= fun a => pure (f a)).run.run before =
      ((x.run.run before).1.map f, (x.run.run before).2) := by
  rw [run_bind]
  rcases x.run.run before with ⟨stop | a, between⟩ <;> rfl

/-- The work that checking a chart and drawing it share, where no width is asked for. -/
def layOutFile (source : Except FileStop ByteArray) : Logged (Geometry Float) := do
  layOut (← loadChart source) (estimateWidth defaultCharWidth)

theorem work_validate (source : Except FileStop ByteArray) (chart : String) :
    (Command.validate chart).work source =
      layOutFile source >>= fun g => pure ⟨g.summary, none⟩ := by
  rw [layOutFile, bind_assoc]
  rfl

theorem work_render (source : Except FileStop ByteArray) (chart output : String)
    (precision : Option Int) :
    (Command.render chart (some output) precision (some defaultCharWidth)).work source =
      layOutFile source >>= fun g => pure ⟨"", some (output, g.toSvgWith precision)⟩ := by
  rw [layOutFile, bind_assoc]
  rfl

theorem run_validate (verbose : Bool) (t : FileTree) (chart : String) :
    (Command.validate chart).run verbose t =
      match (layOutFile (t.read chart)).run.run [] with
      | (.error stop, records) => (t, ⟨.ofStop stop, verbose, records, ""⟩)
      | (.ok g, records) => (t, ⟨.done, verbose, records, g.summary⟩) := by
  rw [Command.run]
  simp only [Command.chart?, Option.map_some, Option.getD_some, work_validate, Logged.run_bind_pure]
  rcases (layOutFile (t.read chart)).run.run [] with ⟨stop | g, records⟩ <;> rfl

theorem run_render (verbose : Bool) (t : FileTree) (chart output : String)
    (precision : Option Int) :
    (Command.render chart (some output) precision (some defaultCharWidth)).run verbose t =
      match (layOutFile (t.read chart)).run.run [] with
      | (.error stop, records) => (t, ⟨.ofStop stop, verbose, records, ""⟩)
      | (.ok g, records) =>
        match t.save output (g.toSvgWith precision) with
        | (t, .ok ()) => (t, ⟨.done, verbose, records, ""⟩)
        | (t, .error stop) => (t, ⟨.ofStop (.ofFileStop stop), verbose, records, ""⟩) := by
  rw [Command.run]
  simp only [Command.chart?, Option.map_some, Option.getD_some, work_render, Logged.run_bind_pure]
  rcases (layOutFile (t.read chart)).run.run [] with ⟨stop | g, records⟩ <;> rfl

theorem yields_layOutFile_iff {source : Except FileStop ByteArray} {g : Geometry Float}
    {before : List Record} :
    (∃ after, (layOutFile source).Yields before g after) ↔
      ∃ c, Brings source c ∧ c.layout (estimateWidth defaultCharWidth) = .ok g := by
  simp only [layOutFile, yields_bind_iff]
  constructor
  · rintro ⟨_, c, _, hload, hlayout⟩
    exact ⟨c, yields_loadChart_iff.mp ⟨_, hload⟩, yields_layOut_iff.mp ⟨_, hlayout⟩⟩
  · rintro ⟨c, hbrings, hlayout⟩
    obtain ⟨between, hload⟩ := yields_loadChart_iff.mpr hbrings
    obtain ⟨after, hlayout⟩ := yields_layOut_iff.mpr hlayout
    exact ⟨after, c, between, hload, hlayout⟩

/-! ## Agreement -/

/-- Either both commands are stopped by the same, or the chart has a layout that one of them gives
an account of and the other one writes a drawing of. -/
theorem Session.run_cases (s : Session) {chart output : String}
    (hchart : chart.toList.head? ≠ some '-') (houtput : output.toList.head? ≠ some '-')
    (hwritable : s.tree.Writable output) :
    (∃ stop records,
      s.run ["validate", chart] = (s, ⟨.ofStop stop, s.verbose, records, ""⟩) ∧
      s.run ["render", chart, output] = (s, ⟨.ofStop stop, s.verbose, records, ""⟩)) ∨
    ∃ c g svg u records, Brings (s.tree.read chart) c ∧
      c.layout (estimateWidth defaultCharWidth) = .ok g ∧ g.toSvg 3 = .ok svg ∧
      s.tree.save output (.ok svg) = (u, .ok ()) ∧
      s.run ["validate", chart] = (s, ⟨.done, s.verbose, records, g.summary⟩) ∧
      s.run ["render", chart, output] = (⟨u, s.verbose⟩, ⟨.done, s.verbose, records, ""⟩) := by
  rw [Session.run, Session.run, Arguments.read_validate hchart,
    Arguments.read_render hchart houtput]
  simp only [run_validate, run_render, Bool.or_false]
  rcases hshared : (layOutFile (s.tree.read chart)).run.run [] with ⟨stop | g, records⟩
  · exact Or.inl ⟨stop, records, rfl, rfl⟩
  · obtain ⟨c, hbrings, hlayout⟩ := yields_layOutFile_iff.mp ⟨records, hshared⟩
    obtain ⟨text, hparse⟩ := hbrings.exists_parse
    have hpos : (0 : ℤ) ≤ 3 := by decide
    have hmax : (3 : ℤ) ≤ Fixed.maxPlaces := by decide
    obtain ⟨svg, hsvg⟩ := Chart.exists_toSvg hparse hlayout hpos hmax
    obtain ⟨u, hsave⟩ := hwritable.save svg
    have hdrawn : g.toSvgWith (some defaultPrecision) = .ok svg := hsvg
    refine Or.inr ⟨c, g, svg, u, records, hbrings, hlayout, hsvg, hsave, rfl, ?_⟩
    simp only [hdrawn, hsave]

/-- A chart that has a layout is found fit. -/
theorem Session.ending_validate (s : Session) {chart : String} {c : Chart} {g : Geometry Float}
    (hchart : chart.toList.head? ≠ some '-') (hbrings : Brings (s.tree.read chart) c)
    (hlayout : c.layout (estimateWidth defaultCharWidth) = .ok g) :
    (s.run ["validate", chart]).2.ending = .done := by
  obtain ⟨records, hshared⟩ : ∃ after, (layOutFile (s.tree.read chart)).Yields [] g after :=
    yields_layOutFile_iff.mpr ⟨c, hbrings, hlayout⟩
  rw [Yields] at hshared
  rw [Session.run, Arguments.read_validate hchart]
  simp only [run_validate, hshared]

theorem Geometry.summary_eq (g : Geometry Float) : ∃ above, g.summary = above ++
    ("rings: " ++ toString g.rings.length ++ "\n" ++ "scale factor: " ++
      decimals 4 g.scaleFactor ++ "\n") := by
  unfold summary
  simp only [← String.append_assoc]
  exact ⟨_, rfl⟩

/-- A chart is checked and drawn with the same outcome, and the drawing is that of the geometry
that the check gives an account of. -/
theorem Session.validate_agrees_with_render (s : Session) {chart output : String}
    (hchart : chart.toList.head? ≠ some '-') (houtput : output.toList.head? ≠ some '-')
    (hwritable : s.tree.Writable output) :
    let validated := s.run ["validate", chart]
    let rendered := s.run ["render", chart, output]
    validated.2.ending = rendered.2.ending ∧ validated.2.stderr = rendered.2.stderr ∧
      (∀ usage, validated.2.ending ≠ .usage usage) ∧ validated.1.tree = s.tree ∧
      (validated.2.ending ≠ .done → rendered.1.tree = s.tree) ∧
      (validated.2.ending = .done → ∃ bytes cs c g svg,
        s.tree.read chart = .ok bytes ∧ decodeUtf8 bytes.toList = .ok cs ∧
        Chart.parse (String.ofList (unifyLineEnds cs)) = .ok c ∧
        c.layout (estimateWidth defaultCharWidth) = .ok g ∧ g.toSvg 3 = .ok svg ∧
        Saved output svg.toUTF8 s.tree rendered.1.tree ∧
        ∃ above, validated.2.stdout = above ++ ("rings: " ++ toString g.rings.length ++ "\n" ++
          "scale factor: " ++ decimals 4 g.scaleFactor ++ "\n")) := by
  rcases s.run_cases hchart houtput hwritable with
    ⟨stop, records, hvalidated, hrendered⟩ |
    ⟨c, g, svg, u, records, ⟨bytes, text, hbytes, htext, hparse⟩, hlayout, hsvg, hsave,
      hvalidated, hrendered⟩
  · have hstop : (∀ usage, Ending.ofStop stop ≠ .usage usage) ∧ Ending.ofStop stop ≠ .done := by
      cases stop <;> exact ⟨fun _ => nofun, nofun⟩
    rw [hvalidated, hrendered]
    exact ⟨rfl, rfl, hstop.1, rfl, fun _ => rfl, fun h => absurd h hstop.2⟩
  · rw [hvalidated, hrendered]
    have hdone : ∀ usage, Ending.done ≠ .usage usage := fun _ => nofun
    dsimp only
    refine ⟨rfl, by simp only [Report.stderr], hdone, rfl, fun h => absurd rfl h, fun _ => ?_⟩
    rw [readText] at htext
    split at htext
    · rename_i cs hcs
      cases htext
      exact ⟨bytes, cs, c, g, svg, hbytes, hcs, hparse, hlayout, hsvg, saved_of_save hsave,
        g.summary_eq⟩
    · cases htext

/-- A file that is no chart is refused by both commands. With the sine and the cosine of a machine
that computes them, both get done with a file that is one, and its drawing takes the place of what
was in the output. -/
theorem validate_agrees_with_render_refused_or_done :
    ("o".toList.head? ≠ some '-' ∧ "p".toList.head? ≠ some '-' ∧
      lonelySession.tree.Writable "p" ∧
      (lonelySession.run ["validate", "o"]).2.ending =
        .refused "Chart error: Parsing error at ln. 1\n" ∧
      (lonelySession.run ["render", "o", "p"]).2.ending =
        .refused "Chart error: Parsing error at ln. 1\n" ∧
      (lonelySession.run ["render", "o", "p"]).1.tree = lonelySession.tree) ∧
    "c".toList.head? ≠ some '-' ∧ chartedSession.tree.Writable "o" ∧
      (Computes Float.sin Real.sin → Computes Float.cos Real.cos →
        (chartedSession.run ["validate", "c"]).2.ending = .done ∧
        (chartedSession.run ["render", "c", "o"]).2.ending = .done ∧
        ∃ g svg, (wideChart 100).layout (estimateWidth defaultCharWidth) = .ok g ∧
          g.toSvg 3 = .ok svg ∧ Saved "o" svg.toUTF8 chartedSession.tree
            (chartedSession.run ["render", "c", "o"]).1.tree) := by
  have hchart : "c".toList.head? ≠ some '-' := by decide
  have hoperand : "o".toList.head? ≠ some '-' := by decide
  have houtput : "p".toList.head? ≠ some '-' := by decide
  have hnew : lonelySession.tree.target "p" = .ok ["p"] := by decide +kernel
  have hthere : chartedSession.tree.target "o" = .ok ["o"] := by decide +kernel
  have hlonely : lonelySession.tree.Writable "p" :=
    writable_of_target (by decide +kernel) (checkPath_of_mem (by decide)) hnew
  have hcharted : chartedSession.tree.Writable "o" :=
    writable_of_target (by decide +kernel) (checkPath_of_mem (by decide)) hthere
  refine ⟨?_, hchart, hcharted, fun hsin hcos => ?_⟩
  · have hfile : lonelySession.tree.read "o" = .ok "old".toUTF8 := read_of_mem (by decide) rfl
    have hending : (lonelySession.run ["validate", "o"]).2.ending =
        .refused "Chart error: Parsing error at ln. 1\n" := by
      rw [Session.run, Arguments.read_validate hoperand]
      simp only [Command.run, Command.chart?, Option.map_some, Option.getD_some, hfile]
      decide +kernel
    obtain ⟨hsame, _, _, _, htree, _⟩ :=
      lonelySession.validate_agrees_with_render hoperand houtput hlonely
    exact ⟨hoperand, houtput, hlonely, hending, hsame ▸ hending, htree (by rw [hending]; simp)⟩
  · obtain ⟨g, hg⟩ := exists_layout_chartedSession hsin hcos
    have hending := chartedSession.ending_validate hchart brings_chartedSession hg
    obtain ⟨hsame, _, _, _, _, hdrawn⟩ :=
      chartedSession.validate_agrees_with_render hchart hoperand hcharted
    obtain ⟨bytes, cs, c, g, svg, hbytes, hcs, hparse, hlayout, hsvg, hsaved, _⟩ := hdrawn hending
    have hbrings : Brings (chartedSession.tree.read "c") c :=
      ⟨bytes, _, hbytes, by rw [readText, hcs], hparse⟩
    obtain rfl := hbrings.unique brings_chartedSession
    exact ⟨hending, hsame ▸ hending, g, svg, hlayout, hsvg, hsaved⟩

end RadarChart
