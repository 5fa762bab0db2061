import RadarChart.Proofs.Command.FileTree
import RadarChart.Proofs.Document.ProblemText

/-!
# What becomes of a path

A path that cannot be read or written is refused, with a message of one line
that quotes it. Only a NUL character is no reason to refuse it: a path or a
working directory with such a character is a fault.
-/

namespace RadarChart

open FileTree Text

/-! ## Messages -/

theorem oneLine_hexDigits (width n : Nat) : OneLine (hexDigits width n) := by
  have hdigit : ∀ m < 16, m.digitChar ≠ '\n' ∧ m.digitChar ≠ '\r' := by decide
  have hmem : ∀ c ∈ hexDigits width n, c ≠ '\n' ∧ c ≠ '\r' := by
    intro c hc
    obtain ⟨i, _, rfl⟩ := List.mem_map.mp hc
    exact hdigit _ (Nat.mod_lt _ (by decide))
  exact ⟨fun h => (hmem _ h).1 rfl, fun h => (hmem _ h).2 rfl⟩

theorem oneLine_quoteChar {quote : Char} (hquote : OneLine [quote]) (c : Char) :
    OneLine (quoteChar quote c) := by
  have hescape : ∀ (mark : List Char) (width : Nat), OneLine mark →
      OneLine (mark ++ hexDigits width c.toNat) := fun _ width h =>
    h.append (oneLine_hexDigits width _)
  unfold quoteChar
  split_ifs with hc hfeed hreturn
  · rcases hc with rfl | rfl
    · have hmark : OneLine ['\\'] := by decide
      exact hmark.append hquote
    · decide
  · decide
  · decide
  · decide
  · exact ⟨by simpa using Ne.symm hfeed, by simpa using Ne.symm hreturn⟩
  · exact hescape ['\\', 'x'] 2 (by decide)
  · exact hescape ['\\', 'u'] 4 (by decide)
  · exact hescape ['\\', 'U'] 8 (by decide)

theorem oneLine_quoted (s : String) : OneLine (quoted s).toList := by
  have hquote : OneLine [quoteFor s.toList] := by
    unfold quoteFor
    split <;> decide
  have hinner : OneLine (s.toList.flatMap (quoteChar (quoteFor s.toList))) := by
    constructor
    · intro hmem
      obtain ⟨c, _, hc⟩ := List.mem_flatMap.mp hmem
      exact (oneLine_quoteChar hquote c).1 hc
    · intro hmem
      obtain ⟨c, _, hc⟩ := List.mem_flatMap.mp hmem
      exact (oneLine_quoteChar hquote c).2 hc
  rw [quoted, String.toList_ofList]
  exact (hquote.append hinner).append hquote

theorem FileError.oneLine_message (e : FileError) : OneLine e.message.toList := by
  have hkind : OneLine e.kind.text.toList := by cases e.kind <;> decide
  exact oneLine_append (oneLine_append (oneLine_append (oneLine_append (oneLine_append (by decide)
    (oneLine_toString _)) (by decide)) hkind) (by decide)) (oneLine_quoted _)

/-! ## Faults -/

namespace FileTree

variable {t : FileTree} {path : String} {f : Fault}

theorem checkPath_eq_fault_iff :
    checkPath path = .error (.fault f) ↔ '\x00' ∈ path.toList ∧ f = .nulInPath := by
  unfold checkPath
  split
  · rename_i hnul
    simp_all [eq_comm]
  · rename_i hnul
    have hnul : '\x00' ∉ path.toList := by simpa using hnul
    split
    · simp [hnul]
    · split <;> simp [hnul]

theorem refusing_ne_fault {α : Type} {x : Except FileErrorKind α} :
    refusing path x ≠ .error (.fault f) := by
  cases x <;> simp [refusing]

/-- Only a NUL character keeps a path from being refused. -/
theorem read_eq_fault_iff :
    t.read path = .error (.fault f) ↔ '\x00' ∈ path.toList ∧ f = .nulInPath := by
  rw [read, bind_eq_error_iff, checkPath_eq_fault_iff, or_iff_left]
  rintro ⟨_, _, h⟩
  rcases bind_eq_error_iff.mp h with h | ⟨place, _, h⟩
  · exact refusing_ne_fault h
  · split at h <;> cases h

theorem makeDirectory_eq_fault {root : String} {p : Place}
    (h : t.makeDirectory root p = .error (.fault f)) :
    '\x00' ∈ (absolutePath root p).toList ∧ f = .nulInPath := by
  rw [makeDirectory] at h
  rcases bind_eq_error_iff.mp h with h | ⟨_, _, h⟩
  · exact checkPath_eq_fault_iff.mp h
  · split at h
    · cases h
    · cases h
    · split at h <;> cases h

theorem exists_mem_of_mem_intercalate {sep c : Char} {ls : List (List Char)}
    (h : c ∈ [sep].intercalate ls) (hne : c ≠ sep) : ∃ l ∈ ls, c ∈ l := by
  induction ls with
  | nil => cases h
  | cons l ls ih =>
      cases ls with
      | nil =>
          rw [List.intercalate_singleton] at h
          exact ⟨l, List.mem_cons_self, h⟩
      | cons m ls =>
          rw [List.intercalate_cons_cons, List.mem_append, List.mem_append, List.mem_singleton] at h
          rcases h with (h | h) | h
          · exact ⟨l, List.mem_cons_self, h⟩
          · exact absurd h hne
          · obtain ⟨k, hk, hck⟩ := ih h
            exact ⟨k, List.mem_cons_of_mem l hk, hck⟩

theorem exists_mem_of_mem_absolutePath {root : String} (hroot : root = "/" ∨ root = "//")
    {p : Place} (h : '\x00' ∈ (absolutePath root p).toList) : ∃ name ∈ p, '\x00' ∈ name.toList := by
  have hplain : '\x00' ∉ root.toList := by rcases hroot with rfl | rfl <;> decide
  rw [absolutePath, String.toList_append, List.mem_append, or_iff_right hplain,
    String.toList_intercalate] at h
  obtain ⟨l, hl, hnul⟩ := exists_mem_of_mem_intercalate h (by decide)
  obtain ⟨name, hname, rfl⟩ := List.mem_map.mp hl
  exact ⟨name, hname, hnul⟩

theorem ensureDirectory_eq_fault {root : String} (hroot : root = "/" ∨ root = "//")
    {names : List String} (h : (t.ensureDirectory root names).2 = .error (.fault f)) :
    f = .nulInPath ∧ ∃ name ∈ names, '\x00' ∈ name.toList := by
  induction names with
  | nil => cases h
  | cons name before ih =>
      have habove : ∀ u, (if (t.find? before.reverse).isSome then (t, .ok ())
          else t.ensureDirectory root before) = (u, .error (.fault f)) →
          f = .nulInPath ∧ ∃ name ∈ before, '\x00' ∈ name.toList := by
        intro u hu
        split at hu
        · cases hu
        · exact ih (by rw [hu])
      rw [ensureDirectory] at h
      generalize (if (t.find? before.reverse).isSome then (t, .ok ())
        else t.ensureDirectory root before) = made at habove h
      obtain ⟨u, stop | _⟩ := made
      · cases h
        obtain ⟨hfault, other, hother, hnul⟩ := habove u rfl
        exact ⟨hfault, other, List.mem_cons_of_mem name hother, hnul⟩
      · simp only at h
        split at h
        · cases h
        · rename_i stop hstop
          split at h
          · cases h
          · cases h
            obtain ⟨hnul, hfault⟩ := makeDirectory_eq_fault hstop
            obtain ⟨other, hother, hnul⟩ := exists_mem_of_mem_absolutePath hroot hnul
            exact ⟨hfault, other, List.mem_reverse.mp hother, hnul⟩

/-- The names of a path without its `.` and `..` are its own or those it starts from. -/
theorem mem_normalPlace {name : String} (h : name ∈ t.normalPlace path) :
    name ∈ t.workingDirectory ∨ name ∈ pathNames path := by
  refine List.foldlRecOn
    (motive := fun place : Place => name ∈ place →
      name ∈ t.workingDirectory ∨ name ∈ pathNames path)
    (pathNames path) _ ?_ ?_ h
  · rw [start]
    split
    · intro hnone
      cases hnone
    · exact Or.inl
  · intro place hplace piece hpiece hname
    split at hname
    · exact hplace hname
    · split at hname
      · exact hplace (List.dropLast_subset place hname)
      · rcases List.mem_append.mp hname with hname | hname
        · exact hplace hname
        · rw [List.mem_singleton.mp hname]
          exact Or.inr hpiece

theorem save_eq_fault {text : Except Fault String} {u : FileTree}
    (h : t.save path text = (u, .error (.fault f))) :
    f = .nulInPath ∧ ('\x00' ∈ path.toList ∨ ∃ name ∈ t.workingDirectory, '\x00' ∈ name.toList) ∨
      text = .error f := by
  have hdirectory := @ensureDirectory_eq_fault t f _ (rootText_cases path)
    (t.normalPlace path).dropLast.reverse
  rw [save] at h
  generalize t.ensureDirectory (rootText path) (t.normalPlace path).dropLast.reverse = made
    at h hdirectory
  obtain ⟨v, stop | _⟩ := made
  · cases h
    obtain ⟨hfault, name, hname, hnul⟩ := hdirectory rfl
    refine Or.inl ⟨hfault, ?_⟩
    rcases mem_normalPlace (List.dropLast_subset _ (List.mem_reverse.mp hname)) with hname | hname
    · exact Or.inr ⟨name, hname, hnul⟩
    · obtain ⟨piece, hpiece, rfl⟩ := List.mem_map.mp hname
      rw [String.toList_ofList] at hnul
      exact Or.inl (subset_of_mem_splitAt hpiece hnul)
  · simp only at h
    split at h
    · rename_i stop hstop
      cases h
      rcases bind_eq_error_iff.mp hstop with hstop | ⟨_, _, hstop⟩
      · obtain ⟨hnul, hfault⟩ := checkPath_eq_fault_iff.mp hstop
        exact Or.inl ⟨hfault, Or.inl hnul⟩
      · exact absurd hstop refusing_ne_fault
    · cases text with
      | ok text => cases h
      | error fault =>
          cases h
          exact Or.inr rfl

end FileTree

end RadarChart
