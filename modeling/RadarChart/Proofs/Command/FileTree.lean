import Mathlib.Data.List.Induction
import RadarChart.Command.FileTree
import RadarChart.Proofs.Document.Success
import RadarChart.Proofs.Text.Word

/-!
# What writing leaves alone

A file that is saved changes the tree at its own place, and otherwise only
directories are new: those on the way to the file, where there was nothing.
The same is left of a save that is refused before the file is opened. After
that point the file is empty until its text is there, so a text that cannot be
given leaves it empty.
-/

namespace RadarChart

open Text

namespace FileTree

/-! ## Looking up -/

theorem lookup_replace (p q : Place) (n : Node) (es : List (Place × Node)) :
    (es.map fun e => if e.1 == p then (p, n) else e).lookup q =
      if q = p then (es.lookup p).map fun _ => n else es.lookup q := by
  induction es with
  | nil => simp
  | cons e es ih =>
      obtain ⟨r, m⟩ := e
      rw [List.map_cons]
      by_cases hr : r = p
      · subst hr
        by_cases hq : q = r
        · simp [hq]
        · have hne : (q == r) = false := by simpa using hq
          simpa [List.lookup_cons, hne, hq] using ih
      · have hne : (p == r) = false := by simpa using Ne.symm hr
        simp only [beq_iff_eq, hr, if_false, List.lookup_cons, hne]
        by_cases hq : q = r
        · simp [hq, hr]
        · have hqr : (q == r) = false := by simpa using hq
          simpa [hqr] using ih

/-- What is put somewhere is there, and all else is where it was. -/
theorem find?_put (t : FileTree) {p : Place} (hp : p ≠ []) (n : Node) (q : Place) :
    (t.put p n).find? q = if q = p then some n else t.find? q := by
  by_cases hq : q = []
  · rw [hq, if_neg (Ne.symm hp)]
    rfl
  · rw [find?, find?, if_neg hq, if_neg hq, put]
    by_cases hany : t.nodes.any (·.1 == p) = true
    · simp only [if_pos hany, lookup_replace]
      obtain ⟨m, hm⟩ : ∃ m, t.nodes.lookup p = some m := by
        rw [← Option.isSome_iff_exists, Option.isSome_iff_ne_none, ne_eq, List.lookup_eq_none_iff]
        intro hnone
        obtain ⟨e, he, hep⟩ := List.any_eq_true.mp hany
        have hne := hnone e he
        rw [eq_of_beq hep, bne_self_eq_false] at hne
        cases hne
      rw [hm, Option.map_some]
    · have hnone : t.nodes.lookup p = none := by
        rw [List.lookup_eq_none_iff]
        intro e he
        have hne := List.any_eq_false.mp (Bool.eq_false_iff.mpr hany) e he
        exact bne_iff_ne.mpr fun heq => hne (beq_iff_eq.mpr heq.symm)
      simp only [if_neg hany, List.lookup_append]
      by_cases hqp : q = p
      · simp [hqp, hnone]
      · have hne : (q == p) = false := by simpa using hqp
        simp [List.lookup_cons, hne, hqp]

/-! ## New directories -/

/-- The second tree differs from the first by directories only, at places of the kind where nothing
was before. -/
def GainsDirectories (new : Place → Prop) (t u : FileTree) : Prop :=
  ∀ p, u.find? p = t.find? p ∨ (t.find? p = none ∧ u.find? p = some .directory ∧ new p)

/-- The two trees hold the same files. -/
def SameFiles (t u : FileTree) : Prop :=
  ∀ p content, u.find? p = some (.file content) ↔ t.find? p = some (.file content)

section
variable {new : Place → Prop} {t u v : FileTree}

theorem GainsDirectories.refl (t : FileTree) : GainsDirectories new t t :=
  fun _ => Or.inl rfl

theorem GainsDirectories.trans (h : GainsDirectories new t u) (h' : GainsDirectories new u v) :
    GainsDirectories new t v := by
  intro p
  rcases h' p with huv | ⟨hnone, hdirectory, hnew⟩
  · rw [huv]
    exact h p
  · refine Or.inr ⟨?_, hdirectory, hnew⟩
    rcases h p with htu | ⟨_, hsome, _⟩
    · rw [← htu, hnone]
    · rw [hnone] at hsome
      cases hsome

theorem GainsDirectories.sameFiles (h : GainsDirectories new t u) : SameFiles t u := by
  intro p content
  rcases h p with heq | ⟨hnone, hdirectory, _⟩
  · rw [heq]
  · simp [hnone, hdirectory]

theorem gainsDirectories_put {p : Place} (hp : p ≠ []) (hnone : t.find? p = none) (hnew : new p) :
    GainsDirectories new t (t.put p .directory) := by
  intro q
  rw [find?_put t hp]
  by_cases hq : q = p
  · subst hq
    exact Or.inr ⟨hnone, if_pos rfl, hnew⟩
  · exact Or.inl (if_neg hq)

end

/-! ## Places that names lead to -/

/-- A name that can stand in a directory. -/
def IsName (name : String) : Prop :=
  name ≠ "" ∧ name ≠ "." ∧ name ≠ ".." ∧ '/' ∉ name.toList

/-- A tree as there are trees: names are names, and what is somewhere is in a directory. -/
structure WellFormed (t : FileTree) : Prop where
  names : ∀ name ∈ t.workingDirectory, IsName name
  parents : ∀ p, t.find? p ≠ none → t.find? p.dropLast = some .directory

/-- Where nothing is, nothing is below. -/
theorem WellFormed.find?_eq_none {t : FileTree} (h : t.WellFormed) {p : Place}
    (hp : t.find? p = none) {q : Place} (hq : p <+: q) : t.find? q = none := by
  obtain ⟨names, rfl⟩ := hq
  induction names using List.reverseRecOn with
  | nil => rwa [List.append_nil]
  | append_singleton names name ih =>
      by_contra hsome
      have hparent := h.parents _ hsome
      rw [← List.append_assoc, List.dropLast_concat, ih] at hparent
      cases hparent

theorem walk_of_isName (t : FileTree) {names : List String} (hnames : ∀ name ∈ names, IsName name)
    {p q : Place} (h : t.walk p names = .ok q) : q = p ++ names := by
  induction names generalizing p with
  | nil =>
      cases h
      rw [List.append_nil]
  | cons name names ih =>
      obtain ⟨⟨hne, hdot, hdots, _⟩, hnames⟩ := List.forall_mem_cons.mp hnames
      rw [walk] at h
      split at h
      · cases h
      · cases h
      · rw [if_neg (not_or.mpr ⟨hne, hdot⟩), if_neg hdots] at h
        split at h
        · cases h
        · rw [ih hnames h, List.append_assoc, List.singleton_append]

/-- The file is to stand in a directory, and is no directory itself. Its name is the last one of
the path. -/
theorem target_cases {t : FileTree} {path : String} {place : Place}
    (h : t.target path = .ok place) : ∃ last before directory,
      (pathNames path).reverse.dropWhile (· == "") = last :: before ∧
      t.walk (t.start path) before.reverse = .ok directory ∧
      t.find? directory = some .directory ∧ place = directory ++ [last] ∧
      t.find? place ≠ some .directory ∧ (pathNames path).reverse.head? ≠ some "" ∧
      last ≠ "." ∧ last ≠ ".." ∧ last.utf8ByteSize ≤ nameLimit := by
  rw [target] at h
  split at h
  · cases h
  · rename_i last before hnames
    refine ⟨last, before, ?_⟩
    simp only [bind_eq_ok_iff] at h
    obtain ⟨directory, hwalk, h⟩ := h
    refine ⟨directory, hnames, hwalk, ?_⟩
    split at h
    · cases h
    · cases h
    · rename_i hdirectory
      split at h
      · cases h
      · rename_i hnamed
        simp only [not_or] at hnamed
        split at h
        · cases h
        · rename_i hshort
          split at h
          · cases h
          · rename_i hplace
            obtain rfl := pure_eq_ok_iff.mp h
            exact ⟨hdirectory, rfl, hplace, hnamed.1, hnamed.2.1, hnamed.2.2, Nat.not_lt.mp hshort⟩

theorem target_ne_nil {t : FileTree} {path : String} {place : Place}
    (h : t.target path = .ok place) : place ≠ [] := by
  obtain ⟨last, _, directory, _, _, _, rfl, _⟩ := target_cases h
  exact List.append_ne_nil_of_right_ne_nil directory (List.cons_ne_nil last [])

theorem pathNames_slash (path : String) : pathNames ("/" ++ path) = "" :: pathNames path := by
  rw [pathNames, pathNames, String.toList_append]
  show (splitAt '/' ('/' :: path.toList)).map String.ofList = _
  rw [splitAt, if_pos rfl, List.map_cons]

theorem pathNames_intercalate {names : List String} (hne : names ≠ [])
    (hnames : ∀ name ∈ names, IsName name) : pathNames (String.intercalate "/" names) = names := by
  have hpieces : ∀ cs ∈ names.map String.toList, '/' ∉ cs :=
    List.forall_mem_map.mpr fun name hname => (hnames name hname).2.2.2
  rw [pathNames, String.toList_intercalate]
  show (splitAt '/' (['/'].intercalate (names.map String.toList))).map String.ofList = names
  rw [splitAt_intercalate (by simpa using hne) hpieces]
  simp

/-- The names of a place written as a path, behind empty ones for the root. -/
theorem pathNames_absolutePath {root : String} (hroot : root = "/" ∨ root = "//") {p : Place}
    (hp : p ≠ []) (hnames : ∀ name ∈ p, IsName name) :
    ∃ k, pathNames (absolutePath root p) = List.replicate k "" ++ p := by
  have hinner := pathNames_intercalate hp hnames
  rcases hroot with rfl | rfl
  · refine ⟨1, ?_⟩
    rw [absolutePath, pathNames_slash, hinner]
    rfl
  · have hroots : absolutePath "//" p = "/" ++ ("/" ++ String.intercalate "/" p) := by
      rw [absolutePath, ← String.append_assoc]
      rfl
    refine ⟨2, ?_⟩
    rw [hroots, pathNames_slash, pathNames_slash, hinner]
    rfl

theorem rootText_cases (path : String) : rootText path = "/" ∨ rootText path = "//" := by
  rw [rootText]
  split
  · exact Or.inl rfl
  · exact Or.inr rfl
  · exact Or.inl rfl

theorem walk_replicate_empty (t : FileTree) (k : Nat) (names : List String) :
    t.walk [] (List.replicate k "" ++ names) = t.walk [] names := by
  induction k with
  | zero => rfl
  | succ k ih =>
      rw [List.replicate_succ, List.cons_append, walk]
      exact ih

/-- A directory is made at the place that it is asked for, if names are names. -/
theorem target_absolutePath {t : FileTree} {root : String} (hroot : root = "/" ∨ root = "//")
    {p : Place} (hp : p ≠ []) (hnames : ∀ name ∈ p, IsName name) {place : Place}
    (h : t.target (absolutePath root p) = .ok place) : place = p := by
  obtain ⟨k, hpath⟩ := pathNames_absolutePath hroot hp hnames
  obtain ⟨last, before, directory, hlast, hwalk, _, rfl, _⟩ := target_cases h
  obtain ⟨above, name, rfl⟩ := (List.eq_nil_or_concat' p).resolve_left hp
  obtain ⟨habove, hname⟩ := List.forall_mem_append.mp hnames
  have hne : (name == "") = false := by simpa using (hname name List.mem_cons_self).1
  rw [hpath, List.reverse_append, List.reverse_append, List.reverse_singleton,
    List.singleton_append, List.cons_append, List.dropWhile_cons, hne] at hlast
  obtain ⟨rfl, rfl⟩ := List.cons.inj hlast
  have hstart : t.start (absolutePath root (above ++ [name])) = [] := by
    rw [start, if_pos]
    rcases hroot with rfl | rfl <;> simp [isAbsolute, absolutePath]
  rw [hstart, List.reverse_append, List.reverse_reverse, List.reverse_reverse,
    walk_replicate_empty] at hwalk
  rw [walk_of_isName t habove hwalk, List.nil_append]

/-! ## Making directories -/

theorem makeDirectory_cases {t u : FileTree} {root : String} {p : Place}
    (h : t.makeDirectory root p = .ok u) : ∃ place,
      t.target (absolutePath root p) = .ok place ∧ t.find? place = none ∧
      u = t.put place .directory := by
  simp only [makeDirectory, bind_eq_ok_iff] at h
  obtain ⟨_, _, h⟩ := h
  split at h
  · cases h
  · cases h
  · rename_i place hplace
    split at h
    · cases h
    · rename_i hnone
      exact ⟨place, hplace, hnone, (pure_eq_ok_iff.mp h).symm⟩

/-- What is made for a directory to be there, is made on the way to it. -/
theorem gainsDirectories_ensureDirectory {new : Place → Prop} {root : String} {names : List String}
    (hmake : ∀ (t u : FileTree) (p : Place), p ≠ [] → p <+: names.reverse →
      t.makeDirectory root p = .ok u → GainsDirectories new t u) (t : FileTree) :
    GainsDirectories new t (t.ensureDirectory root names).1 := by
  induction names with
  | nil => exact .refl t
  | cons name before ih =>
      have habove : GainsDirectories new t (if (t.find? before.reverse).isSome then (t, .ok ())
          else t.ensureDirectory root before).1 := by
        split
        · exact .refl t
        · refine ih fun t u p hp hway => hmake t u p hp ?_
          rw [List.reverse_cons]
          exact hway.trans (List.prefix_append _ _)
      rw [ensureDirectory]
      generalize (if (t.find? before.reverse).isSome then (t, .ok ())
        else t.ensureDirectory root before) = made at habove ⊢
      obtain ⟨u, above⟩ := made
      cases above with
      | error stop => exact habove
      | ok _ =>
          simp only
          split
          · rename_i v hv
            refine habove.trans (hmake u v _ ?_ (List.prefix_refl _) hv)
            simp
          · split <;> exact habove

/-- Without its `.` and `..` a path consists of names. -/
theorem isName_of_mem_normalPlace {t : FileTree}
    (hnames : ∀ name ∈ t.workingDirectory, IsName name) (path : String) :
    ∀ name ∈ t.normalPlace path, IsName name := by
  refine List.foldlRecOn (motive := fun place : Place => ∀ name ∈ place, IsName name)
    (pathNames path) _ ?_ ?_
  · rw [start]
    split
    · simp
    · exact hnames
  · intro place hplace name hname
    obtain ⟨piece, hpiece, rfl⟩ := List.mem_map.mp hname
    split
    · exact hplace
    · rename_i hsome
      rw [not_or] at hsome
      split
      · exact fun name hname => hplace name (List.dropLast_subset place hname)
      · rename_i hdots
        refine List.forall_mem_append.mpr ⟨hplace, List.forall_mem_singleton.mpr ?_⟩
        refine ⟨hsome.1, hsome.2, hdots, ?_⟩
        rw [String.toList_ofList]
        exact not_mem_of_mem_splitAt hpiece

/-- On the way to a file only its directories are made, if names are names. -/
theorem gainsDirectories_normalPlace (t : FileTree) (path : String) :
    GainsDirectories (fun p => (∀ name ∈ t.workingDirectory, IsName name) →
        p <+: (t.normalPlace path).dropLast)
      t (t.ensureDirectory (rootText path) (t.normalPlace path).dropLast.reverse).1 := by
  refine gainsDirectories_ensureDirectory ?_ t
  intro u v p hp hway hmake
  rw [List.reverse_reverse] at hway
  obtain ⟨place, hplace, hnone, rfl⟩ := makeDirectory_cases hmake
  refine gainsDirectories_put (target_ne_nil hplace) hnone fun hnames => ?_
  have hproper : ∀ name ∈ p, IsName name := fun name hname =>
    isName_of_mem_normalPlace hnames path name (List.dropLast_subset _ (hway.subset hname))
  rwa [target_absolutePath (rootText_cases path) hp hproper hplace]

/-! ## Saving -/

/-- Nothing happened to the tree but that directories were made on the way to the file, with nothing
in them but one another. -/
structure Spared (output : Option String) (t u : FileTree) : Prop where
  files : SameFiles t u
  directories : ∀ p, u.find? p ≠ t.find? p → t.find? p = none ∧ u.find? p = some .directory
  parents : t.WellFormed → ∀ p, u.find? p ≠ t.find? p →
    (∃ path ∈ output, p <+: (t.normalPlace path).dropLast) ∧ ∀ q, p <+: q → t.find? q = none

theorem Spared.refl (output : Option String) (t : FileTree) : Spared output t t where
  files := fun _ _ => Iff.rfl
  directories := fun _ hne => absurd rfl hne
  parents := fun _ _ hne => absurd rfl hne

theorem spared_ensureDirectory (t : FileTree) (path : String) :
    Spared (some path) t
      (t.ensureDirectory (rootText path) (t.normalPlace path).dropLast.reverse).1 := by
  have hgains := gainsDirectories_normalPlace t path
  constructor
  · exact hgains.sameFiles
  · intro p hne
    obtain ⟨hnone, hdirectory, _⟩ := (hgains p).resolve_left hne
    exact ⟨hnone, hdirectory⟩
  · intro hwell p hne
    obtain ⟨hnone, _, hparent⟩ := (hgains p).resolve_left hne
    exact ⟨⟨path, rfl, hparent hwell.names⟩, fun q hq => hwell.find?_eq_none hnone hq⟩

theorem refusing_eq_ok_iff {α : Type} {path : String} {x : Except FileErrorKind α} {a : α} :
    refusing path x = .ok a ↔ x = .ok a := by
  cases x <;> simp [refusing]

/-- All is spared but the file that a path names: it is there, and it is empty. -/
def Emptied (path : String) (t v : FileTree) : Prop :=
  ∃ u place, Spared (some path) t u ∧ u.target path = .ok place ∧
    v = u.put place (.file ByteArray.empty)

/-- A save that fails leaves the files alone, or else it had no text to write. -/
theorem save_cases {t v : FileTree} {path : String} {text : Except Fault String} {stop : FileStop}
    (h : t.save path text = (v, .error stop)) :
    Spared (some path) t v ∨
      ∃ fault, text = .error fault ∧ stop = .fault fault ∧ Emptied path t v := by
  have hmade := spared_ensureDirectory t path
  rw [save] at h
  generalize t.ensureDirectory (rootText path) (t.normalPlace path).dropLast.reverse = made
    at h hmade
  obtain ⟨u, made⟩ := made
  cases made with
  | error stop =>
      cases h
      exact Or.inl hmade
  | ok _ =>
      simp only at h
      split at h
      · cases h
        exact Or.inl hmade
      · rename_i place hplace
        cases text with
        | ok text => cases h
        | error fault =>
            cases h
            simp only [bind_eq_ok_iff, refusing_eq_ok_iff] at hplace
            obtain ⟨_, _, hplace⟩ := hplace
            exact Or.inr ⟨fault, rfl, rfl, u, place, hmade, hplace, rfl⟩

end FileTree

end RadarChart
