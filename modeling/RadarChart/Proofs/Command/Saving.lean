import RadarChart.Proofs.Command.FileTree
import RadarChart.Proofs.Command.Loading

/-!
# What is saved can be read

Whether something can be saved does not depend on the text. Where one can, the
text is in the file afterwards, the same path leads to it, and no other file
has changed.
-/

namespace RadarChart.FileTree

open Text

variable {t u v : FileTree} {path : String} {place : Place}

/-- A text can be saved at the path. -/
def Writable (t : FileTree) (path : String) : Prop :=
  ∃ text u, t.save path (.ok text) = (u, .ok ())

/-! ## Walking on -/

theorem walk_append (t : FileTree) (p : Place) (names names' : List String) :
    t.walk p (names ++ names') = t.walk p names >>= fun q => t.walk q names' := by
  fun_induction walk t p names with
  | case1 p => rfl
  | case2 p name names hp => rw [List.cons_append, walk, hp]; rfl
  | case3 p name names content hp => rw [List.cons_append, walk, hp]; rfl
  | case4 p name names hp hstay ih =>
      rw [List.cons_append, walk, hp]
      simp only [if_pos hstay, ih]
  | case5 p names hp hstay ih =>
      rw [List.cons_append, walk, hp]
      simp only [if_neg hstay, if_true, ih]
  | case6 p name names hp hstay hup hlong =>
      rw [List.cons_append, walk, hp]
      simp only [if_neg hstay, if_neg hup, if_pos hlong]
      rfl
  | case7 p name names hp hstay hup hlong ih =>
      rw [List.cons_append, walk, hp]
      simp only [if_neg hstay, if_neg hup, if_neg hlong, ih]

/-- The directories that a walk leads through are all that it depends on. -/
theorem walk_of_directories {names : List String} {p q : Place}
    (hsame : ∀ r, t.find? r = some .directory → u.find? r = some .directory)
    (h : t.walk p names = .ok q) : u.walk p names = .ok q := by
  fun_induction walk t p names with
  | case1 p => exact h
  | case2 | case3 | case6 => cases h
  | case4 p name names hp hstay ih =>
      rw [walk, hsame p hp]
      simp only [if_pos hstay, ih h]
  | case5 p names hp hstay ih =>
      rw [walk, hsame p hp]
      simp only [if_neg hstay, if_true, ih h]
  | case7 p name names hp hstay hup hlong ih =>
      rw [walk, hsame p hp]
      simp only [if_neg hstay, if_neg hup, if_neg hlong, ih h]

/-- The place of a file is found on its path, as long as the directories stay. -/
theorem walk_of_target (h : t.target path = .ok place)
    (hsame : ∀ r, t.find? r = some .directory → u.find? r = some .directory)
    (hstart : u.workingDirectory = t.workingDirectory) :
    u.walk (u.start path) (pathNames path) = .ok place := by
  obtain ⟨last, before, directory, hnames, hwalk, hdirectory, rfl, _, hhead, hdot, hdots, hshort⟩ :=
    target_cases h
  -- no empty name has been left out at the end
  obtain ⟨hend, hne⟩ : (pathNames path).reverse = last :: before ∧ last ≠ "" := by
    cases hreverse : (pathNames path).reverse with
    | nil =>
        rw [hreverse] at hnames
        cases hnames
    | cons name names =>
        rw [hreverse] at hnames hhead
        have hne : name ≠ "" := by simpa using hhead
        rw [List.dropWhile_cons, if_neg (by simpa using hne)] at hnames
        obtain ⟨rfl, rfl⟩ := List.cons.inj hnames
        exact ⟨rfl, hne⟩
  have hbefore : u.walk (u.start path) before.reverse = .ok directory := by
    rw [start, hstart]
    exact walk_of_directories hsame hwalk
  rw [← List.reverse_reverse (pathNames path), hend, List.reverse_cons, walk_append, hbefore]
  show u.walk directory [last] = _
  rw [walk, hsame directory hdirectory]
  simp only [if_neg (not_or.mpr ⟨hne, hdot⟩), if_neg hdots, if_neg (Nat.not_lt.mpr hshort), walk]

/-! ## Saving -/

theorem save_eq_ok_iff {text : Except Fault String} :
    t.save path text = (v, .ok ()) ↔ ∃ u place written,
      t.ensureDirectory (rootText path) (t.normalPlace path).dropLast.reverse = (u, .ok ()) ∧
      checkPath path = .ok () ∧ u.target path = .ok place ∧ text = .ok written ∧
      v = (u.put place (.file ByteArray.empty)).put place (.file written.toUTF8) := by
  rw [save]
  generalize t.ensureDirectory (rootText path) (t.normalPlace path).dropLast.reverse = made
  obtain ⟨u, stop | _⟩ := made
  · simp
  · have hopen : ∀ place, (checkPath path >>= fun _ => refusing path (u.target path)) = .ok place ↔
        checkPath path = .ok () ∧ u.target path = .ok place := by
      intro place
      simp only [bind_eq_ok_iff, refusing_eq_ok_iff]
      constructor
      · rintro ⟨_, hpath, htarget⟩
        exact ⟨hpath, htarget⟩
      · rintro ⟨hpath, htarget⟩
        exact ⟨(), hpath, htarget⟩
    constructor
    · intro h
      dsimp only at h
      split at h
      · cases h
      · rename_i place hplace
        obtain ⟨hpath, htarget⟩ := (hopen place).mp hplace
        cases text with
        | error fault => cases h
        | ok written =>
            cases h
            exact ⟨u, place, written, rfl, hpath, htarget, rfl, rfl⟩
    · rintro ⟨u', place, written, hmade, hpath, htarget, rfl, rfl⟩
      cases hmade
      dsimp only
      rw [(hopen place).mpr ⟨hpath, htarget⟩]

theorem Writable.save (h : t.Writable path) (text : String) :
    ∃ u, t.save path (.ok text) = (u, .ok ()) := by
  obtain ⟨_, _, h⟩ := h
  obtain ⟨u, place, _, hdirectory, hpath, htarget, _⟩ := save_eq_ok_iff.mp h
  exact ⟨_, save_eq_ok_iff.mpr ⟨u, place, text, hdirectory, hpath, htarget, rfl, rfl⟩⟩

/-- In the directory that a process works in, no directories have to be made. -/
theorem writable_of_target (hhere : (t.normalPlace path).dropLast = [])
    (hpath : checkPath path = .ok ()) (htarget : t.target path = .ok place) :
    t.Writable path := by
  refine ⟨"", _, save_eq_ok_iff.mpr ⟨t, place, "", ?_, hpath, htarget, rfl, rfl⟩⟩
  rw [hhere]
  rfl

/-- The bytes are in the file that the path leads to, and no other file has changed. -/
structure Saved (path : String) (bytes : ByteArray) (t u : FileTree) : Prop where
  read : u.read path = .ok bytes
  others : ∃ place, u.walk (u.start path) (pathNames path) = .ok place ∧
    ∀ p, p ≠ place → ∀ content, u.find? p = some (.file content) ↔ t.find? p = some (.file content)

theorem saved_of_save {text : String} (h : t.save path (.ok text) = (v, .ok ())) :
    Saved path text.toUTF8 t v := by
  obtain ⟨u, place, _, hmade, hpath, htarget, htext, rfl⟩ := save_eq_ok_iff.mp h
  obtain rfl := Except.ok.inj htext
  have hne := target_ne_nil htarget
  have hfile : ∀ (w : FileTree) (n : Node), w.find? place ≠ some .directory →
      ∀ r, w.find? r = some .directory → (w.put place n).find? r = some .directory := by
    intro w n hplace r hr
    rw [find?_put w hne, if_neg]
    · exact hr
    · rintro rfl
      exact hplace hr
  obtain ⟨_, _, _, _, _, _, _, hplace, _⟩ := target_cases htarget
  have hempty := hfile u (.file ByteArray.empty) hplace
  have hwritten := hfile (u.put place (.file ByteArray.empty)) (.file text.toUTF8)
    (by rw [find?_put u hne, if_pos rfl]; simp)
  have hwalk := walk_of_target htarget (fun r hr => hwritten r (hempty r hr)) rfl
  refine ⟨read_of_walk hpath hwalk ?_, place, hwalk, ?_⟩
  · rw [find?_put _ hne, if_pos rfl]
  · intro p hp content
    rw [find?_put _ hne, if_neg hp, find?_put _ hne, if_neg hp]
    have hspared := spared_ensureDirectory t path
    rw [hmade] at hspared
    exact hspared.files p content

end RadarChart.FileTree
