import Mathlib.Order.Bounds.Basic
import RadarChart.Proofs.Layout.Extrema
import RadarChart.Proofs.Number.Extended

/-!
# The box of a set of points

The sides of the box around finite points are the least and the greatest of
what their coordinates are read as. So the box depends on which points there
are and not on their order, and the box around the points of two lists joins
the boxes around each. Floats are only read alike: of two zeros with different
signs the box keeps the one that came first.
-/

namespace RadarChart

open Binary64

/-- The box with each side put through the function. -/
def Extrema.map {α β : Type} (f : α → β) (e : Extrema α) : Extrema β :=
  ⟨f e.left, f e.right, f e.top, f e.bottom⟩

/-- The smallest box that two boxes lie within. -/
def Extrema.join {β : Type} [LinearOrder β] (e e' : Extrema β) : Extrema β :=
  ⟨min e.left e'.left, max e.right e'.right, min e.top e'.top, max e.bottom e'.bottom⟩

namespace LinearReading

variable {α β : Type} [Ordered α] [LE α] [LinearOrder β] {R : LinearReading α β}
  {ps qs : List (Point α)} {e e' e'' : Extrema α}

/-- What the coordinates are read as. -/
def values (R : LinearReading α β) (xs : List α) : Set β :=
  R.value '' {x | x ∈ xs}

theorem values_append (xs ys : List α) : R.values (xs ++ ys) = R.values xs ∪ R.values ys := by
  rw [values, values, values, ← Set.image_union]
  congr 1
  ext x
  exact List.mem_append

theorem values_congr {xs ys : List α} (h : ∀ x, x ∈ ys ↔ x ∈ xs) : R.values ys = R.values xs :=
  congrArg (R.value '' ·) (Set.ext h)

theorem isLeast_values {xs : List α} {l : α} (hxs : ∀ x ∈ xs, R.IsNumber x) (hl : l ∈ xs)
    (hle : ∀ x ∈ xs, l ≤ x) : IsLeast (R.values xs) (R.value l) := by
  refine ⟨⟨l, hl, rfl⟩, ?_⟩
  rintro _ ⟨x, hx, rfl⟩
  exact (R.le_iff (hxs l hl) (hxs x hx)).mp (hle x hx)

theorem isGreatest_values {xs : List α} {g : α} (hxs : ∀ x ∈ xs, R.IsNumber x) (hg : g ∈ xs)
    (hle : ∀ x ∈ xs, x ≤ g) : IsGreatest (R.values xs) (R.value g) :=
  isLeast_values (R := R.dual) hxs hg hle

/-- The box, as it is read, has the least and the greatest of the coordinates as its sides. -/
structure Bounds (R : LinearReading α β) (e : Extrema α) (ps : List (Point α)) : Prop where
  left : IsLeast (R.values (ps.map (·.x))) (R.value e.left)
  right : IsGreatest (R.values (ps.map (·.x))) (R.value e.right)
  top : IsLeast (R.values (ps.map (·.y))) (R.value e.top)
  bottom : IsGreatest (R.values (ps.map (·.y))) (R.value e.bottom)

theorem bounds_of_isBoxOf (hps : ∀ p ∈ ps, R.IsFinitePoint p) (h : e.IsBoxOf ps) :
    R.Bounds e ps := by
  have hx : ∀ x ∈ ps.map (·.x), R.IsNumber x :=
    List.forall_mem_map.mpr fun p hp => (hps p hp).x.isNumber
  have hy : ∀ y ∈ ps.map (·.y), R.IsNumber y :=
    List.forall_mem_map.mpr fun p hp => (hps p hp).y.isNumber
  constructor
  · exact isLeast_values hx h.left_mem (List.forall_mem_map.mpr h.left_le)
  · exact isGreatest_values hx h.right_mem (List.forall_mem_map.mpr h.le_right)
  · exact isLeast_values hy h.top_mem (List.forall_mem_map.mpr h.top_le)
  · exact isGreatest_values hy h.bottom_mem (List.forall_mem_map.mpr h.le_bottom)

/-- Boxes around the same points are read alike. -/
theorem Bounds.map_eq (h : R.Bounds e ps) (h' : R.Bounds e' qs) (hsame : ∀ p, p ∈ qs ↔ p ∈ ps) :
    e'.map R.value = e.map R.value := by
  have hvalues : ∀ coordinate : Point α → α,
      R.values (qs.map coordinate) = R.values (ps.map coordinate) := by
    intro coordinate
    apply values_congr
    simp only [List.mem_map, hsame, implies_true]
  obtain ⟨hleft, hright, htop, hbottom⟩ := h'
  rw [hvalues] at hleft hright htop hbottom
  rw [Extrema.map, Extrema.map, hleft.unique h.left, hright.unique h.right, htop.unique h.top,
    hbottom.unique h.bottom]

theorem Bounds.map_append_eq (h : R.Bounds e ps) (h' : R.Bounds e' qs)
    (happend : R.Bounds e'' (ps ++ qs)) :
    e''.map R.value = (e.map R.value).join (e'.map R.value) := by
  obtain ⟨hleft, hright, htop, hbottom⟩ := happend
  rw [List.map_append, values_append] at hleft hright htop hbottom
  rw [Extrema.map, hleft.unique (h.left.union h'.left), hright.unique (h.right.union h'.right),
    htop.unique (h.top.union h'.top), hbottom.unique (h.bottom.union h'.bottom)]
  rfl

theorem exists_bounds (hps : ∀ p ∈ ps, R.IsFinitePoint p) (hne : ps ≠ []) :
    ∃ e, Extrema.ofPoints ps = .ok e ∧ e.IsBoxOf ps ∧ R.Bounds e ps := by
  obtain ⟨e, he⟩ := exists_ofPoints hne fun p hp => (hps p hp).x
  have hbox := isBoxOf_of_ofPoints he hps
  exact ⟨e, he, hbox, bounds_of_isBoxOf hps hbox⟩

/-- Around finite points there is no box if there are none, and otherwise the one that has them all
within and goes through one of them on each side. It is read alike whatever the order of the points
and however often each is given, and the box around the points of two lists joins their boxes. -/
theorem ofPoints_bounding (hps : ∀ p ∈ ps, R.IsFinitePoint p) :
    (Extrema.ofPoints ps = .error .noPoints ↔ ps = []) ∧
      (ps ≠ [] → ∃ e, Extrema.ofPoints ps = .ok e ∧ e.IsBoxOf ps) ∧
      (∀ qs, (∀ p, p ∈ qs ↔ p ∈ ps) → (Extrema.ofPoints qs).map (Extrema.map R.value) =
        (Extrema.ofPoints ps).map (Extrema.map R.value)) ∧
      ∀ qs, (∀ p ∈ qs, R.IsFinitePoint p) → ps ≠ [] → qs ≠ [] → ∃ e e' e'',
        Extrema.ofPoints ps = .ok e ∧ Extrema.ofPoints qs = .ok e' ∧
        Extrema.ofPoints (ps ++ qs) = .ok e'' ∧
        e''.map R.value = (e.map R.value).join (e'.map R.value) := by
  refine ⟨?_, ?_, ?_, ?_⟩
  · constructor
    · intro herror
      by_contra hne
      obtain ⟨e, he, _⟩ := exists_bounds hps hne
      rw [he] at herror
      cases herror
    · rintro rfl
      exact R.ofPoints_nil
  · intro hne
    obtain ⟨e, he, hbox, _⟩ := exists_bounds hps hne
    exact ⟨e, he, hbox⟩
  · intro qs hsame
    by_cases hne : ps = []
    · obtain rfl := hne
      have hnil : qs = [] := List.eq_nil_iff_forall_not_mem.mpr fun p hp =>
        List.not_mem_nil ((hsame p).mp hp)
      rw [hnil]
    · obtain ⟨p, hp⟩ := List.exists_mem_of_ne_nil ps hne
      have hqs : ∀ q ∈ qs, R.IsFinitePoint q := fun q hq => hps q ((hsame q).mp hq)
      obtain ⟨e, he, _, hbounds⟩ := exists_bounds hps hne
      obtain ⟨e', he', _, hbounds'⟩ := exists_bounds hqs (List.ne_nil_of_mem ((hsame p).mpr hp))
      rw [he, he']
      exact congrArg Except.ok (hbounds.map_eq hbounds' hsame)
  · intro qs hqs hne hne'
    obtain ⟨e, he, _, hbounds⟩ := exists_bounds hps hne
    obtain ⟨e', he', _, hbounds'⟩ := exists_bounds hqs hne'
    have hall : ∀ p ∈ ps ++ qs, R.IsFinitePoint p := List.forall_mem_append.mpr ⟨hps, hqs⟩
    have hne'' : ps ++ qs ≠ [] := List.append_ne_nil_of_left_ne_nil hne qs
    obtain ⟨e'', he'', _, hbounds''⟩ := exists_bounds hall hne''
    exact ⟨e, e', e'', he, he', he'', hbounds.map_append_eq hbounds' hbounds''⟩

end LinearReading

/-- Three points, of which two lie on the vertical axis, at zeros of different signs. -/
def axisPoints : List (Point Float) :=
  [⟨1.5, -2.0⟩, ⟨-0.0, 3.5⟩, ⟨0.0, 0.25⟩]

/-- The same points in another order, and one of them twice. -/
def shuffledAxisPoints : List (Point Float) :=
  [⟨0.0, 0.25⟩, ⟨1.5, -2.0⟩, ⟨-0.0, 3.5⟩, ⟨0.0, 0.25⟩]

/-- A box that reaches as far to the right, up and down as the three points. -/
def axisBox (left : Float) : Extrema Float :=
  ⟨left, 1.5, -2.0, 3.5⟩

/-- In another order the other zero comes first, which is read alike. A point farther out only moves
the sides that it lies beyond. -/
theorem ofPoints_bounding_axisPoints :
    (∀ p ∈ axisPoints, floatReading.IsFinitePoint p) ∧ axisPoints ≠ [] ∧
      Extrema.ofPoints axisPoints = .ok (axisBox (-0.0)) ∧ (axisBox (-0.0)).IsBoxOf axisPoints ∧
      (∀ p, p ∈ shuffledAxisPoints ↔ p ∈ axisPoints) ∧
      Extrema.ofPoints shuffledAxisPoints = .ok (axisBox 0.0) ∧ axisBox 0.0 ≠ axisBox (-0.0) ∧
      (axisBox 0.0).map floatReading.value = (axisBox (-0.0)).map floatReading.value ∧
      floatReading.IsFinitePoint ⟨-4.0, 1.0⟩ ∧
      Extrema.ofPoints (axisPoints ++ [⟨-4.0, 1.0⟩]) = .ok (axisBox (-4.0)) ∧
      (axisBox (-4.0)).map floatReading.value = ((axisBox (-0.0)).map floatReading.value).join
        ((⟨-4.0, -4.0, 1.0, 1.0⟩ : Extrema Float).map floatReading.value) := by
  have hcoordinates : ∀ p ∈ ⟨-4.0, 1.0⟩ :: axisPoints,
      p.x.isFinite = true ∧ p.y.isFinite = true := by
    decide +kernel
  have hall : ∀ p ∈ ⟨-4.0, 1.0⟩ :: axisPoints, floatReading.IsFinitePoint p := fun p hp =>
    ⟨isFinite_floatReading (hcoordinates p hp).1, isFinite_floatReading (hcoordinates p hp).2⟩
  obtain ⟨hfar, hfinite⟩ := List.forall_mem_cons.mp hall
  have hne : axisPoints ≠ [] := List.cons_ne_nil _ _
  have hsame : ∀ p, p ∈ shuffledAxisPoints ↔ p ∈ axisPoints := by
    intro p
    simp only [shuffledAxisPoints, axisPoints, List.mem_cons, List.not_mem_nil, or_false]
    tauto
  have hfound : Extrema.ofPoints axisPoints = .ok (axisBox (-0.0)) := by decide +kernel
  have hshuffled : Extrema.ofPoints shuffledAxisPoints = .ok (axisBox 0.0) := by decide +kernel
  have hbeyond : Extrema.ofPoints [⟨-4.0, 1.0⟩] = .ok (⟨-4.0, -4.0, 1.0, 1.0⟩ : Extrema Float) := by
    decide +kernel
  have hextended : Extrema.ofPoints (axisPoints ++ [⟨-4.0, 1.0⟩]) = .ok (axisBox (-4.0)) := by
    decide +kernel
  obtain ⟨_, hbox, hread, hjoin⟩ := LinearReading.ofPoints_bounding hfinite
  obtain ⟨e, he, hbox⟩ := hbox hne
  obtain rfl := Except.ok.inj (hfound.symm.trans he)
  have hread := hread shuffledAxisPoints hsame
  rw [hfound, hshuffled] at hread
  obtain ⟨_, _, _, h, h', h'', hjoin⟩ :=
    hjoin [⟨-4.0, 1.0⟩] (List.forall_mem_singleton.mpr hfar) hne (List.cons_ne_nil _ _)
  obtain rfl := Except.ok.inj (hfound.symm.trans h)
  obtain rfl := Except.ok.inj (hbeyond.symm.trans h')
  obtain rfl := Except.ok.inj (hextended.symm.trans h'')
  exact ⟨hfinite, hne, hfound, hbox, hsame, hshuffled, by decide +kernel, Except.ok.inj hread, hfar,
    hextended, hjoin⟩

end RadarChart
