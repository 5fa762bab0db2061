import Mathlib.Order.Lattice
import RadarChart.Layout.Extrema

/-!
# The box around points

Coordinates are compared as elements of a linear order, in which they may be
read: floats are no linear order, but those that are numbers are read in one.
Going through coordinates from a limit on keeps one of them than which none seen
so far is less. So each side of the box is a coordinate of some point, no point
lies outside, and there is a box around any points but none.
-/

namespace RadarChart

/-! ## Readings -/

/-- The numbers of an order, its limits among them, are compared as elements of a linear order.
Nothing is known of what is no number. -/
structure LinearReading (α β : Type) [Ordered α] [LE α] [LinearOrder β] where
  IsNumber : α → Prop
  value : α → β
  lt_iff {a b : α} : IsNumber a → IsNumber b → (Ordered.lt a b = true ↔ value a < value b)
  le_iff {a b : α} : IsNumber a → IsNumber b → (a ≤ b ↔ value a ≤ value b)
  highest {h : α} : Ordered.highest? = some h → IsNumber h
  lowest {l : α} : Ordered.lowest? = some l → IsNumber l

/-- Going through coordinates for the greatest in an order is doing so for the least in its dual. -/
instance {α : Type} [Ordered α] : Ordered αᵒᵈ where
  lt a b := Ordered.lt (OrderDual.ofDual b) (OrderDual.ofDual a)
  highest? := show Option α from Ordered.lowest?
  lowest? := show Option α from Ordered.highest?

namespace LinearReading

/-- An order that is linear itself, with the coordinates as they are. -/
def self {α : Type} [LinearOrder α] [Ordered α] (hlt : ∀ a b : α, Ordered.lt a b = true ↔ a < b) :
    LinearReading α α where
  IsNumber _ := True
  value a := a
  lt_iff _ _ := hlt _ _
  le_iff _ _ := Iff.rfl
  highest _ := trivial
  lowest _ := trivial

variable {α β : Type} [Ordered α] [LE α] [LinearOrder β] (R : LinearReading α β)

/-- A number between the limits. -/
structure IsFinite (a : α) : Prop where
  isNumber : R.IsNumber a
  lt_highest {h : α} : Ordered.highest? = some h → R.value a < R.value h
  lowest_lt {l : α} : Ordered.lowest? = some l → R.value l < R.value a

/-- A point with finite coordinates. -/
structure IsFinitePoint (p : Point α) : Prop where
  x : R.IsFinite p.x
  y : R.IsFinite p.y

def dual : LinearReading αᵒᵈ βᵒᵈ where
  IsNumber := R.IsNumber
  value := R.value
  lt_iff ha hb := R.lt_iff hb ha
  le_iff ha hb := R.le_iff hb ha
  highest h := R.lowest h
  lowest h := R.highest h

variable {R}

theorem IsFinite.dual {a : α} (ha : R.IsFinite a) : R.dual.IsFinite a where
  isNumber := ha.isNumber
  lt_highest h := ha.lowest_lt h
  lowest_lt h := ha.lt_highest h

/-! ## Going through coordinates -/

/-- Of numbers, one is found, and none is less. -/
theorem exists_least {m : α} {xs : List α} (hm : R.IsNumber m) (hxs : ∀ x ∈ xs, R.IsNumber x) :
    ∃ l ∈ m :: xs, leastFrom (some m) xs = some l ∧ ∀ x ∈ m :: xs, R.value l ≤ R.value x := by
  induction xs generalizing m with
  | nil => exact ⟨m, List.mem_singleton_self m, rfl, List.forall_mem_singleton.mpr le_rfl⟩
  | cons x xs ih =>
      obtain ⟨hx, hxs⟩ := List.forall_mem_cons.mp hxs
      have hstep : leastFrom (some m) (x :: xs) =
          leastFrom (if Ordered.lt x m then some x else some m) xs := rfl
      rw [hstep]
      by_cases hlt : Ordered.lt x m = true
      · obtain ⟨l, hl, hfound, hle⟩ := ih hx hxs
        have hlm := (hle x List.mem_cons_self).trans ((R.lt_iff hx hm).mp hlt).le
        rw [if_pos hlt]
        exact ⟨l, List.mem_cons_of_mem _ hl, hfound, List.forall_mem_cons.mpr ⟨hlm, hle⟩⟩
      · obtain ⟨l, hl, hfound, hle⟩ := ih hm hxs
        rw [List.forall_mem_cons] at hle
        have hlx := hle.1.trans (not_lt.mp (mt (R.lt_iff hx hm).mpr hlt))
        rw [if_neg hlt]
        refine ⟨l, ?_, hfound, ?_⟩
        · exact List.mem_cons.mpr ((List.mem_cons.mp hl).imp_right (List.mem_cons_of_mem _))
        · exact List.forall_mem_cons.mpr ⟨hle.1, List.forall_mem_cons.mpr ⟨hlx, hle.2⟩⟩

variable {xs : List α} (hne : xs ≠ []) (hxs : ∀ x ∈ xs, R.IsFinite x)

include hne hxs

/-- From the limit on, the least of finite coordinates is found. -/
theorem leastFrom_highest : ∃ l ∈ xs, leastFrom Ordered.highest? xs = some l ∧
    ∀ x ∈ xs, R.value l ≤ R.value x := by
  cases xs with
  | nil => exact absurd rfl hne
  | cons x xs =>
      obtain ⟨hx, hxs⟩ := List.forall_mem_cons.mp hxs
      -- the first coordinate takes the place of the limit
      have hfirst : leastFrom Ordered.highest? (x :: xs) = leastFrom (some x) xs := by
        cases h : Ordered.highest? (α := α) with
        | none => rfl
        | some limit =>
            show leastFrom (if Ordered.lt x limit then some x else some limit) xs = _
            rw [if_pos ((R.lt_iff hx.isNumber (R.highest h)).mpr (hx.lt_highest h))]
      rw [hfirst]
      exact exists_least hx.isNumber fun y hy => (hxs y hy).isNumber

theorem least_of_leastFrom {l : α} (h : leastFrom Ordered.highest? xs = some l) :
    l ∈ xs ∧ ∀ x ∈ xs, l ≤ x := by
  obtain ⟨l', hmem, hfound, hle⟩ := leastFrom_highest hne hxs
  obtain rfl := Option.some.inj (h.symm.trans hfound)
  exact ⟨hmem, fun x hx => (R.le_iff (hxs _ hmem).isNumber (hxs x hx).isNumber).mpr (hle x hx)⟩

theorem greatest_of_greatestFrom {g : α} (h : greatestFrom Ordered.lowest? xs = some g) :
    g ∈ xs ∧ ∀ x ∈ xs, x ≤ g :=
  least_of_leastFrom (R := R.dual) hne (fun x hx => (hxs x hx).dual) h

end LinearReading

/-- From a coordinate on, something is found. -/
theorem exists_leastFrom {α : Type} [Ordered α] (m : α) (xs : List α) :
    ∃ l, leastFrom (some m) xs = some l := by
  induction xs generalizing m with
  | nil => exact ⟨m, rfl⟩
  | cons x xs ih =>
      show ∃ l, leastFrom (if Ordered.lt x m then some x else some m) xs = some l
      split <;> exact ih _

/-- Among coordinates something is found, whatever they are. -/
theorem exists_leastFrom_of_ne_nil {α : Type} [Ordered α] {xs : List α} (hne : xs ≠ [])
    (limit : Option α) : ∃ l, leastFrom limit xs = some l := by
  cases limit with
  | some m => exact exists_leastFrom m xs
  | none =>
      cases xs with
      | nil => exact absurd rfl hne
      | cons x xs => exact exists_leastFrom x xs

theorem exists_greatestFrom_of_ne_nil {α : Type} [Ordered α] {xs : List α} (hne : xs ≠ [])
    (limit : Option α) : ∃ g, greatestFrom limit xs = some g :=
  exists_leastFrom_of_ne_nil (α := αᵒᵈ) hne limit

/-! ## Boxes -/

theorem Extrema.ofPoints_eq_ok_iff {α : Type} [Ordered α] {ps : List (Point α)} {e : Extrema α} :
    Extrema.ofPoints ps = .ok e ↔
      leastFrom Ordered.highest? (ps.map (·.x)) = some e.left ∧
      greatestFrom Ordered.lowest? (ps.map (·.x)) = some e.right ∧
      leastFrom Ordered.highest? (ps.map (·.y)) = some e.top ∧
      greatestFrom Ordered.lowest? (ps.map (·.y)) = some e.bottom ∧ isFound e.left = true := by
  obtain ⟨left, right, top, bottom⟩ := e
  simp only [Extrema.ofPoints]
  constructor
  · intro h
    split at h
    · rename_i hleft hright htop hbottom
      split at h
      · rename_i hfound
        cases h
        exact ⟨hleft, hright, htop, hbottom, hfound⟩
      · cases h
    · cases h
  · rintro ⟨hleft, hright, htop, hbottom, hfound⟩
    simp only [hleft, hright, htop, hbottom]
    rw [if_pos hfound]

/-- There is nothing else that a box can fail for. -/
theorem Extrema.ofPoints_eq_error {α : Type} [Ordered α] {ps : List (Point α)} {fault : Fault}
    (h : Extrema.ofPoints ps = .error fault) : fault = .noPoints := by
  simp only [Extrema.ofPoints] at h
  split at h
  · split at h
    · cases h
    · cases h
      rfl
  · cases h
    rfl

/-- The box is as small as it can be: each side goes through a point. -/
structure Extrema.IsBoxOf {α : Type} [LE α] (e : Extrema α) (ps : List (Point α)) : Prop where
  left_mem : e.left ∈ ps.map (·.x)
  right_mem : e.right ∈ ps.map (·.x)
  top_mem : e.top ∈ ps.map (·.y)
  bottom_mem : e.bottom ∈ ps.map (·.y)
  left_le : ∀ p ∈ ps, e.left ≤ p.x
  le_right : ∀ p ∈ ps, p.x ≤ e.right
  top_le : ∀ p ∈ ps, e.top ≤ p.y
  le_bottom : ∀ p ∈ ps, p.y ≤ e.bottom

namespace LinearReading

variable {α β : Type} [Ordered α] [LE α] [LinearOrder β] {R : LinearReading α β}
  {ps : List (Point α)}

theorem IsFinite.isFound {a : α} (ha : R.IsFinite a) : isFound a = true := by
  unfold RadarChart.isFound
  split
  · rfl
  · rename_i limit h
    exact (R.lt_iff ha.isNumber (R.highest h)).mpr (ha.lt_highest h)

/-- There is a box around points that are finite sideways. -/
theorem exists_ofPoints (hne : ps ≠ []) (hx : ∀ p ∈ ps, R.IsFinite p.x) :
    ∃ e, Extrema.ofPoints ps = .ok e := by
  have hxs : ps.map (·.x) ≠ [] := by simpa using hne
  have hys : ps.map (·.y) ≠ [] := by simpa using hne
  have hfinite : ∀ x ∈ ps.map (·.x), R.IsFinite x := List.forall_mem_map.mpr hx
  obtain ⟨left, hmem, hleft, _⟩ := leastFrom_highest hxs hfinite
  obtain ⟨right, hright⟩ := exists_greatestFrom_of_ne_nil hxs Ordered.lowest?
  obtain ⟨top, htop⟩ := exists_leastFrom_of_ne_nil hys Ordered.highest?
  obtain ⟨bottom, hbottom⟩ := exists_greatestFrom_of_ne_nil hys Ordered.lowest?
  exact ⟨⟨left, right, top, bottom⟩, Extrema.ofPoints_eq_ok_iff.mpr
    ⟨hleft, hright, htop, hbottom, (hfinite left hmem).isFound⟩⟩

/-- The limits are found around no points, and they are told from coordinates. -/
theorem ofPoints_nil (R : LinearReading α β) :
    Extrema.ofPoints ([] : List (Point α)) = .error .noPoints := by
  cases h : Extrema.ofPoints ([] : List (Point α)) with
  | error fault => rw [Extrema.ofPoints_eq_error h]
  | ok e =>
      obtain ⟨hleft, _, _, _, hfound⟩ := Extrema.ofPoints_eq_ok_iff.mp h
      have hlimit : Ordered.highest? = some e.left := hleft
      unfold RadarChart.isFound at hfound
      simp only [hlimit] at hfound
      have hnumber := R.highest hlimit
      exact absurd ((R.lt_iff hnumber hnumber).mp hfound) (lt_irrefl _)

/-- What is found is the box around the points. -/
theorem isBoxOf_of_ofPoints {e : Extrema α} (h : Extrema.ofPoints ps = .ok e)
    (hps : ∀ p ∈ ps, R.IsFinitePoint p) : e.IsBoxOf ps := by
  have hne : ps ≠ [] := by
    rintro rfl
    rw [R.ofPoints_nil] at h
    cases h
  have hxs : ∀ x ∈ ps.map (·.x), R.IsFinite x := List.forall_mem_map.mpr fun p hp => (hps p hp).x
  have hys : ∀ y ∈ ps.map (·.y), R.IsFinite y := List.forall_mem_map.mpr fun p hp => (hps p hp).y
  obtain ⟨hleft, hright, htop, hbottom, _⟩ := Extrema.ofPoints_eq_ok_iff.mp h
  obtain ⟨hleft, hleftLe⟩ := least_of_leastFrom (by simpa using hne) hxs hleft
  obtain ⟨hright, hrightLe⟩ := greatest_of_greatestFrom (by simpa using hne) hxs hright
  obtain ⟨htop, htopLe⟩ := least_of_leastFrom (by simpa using hne) hys htop
  obtain ⟨hbottom, hbottomLe⟩ := greatest_of_greatestFrom (by simpa using hne) hys hbottom
  rw [List.forall_mem_map] at hleftLe hrightLe htopLe hbottomLe
  exact ⟨hleft, hright, htop, hbottom, hleftLe, hrightLe, htopLe, hbottomLe⟩

/-- In a linear order without limits, all coordinates are finite. -/
theorem isFinite_self {α : Type} [LinearOrder α] [Ordered α]
    (hlt : ∀ a b : α, Ordered.lt a b = true ↔ a < b)
    (hhighest : Ordered.highest? (α := α) = none) (hlowest : Ordered.lowest? (α := α) = none)
    (a : α) : (self hlt).IsFinite a where
  isNumber := trivial
  lt_highest h := by simp [hhighest] at h
  lowest_lt h := by simp [hlowest] at h

end LinearReading

/-- Without limits, what is found is the box around the points. -/
theorem Extrema.isBoxOf_of_ofPoints {α : Type} [LinearOrder α] [Ordered α]
    (hlt : ∀ a b : α, Ordered.lt a b = true ↔ a < b)
    (hhighest : Ordered.highest? (α := α) = none) (hlowest : Ordered.lowest? (α := α) = none)
    {ps : List (Point α)} {e : Extrema α} (h : Extrema.ofPoints ps = .ok e) : e.IsBoxOf ps :=
  LinearReading.isBoxOf_of_ofPoints h fun _ _ =>
    ⟨LinearReading.isFinite_self hlt hhighest hlowest _,
      LinearReading.isFinite_self hlt hhighest hlowest _⟩

/-- Without limits, there is a box around any points but none. -/
theorem Extrema.exists_ofPoints {α : Type} [LinearOrder α] [Ordered α]
    (hlt : ∀ a b : α, Ordered.lt a b = true ↔ a < b)
    (hhighest : Ordered.highest? (α := α) = none) (hlowest : Ordered.lowest? (α := α) = none)
    {ps : List (Point α)} (hps : ps ≠ []) : ∃ e, Extrema.ofPoints ps = .ok e :=
  LinearReading.exists_ofPoints hps fun _ _ =>
    LinearReading.isFinite_self hlt hhighest hlowest _

end RadarChart
