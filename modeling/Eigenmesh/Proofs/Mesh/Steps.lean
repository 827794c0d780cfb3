import Mathlib.Algebra.BigOperators.Ring.Finset
import Eigenmesh.Proofs.Mesh.Boundary

/-!
The steps that cells take along the axes.

A cell takes one step along each axis, and on that cell the function that is one at a point of the
grid and zero at all others rises along the axis if the step leads to the point, falls if it leads
away from it, and does not change otherwise. A point within the cube is reached along each axis by
as many cells as there are orders of the axes, and left by as many.
-/

namespace Eigenmesh

namespace Grid

/-- Where a path takes its step along an axis. -/
def departure (g : Grid) (t : List ℕ × List ℕ) (axis : ℕ) : ℕ :=
  g.vertexNumber (advance t.1 (t.2.takeWhile (· != axis)))

/-- Where the step of a path along an axis leads. -/
def arrival (g : Grid) (t : List ℕ × List ℕ) (axis : ℕ) : ℕ :=
  g.vertexNumber (advance t.1 (t.2.takeWhile (· != axis) ++ [axis]))

/-- How much the function of a point changes in the step along an axis. -/
def slope {α : Type} [Zero α] [One α] [Sub α] (g : Grid) (t : List ℕ × List ℕ) (axis v : ℕ) : α :=
  (if g.arrival t axis = v then 1 else 0) - if g.departure t axis = v then 1 else 0

variable {g : Grid} {t : List ℕ × List ℕ} {axis v w : ℕ}

lemma takeWhile_ne {before after : List ℕ} (away : axis ∉ before) :
    (before ++ axis :: after).takeWhile (· != axis) = before := by
  rw [List.takeWhile_append_of_pos fun a ha => by simpa using ne_of_mem_of_not_mem ha away]
  simp

lemma takeWhile_concat_prefix {axes : List ℕ} (h : axis ∈ axes) :
    axes.takeWhile (· != axis) ++ [axis] <+: axes := by
  obtain ⟨before, after, rfl, away⟩ := List.eq_append_cons_of_mem h
  rw [takeWhile_ne away]
  exact ⟨after, (List.append_cons before axis after).symm⟩

section Slopes

variable {α : Type} [Scalar.Exact α]

lemma sum_slope_of_prefix (nodup : t.2.Nodup) {l : List ℕ} (hl : l <+: t.2) :
    (l.map fun axis => (g.slope t axis v : α)).sum =
      (if g.vertexNumber (advance t.1 l) = v then 1 else 0) -
        if g.vertexNumber t.1 = v then 1 else 0 := by
  induction l using List.reverseRecOn with
  | nil => exact (sub_self _).symm
  | append_singleton l axis ih =>
    obtain ⟨rest, axes⟩ := hl
    have before : t.2.takeWhile (· != axis) = l := by
      rw [← axes, List.append_assoc] at nodup ⊢
      exact takeWhile_ne fun h => (List.nodup_append.1 nodup).2.2 _ h _ (by simp) rfl
    rw [List.map_append, List.sum_append,
      ih ((List.prefix_append l [axis]).trans ⟨rest, axes⟩), List.map_singleton, List.sum_singleton,
      slope, arrival, departure, before]
    ring

namespace IsPath

variable (h : g.IsPath t)
include h

omit h in
lemma departure_mem_walk : advance t.1 (t.2.takeWhile (· != axis)) ∈ walk t.1 t.2 :=
  mem_walk.2 ⟨_, List.takeWhile_prefix _, rfl⟩

lemma arrival_mem_walk (haxis : axis < g.dim) :
    advance t.1 (t.2.takeWhile (· != axis) ++ [axis]) ∈ walk t.1 t.2 :=
  mem_walk.2 ⟨_, takeWhile_concat_prefix (h.mem_axes.2 haxis), rfl⟩

omit h in
lemma departure_mem : g.departure t axis ∈ g.cellAt t := List.mem_map_of_mem departure_mem_walk

lemma arrival_mem (haxis : axis < g.dim) : g.arrival t axis ∈ g.cellAt t :=
  List.mem_map_of_mem (h.arrival_mem_walk haxis)

lemma slope_eq_zero (haxis : axis < g.dim) (away : v ∉ g.cellAt t) :
    (g.slope t axis v : α) = 0 := by
  have arrival : g.arrival t axis ≠ v := fun eq => away (eq ▸ h.arrival_mem haxis)
  have departure : g.departure t axis ≠ v := fun eq => away (eq ▸ departure_mem)
  rw [slope, if_neg arrival, if_neg departure, sub_zero]

lemma sum_slope_cellAt (haxis : axis < g.dim) :
    ∑ v ∈ (g.cellAt t).toFinset, (g.slope t axis v : α) = 0 := by
  simp only [slope, Finset.sum_sub_distrib, Finset.sum_ite_eq, List.mem_toFinset,
    h.arrival_mem haxis, departure_mem, if_true, sub_self]

lemma sum_slope_mul_place {l : List ℕ} (hl : l <+: t.2) :
    ∑ axis ∈ Finset.range g.dim, g.boxes * (g.slope t axis v : α) *
        (g.points : Dense α).entry axis (g.vertexNumber (advance t.1 l)) =
      ∑ axis ∈ Finset.range g.dim, (g.slope t axis v : α) * t.1.getD axis 0 +
        ((if g.vertexNumber (advance t.1 l) = v then 1 else 0) -
          if g.vertexNumber t.1 = v then 1 else 0) := by
  have boxes : (g.boxes : α) ≠ 0 := Nat.cast_ne_zero.2 (Nat.ne_of_gt g.boxes_pos)
  have point : g.IsPoint (advance t.1 l) := h.isPoint_of_mem_walk (mem_walk.2 ⟨l, hl, rfl⟩)
  have nodup : l.Nodup := hl.sublist.nodup h.nodup_axes
  have taken : ∑ axis ∈ Finset.range g.dim, (g.slope t axis v : α) * l.count axis =
      (l.map fun axis => (g.slope t axis v : α)).sum := by
    have axes : l.toFinset ⊆ Finset.range g.dim := fun axis haxis =>
      Finset.mem_range.2 (h.mem_axes.1 (hl.subset (List.mem_toFinset.1 haxis)))
    rw [← List.sum_toFinset _ nodup, ← Finset.sum_subset axes fun axis _ away => ?_]
    · refine Finset.sum_congr rfl fun axis haxis => ?_
      rw [List.count_eq_one_of_mem nodup (List.mem_toFinset.1 haxis), Nat.cast_one, mul_one]
    · rw [List.count_eq_zero_of_not_mem (mt List.mem_toFinset.2 away), Nat.cast_zero, mul_zero]
  rw [← sum_slope_of_prefix h.nodup_axes hl, ← taken, ← Finset.sum_add_distrib]
  refine Finset.sum_congr rfl fun axis haxis => ?_
  rw [Finset.mem_range] at haxis
  rw [entry_points point haxis, getD_advance (h.length.symm ▸ haxis)]
  push_cast
  rw [mul_comm (g.boxes : α), mul_assoc, mul_div_cancel₀ _ boxes, mul_add]

lemma sum_slope_mul_edge {u u' : ℕ} (hu : u ∈ g.cellAt t) (hu' : u' ∈ g.cellAt t) :
    ∑ axis ∈ Finset.range g.dim, g.boxes * (g.slope t axis v : α) *
        ((g.points : Dense α).entry axis u - (g.points : Dense α).entry axis u') =
      (if u = v then 1 else 0) - if u' = v then 1 else 0 := by
  obtain ⟨p, hp, rfl⟩ := List.mem_map.1 hu
  obtain ⟨p', hp', rfl⟩ := List.mem_map.1 hu'
  obtain ⟨l, hl, rfl⟩ := mem_walk.1 hp
  obtain ⟨l', hl', rfl⟩ := mem_walk.1 hp'
  simp only [mul_sub, Finset.sum_sub_distrib]
  rw [h.sum_slope_mul_place hl, h.sum_slope_mul_place hl']
  ring

end IsPath

end Slopes

/-! ### How many cells take a step from a point or to it -/

/-- The point lies within the cube. -/
def IsInner (g : Grid) (v : ℕ) : Prop :=
  ∀ axis < g.dim, 0 < (g.vertexCoords v).getD axis 0 ∧ (g.vertexCoords v).getD axis 0 < g.boxes

lemma exists_back {p l : List ℕ} (nodup : l.Nodup) (h : ∀ a ∈ l, a < p.length ∧ p.getD a 0 ≠ 0) :
    ∃ back : List ℕ, back.length = p.length ∧ advance back l = p := by
  induction l with
  | nil => exact ⟨p, rfl, rfl⟩
  | cons a l ih =>
    obtain ⟨away, nodup⟩ := List.nodup_cons.1 nodup
    obtain ⟨ha, pos⟩ := h a List.mem_cons_self
    obtain ⟨next, length, rfl⟩ := ih nodup fun c hc => h c (List.mem_cons_of_mem a hc)
    rw [length_advance] at ha
    rw [getD_advance ha, List.count_eq_zero_of_not_mem away, Nat.add_zero] at pos
    obtain ⟨back, length', rfl⟩ := exists_advance_eq ha pos
    exact ⟨back, length'.trans length, rfl⟩

lemma countP_origins (hv : v < g.vertexCount) (inner : g.IsInner v) {axes l : List ℕ}
    (perm : axes.Perm (List.range g.dim)) (hl : l <+: axes) :
    g.origins.countP (fun b => g.vertexNumber (advance b l) = v) = 1 := by
  have place : g.IsPoint (g.vertexCoords v) := isPoint_vertexCoords
  have axes_lt : ∀ a ∈ l, a < g.dim := fun a ha => List.mem_range.1 (perm.subset (hl.subset ha))
  have nodup : l.Nodup := hl.sublist.nodup (perm.nodup_iff.2 List.nodup_range)
  obtain ⟨back, length, start⟩ := exists_back nodup fun a ha =>
    ⟨place.length.symm ▸ axes_lt a ha, (inner a (axes_lt a ha)).1.ne'⟩
  rw [place.length] at length
  have origin : back ∈ g.origins := mem_origins.2 ⟨length, fun i hi => by
    have below := (inner i hi).2
    rw [← start, getD_advance (length.symm ▸ hi)] at below
    exact Nat.lt_of_add_right_lt below⟩
  refine countP_of_one nodup_origins origin fun b hb => ?_
  obtain ⟨hlength, hlt⟩ := mem_origins.1 hb
  have point : g.IsPoint (advance b l) :=
    IsPath.isPoint_of_mem_walk (t := (b, axes)) ⟨hlength, hlt, perm⟩ (mem_walk.2 ⟨l, hl, rfl⟩)
  rw [decide_eq_true_eq]
  constructor
  · rintro rfl
    rw [point.coords_number] at start
    exact (advance_left_injective (length.trans hlength.symm) start).symm
  · rintro rfl
    rw [start, vertexNumber_vertexCoords hv]

lemma countP_paths (hv : v < g.vertexCount) (inner : g.IsInner v) {steps : List ℕ → List ℕ}
    (h : ∀ axes : List ℕ, axes.Perm (List.range g.dim) → steps axes <+: axes) :
    g.paths.countP (fun t => g.vertexNumber (advance t.1 (steps t.2)) = v) = g.dim.factorial := by
  have once (axes : List ℕ) (haxes : axes ∈ axisOrders g.dim (List.range g.dim)) :
      g.origins.countP (fun b => g.vertexNumber (advance b (steps axes)) = v) = 1 := by
    have perm := mem_axisOrders_range.1 haxes
    exact countP_origins hv inner perm (h axes perm)
  rw [paths, countP_product once, length_axisOrders List.length_range, mul_one]

lemma countP_departure (hv : v < g.vertexCount) (inner : g.IsInner v) :
    g.paths.countP (fun t => g.departure t axis = v) = g.dim.factorial :=
  countP_paths hv inner fun _ _ => List.takeWhile_prefix _

lemma countP_arrival (hv : v < g.vertexCount) (inner : g.IsInner v) (haxis : axis < g.dim) :
    g.paths.countP (fun t => g.arrival t axis = v) = g.dim.factorial :=
  countP_paths hv inner fun _ perm =>
    takeWhile_concat_prefix (perm.mem_iff.2 (List.mem_range.2 haxis))

end Grid

end Eigenmesh
