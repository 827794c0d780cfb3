import Mathlib.Algebra.BigOperators.Ring.List
import Mathlib.Algebra.Order.Field.Basic
import Mathlib.Tactic.Linarith
import Mathlib.Tactic.Ring
import Eigenmesh.Proofs.Mesh.Paths

/-!
Weights of the points of a walk.

How far a place is from the start of a walk along each axis tells its weights: the first point has
what the first axis leaves of the whole, the next one what the second axis leaves of the first, and
so on. No other weights give that place, and none is negative if the axes are taken by decreasing
distance. Then the points of positive weight are found by rounding the coordinates of the place at
some threshold, which does not depend on the walk.
-/

namespace Eigenmesh.Grid

/-- The weights of the points of a walk along the axes, all of them together being `top`, for a
place at the distance `y a` along each axis `a`. -/
def weights {M : Type} [Sub M] (y : ℕ → M) (top : M) : List ℕ → List M
  | [] => [top]
  | a :: axes => (top - y a) :: weights y (y a) axes

variable {cart axes : List ℕ} {a i : ℕ}

section Sums

variable {M : Type} [AddCommGroup M] {y z : ℕ → M} {top : M}

lemma weights_congr (h : ∀ a ∈ axes, y a = z a) : weights y top axes = weights z top axes := by
  induction axes generalizing top with
  | nil => rfl
  | cons a axes ih =>
    rw [weights, weights, h a List.mem_cons_self, ih fun b hb => h b (List.mem_cons_of_mem a hb)]

@[simp] lemma length_weights : (weights y top axes).length = axes.length + 1 := by
  induction axes generalizing top with
  | nil => rfl
  | cons a axes ih => rw [weights, List.length_cons, ih, List.length_cons]

@[simp] lemma sum_weights : (weights y top axes).sum = top := by
  induction axes generalizing top with
  | nil => simp [weights]
  | cons a axes ih => rw [weights, List.sum_cons, ih, sub_add_cancel]

end Sums

variable {α : Type} [Field α] {y : ℕ → α} {top : α} {f : List ℕ → α}

lemma sum_weights_mul (h : (walk cart axes).map f = weights y top axes) (hi : i < cart.length) :
    ((walk cart axes).map fun p => f p * (p.getD i 0 : α)).sum =
      top * cart.getD i 0 + axes.count i * y i := by
  induction axes generalizing cart top with
  | nil =>
    obtain rfl : f cart = top := (List.cons.inj h).1
    simp [walk]
  | cons a axes ih =>
    rw [walk_cons, List.map_cons, weights] at h
    obtain ⟨first, rest⟩ := List.cons.inj h
    have step : (advance cart [a]).getD i 0 = cart.getD i 0 + [a].count i := getD_advance hi
    rw [walk_cons, List.map_cons, List.sum_cons, first, ih rest (by simpa), step,
      List.count_singleton, List.count_cons]
    by_cases hai : a = i
    · subst hai
      simp
      ring
    · simp [hai]
      ring

lemma getD_of_mem_walk {p : List ℕ} (hp : p ∈ walk cart axes) (hi : i < cart.length)
    (away : i ∉ axes) : p.getD i 0 = cart.getD i 0 := by
  obtain ⟨l, hl, rfl⟩ := mem_walk.1 hp
  rw [getD_advance hi, List.count_eq_zero_of_not_mem fun h => away (hl.subset h), Nat.add_zero]

/-- What the points of a walk weigh together beyond the start, along an axis. -/
def lead (f : List ℕ → α) (cart axes : List ℕ) (i : ℕ) : α :=
  ((walk cart axes).map fun p => f p * (p.getD i 0 : α)).sum -
    ((walk cart axes).map f).sum * cart.getD i 0

lemma lead_of_notMem (hi : i < cart.length) (away : i ∉ axes) : lead f cart axes i = 0 := by
  have same : (walk cart axes).map (fun p => f p * (p.getD i 0 : α)) =
      (walk cart axes).map fun p => f p * (cart.getD i 0 : α) :=
    List.map_congr_left fun p hp => by rw [getD_of_mem_walk hp hi away]
  rw [lead, same, List.sum_map_mul_right, sub_self]

lemma map_eq_weights (nodup : axes.Nodup) (h : ∀ a ∈ axes, a < cart.length) :
    (walk cart axes).map f = weights (lead f cart axes) ((walk cart axes).map f).sum axes := by
  induction axes generalizing cart with
  | nil => simp [walk, weights]
  | cons a axes ih =>
    obtain ⟨away, nodup⟩ := List.nodup_cons.1 nodup
    have later : ∀ b ∈ axes, b < (advance cart [a]).length := fun b hb => by
      rw [length_advance]
      exact h b (List.mem_cons_of_mem a hb)
    have ha := h a List.mem_cons_self
    -- the first point adds nothing, and the others start one step along the first axis
    have shift {i : ℕ} (hi : i < cart.length) : lead f cart (a :: axes) i =
        lead f (advance cart [a]) axes i +
          [a].count i * ((walk (advance cart [a]) axes).map f).sum := by
      rw [lead, lead, walk_cons, List.map_cons, List.map_cons, List.sum_cons, List.sum_cons,
        getD_advance hi]
      push_cast
      ring
    have atFirst : lead f cart (a :: axes) a = ((walk (advance cart [a]) axes).map f).sum := by
      rw [shift ha, lead_of_notMem (by simpa) away, List.count_singleton_self]
      simp
    rw [weights, atFirst, walk_cons, List.map_cons, List.sum_cons, add_sub_cancel_right,
      weights_congr fun b hb => ?_, ← ih nodup later]
    have hab : a ≠ b := fun eq => away (eq ▸ hb)
    rw [shift (h b (List.mem_cons_of_mem a hb)), List.count_singleton]
    simp [hab]

section Order

variable [LinearOrder α] [IsStrictOrderedRing α]

lemma bounds_of_nonneg (h : ∀ w ∈ weights y top axes, 0 ≤ w) :
    0 ≤ top ∧ ∀ a ∈ axes, 0 ≤ y a ∧ y a ≤ top := by
  induction axes generalizing top with
  | nil => exact ⟨h top (List.mem_singleton_self top), fun a ha => nomatch ha⟩
  | cons a axes ih =>
    obtain ⟨first, rest⟩ := List.forall_mem_cons.1 h
    obtain ⟨pos, below⟩ := ih rest
    refine ⟨pos.trans (sub_nonneg.1 first), List.forall_mem_cons.2 ⟨⟨pos, sub_nonneg.1 first⟩, ?_⟩⟩
    exact fun b hb => ⟨(below b hb).1, (below b hb).2.trans (sub_nonneg.1 first)⟩

lemma weights_nonneg (sorted : axes.Pairwise fun a b => y b ≤ y a) (pos : 0 ≤ top)
    (h : ∀ a ∈ axes, 0 ≤ y a ∧ y a ≤ top) : ∀ w ∈ weights y top axes, 0 ≤ w := by
  induction axes generalizing top with
  | nil => exact fun w hw => List.mem_singleton.1 hw ▸ pos
  | cons a axes ih =>
    obtain ⟨first, sorted⟩ := List.pairwise_cons.1 sorted
    obtain ⟨⟨low, high⟩, rest⟩ := List.forall_mem_cons.1 h
    exact List.forall_mem_cons.2
      ⟨sub_nonneg.2 high, ih sorted low fun b hb => ⟨(rest b hb).1, first b hb⟩⟩

/-! ### Rounding at a threshold -/

/-- The point is the place `z` rounded along the axes up to `dim`, up from the threshold `τ` on. -/
def Rounds (dim : ℕ) (τ : α) (z : ℕ → α) (p : List ℕ) : Prop :=
  ∀ i < dim, (p.getD i 0 : α) + τ ≤ z i + 1 ∧ z i < p.getD i 0 + τ

lemma Rounds.eq {dim : ℕ} {τ : α} {z : ℕ → α} {p q : List ℕ} (hp : Rounds dim τ z p)
    (hq : Rounds dim τ z q) (length : p.length = dim) (length' : q.length = dim) : p = q := by
  have le {p q : List ℕ} (hp : Rounds dim τ z p) (hq : Rounds dim τ z q) (i : ℕ) (hi : i < dim) :
      p.getD i 0 ≤ q.getD i 0 := by
    have below : (p.getD i 0 : α) < q.getD i 0 + 1 := by linarith [(hp i hi).1, (hq i hi).2]
    exact Nat.lt_succ_iff.1 (by exact_mod_cast below)
  exact eq_of_getD (length.trans length'.symm) fun i hi =>
    le_antisymm (le hp hq i (length ▸ hi)) (le hq hp i (length ▸ hi))

lemma exists_threshold (nonneg : ∀ w ∈ weights y top axes, 0 ≤ w)
    (h : (walk cart axes).map f = weights y top axes) {p : List ℕ} (hp : p ∈ walk cart axes)
    (pos : 0 < f p) : ∃ τ, 0 < τ ∧ τ ≤ top ∧ ∃ before after, axes = before ++ after ∧
      p = advance cart before ∧ (∀ a ∈ before, τ ≤ y a) ∧ ∀ a ∈ after, y a < τ := by
  induction axes generalizing cart top with
  | nil =>
    obtain rfl := List.mem_singleton.1 hp
    obtain rfl : f p = top := (List.cons.inj h).1
    exact ⟨f p, pos, le_rfl, [], [], rfl, rfl, List.forall_mem_nil _, List.forall_mem_nil _⟩
  | cons a axes ih =>
    obtain ⟨positive, bounds⟩ := bounds_of_nonneg nonneg
    obtain ⟨-, nonneg⟩ := List.forall_mem_cons.1 nonneg
    obtain ⟨-, below⟩ := bounds_of_nonneg nonneg
    obtain ⟨first, rest⟩ := List.cons.inj h
    obtain ⟨low, high⟩ := bounds a List.mem_cons_self
    rcases List.mem_cons.1 hp with rfl | hp
    · rw [first, sub_pos] at pos
      exact ⟨top, low.trans_lt pos, le_rfl, [], a :: axes, rfl, rfl, List.forall_mem_nil _,
        List.forall_mem_cons.2 ⟨pos, fun b hb => ((below b hb).2).trans_lt pos⟩⟩
    · obtain ⟨τ, hτ, le, before, after, rfl, rfl, early, late⟩ := ih nonneg rest hp
      exact ⟨τ, hτ, le.trans high, a :: before, after, rfl, rfl,
        List.forall_mem_cons.2 ⟨le, early⟩, late⟩

lemma exists_parting (nonneg : ∀ w ∈ weights y top axes, 0 ≤ w) (τ : α) :
    ∃ before after, axes = before ++ after ∧ (∀ a ∈ before, τ ≤ y a) ∧ ∀ a ∈ after, y a < τ := by
  induction axes generalizing top with
  | nil => exact ⟨[], [], rfl, List.forall_mem_nil _, List.forall_mem_nil _⟩
  | cons a axes ih =>
    obtain ⟨-, nonneg⟩ := List.forall_mem_cons.1 nonneg
    rcases le_or_gt τ (y a) with le | gt
    · obtain ⟨before, after, rfl, early, late⟩ := ih nonneg
      exact ⟨a :: before, after, rfl, List.forall_mem_cons.2 ⟨le, early⟩, late⟩
    · have below := (bounds_of_nonneg nonneg).2
      exact ⟨[], a :: axes, rfl, List.forall_mem_nil _,
        List.forall_mem_cons.2 ⟨gt, fun b hb => ((below b hb).2).trans_lt gt⟩⟩

/-- Where the axes part, the walk is at the place rounded at the threshold. -/
lemma rounds_advance {dim : ℕ} {z : ℕ → α} {before after : List ℕ} {τ : α}
    (length : cart.length = dim) (perm : (before ++ after).Perm (List.range dim))
    (bounds : ∀ i < dim, 0 ≤ z i - cart.getD i 0 ∧ z i - cart.getD i 0 ≤ 1)
    (hτ : 0 < τ) (le : τ ≤ 1) (early : ∀ a ∈ before, τ ≤ z a - cart.getD a 0)
    (late : ∀ a ∈ after, z a - cart.getD a 0 < τ) : Rounds dim τ z (advance cart before) := by
  intro i hi
  obtain ⟨low, high⟩ := bounds i hi
  have nodup : (before ++ after).Nodup := perm.nodup_iff.2 List.nodup_range
  have hmem : i ∈ before ++ after := perm.mem_iff.2 (List.mem_range.2 hi)
  rw [getD_advance (length.symm ▸ hi), (List.nodup_append.1 nodup).1.count]
  rcases List.mem_append.1 hmem with hb | ha
  · have := early i hb
    rw [if_pos hb]
    push_cast
    constructor <;> linarith
  · have away : i ∉ before := fun hb => (List.nodup_append.1 nodup).2.2 i hb i ha rfl
    have := late i ha
    rw [if_neg away, Nat.add_zero]
    constructor <;> linarith

end Order

end Eigenmesh.Grid
