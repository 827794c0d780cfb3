import Mathlib.Algebra.BigOperators.Group.Finset.Basic
import Mathlib.Algebra.Order.Field.Basic
import Mathlib.Tactic.Abel
import Mathlib.Tactic.Ring
import Eigenmesh.Dense

/-!
Scalars that are computed with exactly.

Over such scalars an algorithm is a statement of algebra: sums may be taken in any order, a
difference added again gives back what it was taken from, and what is compared with zero is zero or
is not.
-/

namespace Eigenmesh

/-- Scalars without rounding: the operations are those of an ordered field. -/
class Scalar.Exact (α : Type) extends Field α, LinearOrder α, IsStrictOrderedRing α, Scalar α where
  beq_iff_eq (x y : α) : (x == y) = true ↔ x = y
  abs_eq_abs (x : α) : Scalar.abs x = |x|
  ofScientific_eq (m : ℕ) (s : Bool) (e : ℕ) :
    (OfScientific.ofScientific m s e : α) = if s then (m : α) / 10 ^ e else m * 10 ^ e

/-- The arithmetic is that of an ordered field. -/
def Scalar.IsExact (α : Type) [s : Scalar α] : Prop := ∃ e : Scalar.Exact α, e.toScalar = s

/-- Exact scalars with exact roots: numbers that are not negative have theirs, lengths in the plane
are such roots, and numbers rank by their size. -/
class Scalar.Rooted (α : Type) [Scalar.Exact α] : Prop where
  sqrt_nonneg (x : α) : 0 ≤ Scalar.sqrt x
  mul_self_sqrt (x : α) : 0 ≤ x → Scalar.sqrt x * Scalar.sqrt x = x
  hypot_eq (x y : α) : Scalar.hypot x y = Scalar.sqrt (x * x + y * y)
  ranks_iff (x y : α) : Scalar.ranks x y = true ↔ x ≤ y

variable {α : Type} [Scalar.Exact α]

@[simp] lemma Scalar.beq_zero_iff {x : α} : (x == 0) = true ↔ x = 0 := Scalar.Exact.beq_iff_eq x 0

lemma Scalar.abs_eq {x : α} : Scalar.abs x = |x| := Scalar.Exact.abs_eq_abs x

lemma Scalar.sqrt_eq_of_mul_self [Scalar.Rooted α] {x y : α} (nonneg : 0 ≤ y)
    (square : y * y = x) : Scalar.sqrt x = y := by
  have root := Scalar.Rooted.mul_self_sqrt x (square ▸ mul_self_nonneg y)
  exact (mul_self_inj (Scalar.Rooted.sqrt_nonneg x) nonneg).1 (root.trans square.symm)

lemma Scalar.sqrt_mul_self_mul [Scalar.Rooted α] {x y : α} (hx : 0 ≤ x) (hy : 0 ≤ y) :
    Scalar.sqrt (x * x * y) = x * Scalar.sqrt y := by
  refine Scalar.sqrt_eq_of_mul_self (mul_nonneg hx (Scalar.Rooted.sqrt_nonneg y)) ?_
  rw [mul_mul_mul_comm, Scalar.Rooted.mul_self_sqrt y hy]

lemma fold_add_eq_sum {β : Type} [AddCommMonoid β] (n : ℕ) (f : ℕ → β) (s : β) :
    n.fold (fun i _ s => s + f i) s = s + ∑ i ∈ Finset.range n, f i := by
  induction n with
  | zero => simp
  | succ n ih => rw [Nat.fold_succ, ih, Finset.sum_range_succ, add_assoc]

lemma sumTo_eq_sum {β : Type} [AddCommMonoid β] (n : ℕ) (f : ℕ → β) :
    sumTo n f = ∑ i ∈ Finset.range n, f i := by
  cases n with
  | zero => rfl
  | succ n => rw [Finset.sum_range_succ', add_comm (Finset.sum _ _), ← fold_add_eq_sum, sumTo]

lemma sumByEight_eq_sum {β : Type} [AddCommMonoid β] (n : ℕ) (f : ℕ → β) :
    sumByEight n f = ∑ i ∈ Finset.range n, f i := by
  have groups (g : ℕ) : ∑ i ∈ Finset.range (8 * g), f i =
      ∑ l ∈ Finset.range 8, ∑ k ∈ Finset.range g, f (8 * k + l) := by
    induction g with
    | zero => simp
    | succ g ih =>
      rw [Nat.mul_succ, Finset.sum_range_add, ih, ← Finset.sum_add_distrib]
      exact Finset.sum_congr rfl fun l _ => (Finset.sum_range_succ _ g).symm
  have cut : ∑ i ∈ Finset.range n, f i =
      ∑ i ∈ Finset.range (8 * (n / 8)), f i +
        ∑ i ∈ Finset.range (n - 8 * (n / 8)), f (8 * (n / 8) + i) := by
    rw [← Finset.sum_range_add, Nat.add_sub_cancel' (Nat.mul_div_le n 8)]
  unfold sumByEight
  simp only [fold_add_eq_sum]
  split
  · simp
  · rw [cut, groups]
    simp only [Finset.sum_range_succ, Finset.sum_range_zero, Nat.reduceAdd]
    abel

namespace Coords

lemma dot_eq_sum (x y : Array α) :
    dot x y = ∑ i ∈ Finset.range x.size, x.getD i 0 * y.getD i 0 := sumTo_eq_sum _ _

omit [Scalar.Exact α] in
@[simp] lemma size_sub [Scalar α] (x y : Array α) : (sub x y).size = x.size := Array.size_ofFn

omit [Scalar.Exact α] in
lemma getElem?_eq_some_iff_getD [Zero α] {x : Array α} {i : ℕ} (hi : i < x.size) {v : α} :
    x[i]? = some v ↔ x.getD i 0 = v := by
  rw [Array.getD_eq_getD_getElem?, Array.getElem?_eq_getElem hi, Option.some.injEq,
    Option.getD_some]

omit [Scalar.Exact α] in
lemma eq_iff_getD [Zero α] {x y : Array α} (size : x.size = y.size) :
    x = y ↔ ∀ i < x.size, x.getD i 0 = y.getD i 0 := by
  refine ⟨fun h i _ => h ▸ rfl, fun h => Array.ext size fun i hi hi' => ?_⟩
  have := h i hi
  rwa [← getElem?_eq_some_iff_getD hi, Array.getD_eq_getD_getElem?, Array.getElem?_eq_getElem hi',
    Option.getD_some, Array.getElem?_eq_getElem hi, Option.some.injEq] at this

omit [Scalar.Exact α] in
lemma getD_replicate_zero [Zero α] (n i : ℕ) : (Array.replicate n (0 : α)).getD i 0 = 0 := by
  rw [Array.getD_eq_getD_getElem?, Array.getElem?_replicate]
  split <;> rfl

omit [Scalar.Exact α] in
lemma getD_modify [Zero α] (x : Array α) (j : ℕ) (f : α → α) {i : ℕ} (hi : i < x.size) :
    (x.modify j f).getD i 0 = if j = i then f (x.getD i 0) else x.getD i 0 := by
  rw [Array.getD_eq_getD_getElem?, Array.getElem?_modify, Array.getD_eq_getD_getElem?,
    Array.getElem?_eq_getElem hi]
  split <;> rfl

omit [Scalar.Exact α] in
@[simp] lemma size_add [Scalar α] (x y : Array α) : (add x y).size = x.size := Array.size_ofFn

lemma getD_add (x y : Array α) {i : ℕ} (hi : i < x.size) :
    (add x y).getD i 0 = x.getD i 0 + y.getD i 0 := by
  simp [add, hi]

lemma getD_sub (x y : Array α) {i : ℕ} (hi : i < x.size) :
    (sub x y).getD i 0 = x.getD i 0 - y.getD i 0 := by
  simp [sub, hi]

end Coords

end Eigenmesh
