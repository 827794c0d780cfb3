import Mathlib.Algebra.BigOperators.Ring.Finset
import Mathlib.Data.List.GetD
import Mathlib.LinearAlgebra.BilinearForm.Properties
import Eigenmesh.Proofs.Scalar.Exact

/-!
Positive definite matrices.

A matrix is given by its entries, so that dense and sparse ones are spoken of alike. Its rows and
columns at listed unknowns are positive definite with it, since a vector at these unknowns is a
vector that is zero elsewhere.
-/

namespace Eigenmesh

variable {α : Type} [Scalar.Exact α] {n : ℕ} {M : ℕ → ℕ → α} {x y : ℕ → α} {dofs : List ℕ}

/-- Symmetric, and positive at every vector but zero. -/
structure PosDef (n : ℕ) (M : ℕ → ℕ → α) : Prop where
  symm : ∀ i < n, ∀ j < n, M i j = M j i
  pos : ∀ x : ℕ → α, (∃ i < n, x i ≠ 0) →
    0 < ∑ i ∈ Finset.range n, ∑ j ∈ Finset.range n, x i * M i j * x j

/-- The bilinear form of a matrix of size `n`. -/
def form (n : ℕ) (M : ℕ → ℕ → α) : LinearMap.BilinForm α (ℕ → α) :=
  LinearMap.mk₂ α (fun x y => ∑ i ∈ Finset.range n, ∑ j ∈ Finset.range n, x i * M i j * y j)
    (fun x x' y => by simp only [Pi.add_apply, add_mul, Finset.sum_add_distrib])
    (fun c x y => by simp only [Pi.smul_apply, smul_eq_mul, mul_assoc, Finset.mul_sum])
    (fun x y y' => by simp only [Pi.add_apply, mul_add, Finset.sum_add_distrib])
    (fun c x y => by simp only [Pi.smul_apply, smul_eq_mul, mul_left_comm, Finset.mul_sum])

lemma form_apply : form n M x y =
    ∑ i ∈ Finset.range n, ∑ j ∈ Finset.range n, x i * M i j * y j := rfl

lemma form_eq_sum_mul : form n M x y =
    ∑ i ∈ Finset.range n, x i * ∑ j ∈ Finset.range n, M i j * y j := by
  simp only [form_apply, Finset.mul_sum, mul_assoc]

lemma form_congr {x' y' : ℕ → α} (hx : ∀ i < n, x i = x' i) (hy : ∀ i < n, y i = y' i) :
    form n M x y = form n M x' y' := by
  rw [form_apply, form_apply]
  refine Finset.sum_congr rfl fun i hi => Finset.sum_congr rfl fun j hj => ?_
  rw [hx i (Finset.mem_range.1 hi), hy j (Finset.mem_range.1 hj)]

lemma form_comm_of_symm (symm : ∀ i < n, ∀ j < n, M i j = M j i) :
    form n M x y = form n M y x := by
  rw [form_apply, form_apply, Finset.sum_comm]
  refine Finset.sum_congr rfl fun i hi => Finset.sum_congr rfl fun j hj => ?_
  rw [symm j (Finset.mem_range.1 hj) i (Finset.mem_range.1 hi)]
  ring

lemma PosDef.congr {M' : ℕ → ℕ → α} (h : PosDef n M) (eq : ∀ i < n, ∀ j < n, M i j = M' i j) :
    PosDef n M' := by
  refine ⟨fun i hi j hj => by rw [← eq i hi j hj, ← eq j hj i hi, h.symm i hi j hj],
    fun x nonzero => (h.pos x nonzero).trans_eq ?_⟩
  refine Finset.sum_congr rfl fun i hi => Finset.sum_congr rfl fun j hj => ?_
  rw [eq i (Finset.mem_range.1 hi) j (Finset.mem_range.1 hj)]

namespace PosDef

variable (h : PosDef n M)
include h

lemma form_comm : form n M x y = form n M y x := form_comm_of_symm h.symm

lemma eq_zero_of_form (zero : form n M x x ≤ 0) : ∀ i < n, x i = 0 := by
  by_contra away
  push Not at away
  exact absurd (h.pos x away) (not_lt.2 zero)

lemma form_nonneg (x : ℕ → α) : 0 ≤ form n M x x := by
  by_contra neg
  have zero : ∀ i < n, x i = (0 : ℕ → α) i := h.eq_zero_of_form (not_le.1 neg).le
  rw [form_congr zero zero, map_zero] at neg
  exact neg le_rfl

end PosDef

/-! ### Some of the unknowns -/

/-- Values at listed unknowns as a vector that is zero elsewhere. -/
def spread (dofs : List ℕ) (y : ℕ → α) (i : ℕ) : α :=
  ∑ a ∈ Finset.range dofs.length, if dofs.getD a 0 = i then y a else 0

omit [Scalar.Exact α] in
lemma getD_mem {a : ℕ} (ha : a < dofs.length) : dofs.getD a 0 ∈ dofs := by
  rw [List.getD_eq_getElem _ 0 ha]
  exact List.getElem_mem _

lemma sum_mul_spread (inside : ∀ v ∈ dofs, v < n) (f : ℕ → α) :
    ∑ i ∈ Finset.range n, f i * spread dofs y i =
      ∑ a ∈ Finset.range dofs.length, f (dofs.getD a 0) * y a := by
  simp only [spread, Finset.mul_sum]
  rw [Finset.sum_comm]
  refine Finset.sum_congr rfl fun a ha => ?_
  have there : dofs.getD a 0 < n := inside _ (getD_mem (Finset.mem_range.1 ha))
  simp only [mul_ite, mul_zero, Finset.sum_ite_eq, Finset.mem_range, there, if_true]

lemma spread_of_notMem {i : ℕ} (away : i ∉ dofs) : spread dofs y i = 0 := by
  refine Finset.sum_eq_zero fun a ha => if_neg fun eq => away ?_
  rw [← eq]
  exact getD_mem (Finset.mem_range.1 ha)

lemma spread_getD (nodup : dofs.Nodup) {a : ℕ} (ha : a < dofs.length) :
    spread dofs y (dofs.getD a 0) = y a := by
  rw [spread, Finset.sum_eq_single a (fun b hb ne => if_neg fun eq => ne ?_)
    fun h => absurd (Finset.mem_range.2 ha) h, if_pos rfl]
  rw [List.getD_eq_getElem _ 0 ha, List.getD_eq_getElem _ 0 (Finset.mem_range.1 hb)] at eq
  exact nodup.getElem_inj_iff.1 eq

lemma form_spread_left (inside : ∀ v ∈ dofs, v < n) : form n M (spread dofs y) x =
    ∑ a ∈ Finset.range dofs.length, y a * ∑ j ∈ Finset.range n, M (dofs.getD a 0) j * x j := by
  have factors := sum_mul_spread (y := y) inside fun i => ∑ j ∈ Finset.range n, M i j * x j
  simpa only [form_eq_sum_mul, mul_comm] using factors

lemma form_spread_congr (inside : ∀ v ∈ dofs, v < n) {x' : ℕ → α}
    (rows : ∀ v ∈ dofs, ∑ j ∈ Finset.range n, M v j * x j = ∑ j ∈ Finset.range n, M v j * x' j) :
    form n M (spread dofs y) x = form n M (spread dofs y) x' := by
  rw [form_spread_left inside, form_spread_left inside]
  refine Finset.sum_congr rfl fun a ha => ?_
  rw [rows _ (getD_mem (Finset.mem_range.1 ha))]

lemma form_spread (inside : ∀ v ∈ dofs, v < n) {z : ℕ → α} :
    form n M (spread dofs y) (spread dofs z) =
      form dofs.length (fun a b => M (dofs.getD a 0) (dofs.getD b 0)) y z := by
  rw [form_spread_left inside, form_eq_sum_mul]
  exact Finset.sum_congr rfl fun a _ => by rw [sum_mul_spread inside]

lemma PosDef.principal (h : PosDef n M) (nodup : dofs.Nodup) (inside : ∀ v ∈ dofs, v < n) :
    PosDef dofs.length fun a b => M (dofs.getD a 0) (dofs.getD b 0) := by
  refine ⟨fun a ha b hb => h.symm _ (inside _ (getD_mem ha)) _ (inside _ (getD_mem hb)),
    fun y ⟨a, ha, nonzero⟩ => ?_⟩
  have positive := h.pos (spread dofs y)
    ⟨_, inside _ (getD_mem ha), by rwa [spread_getD nodup ha]⟩
  rw [← form_apply, form_spread inside] at positive
  exact positive

end Eigenmesh
