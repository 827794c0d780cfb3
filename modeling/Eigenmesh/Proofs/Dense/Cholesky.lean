import Mathlib.Algebra.Order.Field.Basic
import Eigenmesh.Proofs.Dense
import Eigenmesh.Proofs.Dense.Positive
import Eigenmesh.Proofs.Dense.Substitution

/-!
There is a Cholesky factor of every positive definite matrix where positive numbers have roots.

The first column of the factor is that of the matrix over the root of the first pivot. What the
product of this column with itself leaves of the other rows and columns is positive definite again.
-/

namespace Eigenmesh

variable {α : Type} [Scalar.Exact α] {n : ℕ} {M : ℕ → ℕ → α}

/-- What elimination of the first column leaves. -/
def schur (M : ℕ → ℕ → α) (i j : ℕ) : α := M (i + 1) (j + 1) - M (i + 1) 0 * M 0 (j + 1) / M 0 0

namespace PosDef

variable (h : PosDef (n + 1) M)
include h

lemma pivot_pos : 0 < M 0 0 := by
  have first := h.pos (fun i => if i = 0 then 1 else 0) ⟨0, Nat.succ_pos n, by simp⟩
  simpa using first

lemma posDef_schur : PosDef n (schur M) := by
  have pivot := h.pivot_pos.ne'
  have symm (i : ℕ) (hi : i < n) : M (i + 1) 0 = M 0 (i + 1) :=
    h.symm _ (Nat.succ_lt_succ hi) 0 (Nat.succ_pos n)
  refine ⟨fun i hi j hj => ?_, fun y ⟨i, hi, nonzero⟩ => ?_⟩
  · rw [schur, schur, h.symm _ (Nat.succ_lt_succ hi) _ (Nat.succ_lt_succ hj),
      symm i hi, symm j hj, mul_comm (M 0 _)]
  · -- the first entry is chosen so that the first row of the product vanishes
    let c := ∑ j ∈ Finset.range n, M 0 (j + 1) * y j
    let x : ℕ → α := fun i => i.casesOn (-c / M 0 0) y
    have positive := h.pos x ⟨i + 1, Nat.succ_lt_succ hi, nonzero⟩
    have row (i : ℕ) : ∑ j ∈ Finset.range (n + 1), M i j * x j =
        ∑ j ∈ Finset.range n, M i (j + 1) * y j + M i 0 * (-c / M 0 0) := Finset.sum_range_succ' _ n
    have first : ∑ j ∈ Finset.range (n + 1), M 0 j * x j = 0 := by
      rw [row, mul_div_cancel₀ _ pivot, add_neg_cancel]
    have rest (i : ℕ) : ∑ j ∈ Finset.range (n + 1), M (i + 1) j * x j =
        ∑ j ∈ Finset.range n, schur M i j * y j := by
      simp only [row, schur, sub_mul, Finset.sum_sub_distrib, c, mul_div_right_comm,
        mul_assoc, ← Finset.mul_sum]
      ring
    rw [← form_apply, form_eq_sum_mul, Finset.sum_range_succ', first, mul_zero,
      add_zero] at positive
    rw [← form_apply, form_eq_sum_mul]
    exact positive.trans_eq (Finset.sum_congr rfl fun i _ => by rw [rest])

end PosDef

/-- The entries of a factor: those of a lower triangular matrix. -/
structure IsRoot (n : ℕ) (M L : ℕ → ℕ → α) : Prop where
  lower : ∀ i j, i < j → L i j = 0
  diagonal : ∀ i < n, 0 < L i i
  mul : ∀ i < n, ∀ j < n, ∑ k ∈ Finset.range n, L i k * L j k = M i j

lemma IsRoot.isFactor {L : ℕ → ℕ → α} (h : IsRoot n M L) :
    (Dense.ofFn n n L).IsFactor n M := by
  refine ⟨rfl, rfl, fun i hi j hj hij => ?_, fun i hi => ?_, fun i hi j hj => ?_⟩
  · rw [Dense.entry_ofFn _ hi hj, h.lower i j hij]
  · rw [Dense.entry_ofFn _ hi hi]
    exact h.diagonal i hi
  · rw [← h.mul i hi j hj]
    refine Finset.sum_congr rfl fun k hk => ?_
    have hk := Finset.mem_range.1 hk
    rw [Dense.entry_ofFn _ hi hk, Dense.entry_ofFn _ hj hk]

/-- A factor of what elimination leaves, behind the first column over the root of the pivot. -/
def bordered (M L : ℕ → ℕ → α) (root : α) : ℕ → ℕ → α
  | 0, 0 => root
  | 0, _ + 1 => 0
  | i + 1, 0 => M (i + 1) 0 / root
  | i + 1, j + 1 => L i j

lemma IsRoot.bordered {L : ℕ → ℕ → α} {root : α} (h : PosDef (n + 1) M) (pos : 0 < root)
    (square : root * root = M 0 0) (rest : IsRoot n (schur M) L) :
    IsRoot (n + 1) M (bordered M L root) := by
  have symm (i : ℕ) (hi : i < n) : M 0 (i + 1) = M (i + 1) 0 :=
    h.symm 0 (Nat.succ_pos n) _ (Nat.succ_lt_succ hi)
  refine ⟨?_, ?_, ?_⟩
  · rintro (_ | i) (_ | j) hij
    · exact absurd hij (lt_irrefl 0)
    · rfl
    · exact absurd hij (Nat.not_lt_zero _)
    · exact rest.lower i j (Nat.lt_of_succ_lt_succ hij)
  · rintro (_ | i) hi
    · exact pos
    · exact rest.diagonal i (Nat.lt_of_succ_lt_succ hi)
  · rintro (_ | i) hi (_ | j) hj <;> rw [Finset.sum_range_succ'] <;>
      simp only [Eigenmesh.bordered, zero_mul, mul_zero, Finset.sum_const_zero, zero_add]
    · exact square
    · rw [mul_div_cancel₀ _ pos.ne', symm j (Nat.lt_of_succ_lt_succ hj)]
    · rw [div_mul_cancel₀ _ pos.ne']
    · have hj := Nat.lt_of_succ_lt_succ hj
      rw [rest.mul i (Nat.lt_of_succ_lt_succ hi) j hj, schur, symm j hj, div_mul_div_comm, square,
        sub_add_cancel]

/-- **Every positive definite matrix has a Cholesky factor.** -/
lemma PosDef.exists_isFactor (roots : ∀ x : α, 0 < x → ∃ y, 0 < y ∧ y * y = x) (h : PosDef n M) :
    ∃ L : Dense α, L.IsFactor n M := by
  suffices ∃ L, IsRoot n M L by
    obtain ⟨L, root⟩ := this
    exact ⟨_, root.isFactor⟩
  induction n generalizing M with
  | zero => exact ⟨fun _ _ => 0, fun _ _ _ => rfl, fun i hi => absurd hi (Nat.not_lt_zero i),
      fun i hi => absurd hi (Nat.not_lt_zero i)⟩
  | succ n ih =>
    obtain ⟨root, pos, square⟩ := roots _ h.pivot_pos
    obtain ⟨L, rest⟩ := ih h.posDef_schur
    exact ⟨_, rest.bordered h pos square⟩

end Eigenmesh
