import Mathlib.Algebra.BigOperators.Module
import Mathlib.Algebra.Order.BigOperators.Group.Finset
import Mathlib.Data.Fintype.BigOperators
import Mathlib.LinearAlgebra.BilinearForm.Properties
import Mathlib.Tactic.Linarith

/-!
Corrections that are added up, some of which do not act on each other.

If corrections of one colour are orthogonal, their sum has the sum of their energies. All colours
together have at most as many times the sum of the energies as there are colours. So a step that
each correction alone would take as a projection gains energy as long as it is damped enough.
-/

namespace Eigenmesh

variable {α V ι κ : Type} [Field α] [LinearOrder α] [IsStrictOrderedRing α] [AddCommGroup V]
  [Module α V] {B : LinearMap.BilinForm α V}

omit [LinearOrder α] [IsStrictOrderedRing α] in
lemma energy_sum_of_orthogonal {s : Finset ι} {z : ι → V}
    (orthogonal : ∀ p ∈ s, ∀ q ∈ s, p ≠ q → B (z p) (z q) = 0) :
    B (∑ p ∈ s, z p) (∑ p ∈ s, z p) = ∑ p ∈ s, B (z p) (z p) := by
  simp only [map_sum, LinearMap.sum_apply]
  refine Finset.sum_congr rfl fun p hp => ?_
  exact Finset.sum_eq_single p (fun q hq ne => orthogonal q hq p hp ne) fun away => absurd hp away

lemma energy_sum_le [Fintype κ] (nonneg : ∀ x, 0 ≤ B x x) (z : κ → V) :
    B (∑ c, z c) (∑ c, z c) ≤ Fintype.card κ * ∑ c, B (z c) (z c) := by
  have differences : 0 ≤ ∑ c, ∑ c', B (z c - z c') (z c - z c') :=
    Finset.sum_nonneg fun c _ => Finset.sum_nonneg fun c' _ => nonneg _
  have expanded : ∑ c, ∑ c', B (z c - z c') (z c - z c') =
      2 * (Fintype.card κ * ∑ c, B (z c) (z c) - B (∑ c, z c) (∑ c, z c)) := by
    simp only [map_sub, LinearMap.sub_apply, Finset.sum_sub_distrib, map_sum, LinearMap.sum_apply,
      Finset.sum_const, Finset.card_univ, nsmul_eq_mul, ← Finset.mul_sum]
    rw [Finset.sum_comm (f := fun c c' => B (z c) (z c'))]
    ring
  rw [expanded] at differences
  linarith

/-- **A damped sum of projections gains energy.** The corrections of one colour are orthogonal, and
each would take away from the error what it has in energy. -/
lemma energy_add_smul_sum_le [Fintype ι] [Fintype κ] [DecidableEq κ] (nonneg : ∀ x, 0 ≤ B x x)
    (comm : ∀ x y, B x y = B y x) {z : ι → V} {colour : ι → κ} {e : V}
    (orthogonal : ∀ p q, p ≠ q → colour p = colour q → B (z p) (z q) = 0)
    (projection : ∀ p, B (z p) e = -B (z p) (z p)) (theta : α) :
    B (e + theta • ∑ p, z p) (e + theta • ∑ p, z p) ≤
      B e e - theta * (2 - theta * Fintype.card κ) * ∑ p, B (z p) (z p) := by
  have coloured : B (∑ p, z p) (∑ p, z p) ≤ Fintype.card κ * ∑ p, B (z p) (z p) := by
    rw [← Finset.sum_fiberwise Finset.univ colour z,
      ← Finset.sum_fiberwise Finset.univ colour fun p => B (z p) (z p)]
    refine (energy_sum_le nonneg _).trans_eq ?_
    congr 1
    refine Finset.sum_congr rfl fun c _ => energy_sum_of_orthogonal fun p hp q hq ne => ?_
    exact orthogonal p q ne ((Finset.mem_filter.1 hp).2.trans (Finset.mem_filter.1 hq).2.symm)
  have towards : B (∑ p, z p) e = -∑ p, B (z p) (z p) := by
    rw [map_sum, LinearMap.sum_apply, Finset.sum_congr rfl fun p _ => projection p,
      Finset.sum_neg_distrib]
  have expanded : B (e + theta • ∑ p, z p) (e + theta • ∑ p, z p) =
      B e e + 2 * theta * B (∑ p, z p) e + theta ^ 2 * B (∑ p, z p) (∑ p, z p) := by
    generalize ∑ p, z p = s
    simp only [map_add, LinearMap.add_apply, map_smul, LinearMap.smul_apply, smul_eq_mul]
    rw [comm e s]
    ring
  rw [expanded, towards]
  have scaled := mul_le_mul_of_nonneg_left coloured (sq_nonneg theta)
  linarith

end Eigenmesh
