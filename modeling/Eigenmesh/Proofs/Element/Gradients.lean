import Mathlib.Algebra.Order.Field.Basic
import Eigenmesh.Element
import Eigenmesh.Proofs.Dense.Inverse
import Eigenmesh.Proofs.Dense.Matrices

/-!
Gradients on a simplex and the stiffness matrix made of them.

The gradients of the functions that are one at a corner and zero at the others are known by what
they say of the edges, because the edges span the space. So a guess that is right on the edges is
what inverting the matrix of the edges gives.
-/

namespace Eigenmesh

variable {α : Type} [Scalar.Exact α]

namespace Element

variable {corners : Dense α} {f : ℕ → ℕ → α}

lemma factorial_lt_limit {n : ℕ} (small : n ≤ 3) : factorial n < Word.limit :=
  (by decide : ∀ n ≤ 3, factorial n < Word.limit) n small

lemma volume?_eq_ok (simplex : IsSimplex corners) (size : factorial corners.rows < Word.limit) :
    volume? corners = .ok (volume corners) := by
  rw [volume?, simplex?, if_pos simplex]
  exact if_pos size

lemma volume?_eq_error (simplex : IsSimplex corners) (size : ¬factorial corners.rows < Word.limit) :
    volume? corners = .error .dimension := by
  rw [volume?, simplex?, if_pos simplex]
  exact if_neg size

omit [Scalar.Exact α] in
lemma leading_edges_apply [Scalar α] (corners : Dense α) (r j : Fin corners.rows) :
    (Simplex.edges corners).leading corners.rows r j =
      corners.entry r (j + 1) - corners.entry r 0 := Dense.entry_ofFn _ r.isLt j.isLt

/-- Along every axis the slopes of the functions of the corners: each function but the first goes
from zero to one along the edge to its corner and stays zero along the others, and all functions
together are constant. -/
structure AreSlopes (corners : Dense α) (f : ℕ → ℕ → α) : Prop where
  edge : ∀ c < corners.rows, ∀ j < corners.rows,
    ∑ r ∈ Finset.range corners.rows,
      f r (c + 1) * (corners.entry r (j + 1) - corners.entry r 0) = if c = j then 1 else 0
  sum : ∀ r < corners.rows, ∑ c ∈ Finset.range (corners.rows + 1), f r c = 0

namespace AreSlopes

variable (h : AreSlopes corners f)
include h

lemma slopes_mul_edges : (Matrix.of fun c r : Fin corners.rows => f r (c + 1)) *
    (Simplex.edges corners).leading corners.rows = 1 := by
  ext c j
  rw [Matrix.mul_apply, Matrix.one_apply, ← if_congr Fin.val_inj rfl rfl,
    ← h.edge c c.isLt j j.isLt, Finset.sum_range]
  refine Finset.sum_congr rfl fun r _ => ?_
  rw [Matrix.of_apply, leading_edges_apply]

lemma gradients?_eq_ok (simplex : IsSimplex corners) :
    ∃ G : Dense α, gradients? corners = .ok G ∧ G.rows = corners.rows ∧
      G.cols = corners.rows + 1 ∧
      ∀ r < corners.rows, ∀ c < corners.rows + 1, G.entry r c = f r c := by
  obtain ⟨B, inverse, rows, cols, leading⟩ :=
    Dense.inverse?_eq_some (A := Simplex.edges corners) rfl
      (Matrix.det_ne_zero_of_left_inverse h.slopes_mul_edges)
  have inverted {c r : ℕ} (hc : c < corners.rows) (hr : r < corners.rows) :
      B.entry c r = f r (c + 1) :=
    congrFun₂ (leading.trans (Matrix.inv_eq_left_inv h.slopes_mul_edges)) ⟨c, hc⟩ ⟨r, hr⟩
  refine ⟨B.transpose.mul (referenceGradients corners.rows), ?_, cols, rfl, fun r hr c hc => ?_⟩
  · rw [gradients?, simplex?, if_pos simplex]
    dsimp only [bind, Except.bind]
    rw [inverse]
    rfl
  · have gradient (k : ℕ) (hk : k ∈ Finset.range corners.rows) :
        B.transpose.entry r k * (referenceGradients corners.rows).entry k c =
          f r (k + 1) * if c = 0 then -1 else if c = k + 1 then 1 else 0 := by
      rw [Finset.mem_range] at hk
      rw [Dense.entry_transpose B (cols.symm ▸ hr) (rows.symm ▸ hk), inverted hk hr,
        referenceGradients, Dense.entry_ofFn _ hk hc]
    have width : B.transpose.cols = corners.rows := rows
    rw [Dense.entry_mul _ _ (show r < B.cols from cols.symm ▸ hr) hc, width,
      Finset.sum_congr rfl gradient]
    cases c with
    | zero =>
      have total := h.sum r hr
      rw [Finset.sum_range_succ'] at total
      rw [eq_neg_of_add_eq_zero_right total, ← Finset.sum_neg_distrib]
      simp
    | succ c => simp [Nat.lt_of_succ_lt_succ hc, eq_comm]

lemma stiffness?_eq_ok (simplex : IsSimplex corners)
    (size : factorial corners.rows < Word.limit) : ∃ K, stiffness? corners = .ok K ∧
      ∀ a < corners.rows + 1, ∀ b < corners.rows + 1,
        K.entry a b = volume corners * ∑ r ∈ Finset.range corners.rows, f r a * f r b := by
  obtain ⟨G, gradients, rows, cols, entry⟩ := h.gradients?_eq_ok simplex
  refine ⟨(G.transpose.scale (volume corners)).mul G, ?_, fun a ha b hb => ?_⟩
  · rw [stiffness?, gradients, volume?_eq_ok simplex size]
    rfl
  · have width : (G.transpose.scale (volume corners)).cols = corners.rows := rows
    rw [Dense.entry_mul _ _ (show a < G.cols from cols.symm ▸ ha) (cols.symm ▸ hb), width,
      Finset.mul_sum]
    refine Finset.sum_congr rfl fun r hr => ?_
    rw [Finset.mem_range] at hr
    rw [Dense.entry_scale, Dense.entry_transpose G (cols.symm ▸ ha) (rows.symm ▸ hr),
      entry r hr a ha, entry r hr b hb]
    ring

end AreSlopes

end Element

end Eigenmesh
