import Eigenmesh.Proofs.Assembly.Energy
import Eigenmesh.Proofs.Assembly.Essential
import Eigenmesh.Proofs.Smoother.Decrease

/-!
The smoother of the stiffness matrix.

A patch is less than two coarse boxes wide in each direction, so one end of the cube lies outside of
it, even if no unknown is essential. Apart from one point the stiffness matrix is positive definite,
and imposing values changes nothing of it on the free unknowns.
-/

namespace Eigenmesh

variable {α : Type} {coarse : Grid} {k vertex : ℕ} {essential : List ℕ}

namespace Patches

lemma exists_not_close (coarse : Grid) (k vertex : ℕ) :
    ∃ u < (coarse.refined k).vertexCount, ¬Close coarse k u vertex := by
  -- the highest corner of the cube for a point that is low along the first axis, else the lowest
  let far := if (coarse.vertexCoords vertex).getD 0 0 = 0 then (coarse.refined k).boxes else 0
  have point : (coarse.refined k).IsPoint (List.replicate coarse.dim far) := by
    refine ⟨List.length_replicate, fun i hi => ?_⟩
    replace hi : i < coarse.dim := hi
    rw [List.getD_replicate _ hi]
    unfold far
    split <;> omega
  refine ⟨_, point.number_lt, fun close => ?_⟩
  have near := close 0 coarse.dim_pos
  rw [point.coords_number, List.getD_replicate _ coarse.dim_pos, abs_lt] at near
  have boxes : (coarse.refined k).boxes = coarse.boxes * 2 ^ k := rfl
  by_cases low : (coarse.vertexCoords vertex).getD 0 0 = 0
  · have long : 2 ^ k ≤ coarse.boxes * 2 ^ k := Nat.le_mul_of_pos_left _ coarse.boxes_pos
    have below := near.2
    rw [show far = _ from if_pos low, low, boxes] at below
    zify at long
    push_cast at below
    linarith
  · have long : 2 ^ k ≤ 2 ^ k * (coarse.vertexCoords vertex).getD 0 0 :=
      Nat.le_mul_of_pos_right _ (Nat.pos_of_ne_zero low)
    have above := near.1
    rw [show far = 0 from if_neg low] at above
    zify at long
    push_cast at above
    linarith

end Patches

variable [Scalar.Exact α] {K : Triplets α} {P : Patches}

lemma Grid.IsStiffness.posDef_patch (h : (coarse.refined k).IsStiffness K)
    (covers : P.Covers coarse k essential)
    (inside : ∀ v ∈ essential, v < (coarse.refined k).vertexCount) {p : Patch}
    (hp : p ∈ P.patches) : PosDef p.dofs.length fun a b =>
      ((K.clear (Triplets.touches essential)).pushUnits essential).toCsr.entry
        (p.dofs.getD a 0) (p.dofs.getD b 0) := by
  obtain ⟨-, -, sorted, members⟩ := covers.dofs p hp
  obtain ⟨u, hu, far⟩ := Patches.exists_not_close coarse k p.vertex
  refine (h.posDef_principal (sorted.imp ne_of_lt) (fun v hv => ((members v).1 hv).1)
    ⟨u, hu, fun mem => far ((members u).1 mem).2.2⟩).congr fun a ha b hb => ?_
  have free {a : ℕ} (ha : a < p.dofs.length) : p.dofs.getD a 0 ∉ essential :=
    ((members _).1 (getD_mem ha)).2.1
  rw [LinearSpace.entry_system (h.rows.trans h.cols.symm) (h.rows ▸ inside),
    if_neg (not_or.2 ⟨free ha, free hb⟩)]

namespace Smoother

/-- **The stiffness matrix has a smoother.** Whatever values are imposed on the unknowns that the
patches leave out, the matrix of the system is positive definite on every patch, so with a Cholesky
factorization that is exact there is a smoother for it. -/
theorem of?_stiffness [Kernels α] (exact : Kernels.FactorsExactly α)
    (made : Patches.of? coarse k essential = .ok P) :
    ∃ K : Triplets α,
      (⟨(coarse.refined k).simplicial⟩ : LinearSpace α).assembleMatrix Element.stiffness? = .ok K ∧
      ∀ (b : Array α) (values : Option (Array α)), b.size = (coarse.refined k).vertexCount →
        (∀ u, values = some u → ∀ v ∈ essential, v < u.size) →
        ∃ A c, LinearSpace.linearSystem? K b essential values = some (A, c) ∧
          (∀ p ∈ P.patches, (A.principal p.dofs).cols = (A.principal p.dofs).rows ∧
            PosDef (A.principal p.dofs).rows (A.principal p.dofs).entry) ∧
          ∀ theta, ∃ S, of? A P theta = .ok S := by
  obtain ⟨covers, inside⟩ := Patches.covers_of_eq_ok made
  obtain ⟨K, assembled, h⟩ := Grid.exists_isStiffness α (coarse.refined k)
  refine ⟨K, assembled, fun b values size provided => ?_⟩
  have square : K.rows = K.cols := h.rows.trans h.cols.symm
  have listed : ∀ v ∈ essential, v < K.rows := h.rows ▸ inside
  obtain ⟨c, system, -⟩ :=
    LinearSpace.linearSystem?_eq_some square listed ⟨size.trans h.rows.symm, provided⟩
  have sorted {p : Patch} (hp : p ∈ P.patches) : p.dofs.Pairwise (· < ·) :=
    (covers.dofs p hp).2.2.1
  refine ⟨_, c, system, fun p hp => ⟨rfl, ?_⟩, fun theta => ?_⟩
  · refine (h.posDef_patch covers inside hp).congr fun a ha b hb => ?_
    rw [Csr.entry_principal (sorted hp) ha hb, List.getD_eq_getElem _ 0 ha,
      List.getD_eq_getElem _ 0 hb]
  · have size := (LinearSpace.rows_system square listed).trans (h.rows.trans covers.dofCount.symm)
    obtain ⟨S, smoother, -⟩ := exists_factored exact theta size (fun p hp => sorted hp)
      fun p hp => h.posDef_patch covers inside hp
    exact ⟨S, smoother⟩

/-- Without essential unknowns the matrix of the line is singular, but not on the patches of its two
ends. -/
theorem of?_stiffness_line :
    Kernels.FactorsExactly ℝ ∧
    Patches.of? oneBox 1 [] = .ok ⟨3, [⟨0, [0, 1]⟩, ⟨1, [1, 2]⟩]⟩ ∧
    ∃ K : Triplets ℝ,
      (⟨(oneBox.refined 1).simplicial⟩ : LinearSpace ℝ).assembleMatrix Element.stiffness? = .ok K ∧
      ∃ A c S, LinearSpace.linearSystem? K #[0, 0, 0] [] none = some (A, c) ∧
        PosDef 2 (A.principal [0, 1]).entry ∧
        of? A ⟨3, [⟨0, [0, 1]⟩, ⟨1, [1, 2]⟩]⟩ (1 / 2) = .ok S := by
  have made : Patches.of? oneBox 1 [] = .ok ⟨3, [⟨0, [0, 1]⟩, ⟨1, [1, 2]⟩]⟩ := rfl
  obtain ⟨K, assembled, systems⟩ := of?_stiffness Reals.factorsExactly made
  obtain ⟨A, c, system, positive, smoothers⟩ :=
    systems #[0, 0, 0] none rfl fun _ provided => nomatch provided
  obtain ⟨S, smoother⟩ := smoothers (1 / 2)
  exact ⟨Reals.factorsExactly, made, K, assembled, A, c, S, system,
    (positive ⟨0, [0, 1]⟩ List.mem_cons_self).2, smoother⟩

end Smoother

end Eigenmesh
