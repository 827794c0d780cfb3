import Mathlib.Algebra.BigOperators.Fin
import Mathlib.Algebra.Order.Field.Power
import Eigenmesh.Proofs.Patches.Colours
import Eigenmesh.Proofs.Scalar.Real
import Eigenmesh.Proofs.Smoother.Correction
import Eigenmesh.Proofs.Smoother.Energy

/-!
The smoother decreases the energy of the error.

On its patch, each correction is the projection of the error in the energy of the matrix. There are
as many colours of patches as a box has corners, and patches of one colour are not coupled, so with
enough damping every step gains energy as long as the residual does not vanish on all patches. Since
the patches cover the free unknowns, it vanishes on them only if there is no error.
-/

namespace Eigenmesh

variable {α : Type} [Scalar.Exact α]

/-- Twice the energy of a vector. -/
def Csr.energy (A : Csr α) (e : Array α) : α := Coords.dot e (A.mulVec e)

lemma Csr.energy_eq_form {A : Csr α} {e : Array α} (size : e.size = A.cols) :
    A.energy e = form A.cols A.entry (fun i => e.getD i 0) fun i => e.getD i 0 := by
  rw [energy, Coords.dot_eq_sum, form_eq_sum_mul, size]
  exact Finset.sum_congr rfl fun i _ => by rw [A.mulVec_getD_eq_sum]

namespace Smoother

variable {coarse : Grid} {k : ℕ} {essential : List ℕ} {S : Smoother α} {b x solution : Array α}

/-- The smoother of a positive definite matrix on a grid refined so many times, which couples only
points of one box. -/
structure Relaxes (S : Smoother α) (coarse : Grid) (k : ℕ) (essential : List ℕ) : Prop where
  factored : S.Factored
  covers : S.patches.Covers coarse k essential
  rows : S.matrix.rows = S.matrix.cols
  cols : S.matrix.cols = (coarse.refined k).vertexCount
  positive : PosDef S.matrix.cols S.matrix.entry
  uncoupled : ∀ v < S.matrix.cols, ∀ w < S.matrix.cols,
    ¬(coarse.refined k).ShareBox v w → S.matrix.entry v w = 0

/-- The vector solves the system and differs from `x` at free unknowns only. -/
structure Solves (S : Smoother α) (essential : List ℕ) (b x solution : Array α) : Prop where
  size : x.size = S.matrix.cols
  size' : solution.size = S.matrix.cols
  solves : S.matrix.mulVec solution = b
  essential : ∀ v ∈ essential, x.getD v 0 = solution.getD v 0

/-- The error of a vector. -/
def error (x solution : Array α) (i : ℕ) : α := x.getD i 0 - solution.getD i 0

/-- The solution on the patch with the given number. -/
def solutionOn (S : Smoother α) (r : Array α) (p : Fin S.patchFactors.length) : ℕ → α :=
  patchSolution S.patchFactors[p.1].1 S.patchFactors[p.1].2 r

omit [Scalar.Exact α] in
lemma fst_mem_patches [Scalar α] (p : Fin S.patchFactors.length) :
    S.patchFactors[p.1].1 ∈ S.patches.patches := (List.of_mem_zip (List.getElem_mem p.isLt)).1

lemma residual_eq (solves : S.Solves essential b x solution) {v : ℕ} (hv : v < S.matrix.rows) :
    (S.residual b x).getD v 0 =
      -∑ j ∈ Finset.range S.matrix.cols, S.matrix.entry v j * error x solution j := by
  have size : v < (S.matrix.mulVec solution).size := by
    rwa [Csr.mulVec, Array.size_map]
  rw [residual, ← solves.solves, Coords.getD_sub _ _ size, Csr.mulVec_getD_eq_sum,
    Csr.mulVec_getD_eq_sum, ← Finset.sum_sub_distrib, ← Finset.sum_neg_distrib]
  exact Finset.sum_congr rfl fun j _ => by rw [error]; ring

lemma error_step (size : x.size = S.matrix.cols) {i : ℕ} (hi : i < S.matrix.cols) :
    error (S.step b x) solution i =
      (error x solution + S.theta • ∑ p, S.solutionOn (S.residual b x) p) i := by
  have hi : i < x.size := size ▸ hi
  rw [error, step, Coords.getD_add _ _ hi, getD_correction hi, Pi.add_apply, Pi.smul_apply,
    Finset.sum_apply, smul_eq_mul, ← Fin.sum_univ_fun_getElem, error]
  exact add_sub_right_comm _ _ _

namespace Relaxes

variable (h : S.Relaxes coarse k essential) {r : Array α}
include h

lemma lt_of_mem {p : Patch} (hp : p ∈ S.patches.patches) : ∀ v ∈ p.dofs, v < S.matrix.cols :=
  fun v hv => by
    rw [h.cols]
    exact (((h.covers.dofs p hp).2.2.2 v).1 hv).1

/-- **Each correction is a projection of the error.** -/
lemma projection (solves : S.Solves essential b x solution)
    (p : Fin S.patchFactors.length) :
    form S.matrix.cols S.matrix.entry (S.solutionOn (S.residual b x) p) (error x solution) =
      -form S.matrix.cols S.matrix.entry (S.solutionOn (S.residual b x) p)
        (S.solutionOn (S.residual b x) p) := by
  have inside := h.lt_of_mem (fst_mem_patches p)
  rw [← map_neg]
  refine form_spread_congr inside fun v hv => ?_
  have solved := h.factored.sum_entry_mul_patchSolution (r := S.residual b x)
    (List.getElem_mem p.isLt) inside hv
  have residual := residual_eq solves (h.rows.symm ▸ inside v hv)
  simp only [Pi.neg_apply, mul_neg, Finset.sum_neg_distrib]
  rw [solutionOn, solved, residual, neg_neg]

lemma orthogonal {p q : Fin S.patchFactors.length} (ne : p ≠ q)
    (same : Patches.colour coarse S.patchFactors[p.1].1.vertex =
      Patches.colour coarse S.patchFactors[q.1].1.vertex) :
    form S.matrix.cols S.matrix.entry (S.solutionOn r p) (S.solutionOn r q) = 0 := by
  have hp := h.covers.dofs _ (fst_mem_patches p)
  have hq := h.covers.dofs _ (fst_mem_patches q)
  have vertices : S.patchFactors.Pairwise fun x y => x.1.vertex ≠ y.1.vertex := by
    have listed := h.covers.vertices.imp ne_of_lt
    rwa [← h.factored.map_fst_patchFactors, List.map_map, List.pairwise_map] at listed
  have apart : S.patchFactors[p.1].1.vertex ≠ S.patchFactors[q.1].1.vertex := by
    rcases lt_or_gt_of_ne ne with lt | gt
    · exact List.pairwise_iff_getElem.1 vertices p q p.isLt q.isLt lt
    · exact (List.pairwise_iff_getElem.1 vertices q p q.isLt p.isLt gt).symm
  rw [← map_zero (form S.matrix.cols S.matrix.entry (S.solutionOn r p))]
  refine form_spread_congr (h.lt_of_mem (fst_mem_patches p)) fun v hv => ?_
  simp only [Pi.zero_apply, mul_zero]
  rw [Finset.sum_const_zero]
  refine Finset.sum_eq_zero fun w hw => ?_
  by_cases mem : w ∈ S.patchFactors[q.1].1.dofs
  · rw [h.uncoupled v (h.lt_of_mem (fst_mem_patches p) v hv) w (Finset.mem_range.1 hw), zero_mul]
    exact Patches.not_shareBox hp.1 hq.1 apart same ((hp.2.2.2 v).1 hv).2.2
      ((hq.2.2.2 w).1 mem).2.2
  · rw [solutionOn, patchSolution, spread_of_notMem mem, mul_zero]

omit h in
lemma energy_sub (size : x.size = S.matrix.cols) : S.matrix.energy (Coords.sub x solution) =
    form S.matrix.cols S.matrix.entry (error x solution) (error x solution) := by
  have entries : ∀ i < S.matrix.cols, (Coords.sub x solution).getD i 0 = error x solution i :=
    fun i hi => Coords.getD_sub x solution (size ▸ hi)
  rw [Csr.energy_eq_form (by rw [Coords.size_sub, size]), form_congr entries entries]

lemma energy_step_le (solves : S.Solves essential b x solution) :
    S.matrix.energy (Coords.sub (S.step b x) solution) ≤
      S.matrix.energy (Coords.sub x solution) - S.theta * (2 - S.theta * 2 ^ coarse.dim) *
        ∑ p, form S.matrix.cols S.matrix.entry (S.solutionOn (S.residual b x) p)
          (S.solutionOn (S.residual b x) p) := by
  have gained := energy_add_smul_sum_le (B := form S.matrix.cols S.matrix.entry)
    h.positive.form_nonneg (fun _ _ => h.positive.form_comm) (fun p q => h.orthogonal)
    (h.projection solves) S.theta
  have colours : (Fintype.card (Fin coarse.dim → Bool) : α) = 2 ^ coarse.dim := by simp
  have size : (S.step b x).size = S.matrix.cols := size_step.trans solves.size
  rw [energy_sub size, energy_sub solves.size,
    form_congr (fun _ => error_step solves.size) (fun _ => error_step solves.size), ← colours]
  exact gained

/-- Without corrections there is no residual at the free unknowns, as the patches cover them. -/
lemma residual_eq_zero (vanishes : ∀ p, ∀ i < S.matrix.cols, S.solutionOn r p i = 0) {v : ℕ}
    (hv : v < S.matrix.cols) (free : v ∉ essential) : r.getD v 0 = 0 := by
  have covered := (h.covers.bounds v (h.cols ▸ hv) free).1
  obtain ⟨patch, hpatch, mem⟩ := List.countP_pos_iff.1 covered
  rw [← h.factored.map_fst_patchFactors] at hpatch
  obtain ⟨y, hy, rfl⟩ := List.mem_map.1 hpatch
  obtain ⟨p, hp, rfl⟩ := List.getElem_of_mem hy
  rw [← h.factored.sum_entry_mul_patchSolution hy (h.lt_of_mem (fst_mem_patches ⟨p, hp⟩))
    (of_decide_eq_true mem)]
  refine Finset.sum_eq_zero fun j hj => ?_
  have zero := vanishes ⟨p, hp⟩ j (Finset.mem_range.1 hj)
  rw [solutionOn] at zero
  rw [zero, mul_zero]

lemma eq_solution (solves : S.Solves essential b x solution)
    (none : ∑ p, form S.matrix.cols S.matrix.entry (S.solutionOn (S.residual b x) p)
      (S.solutionOn (S.residual b x) p) ≤ 0) : x = solution := by
  have vanishes (p : Fin S.patchFactors.length) :
      ∀ i < S.matrix.cols, S.solutionOn (S.residual b x) p i = 0 := by
    refine h.positive.eq_zero_of_form (le_trans ?_ none)
    exact Finset.single_le_sum (fun q _ => h.positive.form_nonneg _) (Finset.mem_univ p)
  have error_eq_zero := h.positive.eq_zero_of_form (x := error x solution) (by
    rw [form_eq_sum_mul, Finset.sum_eq_zero]
    intro v hv
    by_cases free : v ∈ essential
    · rw [error, solves.essential v free, sub_self, zero_mul]
    · have residual := residual_eq solves (h.rows.symm ▸ Finset.mem_range.1 hv)
      rw [h.residual_eq_zero vanishes (Finset.mem_range.1 hv) free] at residual
      rw [neg_eq_zero.1 residual.symm, mul_zero])
  refine (Coords.eq_iff_getD (solves.size.trans solves.size'.symm)).2 fun i hi => ?_
  exact sub_eq_zero.1 (error_eq_zero i (solves.size ▸ hi))

lemma solves_step (solves : S.Solves essential b x solution) :
    S.Solves essential b (S.step b x) solution := by
  refine ⟨size_step.trans solves.size, solves.size', solves.solves, fun v hv => ?_⟩
  by_cases inside : v < S.matrix.cols
  · have unchanged : ∑ p, S.solutionOn (S.residual b x) p v = 0 :=
      Finset.sum_eq_zero fun p _ =>
        spread_of_notMem (h.covers.excluded v hv _ (fst_mem_patches p))
    have error_eq_zero : error (S.step b x) solution v = _ := error_step solves.size inside
    rw [Pi.add_apply, Pi.smul_apply, Finset.sum_apply, unchanged, smul_zero, add_zero, error, error,
      solves.essential v hv, sub_self] at error_eq_zero
    exact sub_eq_zero.1 error_eq_zero
  · have size : (S.step b x).size = S.matrix.cols := size_step.trans solves.size
    have size' : solution.size = S.matrix.cols := solves.size'
    simp [size, size', inside]

lemma solves_smooth (solves : S.Solves essential b x solution) (steps : ℕ) :
    S.Solves essential b (S.smooth b steps x).2 solution := by
  induction steps generalizing x with
  | zero => exact solves
  | succ steps ih => exact ih (h.solves_step solves)

lemma fits_eq (solves : S.Solves essential b x solution) (steps : ℕ) :
    S.fits b x steps = Word.isArray (steps + 1) 8 := by
  have size : S.matrix.rows = b.size := by
    rw [← solves.solves, Csr.mulVec, Array.size_map, Csr.rows]
  refine fits_eq_isArray size solves.size.symm (takes_iff.2 fun p hp v hv => ?_) steps
  exact solves.size ▸ h.lt_of_mem hp v hv

end Relaxes

/-- With a Cholesky factorization that is exact, there is a smoother for every positive definite
matrix that couples only points of one box. -/
lemma exists_relaxes [Kernels α] (exact : Kernels.FactorsExactly α) {P : Patches}
    (made : Patches.of? coarse k essential = .ok P) {A : Csr α}
    (rows : A.rows = (coarse.refined k).vertexCount)
    (cols : A.cols = (coarse.refined k).vertexCount)
    (positive : PosDef (coarse.refined k).vertexCount A.entry)
    (uncoupled : ∀ v < (coarse.refined k).vertexCount, ∀ w < (coarse.refined k).vertexCount,
      ¬(coarse.refined k).ShareBox v w → A.entry v w = 0) (theta : α) :
    ∃ S, of? A P theta = .ok S ∧ S.matrix = A ∧ S.theta = theta ∧
      S.Relaxes coarse k essential := by
  obtain ⟨covers, -⟩ := Patches.covers_of_eq_ok made
  have inside {p : Patch} (hp : p ∈ P.patches) :
      ∀ v ∈ p.dofs, v < (coarse.refined k).vertexCount := fun v hv =>
    (((covers.dofs p hp).2.2.2 v).1 hv).1
  have sorted {p : Patch} (hp : p ∈ P.patches) : p.dofs.Pairwise (· < ·) :=
    (covers.dofs p hp).2.2.1
  obtain ⟨S, smoother, rfl, rfl, rfl, factored⟩ := exists_factored exact theta
    (rows.trans covers.dofCount.symm) (fun p hp => sorted hp)
    fun p hp => positive.principal ((sorted hp).imp ne_of_lt) (inside hp)
  rw [← cols] at positive uncoupled
  exact ⟨S, smoother, rfl, rfl, factored, covers, rows.trans cols.symm, cols, positive, uncoupled⟩

lemma gain_pos {theta : α} {d : ℕ} (pos : 0 < theta) (damped : theta < 2 ^ (1 - (d : ℤ))) :
    0 < theta * (2 - theta * 2 ^ d) := by
  have power : (2 : α) ^ (1 - (d : ℤ)) * 2 ^ d = 2 := by
    rw [← zpow_natCast, ← zpow_add₀ two_ne_zero, sub_add_cancel, zpow_one]
  have less := mul_lt_mul_of_pos_right damped (pow_pos (two_pos : (0 : α) < 2) d)
  rw [power] at less
  exact mul_pos pos (sub_pos.2 less)

/-- **Smoothing decreases the energy of the error.** With a Cholesky factorization that is exact,
there is a smoother for every positive definite matrix that couples only points of one box. If the
damping is below `2 ^ (1 - d)`, each of its steps decreases the energy of the error unless that is
zero already, and keeps the error away from the essential unknowns. -/
theorem smooth_decreases [Kernels α] (exact : Kernels.FactorsExactly α) {P : Patches}
    (made : Patches.of? coarse k essential = .ok P) {A : Csr α}
    (rows : A.rows = (coarse.refined k).vertexCount)
    (cols : A.cols = (coarse.refined k).vertexCount)
    (positive : PosDef (coarse.refined k).vertexCount A.entry)
    (uncoupled : ∀ v < (coarse.refined k).vertexCount, ∀ w < (coarse.refined k).vertexCount,
      ¬(coarse.refined k).ShareBox v w → A.entry v w = 0)
    {theta : α} (pos : 0 < theta) (damped : theta < 2 ^ (1 - (coarse.dim : ℤ))) :
    ∃ S, of? A P theta = .ok S ∧
      ∀ b x solution : Array α, x.size = (coarse.refined k).vertexCount →
        solution.size = (coarse.refined k).vertexCount → A.mulVec solution = b →
        (∀ v ∈ essential, x.getD v 0 = solution.getD v 0) → ∀ steps,
          S.fits b x steps = Word.isArray (steps + 1) 8 ∧
          (∀ v ∈ essential, (S.smooth b steps x).2.getD v 0 = solution.getD v 0) ∧
          A.energy (Coords.sub (S.smooth b (steps + 1) x).2 solution) ≤
            A.energy (Coords.sub (S.smooth b steps x).2 solution) ∧
          ((S.smooth b steps x).2 ≠ solution →
            A.energy (Coords.sub (S.smooth b (steps + 1) x).2 solution) <
              A.energy (Coords.sub (S.smooth b steps x).2 solution)) := by
  obtain ⟨S, smoother, rfl, rfl, h⟩ := exists_relaxes exact made rows cols positive uncoupled theta
  have gain := gain_pos pos damped
  refine ⟨S, smoother, fun b x solution size size' solves agree steps => ?_⟩
  have start : S.Solves essential b x solution :=
    ⟨size.trans cols.symm, size'.trans cols.symm, solves, agree⟩
  have reached := h.solves_smooth start steps
  have step := h.energy_step_le reached
  rw [← smooth_succ'] at step
  have left : 0 ≤ ∑ p, form S.matrix.cols S.matrix.entry
      (S.solutionOn (S.residual b (S.smooth b steps x).2) p)
      (S.solutionOn (S.residual b (S.smooth b steps x).2) p) :=
    Finset.sum_nonneg fun p _ => h.positive.form_nonneg _
  refine ⟨h.fits_eq start steps, reached.essential, ?_, fun ne => ?_⟩
  · have := mul_nonneg gain.le left
    linarith
  · have := mul_pos gain (not_le.1 fun none => ne (h.eq_solution reached none))
    linarith

/-- One box, split in two. -/
def oneBox : Grid := ⟨1, 1, Nat.one_pos, by decide, Nat.one_pos⟩

/-- Second differences on the three points of a line. -/
noncomputable def lineDifferences : Csr ℝ where
  cols := 3
  stored := #[[(0, 2), (1, -1)], [(0, -1), (1, 2), (2, -1)], [(1, -1), (2, 2)]]
  ordered := by decide

lemma posDef_lineDifferences : PosDef 3 lineDifferences.entry := by
  refine ⟨fun i hi j hj => ?_, fun x ⟨i, hi, nonzero⟩ => ?_⟩
  · interval_cases i <;> interval_cases j <;> rfl
  · have squares : ∑ i ∈ Finset.range 3, ∑ j ∈ Finset.range 3,
        x i * lineDifferences.entry i j * x j =
          x 0 ^ 2 + (x 0 - x 1) ^ 2 + (x 1 - x 2) ^ 2 + x 2 ^ 2 := by
      simp only [Finset.sum_range_succ, Finset.sum_range_zero, zero_add]
      change x 0 * 2 * x 0 + x 0 * -1 * x 1 + x 0 * 0 * x 2 +
        (x 1 * -1 * x 0 + x 1 * 2 * x 1 + x 1 * -1 * x 2) +
        (x 2 * 0 * x 0 + x 2 * -1 * x 1 + x 2 * 2 * x 2) = _
      ring
    rw [squares]
    interval_cases i
    · positivity
    · by_cases first : x 0 = 0
      · rw [first, zero_sub, neg_sq]
        positivity
      · positivity
    · positivity

/-- The point in the middle of the box lies in the patches of both its ends. -/
theorem smooth_decreases_line :
    Kernels.FactorsExactly ℝ ∧
    Patches.of? oneBox 1 [0, 2] = .ok ⟨3, [⟨0, [1]⟩, ⟨1, [1]⟩]⟩ ∧
    lineDifferences.rows = (oneBox.refined 1).vertexCount ∧
    lineDifferences.cols = (oneBox.refined 1).vertexCount ∧
    PosDef (oneBox.refined 1).vertexCount lineDifferences.entry ∧
    (∀ v < (oneBox.refined 1).vertexCount, ∀ w < (oneBox.refined 1).vertexCount,
      ¬(oneBox.refined 1).ShareBox v w → lineDifferences.entry v w = 0) ∧
    (0 : ℝ) < 1 / 2 ∧ (1 / 2 : ℝ) < 2 ^ (1 - (oneBox.dim : ℤ)) ∧
    ∃ S, of? lineDifferences ⟨3, [⟨0, [1]⟩, ⟨1, [1]⟩]⟩ (1 / 2) = .ok S ∧
      lineDifferences.energy
          (Coords.sub (S.smooth #[-1, 2, -1] 1 #[0, 0, 0]).2 #[0, 1, 0]) <
        lineDifferences.energy (Coords.sub #[0, 0, 0] #[0, 1, 0]) := by
  have made : Patches.of? oneBox 1 [0, 2] = .ok ⟨3, [⟨0, [1]⟩, ⟨1, [1]⟩]⟩ := rfl
  have uncoupled : ∀ v < (oneBox.refined 1).vertexCount, ∀ w < (oneBox.refined 1).vertexCount,
      ¬(oneBox.refined 1).ShareBox v w → lineDifferences.entry v w = 0 := by
    intro v hv w hw apart
    have ends : ∀ v < 3, ∀ w < 3, ¬(oneBox.refined 1).ShareBox v w →
        v = 0 ∧ w = 2 ∨ v = 2 ∧ w = 0 := by decide
    rcases ends v hv w hw apart with ⟨rfl, rfl⟩ | ⟨rfl, rfl⟩ <;> rfl
  have solves : lineDifferences.mulVec #[0, 1, 0] = #[-1, 2, -1] := by
    simp [Csr.mulVec, lineDifferences]
  have damped : (1 / 2 : ℝ) < 2 ^ (1 - (oneBox.dim : ℤ)) := by
    norm_num [oneBox]
  obtain ⟨S, smoother, steps⟩ := smooth_decreases Reals.factorsExactly made rfl rfl
    posDef_lineDifferences uncoupled one_half_pos damped
  refine ⟨Reals.factorsExactly, made, rfl, rfl, posDef_lineDifferences, uncoupled, one_half_pos,
    damped, S, smoother, ?_⟩
  exact (steps _ _ #[0, 1, 0] rfl rfl solves (by simp) 0).2.2.2 (by simp [smooth])

end Smoother

end Eigenmesh
