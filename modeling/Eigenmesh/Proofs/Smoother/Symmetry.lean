import Mathlib.Algebra.Order.BigOperators.Group.List
import Eigenmesh.Proofs.Operator.Forms
import Eigenmesh.Proofs.Smoother.Decrease

/-!
The action of the smoother as an operator on residuals.

The inner product of a vector with the solution on a patch for another one is the energy of the two
solutions there. So the action is symmetric and positive semidefinite with the patch matrices, in
whatever way the patches overlap, and it takes to zero what vanishes on all patches. A step then
changes a vector unless its residual is of that kind.
-/

namespace Eigenmesh

variable {α : Type} [Scalar.Exact α]

/-- Linear, symmetric and positive semidefinite on vectors of `n` entries. -/
structure Semidefinite (n : ℕ) (f : Array α → Array α) : Prop where
  size : ∀ r, r.size = n → (f r).size = n
  linear : ∀ c r s, r.size = n → s.size = n →
    f (Coords.add (r.map (c * ·)) s) = Coords.add ((f r).map (c * ·)) (f s)
  symm : ∀ r s, r.size = n → s.size = n → Coords.dot s (f r) = Coords.dot r (f s)
  nonneg : ∀ r, r.size = n → 0 ≤ Coords.dot r (f r)

/-- The vector is zero at all unknowns of all patches. -/
def Patches.Vanishes (P : Patches) (r : Array α) : Prop :=
  ∀ p ∈ P.patches, ∀ v ∈ p.dofs, r.getD v 0 = 0

lemma Coords.add_eq_left_iff {n : ℕ} {x z : Array α} (size : x.size = n)
    (size' : z.size = n) : add x z = x ↔ z = zeros n := by
  rw [eq_iff_getD (size_add x z), eq_iff_getD (size'.trans (by simp [zeros])), size_add, size,
    size']
  refine forall₂_congr fun i hi => ?_
  rw [getD_add _ _ (size ▸ hi), add_eq_left, zeros, getD_replicate_zero]

namespace Smoother

variable {S : Smoother α} {A : Csr α} {P : Patches} {theta : α} {n i : ℕ} {r s b x : Array α}

/-- A smoother of a symmetric matrix that is positive definite on each patch. -/
structure Symmetric (S : Smoother α) : Prop where
  factored : S.Factored
  inside : ∀ p ∈ S.patches.patches, ∀ v ∈ p.dofs, v < S.matrix.rows
  square : S.matrix.cols = S.matrix.rows
  symm : ∀ i < S.matrix.rows, ∀ j < S.matrix.rows, S.matrix.entry i j = S.matrix.entry j i
  positive : ∀ p ∈ S.patches.patches, PosDef p.dofs.length fun a b =>
    S.matrix.entry (p.dofs.getD a 0) (p.dofs.getD b 0)
  pos : 0 < S.theta

/-- The energy of the solutions on a patch for two residuals. -/
def energyOn (S : Smoother α) (r s : Array α) (y : Patch × Dense α) : α :=
  form S.matrix.rows S.matrix.entry (patchSolution y.1 y.2 r) (patchSolution y.1 y.2 s)

namespace Symmetric

variable (h : S.Symmetric)
include h

variable {y : Patch × Dense α} (hy : y ∈ S.patchFactors)
include hy

lemma lt_of_mem : ∀ v ∈ y.1.dofs, v < S.matrix.rows := h.inside y.1 (List.of_mem_zip hy).1

lemma sum_entry {v : ℕ} (hv : v ∈ y.1.dofs) : ∑ j ∈ Finset.range S.matrix.rows,
    S.matrix.entry v j * patchSolution y.1 y.2 r j = r.getD v 0 :=
  h.factored.sum_entry_mul_patchSolution hy (h.lt_of_mem hy) hv

/-- **What a vector has in common with a solution is the energy of both solutions.** -/
lemma sum_mul_patchSolution (r s : Array α) : ∑ i ∈ Finset.range S.matrix.rows,
    s.getD i 0 * patchSolution y.1 y.2 r i = S.energyOn r s y := by
  rw [energyOn, patchSolution, patchSolution, sum_mul_spread (h.lt_of_mem hy),
    form_spread_left (h.lt_of_mem hy)]
  refine Finset.sum_congr rfl fun a ha => ?_
  have solved := h.sum_entry hy (r := s) (getD_mem (Finset.mem_range.1 ha))
  rw [patchSolution] at solved
  rw [solved, mul_comm]

lemma energyOn_eq (r : Array α) : ∃ z : ℕ → α, patchSolution y.1 y.2 r = spread y.1.dofs z ∧
    S.energyOn r r y = form y.1.dofs.length (fun a b =>
      S.matrix.entry (y.1.dofs.getD a 0) (y.1.dofs.getD b 0)) z z :=
  ⟨_, rfl, form_spread (h.lt_of_mem hy)⟩

lemma energyOn_nonneg (r : Array α) : 0 ≤ S.energyOn r r y := by
  obtain ⟨z, -, energy⟩ := h.energyOn_eq hy r
  rw [energy]
  exact (h.positive y.1 (List.of_mem_zip hy).1).form_nonneg z

lemma patchSolution_eq_zero (none : S.energyOn r r y = 0) (i : ℕ) :
    patchSolution y.1 y.2 r i = 0 := by
  obtain ⟨z, solution, energy⟩ := h.energyOn_eq hy r
  have zero := (h.positive y.1 (List.of_mem_zip hy).1).eq_zero_of_form (energy ▸ none).le
  rw [solution]
  refine Finset.sum_eq_zero fun a ha => ?_
  rw [zero a (Finset.mem_range.1 ha), ite_self]

lemma energyOn_eq_zero_iff : S.energyOn r r y = 0 ↔ ∀ v ∈ y.1.dofs, r.getD v 0 = 0 := by
  constructor
  · intro none v hv
    rw [← h.sum_entry hy hv]
    exact Finset.sum_eq_zero fun j _ => by rw [h.patchSolution_eq_zero hy none, mul_zero]
  · intro vanishes
    rw [← h.sum_mul_patchSolution hy]
    refine Finset.sum_eq_zero fun i _ => ?_
    by_cases mem : i ∈ y.1.dofs
    · rw [vanishes i mem, zero_mul]
    · rw [patchSolution, spread_of_notMem mem, mul_zero]

omit hy

/-! ### All patches -/

lemma sum_mul_mult (r s : Array α) :
    ∑ i ∈ Finset.range S.matrix.rows, s.getD i 0 * (S.mult r).getD i 0 =
      S.theta * (S.patchFactors.map (S.energyOn r s)).sum := by
  have correction : ∀ i ∈ Finset.range S.matrix.rows, s.getD i 0 * (S.mult r).getD i 0 =
      S.theta * (S.patchFactors.map fun y => s.getD i 0 * patchSolution y.1 y.2 r i).sum := by
    intro i hi
    rw [mult, getD_correction (Finset.mem_range.1 hi), List.sum_map_mul_left]
    ring
  rw [Finset.sum_congr rfl correction, ← Finset.mul_sum, sum_list_sum]
  congr 2
  exact List.map_congr_left fun y hy => h.sum_mul_patchSolution hy r s

lemma dot_mult (hs : s.size = S.matrix.rows) (r : Array α) :
    Coords.dot s (S.mult r) = S.theta * (S.patchFactors.map (S.energyOn r s)).sum := by
  rw [Coords.dot_eq_sum, hs, h.sum_mul_mult]

lemma vanishes_iff : S.patches.Vanishes r ↔
    ∀ y ∈ S.patchFactors, ∀ v ∈ y.1.dofs, r.getD v 0 = 0 := by
  rw [Patches.Vanishes, ← h.factored.map_fst_patchFactors, List.forall_mem_map]

lemma mult_eq_zeros_iff : S.mult r = Coords.zeros S.matrix.rows ↔ S.patches.Vanishes r := by
  rw [h.vanishes_iff]
  constructor
  · intro zero y hy
    have total : S.theta * (S.patchFactors.map (S.energyOn r r)).sum = 0 := by
      rw [← h.sum_mul_mult, zero]
      exact Finset.sum_eq_zero fun i _ => by
        rw [Coords.zeros, Coords.getD_replicate_zero, mul_zero]
    -- energies add up to zero only if there are none
    have none := (mul_eq_zero.1 total).resolve_left h.pos.ne'
    refine (h.energyOn_eq_zero_iff hy).1 ?_
    refine List.all_zero_of_le_zero_le_of_sum_eq_zero ?_ none (List.mem_map_of_mem hy)
    exact List.forall_mem_map.2 fun y hy => h.energyOn_nonneg hy r
  · intro vanishes
    refine (Coords.eq_iff_getD (by simp [Coords.zeros])).2 fun i hi => ?_
    rw [size_mult] at hi
    rw [Coords.zeros, Coords.getD_replicate_zero, mult, getD_correction hi, List.sum_eq_zero,
      mul_zero]
    refine List.forall_mem_map.2 fun y hy => ?_
    exact h.patchSolution_eq_zero hy ((h.energyOn_eq_zero_iff hy).2 (vanishes y hy)) i

/-- **The action is symmetric and positive semidefinite.** -/
lemma semidefinite : Semidefinite S.matrix.rows S.mult where
  size r _ := S.size_mult r
  linear c r s hr hs := by
    refine (Coords.eq_iff_getD (by simp)).2 fun i hi => ?_
    rw [size_mult] at hi
    have linear := getD_correction_mem_forms h.inside hi
    rw [Coords.getD_add _ _ (by simpa using hi)]
    refine (form_add_map linear c hr hs).trans ?_
    simp [mult, hi]
  symm r s hr hs := by
    rw [h.dot_mult hs, h.dot_mult hr]
    congr 2
    exact List.map_congr_left fun y _ => form_comm_of_symm h.symm
  nonneg r hr := by
    rw [h.dot_mult hr]
    refine mul_nonneg h.pos.le (List.sum_nonneg (List.forall_mem_map.2 fun y hy => ?_))
    exact h.energyOn_nonneg hy r

lemma step_eq_iff (size : x.size = S.matrix.rows) :
    S.step b x = x ↔ S.patches.Vanishes (S.residual b x) := by
  rw [← h.mult_eq_zeros_iff, step, size]
  exact Coords.add_eq_left_iff size (S.size_mult _)

lemma smooth_eq (size : x.size = S.matrix.rows) (vanishes : S.patches.Vanishes (S.residual b x))
    (steps : ℕ) : (S.smooth b steps x).2 = x := by
  induction steps with
  | zero => rfl
  | succ steps ih => rw [smooth_succ, (h.step_eq_iff size).2 vanishes, ih]

end Symmetric

/-! ### The order of the patches -/

lemma map_patchFactors [Kernels α] (made : of? A P theta = .ok S) :
    S.patchFactors.map (fun y => (y.1, some y.2)) =
      P.patches.map fun p => (p, Kernels.cholesky? (A.principal p.dofs)) := by
  obtain ⟨-, factors, rfl, found⟩ := of?_eq_ok made
  obtain ⟨length, each⟩ := List.forall₂_iff_zip.1 found
  have patches : (P.patches.zip factors).map Prod.fst = P.patches := List.map_fst_zip length.le
  conv_rhs => rw [← patches, List.map_map]
  exact List.map_congr_left fun y hy => congrArg _ (each hy).symm

lemma mult_eq_of_perm [Kernels α] {Q : Patches} {T : Smoother α} (made : of? A P theta = .ok S)
    (made' : of? A Q theta = .ok T) (order : Q.patches.Perm P.patches) (r : Array α) :
    T.mult r = S.mult r := by
  -- the factor of a patch depends on the patch alone, so the pairs come in the order of the patches
  have reordered : T.patchFactors.Perm S.patchFactors := by
    refine (List.map_perm_map_iff (f := fun y : Patch × Dense α => (y.1, some y.2)) ?_).1 ?_
    · rintro ⟨p, L⟩ ⟨p', L'⟩ eq
      simpa using eq
    · rw [map_patchFactors made, map_patchFactors made']
      exact order.map _
  obtain ⟨-, _, rfl, -⟩ := of?_eq_ok made
  obtain ⟨-, _, rfl, -⟩ := of?_eq_ok made'
  refine (Coords.eq_iff_getD (by simp)).2 fun i hi => ?_
  rw [size_mult] at hi
  rw [mult, mult, getD_correction hi, getD_correction hi]
  exact congrArg _ (reordered.map _).sum_eq

/-- **The smoother is a symmetric positive semidefinite operator.** If the matrix is symmetric, and
positive definite on each patch, there is a smoother, and its action on residuals is linear, symmetric
and positive semidefinite. It depends neither on the order of the patches nor on what is in the vector
it is written into. Only residuals that vanish on all patches are taken to zero, so steps leave a
vector as it is if and only if its residual is one of these. -/
theorem exists_semidefinite [Kernels α] (exact : Kernels.FactorsExactly α)
    (rows : A.rows = P.dofCount) (cols : A.cols = P.dofCount)
    (symm : ∀ i < P.dofCount, ∀ j < P.dofCount, A.entry i j = A.entry j i)
    (sorted : ∀ p ∈ P.patches, p.dofs.Pairwise (· < ·))
    (inside : ∀ p ∈ P.patches, ∀ v ∈ p.dofs, v < P.dofCount)
    (positive : ∀ p ∈ P.patches, PosDef (A.principal p.dofs).rows (A.principal p.dofs).entry)
    (pos : 0 < theta) :
    ∃ S, of? A P theta = .ok S ∧ S.takes P.dofCount = true ∧ Semidefinite P.dofCount S.mult ∧
      (∀ r, S.mult r = Coords.zeros P.dofCount ↔ P.Vanishes r) ∧
      (∀ r buffer : Array α, buffer.size = P.dofCount → S.correctInto r buffer = S.mult r) ∧
      (∀ patches, patches.Perm P.patches →
        ∃ T, of? A ⟨P.dofCount, patches⟩ theta = .ok T ∧ ∀ r, T.mult r = S.mult r) ∧
      ∀ b x : Array α, b.size = P.dofCount → x.size = P.dofCount →
        (∀ steps, S.fits b x steps = Word.isArray (steps + 1) 8) ∧
        ((S.smooth b 1 x).2 = x ↔ P.Vanishes (Coords.sub b (A.mulVec x))) ∧
        ((∀ steps, (S.smooth b steps x).2 = x) ↔ P.Vanishes (Coords.sub b (A.mulVec x))) := by
  have definite {p : Patch} (hp : p ∈ P.patches) : PosDef p.dofs.length fun a b =>
      A.entry (p.dofs.getD a 0) (p.dofs.getD b 0) :=
    (positive p hp).congr fun a ha b hb => Csr.entry_principal_getD (sorted p hp) ha hb
  obtain ⟨S, made, rfl, rfl, rfl, factored⟩ := exists_factored exact theta rows sorted
    fun p hp => definite hp
  rw [← rows] at symm inside cols
  have h : S.Symmetric := ⟨factored, inside, cols, symm, fun p hp => definite hp, pos⟩
  have takes : S.takes S.matrix.rows = true := takes_iff.2 inside
  rw [← rows]
  refine ⟨S, made, takes, h.semidefinite, fun r => h.mult_eq_zeros_iff, fun r buffer size => ?_,
    fun patches order => ?_, fun b x size size' => ⟨fun steps => ?_, h.step_eq_iff size',
      fun fixed => ?_, h.smooth_eq size'⟩⟩
  · rw [correctInto_eq, size, mult]
  · obtain ⟨T, made', -⟩ := exists_factored (P := ⟨S.matrix.rows, patches⟩) exact S.theta rfl
      (fun p hp => sorted p (order.mem_iff.1 hp)) fun p hp => definite (order.mem_iff.1 hp)
    exact ⟨T, made', mult_eq_of_perm made made' order⟩
  · exact fits_eq_isArray size.symm (cols.trans size'.symm) (size' ▸ takes) steps
  · exact (h.step_eq_iff size').1 (fixed 1)

/-- The patches of the two ends of a line of three points overlap in the middle. -/
def lineEnds : Patches := ⟨3, [⟨0, [0, 1]⟩, ⟨1, [1, 2]⟩]⟩

theorem exists_semidefinite_line :
    Kernels.FactorsExactly ℝ ∧
    (∀ p ∈ lineEnds.patches, PosDef (lineDifferences.principal p.dofs).rows
      (lineDifferences.principal p.dofs).entry) ∧
    ∃ S, of? lineDifferences lineEnds (1 / 2) = .ok S ∧ Semidefinite 3 S.mult ∧
      S.mult #[0, 1, 0] ≠ Coords.zeros 3 := by
  have sorted : ∀ p ∈ lineEnds.patches, p.dofs.Pairwise (· < ·) := by decide
  have inside : ∀ p ∈ lineEnds.patches, ∀ v ∈ p.dofs, v < 3 := by decide
  have positive : ∀ p ∈ lineEnds.patches, PosDef (lineDifferences.principal p.dofs).rows
      (lineDifferences.principal p.dofs).entry := by
    intro p hp
    have listed := posDef_lineDifferences.principal ((sorted p hp).imp ne_of_lt) (inside p hp)
    exact listed.congr fun a ha b hb => (Csr.entry_principal_getD (sorted p hp) ha hb).symm
  obtain ⟨S, made, -, semidefinite, zero, -⟩ := exists_semidefinite Reals.factorsExactly
    (A := lineDifferences) (P := lineEnds) rfl rfl posDef_lineDifferences.symm sorted inside
    positive one_half_pos
  refine ⟨Reals.factorsExactly, positive, S, made, semidefinite, fun eq => ?_⟩
  have vanishes := (zero #[0, 1, 0]).1 eq ⟨0, [0, 1]⟩ List.mem_cons_self 1 (by decide)
  simp at vanishes

end Smoother

end Eigenmesh
