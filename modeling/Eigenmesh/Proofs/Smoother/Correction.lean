import Eigenmesh.Proofs.Dense.Positive
import Eigenmesh.Proofs.Dense.Substitution
import Eigenmesh.Proofs.Lists
import Eigenmesh.Proofs.Smoother.Runs
import Eigenmesh.Proofs.Sparse.Principal

/-!
The correction of a smoother.

Each patch has a vector that is zero outside the patch and whose product with the matrix is the
residual on it. The correction is the damped sum of these vectors.
-/

namespace Eigenmesh

variable {α : Type} [Scalar.Exact α]

/-- Whatever is positive definite has a factor, and that is found. -/
def Kernels.FactorsExactly (α : Type) [Scalar.Exact α] [Kernels α] : Prop :=
  ∀ M : Dense α, M.cols = M.rows → PosDef M.rows M.entry →
    ∃ L, Kernels.cholesky? M = some L ∧ L.IsFactor M.rows M.entry

lemma spread_cons (v : ℕ) (dofs : List ℕ) (y : ℕ → α) (i : ℕ) :
    spread (v :: dofs) y i = (if v = i then y 0 else 0) + spread dofs (fun a => y (a + 1)) i := by
  rw [spread, List.length_cons, Finset.sum_range_succ', add_comm]
  rfl

namespace Smoother

variable {S : Smoother α} {A : Csr α} {P : Patches} {theta : α} {n i : ℕ} {r z : Array α}

lemma getD_scatter {dofs : List ℕ} {c : Array α} (hi : i < z.size) :
    (scatter theta z dofs c).getD i 0 =
      z.getD i 0 + theta * spread dofs (fun a => c.getD a 0) i := by
  have values : (fun a => c.getD a 0) = fun a => c.toList.getD a 0 := by
    funext a
    rw [Array.getD_eq_getD_getElem?, List.getD_eq_getElem?_getD, Array.getElem?_toList]
  rw [scatter, values]
  generalize c.toList = l
  clear values
  induction dofs generalizing l z with
  | nil => simp [spread]
  | cons v dofs ih =>
    obtain _ | ⟨w, l⟩ := l
    · simp [spread]
    · rw [List.zip_cons_cons, List.foldl_cons, ih (by simpa using hi) l,
        Coords.getD_modify z v _ hi, spread_cons]
      simp only [List.getD_cons_zero, List.getD_cons_succ]
      split <;> ring

/-- The patches, each with its factor. -/
def patchFactors (S : Smoother α) : List (Patch × Dense α) := S.patches.patches.zip S.factors

/-- What a patch adds to the correction, before damping. -/
def patchSolution (p : Patch) (L : Dense α) (r : Array α) : ℕ → α :=
  spread p.dofs fun a => (L.solveBoth (p.dofs.map fun i => r.getD i 0).toArray).getD a 0

lemma getD_correction (hi : i < n) :
    (S.correction n r).getD i 0 =
      S.theta * (S.patchFactors.map fun x => patchSolution x.1 x.2 r i).sum := by
  have added (l : List (Patch × Dense α)) (z : Array α) (hi : i < z.size) :
      (l.foldl (fun z x => scatter S.theta z x.1.dofs
        (x.2.solveBoth (x.1.dofs.map fun i => r.getD i 0).toArray)) z).getD i 0 =
          z.getD i 0 + S.theta * (l.map fun x => patchSolution x.1 x.2 r i).sum := by
    induction l generalizing z with
    | nil => simp
    | cons x l ih =>
      rw [List.foldl_cons, ih _ (by simpa using hi), getD_scatter hi, List.map_cons, List.sum_cons,
        patchSolution]
      ring
  change (S.patchFactors.foldl _ (Coords.zeros n)).getD i 0 = _
  rw [added _ _ (by simpa [Coords.zeros] using hi), Coords.zeros,
    Coords.getD_replicate_zero, zero_add]

/-- Every patch has the factor of its matrix. -/
structure Factored (S : Smoother α) : Prop where
  length : S.factors.length = S.patches.patches.length
  factor : ∀ x ∈ S.patchFactors, x.2.IsFactor x.1.dofs.length fun a b =>
    S.matrix.entry (x.1.dofs.getD a 0) (x.1.dofs.getD b 0)

lemma of?_eq_ok [Kernels α] (made : of? A P theta = .ok S) : A.rows = P.dofCount ∧
    ∃ factors, S = ⟨A, P, factors, theta⟩ ∧
      List.Forall₂ (fun p L => Kernels.cholesky? (A.principal p.dofs) = some L) P.patches
        factors := by
  unfold of? at made
  split at made
  case isFalse => cases made
  case isTrue rows =>
    simp only [bind, Except.bind] at made
    split at made
    case h_1 => cases made
    case h_2 factors computed =>
      refine ⟨rows, factors, (Except.ok.inj made).symm, ?_⟩
      rw [← List.zipIdx_map_fst 0 P.patches, List.forall₂_map_left_iff]
      refine (forall₂_of_mapM_eq_ok computed).imp fun x L found => ?_
      unfold factor? at found
      split at found
      · rename_i L' found'
        rw [found', Except.ok.inj found]
      · cases found

lemma exists_factored [Kernels α] (exact : Kernels.FactorsExactly α) (theta : α)
    (rows : A.rows = P.dofCount)
    (sorted : ∀ p ∈ P.patches, p.dofs.Pairwise (· < ·))
    (positive : ∀ p ∈ P.patches, PosDef p.dofs.length fun a b =>
      A.entry (p.dofs.getD a 0) (p.dofs.getD b 0)) :
    ∃ S, of? A P theta = .ok S ∧ S.matrix = A ∧ S.patches = P ∧ S.theta = theta ∧ S.Factored := by
  have entries {p : Patch} (hp : p ∈ P.patches) {a b : ℕ} (ha : a < p.dofs.length)
      (hb : b < p.dofs.length) :
      A.entry (p.dofs.getD a 0) (p.dofs.getD b 0) = (A.principal p.dofs).entry a b :=
    (Csr.entry_principal_getD (sorted p hp) ha hb).symm
  have factored (x : Patch × ℕ) (hx : x ∈ P.patches.zipIdx) :
      ∃ L, factor? A x.1 x.2 = .ok L ∧ L.IsFactor x.1.dofs.length fun a b =>
        A.entry (x.1.dofs.getD a 0) (x.1.dofs.getD b 0) := by
    have hp := List.fst_mem_of_mem_zipIdx hx
    obtain ⟨L, found, factor⟩ := exact (A.principal x.1.dofs) rfl
      ((positive x.1 hp).congr fun a ha b hb => entries hp ha hb)
    refine ⟨L, by rw [factor?, found], { factor with mul := fun a ha b hb => ?_ }⟩
    exact (factor.mul a ha b hb).trans (entries hp ha hb).symm
  obtain ⟨factors, computed, all⟩ := exists_mapM_eq_ok factored
  replace computed : P.patches.zipIdx.mapM (fun x => factor? A x.1 x.2) = .ok factors := computed
  refine ⟨⟨A, P, factors, theta⟩, ?_, rfl, rfl, rfl, ?_, fun x hx => ?_⟩
  · rw [of?, if_pos rows, computed]
    rfl
  · rw [← all.length_eq, List.length_zipIdx]
  · exact (exists_of_mem_zip all hx).choose_spec.2

namespace Factored

variable (h : S.Factored)
include h

lemma map_fst_patchFactors : S.patchFactors.map Prod.fst = S.patches.patches :=
  List.map_fst_zip h.length.ge

lemma sum_entry_mul_patchSolution {x : Patch × Dense α} (hx : x ∈ S.patchFactors)
    (inside : ∀ v ∈ x.1.dofs, v < n) {v : ℕ} (hv : v ∈ x.1.dofs) :
    ∑ j ∈ Finset.range n, S.matrix.entry v j * patchSolution x.1 x.2 r j = r.getD v 0 := by
  obtain ⟨a, ha, rfl⟩ := List.getElem_of_mem hv
  have solved := (h.factor x hx).solveBoth_spec (x.1.dofs.map fun i => r.getD i 0).toArray ha
  rw [patchSolution, sum_mul_spread inside, ← List.getD_eq_getElem _ 0 ha, solved]
  simp [ha]

end Factored

end Smoother

end Eigenmesh
