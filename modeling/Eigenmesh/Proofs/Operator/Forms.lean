import Mathlib.Algebra.BigOperators.Ring.Finset
import Mathlib.Algebra.Module.Submodule.Basic
import Mathlib.Algebra.Module.BigOperators
import Mathlib.Tactic.Ring
import Eigenmesh.Proofs.Dense.Substitution
import Eigenmesh.Proofs.Patches.Covering
import Eigenmesh.Proofs.Smoother.Correction
import Eigenmesh.Proofs.Spectrum.Sizes

/-!
Quantities that are linear in a vector.

A quantity computed from the entries of a vector is a linear form if it is a weighted sum of them.
Linear forms add up and can be scaled, so whatever is computed from them by sums and by products
with fixed factors is one again. Each step of a substitution is of that kind, and so is each entry
of the correction of a smoother.
-/

namespace Eigenmesh

variable {α : Type} [Scalar.Exact α]

/-- The weighted sums of the entries of vectors of `n` entries. -/
def forms (α : Type) [Scalar.Exact α] (n : ℕ) : Submodule α (Array α → α) where
  carrier := {φ | ∃ c : ℕ → α, ∀ x : Array α, x.size = n →
    φ x = ∑ j ∈ Finset.range n, c j * x.getD j 0}
  zero_mem' := ⟨0, fun x _ => by simp⟩
  add_mem' := by
    rintro φ ψ ⟨c, hc⟩ ⟨d, hd⟩
    refine ⟨c + d, fun x size => ?_⟩
    simp only [Pi.add_apply, hc x size, hd x size, add_mul, Finset.sum_add_distrib]
  smul_mem' := by
    rintro a φ ⟨c, hc⟩
    refine ⟨a • c, fun x size => ?_⟩
    simp only [Pi.smul_apply, smul_eq_mul, hc x size, Finset.mul_sum, mul_assoc]

variable {n : ℕ} {φ ψ : Array α → α}

lemma getD_mem_forms {j : ℕ} (hj : j < n) : (fun x : Array α => x.getD j 0) ∈ forms α n := by
  refine ⟨fun k => if k = j then 1 else 0, fun x _ => ?_⟩
  simp [hj]

lemma sub_mem_forms (hφ : φ ∈ forms α n) (hψ : ψ ∈ forms α n) :
    (fun x => φ x - ψ x) ∈ forms α n :=
  sub_mem hφ hψ

lemma mul_mem_forms (a : α) (hφ : φ ∈ forms α n) : (fun x => a * φ x) ∈ forms α n :=
  Submodule.smul_mem _ a hφ

lemma div_mem_forms (hφ : φ ∈ forms α n) (a : α) : (fun x => φ x / a) ∈ forms α n := by
  simpa only [div_eq_inv_mul] using mul_mem_forms a⁻¹ hφ

lemma ite_mem_forms (p : Prop) [Decidable p] (hφ : φ ∈ forms α n) (hψ : ψ ∈ forms α n) :
    (fun x => if p then φ x else ψ x) ∈ forms α n := by
  split
  · exact hφ
  · exact hψ

lemma sum_mem_forms {ι : Type} (s : Finset ι) {φ : ι → Array α → α}
    (h : ∀ i ∈ s, φ i ∈ forms α n) : (fun x => ∑ i ∈ s, φ i x) ∈ forms α n := by
  have := Submodule.sum_mem (forms α n) h
  rwa [Finset.sum_fn] at this

lemma list_sum_mem_forms {ι : Type} (l : List ι) {φ : ι → Array α → α}
    (h : ∀ i ∈ l, φ i ∈ forms α n) : (fun x => (l.map fun i => φ i x).sum) ∈ forms α n := by
  induction l with
  | nil => exact Submodule.zero_mem _
  | cons i l ih =>
    simp only [List.map_cons, List.sum_cons]
    exact add_mem (h i List.mem_cons_self) (ih fun k hk => h k (List.mem_cons_of_mem i hk))

lemma form_add_map (hφ : φ ∈ forms α n) (c : α) {r s : Array α} (hr : r.size = n)
    (hs : s.size = n) : φ (Coords.add (r.map (c * ·)) s) = c * φ r + φ s := by
  obtain ⟨d, hd⟩ := hφ
  rw [hd _ (by simpa), hd r hr, hd s hs, Finset.mul_sum, ← Finset.sum_add_distrib]
  refine Finset.sum_congr rfl fun j hj => ?_
  have inside : j < r.size := by simpa [hr] using hj
  rw [Coords.getD_add _ _ (by simpa using inside)]
  simp [inside, mul_add, mul_left_comm]

lemma form_neg (hφ : φ ∈ forms α n) {r s : Array α} (hr : r.size = n) (hs : s.size = n)
    (opposite : ∀ j < n, r.getD j 0 = -s.getD j 0) : φ r = -φ s := by
  obtain ⟨d, hd⟩ := hφ
  rw [hd r hr, hd s hs, ← Finset.sum_neg_distrib]
  exact Finset.sum_congr rfl fun j hj => by rw [opposite j (Finset.mem_range.1 hj), mul_neg]

/-! ### Substitution -/

namespace Dense

variable {L : Dense α} {g : Array α → Array α}

lemma getD_forwardTo_mem_forms (hg : ∀ i, (fun x => (g x).getD i 0) ∈ forms α n) (m i : ℕ) :
    (fun x => (L.forwardTo (g x) m).getD i 0) ∈ forms α n := by
  induction m generalizing i with
  | zero => exact Submodule.zero_mem _
  | succ m ih =>
    simp only [forwardTo_succ, getD_push, size_forwardTo]
    have found := sum_mem_forms (Finset.range m) fun j _ => mul_mem_forms (L.entry m j) (ih j)
    exact ite_mem_forms _ (div_mem_forms (sub_mem_forms (hg m) found) _) (ih i)

lemma getD_backwardSumsFrom_mem_forms (size : ∀ x, (g x).size = L.rows)
    (hg : ∀ i, (fun x => (g x).getD i 0) ∈ forms α n) {k : ℕ} (hk : k ≤ L.rows) (i : ℕ) :
    (fun x => (L.backwardSumsFrom k (g x)).getD i 0) ∈ forms α n := by
  induction k generalizing g with
  | zero => exact hg i
  | succ k ih =>
    simp only [backwardSumsFrom]
    refine ih (fun x => by rw [Array.size_setIfInBounds, size]) (fun i => ?_) (Nat.le_of_succ_le hk)
    have inside : ∀ x, k < (g x).size := fun x => (size x).symm ▸ hk
    simp only [getD_setIfInBounds (inside _), sumByEight_eq_sum]
    have solved := sum_mem_forms (Finset.range (L.rows - (k + 1))) fun j _ =>
      mul_mem_forms (L.entry (k + 1 + j) k) (hg (k + 1 + j))
    exact ite_mem_forms _ (div_mem_forms (sub_mem_forms (hg k) solved) _) (hg i)

lemma getD_solveBoth_mem_forms (hg : ∀ i, (fun x => (g x).getD i 0) ∈ forms α n) (i : ℕ) :
    (fun x => (L.solveBoth (g x)).getD i 0) ∈ forms α n :=
  getD_backwardSumsFrom_mem_forms (fun x => size_forward L (g x))
    (getD_forwardTo_mem_forms hg L.rows) le_rfl i

end Dense

/-! ### Smoothers -/

namespace Smoother

variable {S : Smoother α}

/-- The unknowns of the patches are rows and columns of the matrix, and each factor has the size of
its patch. -/
structure Fits (S : Smoother α) : Prop where
  inside : ∀ p ∈ S.patches.patches, ∀ i ∈ p.dofs, i < S.matrix.rows ∧ i < S.matrix.cols
  factor : ∀ x ∈ S.patchFactors, x.2.rows = x.1.dofs.length

/-- **Smoothers of square matrices fit**, whatever patches of a grid they are made from. -/
lemma fits_of? [Kernels α] (kernels : Kernels.Fits α) {A : Csr α}
    {P : Patches} {coarse : Grid} {k : ℕ} {essential : List ℕ} {theta : α}
    (covers : P.Covers coarse k essential) (square : A.rows = A.cols)
    (made : of? A P theta = .ok S) : S.Fits := by
  obtain ⟨rows, factors, rfl, found⟩ := of?_eq_ok made
  refine ⟨fun p hp i hi => ?_, fun x hx => ?_⟩
  · have inside := ((covers.dofs p hp).2.2.2 i).1 hi
    rw [← covers.dofCount, ← rows] at inside
    exact ⟨inside.1, square ▸ inside.1⟩
  · exact (kernels.cholesky _ _ ((List.forall₂_iff_zip.1 found).2 hx)).1

lemma patchSolution_mem_forms {p : Patch} (inside : ∀ i ∈ p.dofs, i < n) (L : Dense α) (i : ℕ) :
    (fun r => patchSolution p L r i) ∈ forms α n := by
  have residual : ∀ a, (fun r : Array α => (p.dofs.map fun i => r.getD i 0).toArray.getD a 0) ∈
      forms α n := by
    intro a
    by_cases ha : a < p.dofs.length
    · have entry := getD_mem_forms (α := α) (inside _ (List.getElem_mem ha))
      simpa [ha] using entry
    · have none : (fun r : Array α => (p.dofs.map fun i => r.getD i 0).toArray.getD a 0) = 0 := by
        funext r
        simp [ha]
      rw [none]
      exact Submodule.zero_mem _
  refine sum_mem_forms (Finset.range p.dofs.length) fun a _ => ?_
  have solved := Dense.getD_solveBoth_mem_forms (L := L) residual a
  exact ite_mem_forms (p.dofs.getD a 0 = i) solved (Submodule.zero_mem _)

/-- **A smoother is linear**, whatever the factors are. -/
lemma getD_correction_mem_forms {m : ℕ} (inside : ∀ p ∈ S.patches.patches, ∀ v ∈ p.dofs, v < n)
    {i : ℕ} (hi : i < m) : (fun r => (S.correction m r).getD i 0) ∈ forms α n := by
  simp only [getD_correction hi]
  refine mul_mem_forms _ (list_sum_mem_forms _ fun x hx => ?_)
  exact patchSolution_mem_forms (inside x.1 (List.of_mem_zip hx).1) x.2 i

omit [Scalar.Exact α] in
lemma takes_of_fits (fits : S.Fits) : S.takes S.matrix.cols = true :=
  takes_iff.2 fun p hp i hi => (fits.inside p hp i hi).2

end Smoother

end Eigenmesh
