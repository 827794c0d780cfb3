import Eigenmesh.Proofs.Patches.Covering
import Eigenmesh.Proofs.Scalar.Doubles
import Eigenmesh.Proofs.Smoother.Runs

/-!
Smoothing in several runs.

A run can be cut anywhere, whatever the arithmetic. At an unknown in no patch each step adds zero,
which leaves the number there.
-/

namespace Eigenmesh.Smoother

variable {α : Type} [Scalar α] [Scalar.AddsZero α] {S : Smoother α} {b : Array α} {i : ℕ}

lemma sameNumber_step (away : ∀ p ∈ S.patches.patches, i ∉ p.dofs) (x : Array α) :
    Scalar.SameNumber (x.getD i 0) ((S.step b x).getD i 0) := by
  by_cases hi : i < x.size
  · have entry : (S.step b x).getD i 0 = x.getD i 0 + 0 := by
      rw [← getD_correction_of_notMem (r := S.residual b x) away x.size]
      simp [step, Coords.add, hi]
    rw [entry]
    exact Scalar.AddsZero.add_zero _
  · have beyond : (S.step b x).getD i 0 = x.getD i 0 := by simp [hi]
    rw [beyond]
    exact .refl _

lemma sameNumber_smooth (away : ∀ p ∈ S.patches.patches, i ∉ p.dofs) (x : Array α) (steps : ℕ) :
    Scalar.SameNumber (x.getD i 0) ((S.smooth b steps x).2.getD i 0) := by
  induction steps with
  | zero => exact .refl _
  | succ steps ih =>
    rw [smooth_succ']
    exact ih.trans (sameNumber_step away _)

/-- **Smoothing composes.** A run of `m + k` steps can be made if there is room for its norms and
both of its parts can be made. It ends where they end, and lists the norm at which they meet once.
There is a norm for the residual before each step and one for the last. All corrections can be made
in one buffer, whatever it holds. The values at unknowns in no patch stay the same numbers, among
them those at the essential unknowns. -/
theorem smooth_composes (S : Smoother α) (b x : Array α) (m k : ℕ) :
    (S.fits b x (m + k) = true ↔ S.fits b x m = true ∧ S.fits b (S.smooth b m x).2 k = true ∧
      Word.isArray (m + k + 1) 8 = true) ∧
    S.smooth b (m + k) x =
      ((S.smooth b m x).1.dropLast ++ (S.smooth b k (S.smooth b m x).2).1,
        (S.smooth b k (S.smooth b m x).2).2) ∧
    (S.smooth b m x).1.length = m + 1 ∧
    (∀ j ≤ m, (S.smooth b m x).1[j]? =
      some (Coords.norm (Coords.sub b (S.matrix.mulVec (S.smooth b j x).2)))) ∧
    (∀ buffer : Array α, buffer.size = x.size → S.smoothInto b m x buffer = S.smooth b m x) ∧
    (∀ v, (∀ p ∈ S.patches.patches, v ∉ p.dofs) →
      Scalar.SameNumber (x.getD v 0) ((S.smooth b m x).2.getD v 0)) ∧
    ∀ coarse refinements essential,
      Patches.of? coarse refinements essential = .ok S.patches → ∀ v ∈ essential,
        Scalar.SameNumber (x.getD v 0) ((S.smooth b m x).2.getD v 0) := by
  refine ⟨fits_add_iff m k x, Prod.ext (norms_add m k x) (vector_add m k x), ?_, fun j hj => ?_,
    fun buffer size => smoothInto_eq size m, fun v away => sameNumber_smooth away x m,
    fun coarse refinements essential made v hv => ?_⟩
  · rw [norms_eq, List.length_map, List.length_range]
  · rw [norms_eq, List.getElem?_map, List.getElem?_range (Nat.lt_succ_of_le hj)]
    rfl
  · exact sameNumber_smooth ((Patches.covers_of_eq_ok made).1.excluded v hv) x m

/-- A smoother in doubles with one patch, which leaves out the first of two unknowns. -/
def secondOnly : Smoother Float where
  matrix := ⟨2, #[[(0, 1), (1, -1)], [(0, -1), (1, 4)]], by decide⟩
  patches := ⟨2, [⟨0, [1]⟩]⟩
  factors := [⟨1, 1, #[2], rfl⟩]
  theta := 0.5

/-- Minus zero is left as a zero. -/
theorem smooth_composes_zero :
    Scalar.AddsZero Float ∧
    (secondOnly.smooth #[1, 2] (2 + 3) #[-0, 1]).1 =
      (secondOnly.smooth #[1, 2] 2 #[-0, 1]).1.dropLast ++
        (secondOnly.smooth #[1, 2] 3 (secondOnly.smooth #[1, 2] 2 #[-0, 1]).2).1 ∧
    Scalar.SameNumber (-0) ((secondOnly.smooth #[1, 2] 2 #[-0, 1]).2.getD 0 0) := by
  obtain ⟨-, run, -, -, -, away, -⟩ := smooth_composes secondOnly #[1, 2] #[-0, 1] 2 3
  refine ⟨inferInstance, congrArg Prod.fst run, away 0 fun p hp => ?_⟩
  obtain rfl := List.mem_singleton.1 hp
  decide

end Eigenmesh.Smoother
