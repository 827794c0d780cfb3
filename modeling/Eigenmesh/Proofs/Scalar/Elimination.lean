import Mathlib.LinearAlgebra.Matrix.Determinant.Basic
import Eigenmesh.Proofs.Dense.Matrices
import Eigenmesh.Proofs.Scalar.Complex
import Eigenmesh.Proofs.Scalar.Rational
import Eigenmesh.Proofs.Spectrum.Inverted

/-!
Elimination that is exact.

Over a field a diagonal matrix is solved with by division, and any other regular matrix by whatever
solution there is. So there are decompositions of rational matrices that the assumption of exact
elimination holds of, and with which a computation on diagonal matrices can be followed.
-/

namespace Eigenmesh

namespace Dense

variable {β : Type}

/-- A square matrix with nothing beside its diagonal. -/
def IsDiagonal [Zero β] (A : Dense β) : Prop :=
  A.cols = A.rows ∧ ∀ i < A.rows, ∀ j < A.cols, i ≠ j → A.entry i j = 0

instance [Zero β] [DecidableEq β] (A : Dense β) : Decidable A.IsDiagonal :=
  inferInstanceAs (Decidable (_ ∧ _))

variable [Field β]

lemma IsDiagonal.leading {A : Dense β} (diagonal : A.IsDiagonal) :
    A.leading A.rows = Matrix.diagonal fun i : Fin A.rows => A.entry i i := by
  obtain ⟨square, beside⟩ := diagonal
  ext i j
  rw [leading_apply, Matrix.diagonal_apply]
  split
  · rename_i same
    rw [same]
  · rename_i apart
    exact beside i i.isLt j (j.isLt.trans_eq square.symm) fun same => apart (Fin.ext same)

lemma IsDiagonal.regular_iff {A : Dense β} (diagonal : A.IsDiagonal) :
    A.Regular ↔ ∀ i < A.rows, A.entry i i ≠ 0 := by
  rw [regular_iff_det rfl diagonal.1, diagonal.leading, Matrix.det_diagonal,
    Finset.prod_ne_zero_iff]
  exact ⟨fun h i hi => h ⟨i, hi⟩ (Finset.mem_univ _), fun h i _ => h i i.isLt⟩

/-- Entries divided by those of the diagonal. -/
def divided (A : Dense β) (b : Array β) : Array β :=
  Array.ofFn fun i : Fin A.rows => b.getD i 0 / A.entry i i

lemma IsDiagonal.solves_divided {A : Dense β} (diagonal : A.IsDiagonal) (regular : A.Regular)
    {b : Array β} (size : b.size = A.rows) : A.Solves (A.divided b) b := by
  refine ⟨Array.size_ofFn.trans diagonal.1.symm, Coords.eq_of_vector (size_mulVec _ _) size ?_⟩
  rw [vector_mulVec rfl diagonal.1, diagonal.leading]
  funext i
  rw [Matrix.mulVec_diagonal, divided, Coords.vector_ofFn]
  exact mul_div_cancel₀ _ (diagonal.regular_iff.1 regular i i.isLt)

open Classical in
/-- Elimination as it is meant: the diagonal of a diagonal matrix, and of any other one pivot that
tells whether there are solutions. -/
noncomputable def eliminated [DecidableEq β] (A : Dense β) : Lu β :=
  if A.IsDiagonal then
    { pivots := Array.ofFn fun i : Fin A.rows => A.entry i i
      solve? := fun b =>
        if (List.range A.rows).all fun i => A.entry i i ≠ 0 then some (A.divided b) else none }
  else
    { pivots := #[if A.Regular then 1 else 0]
      solve? := fun b =>
        if h : A.Regular ∧ ∃ x, A.Solves x b then some h.2.choose else none }

variable [DecidableEq β] {A : Dense β}

lemma regular_iff_pivots : A.Regular ↔ ∀ p ∈ A.eliminated.pivots, p ≠ 0 := by
  unfold eliminated
  split
  · rename_i diagonal
    rw [diagonal.regular_iff]
    simp only [Array.mem_ofFn]
    exact ⟨by rintro h _ ⟨i, rfl⟩; exact h i i.isLt, fun h i hi => h _ ⟨⟨i, hi⟩, rfl⟩⟩
  · by_cases regular : A.Regular <;> simp [regular]

lemma Regular.pivots_eliminated (regular : A.Regular) (coupled : ¬A.IsDiagonal) :
    A.eliminated.pivots = #[1] := by
  simp only [eliminated, if_neg coupled, if_pos regular]

lemma Regular.exists_solve? (regular : A.Regular) {b : Array β} (size : b.size = A.rows) :
    ∃ x, A.eliminated.solve? b = some x ∧ A.Solves x b := by
  unfold eliminated
  split
  · rename_i diagonal
    have nonzero := diagonal.regular_iff.1 regular
    refine ⟨_, if_pos ?_, diagonal.solves_divided regular size⟩
    simpa using nonzero
  · have solvable := regular.exists_solves size
    exact ⟨_, dif_pos ⟨regular, solvable⟩, solvable.choose_spec⟩

lemma size_of_solve? {b x : Array β} (h : A.eliminated.solve? b = some x) : x.size = A.rows := by
  unfold eliminated at h
  split at h
  · simp only at h
    split at h
    · obtain rfl := Option.some.inj h
      exact Array.size_ofFn
    · cases h
  · simp only at h
    split at h
    · rename_i solvable
      obtain rfl := Option.some.inj h
      exact solvable.2.choose_spec.size.trans solvable.1.square
    · cases h

end Dense

/-- Elimination by stored rows, the same as that of the dense matrix. -/
noncomputable def Csr.eliminated {α : Type} [Scalar.Exact α] [DecidableEq α] (A : Csr α) :
    SparseLu α :=
  if A.toDense.eliminated.pivots.any (· == 0) then .deficient
  else .factored fun b => (A.toDense.eliminated.solve? b).getD b

lemma Kernels.Eliminates.of_eliminated {α : Type} [Scalar.Exact α] [DecidableEq α] [Kernels α]
    (lu : ∀ A : Dense α, Kernels.lu A = A.eliminated)
    (sparseLu : ∀ A : Csr α, Kernels.sparseLu A = A.eliminated) : Kernels.Eliminates α := by
  refine ⟨fun A _ pivots => ?_, fun A regular b size => ?_, fun A regular => ?_⟩
  · rw [lu] at pivots
    exact Dense.regular_iff_pivots.2 pivots
  · rw [lu]
    exact regular.exists_solve? size
  · have pivots := Dense.regular_iff_pivots.1 regular
    rw [sparseLu]
    refine ⟨_, if_neg ?_, fun b size => ?_⟩
    · rw [Array.any_eq_true']
      rintro ⟨p, hp, zero⟩
      exact pivots p hp (Scalar.beq_zero_iff.1 zero)
    · obtain ⟨x, solved, solves⟩ := regular.exists_solve? size
      rw [solved]
      exact solves

namespace Rational

instance : DecidableEq (Cplx ℚ) := fun z w =>
  decidable_of_iff (z.re = w.re ∧ z.im = w.im) ⟨fun h => Cplx.ext h.1 h.2, fun h => h ▸ ⟨rfl, rfl⟩⟩

instance : DecidableEq (EigenPair ℚ) := fun p q =>
  decidable_of_iff (p.value = q.value ∧ p.vector = q.vector)
    ⟨fun h => by cases p; cases q; cases h.1; cases h.2; rfl, fun h => h ▸ ⟨rfl, rfl⟩⟩

open Classical in
/-- Decompositions of rational matrices with exact elimination and whatever Cholesky factor there
is. Only diagonal matrices have eigenvalues, their entries. -/
@[reducible]
noncomputable def elimination : Kernels ℚ where
  lu A := A.eliminated
  complexLu A := A.eliminated
  cholesky? A := if h : ∃ L : Dense ℚ, L.IsFactor A.rows A.entry then some h.choose else none
  sparseLu A :=
    if A.toDense.eliminated.pivots.any (· == 0) then .deficient
    else .factored fun b => (A.toDense.eliminated.solve? b).getD b
  sparseCholesky? _ := none
  symmetricEigen? _ := symmetricEigen?
  eigenvalues? _ A := (diagonal? A).map fun values => values.toList.map .ofReal
  lanczos? _ _ := none

lemma eliminates : @Kernels.Eliminates ℚ _ elimination :=
  @Kernels.Eliminates.of_eliminated ℚ _ _ elimination (fun _ => rfl) fun _ => rfl

lemma fits_elimination : @Kernels.Fits ℚ _ elimination := by
  refine @Kernels.Fits.mk ℚ _ elimination ?_ ?_ ?_ ?_
  · intro A L h
    obtain ⟨factored, found⟩ := Option.dite_none_right_eq_some.1 h
    obtain rfl := Option.some.inj found
    exact ⟨factored.choose_spec.rows, factored.choose_spec.cols⟩
  · exact fun A b x h => Dense.size_of_solve? h
  · exact fits.symmetricEigen
  · exact fun _ _ _ h => nomatch h

lemma leading_of_diagonal? {A : Dense ℚ} {values : Array ℚ} {n : ℕ} (rows : A.rows = n)
    (cols : A.cols = n) (h : diagonal? A = some values) : values.size = n ∧
      A.leading n = Matrix.diagonal fun j : Fin n => values.getD j 0 := by
  subst rows
  unfold diagonal? at h
  split at h
  · rename_i beside
    obtain rfl := Option.some.inj h
    have diagonal : A.IsDiagonal := by
      refine ⟨cols, fun i hi j hj apart => ?_⟩
      simp only [List.all_eq_true, List.mem_range, Bool.or_eq_true, decide_eq_true_eq,
        Scalar.beq_zero_iff] at beside
      exact (beside i hi j hj).resolve_left apart
    refine ⟨Array.size_ofFn, diagonal.leading.trans (congrArg _ ?_)⟩
    funext i
    simp
  · cases h

lemma diagonalizes : @Kernels.Diagonalizes ℚ _ elimination := by
  refine @Kernels.Diagonalizes.mk ℚ _ elimination ?_ ?_ ?_ ?_
  · rintro n A L rfl - factor
    exact ⟨_, dif_pos ⟨L, factor⟩⟩
  · rintro n A L rfl - - h
    obtain ⟨factored, found⟩ := Option.dite_none_right_eq_some.1 h
    obtain rfl := Option.some.inj found
    exact factored.choose_spec
  · rintro n budget A values vectors rows cols - h
    obtain ⟨values, diagonal, h⟩ := Option.map_eq_some_iff.1 h
    obtain ⟨rfl, rfl⟩ := Prod.mk.inj h
    obtain ⟨size, leading⟩ := leading_of_diagonal? rows cols diagonal
    subst rows
    rw [Dense.leading_identity, leading, Matrix.transpose_one, one_mul, one_mul, mul_one]
    exact ⟨size, rfl, rfl⟩
  · rintro n budget A values rows cols h
    obtain ⟨values, diagonal, rfl⟩ := Option.map_eq_some_iff.1 h
    obtain ⟨size, leading⟩ := leading_of_diagonal? rows cols diagonal
    rw [Dense.leading_toCplx]
    exact .of_real (V := 1) size (by rw [Matrix.transpose_one, one_mul])
      (by rw [leading, one_mul, mul_one])

end Rational

end Eigenmesh
