import Eigenmesh.Proofs.Scalar.Elimination
import Eigenmesh.Proofs.Sparse.Parts
import Eigenmesh.Proofs.Spectrum.Storage

/-!
Which matrices are factored by stored rows.

A shifted matrix is made twice, as a dense matrix that is checked and by stored rows that are
factored. Both are the same matrix, so stored rows are factored only if the check has admitted that
very matrix, and a spectrum does not depend on what would become of any other.
-/

namespace Eigenmesh

namespace Pencil

variable {α : Type} [Scalar.Exact α] {A : Csr α} {B : Option (Csr α)} {σ : α}

/-- The pencil of matrices that are given by stored rows. -/
def ofStored (A : Csr α) (B : Option (Csr α)) : Pencil α where
  A := A.toDense
  B := B.map Csr.toDense
  sparse := some (A, B)

/-- The second matrix, if there is one, is as large as the first, which is square. -/
structure Conforms (A : Csr α) (B : Option (Csr α)) : Prop where
  square : A.cols = A.rows
  second : ∀ M, B = some M → M.rows = A.rows ∧ M.cols = A.rows

/-- Stored rows that come about from entries which all lie inside, pass the checks of their arrays
and stand for `A - σ B`. -/
structure IsShifted (A : Csr α) (B : Option (Csr α)) (σ : α) (S : Csr α) : Prop where
  built : ∃ entries, Triplets.of? A.rows A.rows
    (A.triplets ++ shiftTriplets A.rows B σ).toArray = some entries ∧ entries.toCsr = S
  rows : S.rows = A.rows
  parts : Csr.ofParts? S.rowLengths A.rows S.storedColumns S.storedValues = some S
  entry : ∀ i < A.rows, ∀ j < A.rows, S.entry i j = A.entry i j - σ * unitEntry B i j
  toDense : S.toDense = (ofStored A B).shifted σ

lemma stored_ofStored (conforms : Conforms A B) : (ofStored A B).Stored where
  square := conforms.square
  conform M hM := by
    obtain ⟨N, rfl, rfl⟩ := Option.map_eq_some_iff.1 hM
    exact conforms.second N rfl
  sparse := by
    rintro _ _ ⟨⟩
    exact ⟨rfl, rfl⟩

lemma entry_shifted_ofStored (conforms : Conforms A B) {i j : ℕ} (hi : i < A.rows)
    (hj : j < A.rows) :
    ((ofStored A B).shifted σ).entry i j = A.entry i j - σ * unitEntry B i j := by
  have dense (M : Csr α) (hi : i < M.rows) (hj : j < M.cols) :
      M.toDense.entry i j = M.entry i j := by
    rw [Csr.toDense_eq, Dense.entry_ofFn _ hi hj]
  have unit : ((ofStored A B).B.getD (.identity A.rows)).entry i j = unitEntry B i j := by
    cases B with
    | none => exact Dense.entry_ofFn (fun i j => if i = j then (1 : α) else 0) hi hj
    | some M =>
      obtain ⟨rows, cols⟩ := conforms.second M rfl
      exact dense M (rows ▸ hi) (cols ▸ hj)
  have hj' : j < A.cols := conforms.square ▸ hj
  calc ((ofStored A B).shifted σ).entry i j
      = A.toDense.entry i j - (((ofStored A B).B.getD (.identity A.rows)).scale σ).entry i j :=
        Dense.entry_sub _ _ hi hj'
    _ = A.entry i j - σ * unitEntry B i j := by
        rw [dense A hi hj', Dense.entry_scale, unit, mul_comm]

lemma isShifted_shiftedCsr (conforms : Conforms A B) : IsShifted A B σ (shiftedCsr A B σ) := by
  have toDense : (shiftedCsr A B σ).toDense = (ofStored A B).shifted σ :=
    toDense_shiftedCsr rfl rfl conforms.square conforms.second
  have rows : (shiftedCsr A B σ).rows = A.rows := by
    rw [← Csr.rows_toDense, toDense]
    rfl
  have inside := lt_of_mem_shifted (σ := σ) conforms.square conforms.second
  refine ⟨⟨_, dif_pos inside, rfl⟩, rows, Csr.ofParts?_eq_some_iff.2 ⟨rfl, rfl, rfl, rfl⟩,
    fun i hi j hj => ?_, toDense⟩
  have inside : j < (shiftedCsr A B σ).cols := hj
  rw [← entry_shifted_ofStored conforms hi hj, ← toDense, Csr.toDense_eq,
    Dense.entry_ofFn _ (rows.symm ▸ hi) inside]

/-! ### What the check lets pass -/

variable [K : Kernels α] {P : Pencil α} {T : Transform α} {budget : ℕ} {rhs : Dense α}
  {f : Csr α → SparseLu α}

/-- The check of the dense decomposition lets the matrix pass. -/
def Admitted (M : Dense α) : Prop := ¬hasBadPivot (Kernels.lu M).pivots = true

/-- The same decompositions, but another one of stored rows. -/
@[reducible]
def withSparseLu (K : Kernels α) (f : Csr α → SparseLu α) : Kernels α := { K with sparseLu := f }

lemma solveShifted?_of_admitted (admitted : Admitted (P.shifted σ)) (hs : P.sparse = some (A, B)) :
    P.solveShifted? σ rhs = match Kernels.sparseLu (shiftedCsr A B σ) with
      | .factored solve => .ok (solveCols P.A.rows solve rhs)
      | .deficient => .error .sparseLu
      | .breakdown => .error .breakdown := by
  unfold solveShifted?
  simp only [hs]
  exact if_neg admitted

section Agreement

variable (stored : P.Stored) (agree : ∀ M : Csr α, Admitted M.toDense → f M = Kernels.sparseLu M)
include stored agree

lemma solveShifted?_withSparseLu :
    @solveShifted? α _ (withSparseLu K f) P σ rhs = P.solveShifted? σ rhs := by
  by_cases degenerate : P.Degenerate σ
  · rw [solveShifted?_of_degenerate degenerate]
    exact @solveShifted?_of_degenerate α _ P σ rhs (withSparseLu K f) degenerate
  · cases hs : P.sparse with
    | none =>
      unfold solveShifted?
      simp only [hs]
      rfl
    | some AB =>
      obtain ⟨A, B⟩ := AB
      obtain ⟨hA, hB⟩ := stored.sparse A B hs
      have conforms : Conforms A B := by
        refine ⟨?_, fun M hM => ?_⟩
        · have := stored.square
          rwa [hA] at this
        · have := stored.conform M.toDense (by rw [hB, hM]; rfl)
          rwa [hA] at this
      have admitted : Admitted (shiftedCsr A B σ).toDense := by
        rw [toDense_shiftedCsr hA hB conforms.square conforms.second]
        exact degenerate
      rw [solveShifted?_of_admitted degenerate hs, ← agree _ admitted]
      exact @solveShifted?_of_admitted α _ A B σ (withSparseLu K f) P rhs degenerate hs

lemma general?_withSparseLu :
    @general? α _ (withSparseLu K f) P T σ budget = P.general? T σ budget := by
  have transformed : @transformed? α _ (withSparseLu K f) P T σ = P.transformed? T σ := by
    unfold transformed?
    cases T.type with
    | shift => rfl
    | shiftInvert => exact solveShifted?_withSparseLu stored agree
  unfold general?
  rw [transformed]
  rfl

lemma hermitian?_withSparseLu :
    @hermitian? α _ (withSparseLu K f) P T σ budget = P.hermitian? T σ budget := by
  have reduced (L : Option (Dense α)) :
      @reduced? α _ (withSparseLu K f) P T σ L = P.reduced? T σ L := by
    unfold reduced?
    cases T.type with
    | shift => rfl
    | shiftInvert =>
      cases L with
      | none => exact solveShifted?_withSparseLu stored agree
      | some L =>
        exact congrArg (Except.map (L.transpose.mul ·)) (solveShifted?_withSparseLu stored agree)
  unfold hermitian?
  simp only [reduced]
  rfl

end Agreement

lemma solveShifted?_ofStored_eq_error {e : Fault α}
    (failed : (ofStored A B).solveShifted? σ rhs = .error e) :
    ¬Admitted ((ofStored A B).shifted σ) ∧ e = .singularShift σ ∨
      Admitted ((ofStored A B).shifted σ) ∧
        (e = .sparseLu ∧ Kernels.sparseLu (shiftedCsr A B σ) = .deficient ∨
          e = .breakdown ∧ Kernels.sparseLu (shiftedCsr A B σ) = .breakdown) := by
  by_cases degenerate : (ofStored A B).Degenerate σ
  · rw [solveShifted?_of_degenerate degenerate] at failed
    exact .inl ⟨not_not_intro degenerate, (Except.error.inj failed).symm⟩
  · refine .inr ⟨degenerate, ?_⟩
    rw [solveShifted?_of_admitted degenerate rfl] at failed
    split at failed
    · cases failed
    · rename_i deficient
      exact .inl ⟨(Except.error.inj failed).symm, deficient⟩
    · rename_i breakdown
      exact .inr ⟨(Except.error.inj failed).symm, breakdown⟩

/-- **Only what is admitted is factored.** The stored rows of `A - σ B` are those of a matrix, the
one that the check is made of. Solving fails for a matrix that is not admitted, and for one that is
only with its stored rows; so no spectrum depends on how stored rows are factored that stand for a
matrix which is not admitted. -/
theorem shiftedCsr_admitted (conforms : Conforms A B) (σ : α) :
    IsShifted A B σ (shiftedCsr A B σ) ∧
    (∀ rhs e, (ofStored A B).solveShifted? σ rhs = .error e →
      ¬Admitted (shiftedCsr A B σ).toDense ∧ e = .singularShift σ ∨
        Admitted (shiftedCsr A B σ).toDense ∧
          (e = .sparseLu ∧ Kernels.sparseLu (shiftedCsr A B σ) = .deficient ∨
            e = .breakdown ∧ Kernels.sparseLu (shiftedCsr A B σ) = .breakdown)) ∧
    ∀ f : Csr α → SparseLu α, (∀ M, Admitted M.toDense → f M = Kernels.sparseLu M) →
      (∀ rhs, @solveShifted? α _ (withSparseLu K f) (ofStored A B) σ rhs =
        (ofStored A B).solveShifted? σ rhs) ∧
      ∀ T budget,
        @hermitian? α _ (withSparseLu K f) (ofStored A B) T σ budget =
          (ofStored A B).hermitian? T σ budget ∧
        @general? α _ (withSparseLu K f) (ofStored A B) T σ budget =
          (ofStored A B).general? T σ budget := by
  have shifted := isShifted_shiftedCsr (σ := σ) conforms
  have stored := stored_ofStored conforms
  refine ⟨shifted, fun rhs e failed => ?_, fun f agree => ⟨fun rhs => ?_, fun T budget => ⟨?_, ?_⟩⟩⟩
  · rw [shifted.toDense]
    exact solveShifted?_ofStored_eq_error failed
  · exact solveShifted?_withSparseLu stored agree
  · exact hermitian?_withSparseLu stored agree
  · exact general?_withSparseLu stored agree

/-- Two stored rows, and one that is stored for the last entry alone. -/
def stepped : Csr ℚ := .ofTriplets 2 2 #[(0, 0, 1), (1, 1, 2)]

def lastEntry : Csr ℚ := .ofTriplets 2 2 #[(1, 1, 1)]

/-- Stored entries may cancel: with a stored zero on its diagonal the matrix is refused, even if
such rows could not be factored without a breakdown. -/
theorem shiftedCsr_admitted_cancelled :
    letI := Rational.elimination
    let S := shiftedCsr stepped (some lastEntry) 2
    let P := ofStored stepped (some lastEntry)
    Conforms stepped (some lastEntry) ∧ S.row 1 = [(1, 0)] ∧ S.toDense = P.shifted 2 ∧
      P.solveShifted? 2 (.identity 2) = .error (.singularShift 2) ∧ ¬Admitted S.toDense ∧
      ∃ f, f S = .breakdown ∧ (∀ M : Csr ℚ, Admitted M.toDense → f M = Kernels.sparseLu M) ∧
        @solveShifted? ℚ _ (withSparseLu Rational.elimination f) P 2 (.identity 2) =
          .error (.singularShift 2) := by
  classical
  let := Rational.elimination
  intro S P
  have conforms : Conforms stepped (some lastEntry) := by
    refine ⟨by decide +kernel, ?_⟩
    rintro _ ⟨⟩
    decide +kernel
  obtain ⟨shifted, fails, same⟩ := shiftedCsr_admitted conforms 2
  have diagonal : (P.shifted 2).IsDiagonal := by decide +kernel
  have degenerate : P.Degenerate 2 := by
    change hasBadPivot (Dense.eliminated (P.shifted 2)).pivots = true
    rw [Dense.eliminated, if_pos diagonal]
    decide +kernel
  have refused : P.solveShifted? 2 (.identity 2) = .error (.singularShift 2) :=
    solveShifted?_of_degenerate degenerate
  have rejected : ¬Admitted S.toDense := by
    obtain ⟨rejected, -⟩ | ⟨-, ⟨impossible, -⟩ | ⟨impossible, -⟩⟩ := fails _ _ refused
    · exact rejected
    · cases impossible
    · cases impossible
  let f (M : Csr ℚ) : SparseLu ℚ := if Admitted M.toDense then Kernels.sparseLu M else .breakdown
  have agree (M : Csr ℚ) (admitted : Admitted M.toDense) : f M = Kernels.sparseLu M :=
    if_pos admitted
  exact ⟨conforms, by decide +kernel, shifted.toDense, refused, rejected, f, if_neg rejected, agree,
    ((same f agree).1 _).trans refused⟩

end Pencil

end Eigenmesh
