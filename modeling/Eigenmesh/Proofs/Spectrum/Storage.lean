import Eigenmesh.Proofs.Sparse.Shifted
import Eigenmesh.Proofs.Spectrum.Sizes

/-!
What a spectrum has to do with the way matrices are stored.

Stored rows are used for one thing only, to solve with the shifted matrix once its dense
decomposition has shown it to be regular. So a pencil with stored rows and the same pencil without
them differ only in how such a system is solved, and not at all if both ways are exact.
-/

namespace Eigenmesh

/-- Elimination is exact: a matrix without zero pivots is regular, and with a regular one every
system is solved, by its dense decomposition or that of its stored rows. -/
structure Kernels.Eliminates (α : Type) [Scalar α] [Kernels α] : Prop where
  regular : ∀ A : Dense α, A.cols = A.rows → (∀ p ∈ (Kernels.lu A).pivots, p ≠ 0) → A.Regular
  lu : ∀ A : Dense α, A.Regular → ∀ b, b.size = A.rows →
    ∃ x, (Kernels.lu A).solve? b = some x ∧ A.Solves x b
  sparseLu : ∀ A : Csr α, A.toDense.Regular →
    ∃ solve, Kernels.sparseLu A = .factored solve ∧
      ∀ b, b.size = A.rows → A.toDense.Solves (solve b) b

namespace Pencil

variable {α : Type} [Scalar α] {P : Pencil α} {T : Transform α} {σ : α} {budget : ℕ}
  {s : Option (Csr α × Option (Csr α))} {rhs : Dense α}

lemma solveCols_congr {n : ℕ} {f g : Array α → Array α}
    (h : ∀ j < rhs.cols, f (rhs.col j) = g (rhs.col j)) :
    solveCols n f rhs = solveCols n g rhs := by
  unfold solveCols
  congr 1
  refine Array.map_congr_left fun j hj => h j ?_
  exact Array.mem_range.1 hj

variable [Kernels α]

/-- The matrices whose columns are solved for. -/
inductive RightSide (P : Pencil α) : Dense α → Prop
  | identity : RightSide P (.identity P.A.rows)
  | operand {B : Dense α} (h : P.B = some B) : RightSide P B
  | factor {B L : Dense α} (h : P.B = some B) (factored : Kernels.cholesky? B = some L) :
    RightSide P L

lemma RightSide.rows_eq (fits : Kernels.Fits α) (conform : ∀ B, P.B = some B → B.rows = P.A.rows)
    (h : P.RightSide rhs) : rhs.rows = P.A.rows := by
  cases h with
  | identity => rfl
  | operand h => exact conform _ h
  | factor h factored => exact (fits.cholesky _ _ factored).1.trans (conform _ h)

lemma rightSide_of_factorB? {L : Option (Dense α)} (h : P.factorB? = .ok L) :
    ∀ M, L = some M → P.RightSide M := by
  rintro M rfl
  unfold factorB? at h
  split at h
  · cases h
  · rename_i B hB
    split at h
    · rename_i N factored
      obtain rfl := Option.some.inj (Except.ok.inj h)
      exact .factor hB factored
    · cases h

/-! ### What stored rows are used for -/

section Agreement

variable (agree : T.type = .shiftInvert → ∀ rhs, P.RightSide rhs →
  { P with sparse := s }.solveShifted? σ rhs = P.solveShifted? σ rhs)
include agree

lemma transformed?_withSparse :
    { P with sparse := s }.transformed? T σ = P.transformed? T σ := by
  unfold transformed?
  cases ht : T.type with
  | shift => rfl
  | shiftInvert =>
    refine agree ht _ ?_
    cases hB : P.B with
    | none => exact .identity
    | some B => exact .operand hB

lemma reduced?_withSparse {L : Option (Dense α)} (side : ∀ M, L = some M → P.RightSide M) :
    { P with sparse := s }.reduced? T σ L = P.reduced? T σ L := by
  unfold reduced?
  cases ht : T.type with
  | shift => rfl
  | shiftInvert =>
    cases L with
    | none => exact agree ht _ .identity
    | some M => exact congrArg (Except.map (M.transpose.mul ·)) (agree ht M (side M rfl))

lemma general?_withSparse :
    { P with sparse := s }.general? T σ budget = P.general? T σ budget := by
  unfold general?
  rw [transformed?_withSparse agree]

lemma hermitian?_withSparse :
    { P with sparse := s }.hermitian? T σ budget = P.hermitian? T σ budget := by
  have factorB : { P with sparse := s }.factorB? = P.factorB? := rfl
  unfold hermitian?
  rw [factorB]
  cases hL : P.factorB? with
  | error e => rfl
  | ok L =>
    simp only [bind, Except.bind]
    rw [reduced?_withSparse agree (rightSide_of_factorB? hL)]

end Agreement

/-! ### How a spectrum fails -/

/-- The dense decomposition of the shifted matrix shows it to be singular. -/
def Degenerate (P : Pencil α) (σ : α) : Prop :=
  hasBadPivot (Kernels.lu (P.shifted σ)).pivots = true

lemma solveShifted?_of_degenerate (h : P.Degenerate σ) :
    P.solveShifted? σ rhs = .error (.singularShift σ) := if_pos h

lemma solveShifted?_eq_error (h : ¬P.Degenerate σ) {e : Fault α}
    (failed : P.solveShifted? σ rhs = .error e) : e = .sparseLu ∨ e = .breakdown := by
  unfold Degenerate at h
  unfold solveShifted? at failed
  simp only at failed
  rw [if_neg h] at failed
  split at failed
  · split at failed
    · cases failed
    · exact .inl (Except.error.inj failed).symm
    · exact .inr (Except.error.inj failed).symm
  · cases failed

lemma reduced?_eq_error {L : Option (Dense α)} {e : Fault α}
    (failed : P.reduced? T σ L = .error e) : ∃ rhs, P.solveShifted? σ rhs = .error e := by
  unfold reduced? at failed
  simp only at failed
  split at failed
  · cases failed
  · cases L with
    | none => exact ⟨_, failed⟩
    | some M =>
      simp only at failed
      cases hX : P.solveShifted? σ M with
      | error e' =>
        rw [hX] at failed
        exact ⟨M, hX.trans failed⟩
      | ok X => rw [hX] at failed; cases failed

lemma factorB?_eq_error {e : Fault α} (failed : P.factorB? = .error e) :
    e = .notPositiveDefinite := by
  unfold factorB? at failed
  split at failed
  · cases failed
  · split at failed
    · cases failed
    · exact (Except.error.inj failed).symm

lemma hermitian?_eq_error {e : Fault α} (failed : P.hermitian? T σ budget = .error e) :
    e = .notPositiveDefinite ∨ ∃ rhs, P.solveShifted? σ rhs = .error e := by
  unfold hermitian? at failed
  rcases cases_of_bind_eq_error failed with factor | ⟨L, -, failed⟩
  · exact .inl (factorB?_eq_error factor)
  · rcases cases_of_bind_eq_error failed with reduced | ⟨C, -, failed⟩
    · exact .inr (reduced?_eq_error reduced)
    · split at failed <;> cases failed

lemma transformed?_eq_error {e : Fault α} (failed : P.transformed? T σ = .error e) :
    e = .singularB ∨ ∃ rhs, P.solveShifted? σ rhs = .error e := by
  unfold transformed? at failed
  simp only at failed
  split at failed
  · split at failed
    · cases failed
    · exact .inl (Except.error.inj failed).symm
  · exact .inr ⟨_, failed⟩

lemma general?_eq_error {e : Fault α} (failed : P.general? T σ budget = .error e) :
    e = .singularB ∨ (∃ θ, e = .inverseIteration θ) ∨
      ∃ rhs, P.solveShifted? σ rhs = .error e := by
  unfold general? at failed
  rcases cases_of_bind_eq_error failed with transformed | ⟨M, -, failed⟩
  · exact (transformed?_eq_error transformed).imp id .inr
  · split at failed
    · cases failed
    · rcases cases_of_bind_eq_error failed with iterated | ⟨pairs, -, failed⟩
      · obtain ⟨θ, -, failed⟩ := exists_of_mapM_eq_error iterated
        split at failed
        · cases failed
        · exact .inr (.inl ⟨θ, (Except.error.inj failed).symm⟩)
      · cases failed

/-! ### Exact elimination -/

/-- The matrices are square and of one size, and stored rows are theirs. -/
structure Stored (P : Pencil α) : Prop where
  square : P.A.cols = P.A.rows
  conform : ∀ B, P.B = some B → B.rows = P.A.rows ∧ B.cols = P.A.rows
  sparse : ∀ A B, P.sparse = some (A, B) → P.A = A.toDense ∧ P.B = B.map Csr.toDense

end Pencil

section Exact

variable {α : Type} [Scalar.Exact α] [Kernels α] {P : Pencil α} {σ : α} {rhs : Dense α}

namespace Pencil

lemma regular_shifted (eliminates : Kernels.Eliminates α) (square : P.A.cols = P.A.rows)
    (h : ¬P.Degenerate σ) : (P.shifted σ).Regular := by
  refine eliminates.regular _ square fun p hp zero => h ?_
  rw [Degenerate, hasBadPivot, Array.any_eq_true']
  exact ⟨p, hp, by simp [zero]⟩

/-- **Columns are solved for exactly**, by one decomposition or the other. -/
lemma exists_solveShifted? (eliminates : Kernels.Eliminates α) (stored : P.Stored)
    (h : ¬P.Degenerate σ) (rhs : Dense α) :
    ∃ solve, P.solveShifted? σ rhs = .ok (solveCols P.A.rows solve rhs) ∧
      ∀ b, b.size = P.A.rows → (P.shifted σ).Solves (solve b) b := by
  have regular := regular_shifted eliminates stored.square h
  unfold Degenerate at h
  unfold solveShifted?
  simp only
  rw [if_neg h]
  cases hs : P.sparse with
  | none =>
    refine ⟨_, rfl, fun b size => ?_⟩
    obtain ⟨x, solved, solves⟩ := eliminates.lu _ regular b size
    rwa [solved]
  | some AB =>
    obtain ⟨A, B⟩ := AB
    obtain ⟨hA, hB⟩ := stored.sparse A B hs
    have rows : A.rows = P.A.rows := by rw [hA, Csr.rows_toDense]
    have square : A.cols = A.rows := by rw [rows, ← stored.square, hA, Csr.cols_toDense]
    have conform : ∀ M, B = some M → M.rows = A.rows ∧ M.cols = A.rows := by
      rintro M rfl
      have sizes := stored.conform M.toDense (by rw [hB]; rfl)
      rwa [Csr.rows_toDense, Csr.cols_toDense, ← rows] at sizes
    have shifted := toDense_shiftedCsr (σ := σ) hA hB square conform
    obtain ⟨solve, factored, solves⟩ := eliminates.sparseLu (shiftedCsr A B σ) (shifted ▸ regular)
    refine ⟨solve, by simp only [factored], fun b size => ?_⟩
    have rows' : (shiftedCsr A B σ).rows = A.rows := by
      rw [← Csr.rows_toDense, shifted]
      exact rows.symm
    rw [← shifted]
    exact solves b (size.trans (rows.symm.trans rows'.symm))

lemma solveShifted?_withSparse (eliminates : Kernels.Eliminates α)
    {s : Option (Csr α × Option (Csr α))} (stored : P.Stored)
    (stored' : Stored { P with sparse := s }) (rows : rhs.rows = P.A.rows) :
    { P with sparse := s }.solveShifted? σ rhs = P.solveShifted? σ rhs := by
  by_cases h : P.Degenerate σ
  · rw [solveShifted?_of_degenerate h]
    exact solveShifted?_of_degenerate h
  · obtain ⟨f, hf, solves⟩ := exists_solveShifted? eliminates stored h rhs
    obtain ⟨g, hg, solves'⟩ := exists_solveShifted? eliminates stored' h rhs
    rw [hf, hg]
    refine congrArg _ (solveCols_congr fun j _ => ?_)
    have size : (rhs.col j).size = P.A.rows := (Dense.size_col rhs j).trans rows
    exact (regular_shifted eliminates stored.square h).unique (solves' _ size) (solves _ size)

end Pencil

end Exact

end Eigenmesh
