import Eigenmesh.Factor.Backend
import Eigenmesh.Proofs.Handle.Storage
import Eigenmesh.Scalar.Double

/-!
What type a problem is solved as when none is set.

The symmetric path is tried if the matrices look symmetric, and given up only where `B` has no
factor. That failure is the only one with its code, so nothing else is taken for it, and the answer
is that of the type which the matrices fit.
-/

namespace Eigenmesh

variable {α : Type} [Scalar α]

namespace Pencil

/-- The matrices pass for symmetric. -/
def looksSymmetric (P : Pencil α) : Bool :=
  P.A.isSymmetric Handle.symmetryTolerance && P.B.all (·.isSymmetric Handle.symmetryTolerance)

variable [Kernels α] {P : Pencil α} {T : Transform α} {σ : α} {budget : Nat}

/-- There is a factor of `B`, or no `B`. -/
def hasFactor (P : Pencil α) : Bool := P.B.all fun B => (Kernels.cholesky? B).isSome

lemma hasFactor_iff : P.hasFactor = true ↔ ∃ L, P.factorB? = .ok L := by
  unfold hasFactor factorB?
  cases P.B with
  | none => simp
  | some B => cases found : Kernels.cholesky? B <;> simp [found]

lemma solveShifted?_ne_notPositiveDefinite {rhs : Dense α} :
    P.solveShifted? σ rhs ≠ .error .notPositiveDefinite := by
  by_cases degenerate : P.Degenerate σ
  · rw [solveShifted?_of_degenerate degenerate]
    nofun
  · intro failed
    obtain same | same := solveShifted?_eq_error degenerate failed <;> cases same

lemma hermitian?_eq_notPositiveDefinite_iff :
    P.hermitian? T σ budget = .error .notPositiveDefinite ↔ P.hasFactor = false := by
  rw [← Bool.not_eq_true, hasFactor_iff]
  unfold hermitian?
  constructor
  · rintro failed ⟨L, hL⟩
    rcases cases_of_bind_eq_error failed with factor | ⟨L, -, failed⟩
    · rw [hL] at factor
      cases factor
    · rcases cases_of_bind_eq_error failed with reduced | ⟨C, -, failed⟩
      · obtain ⟨rhs, solved⟩ := reduced?_eq_error reduced
        exact solveShifted?_ne_notPositiveDefinite solved
      · split at failed <;> cases failed
  · intro missing
    cases hL : P.factorB? with
    | ok L => exact absurd ⟨L, hL⟩ missing
    | error e =>
      obtain rfl := factorB?_eq_error hL
      rfl

end Pencil

/-- The failure is not put down to the type of the problem. -/
def SolveFailure.SparesType : SolveFailure PackageError → Prop
  | .error e => e.code ≠ .argWrong ∧ e.code ≠ .argIncompatible
  | .breakdown => True

lemma SolveFailure.SparesType.via {f : SolveFailure PackageError} (h : f.SparesType)
    (routine : String) : (f.map (·.via routine)).SparesType := by
  cases f with
  | error e => exact h
  | breakdown => trivial

lemma Pencil.Fault.sparesType_failure {f : Pencil.Fault α} :
    f.failure.SparesType ↔ f ≠ .notPositiveDefinite := by
  cases f <;> simp [failure, SolveFailure.SparesType, PackageError.of]

namespace Handle

variable [Kernels α] {h : Handle α} {P : Pencil α} {A : Mat α} {B : Option (Mat α)}

/-- The type of problem that the matrices fit: symmetric if both look so and `B`, if there is one,
has a factor. -/
def fittingType (A : Mat α) : Option (Mat α) → ProblemType
  | none => if A.toDense.isSymmetric symmetryTolerance then .hermitian else .nonHermitian
  | some B =>
    if A.toDense.isSymmetric symmetryTolerance ∧ B.toDense.isSymmetric symmetryTolerance ∧
        (Kernels.cholesky? B.toDense).isSome then .genHermitian
    else .genNonHermitian

/-- The handle with a type of problem set. -/
def typed (h : Handle α) (type : ProblemType) : Handle α := { h with problem := some type }

/-! ### One path or the other -/

lemma isGeneralized_fittingType : (fittingType A B).isGeneralized = B.isSome := by
  cases B <;> simp only [fittingType] <;> split <;> rfl

lemma isHermitian_fittingType : (fittingType A B).isHermitian =
    ((pencil A B).looksSymmetric && (pencil A B).hasFactor) := by
  unfold Pencil.looksSymmetric Pencil.hasFactor pencil
  cases B with
  | none =>
    cases looks : A.toDense.isSymmetric symmetryTolerance <;>
      simp [fittingType, looks, ProblemType.isHermitian]
  | some B =>
    simp only [fittingType, Option.map_some, Option.all_some]
    split
    · rename_i fits
      simp [fits, ProblemType.isHermitian]
    · rename_i fails
      change false = _
      rw [eq_comm, ← Bool.not_eq_true]
      simpa [and_assoc] using fails

omit [Kernels α] in
lemma isHermitian?_untyped (untyped : h.problem = none) :
    h.isHermitian? P = .ok P.looksSymmetric := by
  unfold isHermitian?
  rw [untyped]
  rfl

lemma isHermitian?_fitting : (h.typed (fittingType A B)).isHermitian? (pencil A B) =
    .ok ((pencil A B).looksSymmetric && (pencil A B).hasFactor) := by
  have second : (pencil A B).B.isSome = B.isSome := Option.isSome_map
  have matching : ¬(fittingType A B).isGeneralized ≠ (pencil A B).B.isSome := by
    rw [isGeneralized_fittingType, second]
    exact not_not.2 rfl
  rw [← isHermitian_fittingType]
  exact if_neg matching

lemma lapack?_untyped (untyped : h.problem = none) (type : ProblemType) (looks : Bool) :
    h.lapack? P looks = (h.typed type).lapack? P (looks && P.hasFactor) := by
  have general : (h.typed type).general? P = h.general? P := rfl
  cases looks with
  | false => rfl
  | true =>
    cases factor : P.hasFactor with
    | false =>
      have refused : P.hermitian? h.transform (h.transform.effectiveShift h.target)
          (h.maxIterations.getD 0) = .error .notPositiveDefinite :=
        Pencil.hermitian?_eq_notPositiveDefinite_iff.2 factor
      unfold lapack?
      rw [refused, if_pos untyped]
      rfl
    | true =>
      -- whatever else goes wrong is reported in both cases
      have taken : P.hermitian? h.transform (h.transform.effectiveShift h.target)
          (h.maxIterations.getD 0) ≠ .error .notPositiveDefinite := fun refused => by
        rw [Pencil.hermitian?_eq_notPositiveDefinite_iff, factor] at refused
        cases refused
      unfold lapack? typed
      simp only [Bool.and_self, if_true]
      split
      · rfl
      · rename_i refused
        exact absurd refused taken
      · rfl

lemma lanczos?_untyped (type : ProblemType) (looks : Bool) :
    h.lanczos? A P looks = (h.typed type).lanczos? A P (looks && P.hasFactor) := by
  unfold Pencil.hasFactor
  cases hB : P.B with
  | none =>
    rw [Option.all_none, Bool.and_true]
    rfl
  | some B =>
    unfold lanczos?
    rw [hB]
    rfl

lemma solution?_untyped (untyped : h.problem = none) :
    h.solution? A B = (h.typed (fittingType A B)).solution? A B := by
  have spectrum : h.spectrum? A B = (h.typed (fittingType A B)).spectrum? A B := by
    have solver : (h.typed (fittingType A B)).solver = h.solver := rfl
    unfold spectrum?
    rw [isHermitian?_untyped untyped, isHermitian?_fitting, solver]
    cases h.solver with
    | lapack => exact lapack?_untyped untyped _ _
    | lanczos =>
      simp only
      rw [lanczos?_untyped (fittingType A B)]
  have kept : h.kept (pencil A B) = (h.typed (fittingType A B)).kept (pencil A B) := rfl
  unfold solution?
  rw [spectrum, kept]

/-! ### How an untyped solve fails -/

omit [Kernels α] in
lemma sparesType_of_ready? {e : PackageError} (refused : h.ready? = .error e) :
    (SolveFailure.error e).SparesType := by
  unfold ready? at refused
  repeat' split at refused
  all_goals
    cases refused
    try exact ⟨nofun, nofun⟩

lemma sparesType_of_general? {f : SolveFailure PackageError} (failed : h.general? P = .error f) :
    f.SparesType := by
  obtain ⟨fault, rfl, cause⟩ := general?_eq_error failed
  rw [Pencil.Fault.sparesType_failure]
  rintro rfl
  obtain same | ⟨θ, same⟩ | ⟨rhs, solved⟩ := Pencil.general?_eq_error cause
  · cases same
  · cases same
  · exact Pencil.solveShifted?_ne_notPositiveDefinite solved

lemma sparesType_of_lapack? (untyped : h.problem = none) {hermitian : Bool}
    {f : SolveFailure PackageError} (failed : h.lapack? P hermitian = .error f) :
    f.SparesType := by
  unfold lapack? at failed
  split at failed
  · split at failed
    · cases failed
    · exact sparesType_of_general? failed
    · rename_i fault other _
      cases failed
      exact Pencil.Fault.sparesType_failure.2 other
  · exact sparesType_of_general? failed

lemma sparesType_of_lanczos? {hermitian : Bool} {f : SolveFailure PackageError}
    (failed : h.lanczos? A P hermitian = .error f) : f.SparesType := by
  unfold lanczos? at failed
  simp only at failed
  repeat' split at failed
  all_goals
    cases failed
    try first | exact ⟨nofun, nofun⟩ | trivial

lemma sparesType_of_solution? (untyped : h.problem = none) {f : SolveFailure PackageError}
    (failed : h.solution? A B = .error f) : f.SparesType := by
  replace failed := eq_error_of_map failed
  unfold spectrum? at failed
  rw [isHermitian?_untyped untyped] at failed
  simp only at failed
  split at failed
  · exact sparesType_of_lapack? untyped failed
  · exact sparesType_of_lanczos? (eq_error_of_map failed)

/-- **Leaving the type open is the same as setting the one that fits.** With matrices attached and
no type set, a solve leaves the same solution and reason behind and gives the same answer as with
the type that the matrices fit, whatever the rest of the configuration is. It does not fail with
the codes that tell of a type that does not fit. -/
theorem solve_untyped (h : Handle α) {A : Mat α} (attached : h.A = some A)
    (untyped : h.problem = none) :
    ({ h with problem := some (fittingType A h.B) } : Handle α).solve =
        ({ h.solve.1 with problem := some (fittingType A h.B) }, h.solve.2) ∧
      ∀ e, h.solve.2 = .error (.error e) → e.code ≠ .argWrong ∧ e.code ≠ .argIncompatible := by
  constructor
  · change (h.typed (fittingType A h.B)).solve = _
    have ready : (h.typed (fittingType A h.B)).ready? = h.ready? := rfl
    obtain ⟨e, refused, ends⟩ | ⟨A', B, r, made, solved, ends⟩ | ⟨A', B, e, made, failed, ends⟩ :=
      solve_cases h
    · rw [ends]
      unfold solve
      rw [ready, refused]
      rfl
    · obtain ⟨same, rfl, -⟩ := ready?_eq_ok.1 made
      obtain rfl := Option.some.inj (attached.symm.trans same)
      rw [solve_of_ok (ready.trans made) ((solution?_untyped untyped).symm.trans solved), ends]
      rfl
    · obtain ⟨same, rfl, -⟩ := ready?_eq_ok.1 made
      obtain rfl := Option.some.inj (attached.symm.trans same)
      rw [solve_of_error (ready.trans made) ((solution?_untyped untyped).symm.trans failed), ends]
      rfl
  · intro e ended
    obtain ⟨e', refused, ends⟩ | ⟨A', B, r, made, solved, ends⟩ | ⟨A', B, f, made, failed, ends⟩ :=
      solve_cases h
    · have spares := (sparesType_of_ready? refused).via "Eps::solve"
      rw [ends] at ended
      rwa [SolveFailure.map, Except.error.inj ended] at spares
    · rw [ends] at ended
      cases ended
    · have spares := (sparesType_of_solution? untyped failed).via "Eps::solve"
      rw [ends] at ended
      rwa [Except.error.inj ended] at spares

/-- A symmetric matrix of doubles, with `a` on the diagonal and `b` beside it. -/
def evenly (a b : Float) : Mat Float := .dense 0 (.ofFn 2 2 fun i j => if i = j then a else b)

/-- With a `B` that looks symmetric and has negative values, the general path is taken. -/
theorem solve_untyped_indefinite :
    let h : Handle Float := { fresh with A := some (evenly 2 1), B := some (evenly 1 3) }
    h.A = some (evenly 2 1) ∧ h.problem = none ∧
      (pencil (evenly 2 1) (some (evenly 1 3))).looksSymmetric = true ∧
      ({ h with problem := some .genNonHermitian } : Handle Float).solve =
        ({ h.solve.1 with problem := some .genNonHermitian }, h.solve.2) ∧
      ∀ e, h.solve.2 = .error (.error e) → e.code ≠ .argWrong ∧ e.code ≠ .argIncompatible := by
  intro h
  have fitting : fittingType (evenly 2 1) h.B = .genNonHermitian := by decide +kernel
  have same := solve_untyped h (A := evenly 2 1) rfl rfl
  rw [fitting] at same
  exact ⟨rfl, rfl, by decide +kernel, same⟩

example : fittingType (evenly 2 1) (some (evenly 3 1)) = .genHermitian := by decide +kernel

end Handle

end Eigenmesh
