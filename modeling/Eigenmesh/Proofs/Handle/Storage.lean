import Eigenmesh.Proofs.Handle.Run
import Eigenmesh.Proofs.Scalar.Elimination

/-!
A solve does not depend on the way matrices are stored.

Two handles that are set up alike are given matrices that are the same once they are written out.
Under a shift only what is written out is looked at. Under shift-and-invert the matrices decide
whether the shift is admissible, and if elimination is exact, they decide all the rest.
-/

namespace Eigenmesh

variable {α : Type} [Scalar α]

lemma Pencil.Fault.map_failure_ne {e : Pencil.Fault α} {σ : α} (other : ∀ x, e ≠ .singularShift x)
    (routine : String) : e.failure.map (·.via routine) ≠
      (Pencil.Fault.singularShift σ).failure.map (·.via routine) := by
  intro same
  cases e <;> simp only [failure, SolveFailure.map, PackageError.of, PackageError.via,
    SolveFailure.error.injEq, PackageError.mk.injEq, reduceCtorEq, false_and, true_and,
    and_true] at same
  case singularShift x => exact other x rfl
  -- the codes are the same, but not the first letters
  all_goals
    replace same := congrArg (·.toList.head?) same
    simp [String.toList_append, toString] at same

namespace Handle

variable {h h' : Handle α}

/-- The problem is to be solved in the same way. -/
structure SameConfiguration (h h' : Handle α) : Prop where
  wanted : h.wanted = h'.wanted
  tolerance : h.tolerance = h'.tolerance
  maxIterations : h.maxIterations = h'.maxIterations
  which : h.which = h'.which
  target : h.target = h'.target
  problem : h.problem = h'.problem
  solver : h.solver = h'.solver
  transform : h.transform = h'.transform

/-- The attached matrices are the same once they are written out. -/
structure SameMatrices (h h' : Handle α) : Prop where
  A : h.A.map Mat.toDense = h'.A.map Mat.toDense
  B : h.B.map Mat.toDense = h'.B.map Mat.toDense

variable [Kernels α]

/-- The two solves give the same answer, and what they attempt leaves the same solution. -/
structure SameOutcome (h h' : Handle α) : Prop where
  answer : h.solve.2 = h'.solve.2
  solution : h.ready?.isOk = true → h.solve.1.solution = h'.solve.1.solution
  reason : h.ready?.isOk = true → h.solve.1.reason = h'.solve.1.reason

/-- The shift is refused. -/
def ReportsSingularShift (h : Handle α) : Prop :=
  h.solve.2 = .error
    ((Pencil.Fault.singularShift (h.transform.effectiveShift h.target)).failure.map
      (·.via "Eps::solve"))

/-! ### What a solve reads -/

omit [Kernels α] [Scalar α] in
lemma SameConfiguration.solved (same : SameConfiguration h h') (r : Solution α) :
    (h.solved r).solution = (h'.solved r).solution ∧ (h.solved r).reason = (h'.solved r).reason :=
  ⟨rfl, by unfold Handle.solved; rw [same.wanted]⟩

omit [Kernels α] in
lemma SameConfiguration.ready_cases (same : SameConfiguration h h') (matrices : SameMatrices h h') :
    (∃ e, h.ready? = .error e ∧ h'.ready? = .error e) ∨
      ∃ A B A' B', h.ready? = .ok (A, B) ∧ h'.ready? = .ok (A', B') ∧
        A.toDense = A'.toDense ∧ B.map Mat.toDense = B'.map Mat.toDense := by
  have hA := matrices.A
  unfold ready?
  cases ha : h.A with
  | none =>
    cases ha' : h'.A with
    | none => exact .inl ⟨_, rfl, rfl⟩
    | some A' => rw [ha, ha'] at hA; cases hA
  | some A =>
    cases ha' : h'.A with
    | none => rw [ha, ha'] at hA; cases hA
    | some A' =>
      rw [ha, ha'] at hA
      have written : A.toDense = A'.toDense := Option.some.inj hA
      have rows : A.rows = A'.rows := by rw [← Mat.rows_toDense, written, Mat.rows_toDense]
      simp only [rows, same.wanted, same.which, same.target]
      split
      · exact .inl ⟨_, rfl, rfl⟩
      · split
        · exact .inl ⟨_, rfl, rfl⟩
        · exact .inr ⟨A, h.B, A', h'.B, rfl, rfl, written, matrices.B⟩

omit [Kernels α] in
lemma pencil_eq_withSparse {A A' : Mat α} {B B' : Option (Mat α)} (first : A.toDense = A'.toDense)
    (second : B.map Mat.toDense = B'.map Mat.toDense) :
    pencil A' B' = { pencil A B with sparse := (pencil A' B').sparse } := by
  unfold pencil
  rw [first, second]

omit [Kernels α] in
lemma kept_withSparse (P : Pencil α) (s : Option (Csr α × Option (Csr α)))
    (found : Bool × Option (List (EigenPair α))) :
    h.kept { P with sparse := s } found = h.kept P found := by
  obtain ⟨hermitian, _ | pairs⟩ := found <;> rfl

/-- The shifted matrices of two pencils are solved with alike. -/
def SolvesAlike (h : Handle α) (P : Pencil α) (s : Option (Csr α × Option (Csr α))) : Prop :=
  h.transform.type = .shiftInvert → ∀ rhs, P.RightSide rhs →
    { P with sparse := s }.solveShifted? (h.transform.effectiveShift h.target) rhs =
      P.solveShifted? (h.transform.effectiveShift h.target) rhs

lemma lapack?_withSparse {P : Pencil α} {s : Option (Csr α × Option (Csr α))}
    (alike : h.SolvesAlike P s) (hermitian : Bool) :
    h.lapack? { P with sparse := s } hermitian = h.lapack? P hermitian := by
  have general : h.general? { P with sparse := s } = h.general? P := by
    unfold general?
    rw [Pencil.general?_withSparse alike]
  unfold lapack?
  rw [general, Pencil.hermitian?_withSparse alike]

lemma SameConfiguration.solution?_eq (same : SameConfiguration h h') (lapack : h.solver = .lapack)
    {A A' : Mat α} {B B' : Option (Mat α)} (first : A.toDense = A'.toDense)
    (second : B.map Mat.toDense = B'.map Mat.toDense)
    (alike : h.SolvesAlike (pencil A B) (pencil A' B').sparse) :
    h.solution? A B = h'.solution? A' B' := by
  have own : h'.solution? A' B' = h.solution? A' B' := by
    obtain ⟨⟩ := h
    obtain ⟨⟩ := h'
    obtain ⟨wanted, tolerance, maxIterations, which, target, problem, solver, transform⟩ := same
    simp only at wanted tolerance maxIterations which target problem solver transform
    subst wanted tolerance maxIterations which target problem solver transform
    rfl
  rw [own]
  unfold solution? spectrum?
  rw [pencil_eq_withSparse first second, lapack]
  generalize (pencil A' B').sparse = s at alike
  have looks : h.isHermitian? { pencil A B with sparse := s } = h.isHermitian? (pencil A B) := rfl
  have kept : h.kept { pencil A B with sparse := s } = h.kept (pencil A B) :=
    funext (kept_withSparse _ s)
  simp only [looks, kept, lapack?_withSparse alike]

/-! ### Solves -/

lemma SameConfiguration.sameOutcome (same : SameConfiguration h h') (lapack : h.solver = .lapack)
    (matrices : SameMatrices h h')
    (alike : ∀ A B A' B', h.ready? = .ok (A, B) → h'.ready? = .ok (A', B') →
      h.SolvesAlike (pencil A B) (pencil A' B').sparse) : SameOutcome h h' := by
  rcases same.ready_cases matrices with
    ⟨e, he, he'⟩ | ⟨A, B, A', B', ready, ready', first, second⟩
  · have refused : h.ready?.isOk = false := by rw [he]; rfl
    refine ⟨?_, fun ok => ?_, fun ok => ?_⟩
    · unfold solve
      rw [he, he']
    · rw [refused] at ok; cases ok
    · rw [refused] at ok; cases ok
  · have solutions := same.solution?_eq lapack first second (alike A B A' B' ready ready')
    cases hs : h'.solution? A' B' with
    | error e =>
      have ends := solve_of_error ready (solutions.trans hs)
      have ends' := solve_of_error ready' hs
      exact ⟨by rw [ends, ends'], fun _ => by rw [ends, ends']; rfl,
        fun _ => by rw [ends, ends']; rfl⟩
    | ok r =>
      have ends := solve_of_ok ready (solutions.trans hs)
      have ends' := solve_of_ok ready' hs
      obtain ⟨solution, reason⟩ := same.solved r
      exact ⟨by rw [ends, ends'], fun _ => by rwa [ends, ends'], fun _ => by rwa [ends, ends']⟩

/-! ### Singular shifts -/

omit [Kernels α] in
lemma isHermitian?_eq_error {P : Pencil α} {e : PackageError}
    (refused : h.isHermitian? P = .error e) :
    ∃ type, e = (Fault.problemType type : Fault α).error := by
  unfold isHermitian? at refused
  split at refused
  · split at refused
    · exact ⟨_, (Except.error.inj refused).symm⟩
    · cases refused
  · cases refused

lemma general?_eq_error {P : Pencil α} {e : SolveFailure PackageError}
    (failed : h.general? P = .error e) : ∃ f, e = f.failure ∧
      P.general? h.transform (h.transform.effectiveShift h.target) (h.maxIterations.getD 0) =
        .error f := by
  unfold general? at failed
  cases hf : P.general? h.transform (h.transform.effectiveShift h.target)
      (h.maxIterations.getD 0) with
  | ok found => rw [hf] at failed; cases failed
  | error f =>
    rw [hf] at failed
    exact ⟨f, (Except.error.inj failed).symm, rfl⟩

lemma lapack?_eq_error {P : Pencil α} {hermitian : Bool} {e : SolveFailure PackageError}
    (regular : ¬P.Degenerate (h.transform.effectiveShift h.target))
    (failed : h.lapack? P hermitian = .error e) :
    ∃ f : Pencil.Fault α, e = f.failure ∧ ∀ x, f ≠ .singularShift x := by
  have other {f : Pencil.Fault α} {rhs : Dense α}
      (hf : P.solveShifted? (h.transform.effectiveShift h.target) rhs = .error f) :
      ∀ x, f ≠ .singularShift x := by
    rcases Pencil.solveShifted?_eq_error regular hf with rfl | rfl <;> exact fun x => nofun
  have general (failed : h.general? P = .error e) :
      ∃ f : Pencil.Fault α, e = f.failure ∧ ∀ x, f ≠ .singularShift x := by
    obtain ⟨f, rfl, hf⟩ := general?_eq_error failed
    refine ⟨f, rfl, ?_⟩
    rcases Pencil.general?_eq_error hf with rfl | ⟨θ, rfl⟩ | ⟨rhs, hf⟩
    · exact fun x => nofun
    · exact fun x => nofun
    · exact other hf
  unfold lapack? at failed
  split at failed
  · split at failed
    · cases failed
    · split at failed
      · exact general failed
      · exact ⟨_, (Except.error.inj failed).symm, fun x => nofun⟩
    · rename_i f _ hf
      refine ⟨f, (Except.error.inj failed).symm, ?_⟩
      rcases Pencil.hermitian?_eq_error hf with rfl | ⟨rhs, hf⟩
      · exact fun x => nofun
      · exact other hf
  · exact general failed

lemma not_reportsSingularShift (lapack : h.solver = .lapack) {A : Mat α} {B : Option (Mat α)}
    (ready : h.ready? = .ok (A, B))
    (regular : ¬(pencil A B).Degenerate (h.transform.effectiveShift h.target)) :
    ¬h.ReportsSingularShift := by
  intro reported
  unfold ReportsSingularShift solve at reported
  simp only [ready] at reported
  cases hs : h.solution? A B with
  | ok r => rw [hs] at reported; cases reported
  | error e =>
    rw [hs] at reported
    replace reported := Except.error.inj reported
    unfold solution? spectrum? at hs
    rw [lapack] at hs
    cases hermitian : h.isHermitian? (pencil A B) with
    | error e' =>
      rw [hermitian] at hs
      obtain rfl := Except.error.inj hs
      obtain ⟨type, rfl⟩ := isHermitian?_eq_error hermitian
      cases reported
    | ok symmetric =>
      rw [hermitian] at hs
      simp only at hs
      cases hl : h.lapack? (pencil A B) symmetric with
      | ok found => rw [hl] at hs; cases hs
      | error e' =>
        rw [hl] at hs
        obtain rfl := Except.error.inj hs
        obtain ⟨f, rfl, other⟩ := lapack?_eq_error regular hl
        exact Pencil.Fault.map_failure_ne other _ reported

end Handle

/-! ### Stored rows of attached matrices -/

namespace Handle

lemma sparse_pencil {M : Mat α} {N : Option (Mat α)} {A : Csr α} {B : Option (Csr α)}
    (h : (pencil M N).sparse = some (A, B)) :
    (pencil M N).A = A.toDense ∧ (pencil M N).B = B.map Csr.toDense := by
  unfold pencil at h ⊢
  simp only at h
  cases hM : M.csr? with
  | none => rw [hM] at h; cases h
  | some C =>
    cases N with
    | none =>
      simp only [hM, Option.some.injEq, Prod.mk.injEq] at h
      obtain ⟨rfl, rfl⟩ := h
      exact ⟨Mat.toDense_of_csr? hM, rfl⟩
    | some N =>
      simp only [hM, Option.map_eq_some_iff, Prod.mk.injEq] at h
      obtain ⟨D, hD, rfl, rfl⟩ := h
      exact ⟨Mat.toDense_of_csr? hM, congrArg some (Mat.toDense_of_csr? hD)⟩

lemma stored_pencil {h : Handle α} (c : h.Consistent) {A : Mat α}
    (hA : h.A = some A) : (pencil A h.B).Stored where
  square := by
    change A.toDense.cols = A.toDense.rows
    rw [Mat.cols_toDense, Mat.rows_toDense, c.square A hA]
  conform := by
    intro B hB
    obtain ⟨M, hM, rfl⟩ := Option.map_eq_some_iff.1 hB
    obtain ⟨A', hA', rows, cols⟩ := c.conform M hM
    obtain rfl := Option.some.inj (hA.symm.trans hA')
    change M.toDense.rows = A.toDense.rows ∧ M.toDense.cols = A.toDense.rows
    rw [Mat.rows_toDense, Mat.rows_toDense, Mat.cols_toDense]
    exact ⟨rows, cols⟩
  sparse := fun _ _ => sparse_pencil

variable [Kernels α] {h h' : Handle α}

omit [Kernels α] in
lemma SameMatrices.toDense_eq (matrices : SameMatrices h h') {A A' : Mat α} (hA : h.A = some A)
    (hA' : h'.A = some A') : A.toDense = A'.toDense := by
  have first := matrices.A
  rw [hA, hA'] at first
  exact Option.some.inj first

lemma SameConfiguration.reports_iff (same : SameConfiguration h h')
    (answer : h.solve.2 = h'.solve.2) : h.ReportsSingularShift ↔ h'.ReportsSingularShift := by
  unfold ReportsSingularShift
  rw [answer, same.transform, same.target]

lemma SameConfiguration.reportsSingularShift_iff (same : SameConfiguration h h')
    (lapack : h.solver = .lapack) (matrices : SameMatrices h h') :
    h.ReportsSingularShift ↔ h'.ReportsSingularShift := by
  by_cases degenerate : ∀ A B, h.ready? = .ok (A, B) →
      (pencil A B).Degenerate (h.transform.effectiveShift h.target)
  · refine same.reports_iff (same.sameOutcome lapack matrices ?_).answer
    intro A B A' B' ready _ _ rhs _
    have singular := degenerate A B ready
    rw [Pencil.solveShifted?_of_degenerate singular]
    exact Pencil.solveShifted?_of_degenerate singular
  · push Not at degenerate
    obtain ⟨A, B, ready, regular⟩ := degenerate
    refine iff_of_false (not_reportsSingularShift lapack ready regular) ?_
    rcases same.ready_cases matrices with
      ⟨e, he, -⟩ | ⟨A₀, B₀, A', B', ready₀, ready', first, second⟩
    · rw [ready] at he
      cases he
    · obtain ⟨rfl, rfl⟩ := Prod.mk.inj (Except.ok.inj (ready.symm.trans ready₀))
      refine not_reportsSingularShift (same.solver ▸ lapack) ready' ?_
      rw [pencil_eq_withSparse first second, ← same.transform, ← same.target]
      exact regular

/-- **Storage does not matter.** Two handles are set up alike, and their matrices are the same once
they are written out. Under a shift they end alike. Under shift-and-invert the shift is refused to
both or to neither; in exact arithmetic with exact elimination all else is alike as well. -/
theorem sameOutcome_of_sameMatrices (reachable : h.Reachable) (reachable' : h'.Reachable)
    (same : SameConfiguration h h') (lapack : h.solver = .lapack)
    (matrices : SameMatrices h h') :
    (h.transform.type = .shift → SameOutcome h h') ∧
    (h.transform.type = .shiftInvert →
      (h.ReportsSingularShift ↔ h'.ReportsSingularShift) ∧
      (Scalar.IsExact α → Kernels.Eliminates α → Kernels.Fits α → SameOutcome h h')) := by
  refine ⟨fun shift => ?_, fun _ =>
    ⟨same.reportsSingularShift_iff lapack matrices, fun exact eliminates fits => ?_⟩⟩
  · refine same.sameOutcome lapack matrices fun A B A' B' _ _ invert => ?_
    rw [shift] at invert
    cases invert
  · obtain ⟨e, rfl⟩ := exact
    refine same.sameOutcome lapack matrices fun A B A' B' ready ready' _ rhs side => ?_
    obtain ⟨hA, rfl, -⟩ := ready?_eq_ok.1 ready
    obtain ⟨hA', rfl, -⟩ := ready?_eq_ok.1 ready'
    have stored := stored_pencil reachable.consistent hA
    have stored' := stored_pencil reachable'.consistent hA'
    rw [pencil_eq_withSparse (matrices.toDense_eq hA hA') matrices.B] at stored'
    exact Pencil.solveShifted?_withSparse eliminates stored stored'
      (side.rows_eq fits fun M hM => (stored.conform M hM).1)

/-- A diagonal matrix with a zero among its stored entries. -/
def padded : Csr ℚ := .ofTriplets 2 2 #[(0, 0, 2), (0, 1, 0), (1, 1, 3)]

/-- A handle that is to find the eigenvalue of a matrix nearest to one. -/
def nearOne (M : Mat ℚ) : Handle ℚ :=
  { fresh with A := some M, transform := ⟨.shiftInvert, some 1⟩ }

lemma reachable_nearOne {M : Mat ℚ} (square : M.rows = M.cols) :
    @Reachable ℚ _ Rational.elimination (nearOne M) := by
  let := Rational.elimination
  have attached : Transition (fresh : Handle ℚ) { fresh with A := some M } :=
    .operators (B := none) (setOperators?_eq_ok.2 ⟨square, fun _ e => (nomatch e), rfl⟩)
  exact ((Relation.ReflTransGen.single attached).tail
    (.adjusted (.single (.transform .shiftInvert)))).tail (.adjusted (.single (.shift rfl)))

theorem sameOutcome_of_sameMatrices_padded :
    letI := Rational.elimination
    let h := nearOne (.aij 0 padded)
    let h' := nearOne (.dense 1 (Rational.diagonal [2, 3]))
    h.Reachable ∧ h'.Reachable ∧ SameConfiguration h h' ∧ h.solver = .lapack ∧ SameMatrices h h' ∧
      h.transform.type = .shiftInvert ∧ (h.ReportsSingularShift ↔ h'.ReportsSingularShift) ∧
      SameOutcome h h' := by
  let := Rational.elimination
  intro h h'
  have rows : padded.rows = 2 := by decide +kernel
  have entries : ∀ i < 2, ∀ j < 2,
      padded.entry i j = if i = j then [2, 3].getD i 0 else 0 := by decide +kernel
  have reachable : h.Reachable := reachable_nearOne (by
    simp only [Mat.rows, Mat.cols]
    exact rows)
  have reachable' : h'.Reachable := reachable_nearOne (by simp only [Mat.rows, Mat.cols]; rfl)
  have same : SameConfiguration h h' := ⟨rfl, rfl, rfl, rfl, rfl, rfl, rfl, rfl⟩
  have written : padded.toDense = Rational.diagonal [2, 3] := by
    rw [Csr.toDense_eq, rows]
    exact Dense.ofFn_congr entries
  have matrices : SameMatrices h h' := by
    refine ⟨congrArg some ?_, rfl⟩
    simpa only [Mat.toDense] using written
  have outcome := (sameOutcome_of_sameMatrices reachable reachable' same rfl matrices).2 rfl
  exact ⟨reachable, reachable', same, rfl, matrices, rfl, outcome.1,
    outcome.2 Rational.isExact Rational.eliminates Rational.fits_elimination⟩

end Handle

end Eigenmesh
