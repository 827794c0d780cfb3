import Mathlib.Data.Nat.Notation
import Mathlib.Tactic.Common
import Eigenmesh.Proofs.EigenSolver.Run
import Eigenmesh.Proofs.Handle.Settings

/-!
The numbers of the matrices do not matter to a solver.

Which number a new matrix gets depends on all the matrices that a program has made before. For a
solver the numbers are nothing but names for whose holders are counted: two solvers that agree apart
from them give the same answers to a call and agree afterwards, whatever matrices there are
elsewhere.
-/

namespace Eigenmesh

variable {α : Type}

/-- The matrix, whatever its number is. -/
def Mat.unnumbered : Mat α → Mat α
  | .aij _ A => .aij 0 A
  | .dense _ A => .dense 0 A
  | .shell _ op => .shell 0 op

namespace Mat

variable (M : Mat α)

@[simp] lemma rows_unnumbered : M.unnumbered.rows = M.rows := by cases M <;> rfl
@[simp] lemma cols_unnumbered : M.unnumbered.cols = M.cols := by cases M <;> rfl
@[simp] lemma type_unnumbered : M.unnumbered.type = M.type := by cases M <;> rfl
@[simp] lemma csr?_unnumbered : M.unnumbered.csr? = M.csr? := by cases M <;> rfl
@[simp] lemma rowLayout_unnumbered : M.unnumbered.rowLayout = M.rowLayout := by cases M <;> rfl
@[simp] lemma toDense_unnumbered [Scalar α] : M.unnumbered.toDense = M.toDense := by
  cases M <;> rfl

@[simp] lemma unnumbered_unnumbered : M.unnumbered.unnumbered = M.unnumbered := by cases M <;> rfl

lemma map_unnumbered_unnumbered (B : Option (Mat α)) :
    (B.map unnumbered).map unnumbered = B.map unnumbered := by
  cases B with
  | none => rfl
  | some B => simp

end Mat

namespace Handle

/-- The handle, whatever numbers its matrices have. -/
def unnumbered (h : Handle α) : Handle α :=
  { h with A := h.A.map Mat.unnumbered, B := h.B.map Mat.unnumbered }

lemma unnumbered_unnumbered (h : Handle α) : h.unnumbered.unnumbered = h.unnumbered := by
  unfold unnumbered
  simp only [Mat.map_unnumbered_unnumbered]

variable [Scalar α] (h : Handle α) (A : Mat α) (B : Option (Mat α))

lemma setOperators?_unnumbered :
    h.unnumbered.setOperators? A.unnumbered (B.map Mat.unnumbered) =
      (h.setOperators? A B).map unnumbered := by
  unfold setOperators?
  simp only [Mat.rows_unnumbered, Mat.cols_unnumbered]
  split
  · rfl
  · cases B with
    | none => rfl
    | some N =>
      simp only [Option.map_some, Mat.rows_unnumbered, Mat.cols_unnumbered]
      split <;> rfl

lemma pencil_unnumbered : pencil A.unnumbered (B.map Mat.unnumbered) = pencil A B := by
  cases B with
  | none => cases A <;> rfl
  | some N => cases A <;> cases N <;> rfl

variable [Kernels α]

lemma solution?_unnumbered :
    h.unnumbered.solution? A.unnumbered (B.map Mat.unnumbered) = h.solution? A B := by
  have lanczos : ∀ P hermitian,
      h.unnumbered.lanczos? A.unnumbered P hermitian = h.lanczos? A P hermitian := by
    intro P hermitian
    simp only [lanczos?, Mat.csr?_unnumbered, Mat.type_unnumbered, Mat.rows_unnumbered]
    rfl
  unfold solution? spectrum?
  simp only [pencil_unnumbered, lanczos]
  rfl

lemma solve_unnumbered : h.unnumbered.solve = (h.solve.1.unnumbered, h.solve.2) := by
  have ready : h.unnumbered.ready? =
      h.ready?.map fun AB => (AB.1.unnumbered, AB.2.map Mat.unnumbered) := by
    unfold ready?
    cases hA : h.A with
    | none => simp only [unnumbered, hA]; rfl
    | some A =>
      simp only [unnumbered, hA, Option.map_some, Mat.rows_unnumbered]
      split
      · rfl
      · by_cases missing : (h.which.needsTarget && h.target.isNone) = true
        · rw [if_pos missing, if_pos missing]; rfl
        · rw [if_neg missing, if_neg missing]; rfl
  unfold solve
  rw [ready]
  rcases h.ready? with e | ⟨A, B⟩
  · rfl
  · simp only [Except.map, solution?_unnumbered]
    cases h.solution? A B <;> rfl

end Handle

namespace EigenSolver

/-- The settings of `s`, with the problem of `t` and how far `t` has got with it. -/
def withProblem (s t : EigenSolver α) : EigenSolver α :=
  { s with
    handle := s.handle.withProblem t.handle
    state := t.state
    realView := t.realView
    imagView := t.imagView }

/-- The solver, whatever numbers its matrices have. -/
def unnumbered (s : EigenSolver α) : EigenSolver α := { s with handle := s.handle.unnumbered }

lemma unnumbered_unnumbered (s : EigenSolver α) : s.unnumbered.unnumbered = s.unnumbered := by
  unfold unnumbered
  rw [Handle.unnumbered_unnumbered]

/-- The call says how problems are to be solved. -/
def Call.isSetting : Call α → Bool
  | .setTolerance _ | .setMaxIterations _ | .setWanted _ | .setTarget _ | .setWhich _
  | .setTransform _ | .setProblem _ | .setSolver _ => true
  | _ => false

variable (s t : EigenSolver α)

lemma checked_withProblem {call : String} {f : Handle α → Except PackageError (Handle α)}
    (hf : Handle.IsSetting f) {g : Handle α → EigenSolver α → EigenSolver α}
    (hg : ∀ h, g (h.withProblem t.handle) (s.withProblem t) = (g h s).withProblem t) :
    (do return g (← checked call (f (s.handle.withProblem t.handle))) (s.withProblem t) :
        Except SolverError (EigenSolver α)) =
      Except.map (·.withProblem t) (do return g (← checked call (f s.handle)) s) := by
  rw [hf s.handle t.handle]
  cases f s.handle with
  | error e => rfl
  | ok h => exact congrArg Except.ok (hg h)

lemma settle_withProblem (l l' : Ledger) (r : Except SolverError (EigenSolver α)) :
    (settle (s.withProblem t) l' (r.map (·.withProblem t)) :
        _ × Except (SolveFailure SolverError) (Reply α)).1.1 =
        (settle s l r : _ × Except (SolveFailure SolverError) (Reply α)).1.1.withProblem t ∧
      (settle (s.withProblem t) l' (r.map (·.withProblem t)) :
        _ × Except (SolveFailure SolverError) (Reply α)).2 = (settle s l r).2 := by
  cases r <;> exact ⟨rfl, rfl⟩

variable [Scalar α]

lemma setTolerance?_withProblem (x : α) :
    (s.withProblem t).setTolerance? x = (s.setTolerance? x).map (·.withProblem t) :=
  checked_withProblem s t (Handle.isSetting_setTolerances? (some x) s.maxIterations)
    (g := fun handle s => { s with handle, tolerance := some x }) fun _ => rfl

lemma setMaxIterations?_withProblem (m : ℕ) :
    (s.withProblem t).setMaxIterations? m = (s.setMaxIterations? m).map (·.withProblem t) :=
  checked_withProblem s t (Handle.isSetting_setTolerances? s.tolerance (some m))
    (g := fun handle s => { s with handle, maxIterations := some m }) fun _ => rfl

lemma setWanted?_withProblem (n : ℕ) :
    (s.withProblem t).setWanted? n = (s.setWanted? n).map (·.withProblem t) :=
  checked_withProblem s t (Handle.isSetting_setWanted? n)
    (g := fun handle s => { s with handle }) fun _ => rfl

lemma setTarget?_withProblem (x : α) :
    (s.withProblem t).setTarget? x = (s.setTarget? x).map (·.withProblem t) :=
  checked_withProblem s t (Handle.isSetting_setTarget? x)
    (g := fun handle s => { s with handle }) fun _ => rfl

lemma customize_withProblem (o : Options) (apply : Bool) :
    (s.withProblem t).customize o apply =
      ((s.customize o apply).1.withProblem t, (s.customize o apply).2) := by
  have options : (s.withProblem t).handle.setFromOptions o = _ :=
    Handle.setFromOptions_withProblem s.handle t.handle o
  have customized : (s.withProblem t).customized = s.customized := rfl
  unfold customize
  rw [options, customized]
  split
  · rfl
  · rcases s.handle.setFromOptions o with ⟨h', e | _⟩ <;> rfl

variable [Kernels α]

lemma after_withProblem {e e' : Event (Call α)} (same : e'.call = e.call)
    (setting : e.call.isSetting = true) :
    (s.withProblem t).after e' = (s.after e).withProblem t ∧
      (s.withProblem t).answer e' = s.answer e := by
  obtain ⟨o, l, call⟩ := e
  obtain ⟨o', l', call'⟩ := e'
  obtain rfl : call' = call := same
  unfold after answer step
  cases call' with
  | setTolerance x =>
    simp only [setTolerance?_withProblem]
    exact settle_withProblem s t l l' _
  | setMaxIterations m =>
    simp only [setMaxIterations?_withProblem]
    exact settle_withProblem s t l l' _
  | setWanted n =>
    simp only [setWanted?_withProblem]
    exact settle_withProblem s t l l' _
  | setTarget x =>
    simp only [setTarget?_withProblem]
    exact settle_withProblem s t l l' _
  | setWhich _ | setTransform _ | setProblem _ | setSolver _ => exact ⟨rfl, rfl⟩
  | _ => nomatch setting

/-! ### Operators -/

omit [Scalar α] [Kernels α] in
lemma map_eq_map_cases {E β γ : Type} {f : β → γ} {r r' : Except E β} (h : r'.map f = r.map f) :
    (∃ e, r' = .error e ∧ r = .error e) ∨ ∃ x' x, r' = .ok x' ∧ r = .ok x ∧ f x' = f x := by
  rcases r with e | x <;> rcases r' with e' | x'
  · exact .inl ⟨e, congrArg _ (Except.error.inj h), rfl⟩
  · nomatch h
  · nomatch h
  · exact .inr ⟨x', x, rfl, rfl, Except.ok.inj h⟩

omit [Kernels α] in
lemma convert?_unnumbered (wrap : Bool) (l l' : Ledger) (op : Operator α) (operand : String) :
    (convert? wrap l' op operand).map (·.1.unnumbered) =
      (convert? wrap l op operand).map (·.1.unnumbered) := by
  unfold convert?
  split
  · rfl
  · cases op <;> cases wrap <;> rfl

omit [Kernels α] in
lemma convertAll?_unnumbered (wrap : Bool) (l l' : Ledger) (A : Operator α)
    (B : Option (Operator α)) :
    (convertAll? wrap l' A B).2.map (fun MN => (MN.1.unnumbered, MN.2.map Mat.unnumbered)) =
      (convertAll? wrap l A B).2.map fun MN => (MN.1.unnumbered, MN.2.map Mat.unnumbered) := by
  unfold convertAll?
  rcases map_eq_map_cases (convert?_unnumbered wrap l l' A "A") with
    ⟨e, eq', eq⟩ | ⟨⟨M', m'⟩, ⟨M, m⟩, eq', eq, sameA⟩
  · rw [eq', eq]
  rw [eq', eq]
  cases B with
  | none => exact congrArg (fun X => Except.ok (X, none)) sameA
  | some B =>
    rcases map_eq_map_cases (convert?_unnumbered wrap m m' B "B") with
      ⟨e, eq', eq⟩ | ⟨⟨N', n'⟩, ⟨N, n⟩, eq', eq, sameB⟩
    · simp only [eq', eq]
    · simp only [eq', eq]
      exact congrArg₂ (fun X Y => Except.ok (X, some Y)) sameA sameB

omit [Kernels α] in
lemma setOperators_unnumbered (l l' : Ledger) (A : Operator α) (B : Option (Operator α)) :
    (s.unnumbered.setOperators l' A B).1.1.unnumbered = (s.setOperators l A B).1.1.unnumbered ∧
      (s.unnumbered.setOperators l' A B).2 = (s.setOperators l A B).2 := by
  suffices pairs : ((s.unnumbered.setOperators l' A B).1.1.unnumbered,
      (s.unnumbered.setOperators l' A B).2) = ((s.setOperators l A B).1.1.unnumbered,
      (s.setOperators l A B).2) from Prod.mk.inj pairs
  have here := congrArg (Prod.map unnumbered id) (s.setOperators_eq l A B)
  have there := congrArg (Prod.map unnumbered id) (s.unnumbered.setOperators_eq l' A B)
  refine there.trans (Eq.trans ?_ here.symm)
  rcases map_eq_map_cases (convertAll?_unnumbered s.wrap l l' A B) with
    ⟨e, eq', eq⟩ | ⟨⟨M', N'⟩, ⟨M, N⟩, eq', eq, same⟩
  · have wrap : s.unnumbered.wrap = s.wrap := rfl
    rw [wrap, eq, eq']
    exact congrArg (·, _) s.unnumbered_unnumbered
  · have attached : (s.handle.unnumbered.setOperators? M' N').map Handle.unnumbered =
        (s.handle.setOperators? M N).map Handle.unnumbered := by
      obtain ⟨sameA, sameB⟩ := Prod.mk.inj same
      rw [← Handle.setOperators?_unnumbered, ← Handle.setOperators?_unnumbered, sameA, sameB,
        Handle.unnumbered_unnumbered]
    have wrap : s.unnumbered.wrap = s.wrap := rfl
    rw [wrap, eq, eq']
    rcases map_eq_map_cases attached with ⟨e, eq', eq⟩ | ⟨h', h, eq', eq, same⟩
    · have eq' : s.unnumbered.handle.setOperators? M' N' = .error e := eq'
      simp only [eq, eq']
      exact congrArg (·, _) s.unnumbered_unnumbered
    · have eq' : s.unnumbered.handle.setOperators? M' N' = .ok h' := eq'
      simp only [eq, eq']
      refine congrArg (·, _) ?_
      change { s with
          handle := h'.unnumbered, state := .operatorSet, realView := none, imagView := none } =
        { s with handle := h.unnumbered, state := .operatorSet, realView := none, imagView := none }
      rw [same]

/-! ### Queries -/

omit [Scalar α] [Kernels α] in
lemma view?_unnumbered (slot : Option Layout) : s.unnumbered.view? slot = s.view? slot := by
  cases slot with
  | some view => rfl
  | none =>
    change s.unnumbered.rowLayout? = s.rowLayout?
    have operand : s.unnumbered.handle.A = s.handle.A.map Mat.unnumbered := rfl
    unfold rowLayout?
    rw [operand]
    cases s.handle.A with
    | none => rfl
    | some A => simp

omit [Kernels α] in
lemma eigenvector_unnumbered (i : ℕ) (real : Array α) :
    s.unnumbered.eigenvector i real =
      (((s.eigenvector i real).1.1.unnumbered, (s.eigenvector i real).1.2),
        (s.eigenvector i real).2) := by
  have index : s.unnumbered.requireIndex i = s.requireIndex i := rfl
  have slot : s.unnumbered.realView = s.realView := rfl
  unfold eigenvector
  simp only [index, slot, view?_unnumbered]
  cases (do s.requireIndex i; s.view? s.realView : Except SolverError Layout) with
  | error e => rfl
  | ok view =>
    simp only
    cases checked "VectorView::place_array" (LocalVector.place? view real) <;> rfl

omit [Kernels α] in
lemma eigenvectorComplex_unnumbered (i : ℕ) (real imag : Array α) :
    s.unnumbered.eigenvectorComplex i real imag =
      (((s.eigenvectorComplex i real imag).1.1.unnumbered, (s.eigenvectorComplex i real imag).1.2),
        (s.eigenvectorComplex i real imag).2) := by
  have index : s.unnumbered.requireIndex i = s.requireIndex i := rfl
  have slots : s.unnumbered.realView = s.realView ∧ s.unnumbered.imagView = s.imagView :=
    ⟨rfl, rfl⟩
  unfold eigenvectorComplex
  simp only [index, slots.1, slots.2, view?_unnumbered]
  cases (do s.requireIndex i; return (← s.view? s.realView, ← s.view? s.imagView) :
      Except SolverError (Layout × Layout)) with
  | error e => rfl
  | ok views =>
    simp only
    split <;> rfl

/-! ### Calls -/

omit [Kernels α] in
lemma customize_unnumbered (o : Options) (apply : Bool) :
    s.unnumbered.customize o apply =
      ((s.customize o apply).1.unnumbered, (s.customize o apply).2) := by
  have kept : (s.customize o apply).1 = (s.customize o apply).1.withProblem s :=
    congrArg Prod.fst (customize_withProblem s s o apply)
  calc s.unnumbered.customize o apply
      = ((s.customize o apply).1.withProblem s.unnumbered, (s.customize o apply).2) :=
        customize_withProblem s s.unnumbered o apply
    _ = (((s.customize o apply).1.withProblem s).unnumbered, (s.customize o apply).2) := rfl
    _ = ((s.customize o apply).1.unnumbered, (s.customize o apply).2) := by rw [← kept]

lemma solve_unnumbered (o : Options) :
    s.unnumbered.solve o = ((s.solve o).1.unnumbered, (s.solve o).2) := by
  have state : s.unnumbered.state = s.state := rfl
  unfold solve
  rw [state, customize_unnumbered]
  split
  · rfl
  · rcases s.customize o true with ⟨s', e | _⟩
    · rfl
    · have handle : s'.unnumbered.handle.solve =
          (s'.handle.solve.1.unnumbered, s'.handle.solve.2) := s'.handle.solve_unnumbered
      simp only [handle]
      cases s'.handle.solve.2 <;> rfl

lemma after_setting_unnumbered {e e' : Event (Call α)} (call : e'.call = e.call)
    (setting : e.call.isSetting = true) :
    (s.unnumbered.after e').unnumbered = (s.after e).unnumbered ∧
      s.unnumbered.answer e' = s.answer e := by
  obtain ⟨kept, -⟩ := s.after_withProblem s (e := e) rfl setting
  obtain ⟨moved, answered⟩ := s.after_withProblem s.unnumbered call setting
  refine ⟨?_, answered⟩
  calc (s.unnumbered.after e').unnumbered
      = ((s.after e).withProblem s.unnumbered).unnumbered := congrArg unnumbered moved
    _ = ((s.after e).withProblem s).unnumbered.unnumbered := rfl
    _ = (s.after e).unnumbered := by rw [unnumbered_unnumbered, ← kept]; rfl

/-- **The numbers of the matrices do not matter**: solvers that agree but for them give the same
answer to a call and agree afterwards, whichever matrices there are. -/
theorem after_unnumbered {e e' : Event (Call α)} (options : e'.options = e.options)
    (call : e'.call = e.call) :
    (s.unnumbered.after e').unnumbered = (s.after e).unnumbered ∧
      s.unnumbered.answer e' = s.answer e := by
  by_cases setting : e.call.isSetting = true
  · exact s.after_setting_unnumbered call setting
  obtain ⟨o, l, c⟩ := e
  obtain ⟨o', l', c'⟩ := e'
  obtain rfl : o' = o := options
  obtain rfl : c' = c := call
  unfold after answer step
  cases c' with
  | setOperators A B =>
    obtain ⟨after, result⟩ := s.setOperators_unnumbered l l' A B
    exact ⟨after, congrArg (answered · _) result⟩
  | customize apply =>
    simp only [customize_unnumbered]
    exact ⟨unnumbered_unnumbered _, trivial⟩
  | solve =>
    simp only [solve_unnumbered]
    exact ⟨unnumbered_unnumbered _, trivial⟩
  | eigenvector i real =>
    simp only [eigenvector_unnumbered]
    exact ⟨unnumbered_unnumbered _, trivial⟩
  | eigenvectorComplex i real imag =>
    simp only [eigenvectorComplex_unnumbered]
    exact ⟨unnumbered_unnumbered _, trivial⟩
  | converged | eigenvalue _ | eigenvalues => exact ⟨unnumbered_unnumbered _, rfl⟩
  | _ => exact absurd rfl setting

end EigenSolver

end Eigenmesh
