import Mathlib.Data.List.Induction
import Mathlib.Data.Nat.Notation
import Mathlib.Logic.Relation
import Mathlib.Tactic.Common
import Eigenmesh.Workspace
import Eigenmesh.Proofs.Handle.Adjustment
import Eigenmesh.Proofs.Handle.Solve
import Eigenmesh.Proofs.Spectrum.Sizes

/-!
Handles in the course of a program.

A call finds the runtime options and the holders of native matrices as the rest of the program has
left them by then, so each call of a run comes with its own. What one call does to a handle is an
adjustment, another family of options, other matrices or a solve; what always holds of a handle is
kept by each of the four.
-/

namespace Eigenmesh

/-- A call, and the surroundings that it is made in. -/
structure Event (γ : Type) where
  options : Options
  ledger : Ledger
  call : γ

namespace Handle

variable {α : Type}

/-- The matrices fit each other, and what is stored belongs to them. -/
structure Consistent (h : Handle α) : Prop where
  reason : h.reason = .iterating ↔ h.solution = none
  square : ∀ A, h.A = some A → A.rows = A.cols
  conform : ∀ B, h.B = some B → ∃ A, h.A = some A ∧ B.rows = A.rows ∧ B.cols = A.rows
  attached : ∀ r, h.solution = some r → h.A.isSome = true
  counted : ∀ r, h.solution = some r → r.converged ≤ r.modes.length

/-- The stored vectors have an entry for each row of the attached matrix. -/
def VectorsFit (h : Handle α) : Prop :=
  ∀ r A, h.solution = some r → h.A = some A → ∀ m ∈ r.modes, m.vector.size = A.rows

lemma vectorsFit_fresh : (fresh : Handle α).VectorsFit := fun _ _ e => nomatch e

lemma VectorsFit.sameProblem {h h' : Handle α} (same : SameProblem h h') (v : h.VectorsFit) :
    h'.VectorsFit := by
  unfold VectorsFit
  rw [same.solution, same.A]
  exact v

lemma consistent_fresh : (fresh : Handle α).Consistent where
  reason := ⟨fun _ => rfl, fun _ => rfl⟩
  square := fun _ e => nomatch e
  conform := fun _ e => nomatch e
  attached := fun _ e => nomatch e
  counted := fun _ e => nomatch e

lemma Consistent.sameProblem {h h' : Handle α} (same : SameProblem h h') (c : h.Consistent) :
    h'.Consistent where
  reason := by rw [same.reason, same.solution]; exact c.reason
  square := by rw [same.A]; exact c.square
  conform := by rw [same.A, same.B]; exact c.conform
  attached := by rw [same.A, same.solution]; exact c.attached
  counted := by rw [same.solution]; exact c.counted

lemma Consistent.invalidated {h : Handle α} (c : h.Consistent) : h.invalidated.Consistent where
  reason := ⟨fun _ => rfl, fun _ => rfl⟩
  square := c.square
  conform := c.conform
  attached := fun _ e => nomatch e
  counted := fun _ e => nomatch e

variable [Scalar α] {h h' : Handle α} {A : Mat α} {B : Option (Mat α)}

/-- How the problem is to be solved has been said in a sensible way. -/
structure Configured (h : Handle α) : Prop where
  wanted : 0 < h.wanted
  tolerance : ∀ t, h.tolerance = some t → 0 < t
  maxIterations : h.maxIterations ≠ some 0
  target : ∀ t, h.target = some t → Scalar.isFinite t = true
  shift : ∀ x, h.transform.shift = some x → Scalar.isFinite x = true

lemma configured_fresh : (fresh : Handle α).Configured where
  wanted := Nat.one_pos
  tolerance := fun _ e => nomatch e
  maxIterations := fun e => nomatch e
  target := fun _ e => nomatch e
  shift := fun _ e => nomatch e

lemma Configured.adjusts {sent : Option α → Option ℕ → Prop} (a : Adjusts sent h h')
    (c : h.Configured) : h'.Configured := by
  cases a with
  | wanted ok =>
    obtain ⟨pos, rfl⟩ := setWanted?_eq_ok.1 ok
    exact { c with wanted := pos }
  | tolerances _ ok =>
    obtain ⟨pos, some_pos, rfl⟩ := setTolerances?_eq_ok.1 ok
    refine { c with tolerance := ?_, maxIterations := ?_ }
    · intro x e
      rcases Option.or_eq_some_iff.1 e with e | ⟨-, e⟩
      · exact pos x e
      · exact c.tolerance x e
    · intro e
      rcases Option.or_eq_some_iff.1 e with e | ⟨-, e⟩
      · exact some_pos e
      · exact c.maxIterations e
  | target ok =>
    obtain ⟨finite, rfl⟩ := setTarget?_eq_ok.1 ok
    refine { c with target := ?_ }
    rintro t ⟨rfl⟩
    exact finite
  | shift ok =>
    obtain ⟨finite, rfl⟩ := setShift?_eq_ok.1 ok
    refine { c with shift := ?_ }
    rintro t ⟨rfl⟩
    exact finite
  | which w => exact { c with }
  | problem p => exact { c with }
  | solver s => exact { c with }
  | transform t => exact { c with }
  | view v => exact { c with }

lemma Configured.adjusted (a : Adjusted h h') (c : h.Configured) : h'.Configured := by
  induction a with
  | refl => exact c
  | tail _ step ih => exact ih.adjusts step

lemma adjusted_settle {l : Ledger} {r : Except PackageError (Handle α)}
    (hr : ∀ h', r = .ok h' → Adjusts (fun _ _ => True) h h') :
    Adjusted h (settle h l r : _ × Except (SolveFailure PackageError) (Reply α)).1.1 := by
  cases r with
  | error e => exact .refl
  | ok h' => exact .single (hr h' rfl)

lemma consistent_of_setOperators? (ok : h.setOperators? A B = .ok h') : h'.Consistent := by
  obtain ⟨square, conform, rfl⟩ := setOperators?_eq_ok.1 ok
  refine ⟨⟨fun _ => rfl, fun _ => rfl⟩, ?_, ?_, fun _ e => (nomatch e), fun _ e => (nomatch e)⟩
  · rintro M ⟨rfl⟩
    exact square
  · intro M e
    obtain ⟨sq, rows⟩ := conform M e
    exact ⟨A, rfl, rows, by omega⟩

variable [Kernels α]

lemma Configured.solve (c : h.Configured) : h.solve.1.Configured := by
  rcases solve_cases h with ⟨e, -, eq⟩ | ⟨A, B, r, -, -, eq⟩ | ⟨A, B, e, -, -, eq⟩
  · rw [eq]; exact c
  · rw [eq]; exact { c with }
  · rw [eq]; exact { c with }

lemma Consistent.solve (c : h.Consistent) : h.solve.1.Consistent := by
  rcases solve_cases h with ⟨e, -, eq⟩ | ⟨A, B, r, hr, hs, eq⟩ | ⟨A, B, e, -, -, eq⟩
  · rw [eq]; exact c
  · obtain ⟨hA, -, -, -⟩ := ready?_eq_ok.1 hr
    rw [eq]
    refine { c with reason := ?_, attached := ?_, counted := ?_ }
    · have stopped : (h.solved r).reason ≠ .iterating := by
        unfold solved
        simp only
        split <;> simp
      exact ⟨fun e => absurd e stopped, fun e => nomatch e⟩
    · intro _ _
      exact Option.isSome_iff_exists.2 ⟨A, hA⟩
    · rintro r' ⟨rfl⟩
      exact converged_le_of_solution? hs
  · rw [eq]; exact c.invalidated

lemma VectorsFit.solve (fits : Kernels.Fits α) (c : h.Consistent) (v : h.VectorsFit) :
    h.solve.1.VectorsFit := by
  rcases solve_cases h with ⟨e, -, eq⟩ | ⟨A, B, r, hr, hs, eq⟩ | ⟨A, B, e, -, -, eq⟩
  · rw [eq]; exact v
  · obtain ⟨hA, hB, -, -⟩ := ready?_eq_ok.1 hr
    have conform : ∀ M, B = some M → M.rows = A.rows := by
      intro M hM
      obtain ⟨A', hA', rows, -⟩ := c.conform M (hB.trans hM)
      obtain rfl := Option.some.inj (hA.symm.trans hA')
      exact rows
    rw [eq]
    intro r' A' er eA
    obtain rfl := Option.some.inj er
    obtain rfl := Option.some.inj (hA.symm.trans eA)
    exact size_of_mem_modes fits conform hs
  · rw [eq]; exact fun _ _ e => nomatch e

/-! ### Runs -/

/-- What one call does to a handle. -/
inductive Transition (h : Handle α) : Handle α → Prop
  | adjusted {h' : Handle α} (a : Adjusted h h') : Transition h h'
  | family (family : String) : Transition h { h with family }
  | operators {A : Mat α} {B : Option (Mat α)} {h' : Handle α} (ok : h.setOperators? A B = .ok h') :
      Transition h h'
  | solve : Transition h h.solve.1

lemma Configured.transition (t : Transition h h') (c : h.Configured) : h'.Configured := by
  cases t with
  | adjusted a => exact c.adjusted a
  | family f => exact { c with }
  | operators ok => obtain ⟨-, -, rfl⟩ := setOperators?_eq_ok.1 ok; exact { c with }
  | solve => exact c.solve

lemma Configured.transitions (c : h.Configured)
    (moves : Relation.ReflTransGen Transition h h') : h'.Configured := by
  induction moves with
  | refl => exact c
  | tail _ t ih => exact ih.transition t

lemma Consistent.transition (t : Transition h h') (c : h.Consistent) : h'.Consistent := by
  cases t with
  | adjusted a => exact c.sameProblem (Adjusted.sameProblem a)
  | family f => exact { c with }
  | operators ok => exact consistent_of_setOperators? ok
  | solve => exact c.solve

lemma VectorsFit.transition (fits : Kernels.Fits α) (t : Transition h h') (c : h.Consistent)
    (v : h.VectorsFit) : h'.VectorsFit := by
  cases t with
  | adjusted a => exact v.sameProblem (Adjusted.sameProblem a)
  | family f => exact v
  | operators ok => obtain ⟨-, -, rfl⟩ := setOperators?_eq_ok.1 ok; exact fun _ _ e => nomatch e
  | solve => exact v.solve fits c

lemma vectorsFit_of_transitions (fits : Kernels.Fits α)
    (moves : Relation.ReflTransGen Transition h h') (c : h.Consistent) (v : h.VectorsFit) :
    h'.Consistent ∧ h'.VectorsFit := by
  induction moves with
  | refl => exact ⟨c, v⟩
  | tail _ step ih => exact ⟨ih.1.transition step, ih.2.transition fits step ih.1⟩

/-- The handle after a call. -/
def after (h : Handle α) (e : Event (Handle.Call α)) : Handle α :=
  (h.step e.options e.ledger e.call).1.1

/-- The handle after some calls. -/
def run (h : Handle α) (events : List (Event (Handle.Call α))) : Handle α := events.foldl after h

lemma run_append (h : Handle α) (u v : List (Event (Handle.Call α))) :
    h.run (u ++ v) = (h.run u).run v := List.foldl_append

/-- **Every call adjusts the handle, replaces its matrices or solves.** -/
theorem transition (h : Handle α) (e : Event (Handle.Call α)) : Transition h (h.after e) := by
  obtain ⟨o, l, call⟩ := e
  cases call with
  | setOperators A B =>
    change Transition h (h.attach l A B).1.1
    cases hs : h.setOperators? A B with
    | error e => rw [attach_of_error l hs]; exact .adjusted .refl
    | ok h' => rw [(attach_of_ok l hs).1]; exact .operators hs
  | setFamily family => exact .family family
  | setTolerances t m => exact .adjusted (adjusted_settle fun _ ok => .tolerances trivial ok)
  | setWanted n => exact .adjusted (adjusted_settle fun _ ok => .wanted ok)
  | setTarget x => exact .adjusted (adjusted_settle fun _ ok => .target ok)
  | setWhich which => exact .adjusted (.single (.which which))
  | setProblem problem => exact .adjusted (.single (.problem problem))
  | setSolver solver => exact .adjusted (.single (.solver solver))
  | setTransform type => exact .adjusted (.single (.transform type))
  | setShift x => exact .adjusted (adjusted_settle fun _ ok => .shift ok)
  | setFromOptions => exact .adjusted (setFromOptions_adjusted h o)
  | solve => exact .solve
  | converged => exact .adjusted .refl
  | eigenvalue i => exact .adjusted .refl
  | relativeError i => exact .adjusted .refl
  | eigenvector i real imag => exact .adjusted .refl

/-- The handle may come about in the course of a program. -/
def Reachable (h : Handle α) : Prop := Relation.ReflTransGen Transition fresh h

lemma reachable_run (events : List (Event (Handle.Call α))) : (fresh.run events).Reachable := by
  induction events using List.reverseRecOn with
  | nil => exact .refl
  | append_singleton events e ih =>
    rw [run_append]
    exact ih.tail ((fresh.run events).transition e)

lemma Reachable.configured (reachable : h.Reachable) : h.Configured :=
  configured_fresh.transitions reachable

lemma Reachable.consistent (reachable : h.Reachable) : h.Consistent := by
  induction reachable with
  | refl => exact consistent_fresh
  | tail _ t ih => exact ih.transition t

end Handle

end Eigenmesh
