import Mathlib.Data.Nat.Notation
import Mathlib.Logic.Relation
import Mathlib.Tactic.Common
import Eigenmesh.Proofs.EigenSolver.Calls
import Eigenmesh.Proofs.Handle.Run

/-!
Eigensolvers in the course of a program.

The solver keeps a state beside the handle of the package, and the two have to agree: there are
operators unless the solver is new, and a solved solver has a solution. A solved solver is also
done with its runtime options. So when it is asked to solve again, the options cannot break off the
solve before the state is reset, and no result of earlier operators can be left over.
-/

namespace Eigenmesh.EigenSolver

variable {α : Type}

/-- The state of the solver and its views agree with the handle of the package. -/
structure Coherent (s : EigenSolver α) : Prop where
  consistent : s.handle.Consistent
  created : s.state = .created ↔ s.handle.A = none
  solved : s.state = .solved → s.customized = true ∧ s.handle.solution.isSome = true
  realView : ∀ v, s.realView = some v → s.handle.A.map Mat.rowLayout = some v
  imagView : ∀ v, s.imagView = some v → s.handle.A.map Mat.rowLayout = some v

lemma coherent_fresh (family : String) (wrap : Bool) :
    (fresh family wrap : EigenSolver α).Coherent where
  consistent := { Handle.consistent_fresh with }
  created := ⟨fun _ => rfl, fun _ => rfl⟩
  solved := fun e => nomatch e
  realView := fun _ e => nomatch e
  imagView := fun _ e => nomatch e

variable [Scalar α] {s s' : EigenSolver α}

/-- The solver is configured differently, or has more views; there is nothing new to report. -/
inductive Quiet (s : EigenSolver α) : EigenSolver α → Prop
  | configured {h' : Handle α} {tolerance : Option α} {maxIterations : Option ℕ}
      {customized : Bool} (a : Handle.Adjusted s.handle h')
      (done : s.customized = true → customized = true) :
      Quiet s { s with handle := h', tolerance, maxIterations, customized }
  | viewed {v w : Option Layout} (hv : v = s.realView ∨ v = s.handle.A.map Mat.rowLayout)
      (hw : w = s.imagView ∨ w = s.handle.A.map Mat.rowLayout) :
      Quiet s { s with realView := v, imagView := w }

lemma Quiet.refl (s : EigenSolver α) : Quiet s s := .configured .refl id

lemma Coherent.quiet (q : Quiet s s') (c : s.Coherent) : s'.Coherent := by
  cases q with
  | configured a done =>
    have same := Handle.Adjusted.sameProblem a
    exact
      { consistent := c.consistent.sameProblem same
        created := by rw [same.A]; exact c.created
        solved := fun solved => by
          rw [same.solution]
          exact ⟨done (c.solved solved).1, (c.solved solved).2⟩
        realView := by rw [same.A]; exact c.realView
        imagView := by rw [same.A]; exact c.imagView }
  | viewed hv hw =>
    refine { c with realView := ?_, imagView := ?_ }
    · rintro x rfl
      rcases hv with there | made
      · exact c.realView x there.symm
      · exact made.symm
    · rintro x rfl
      rcases hw with there | made
      · exact c.imagView x there.symm
      · exact made.symm

lemma quiet_settle {l : Ledger} {r : Except SolverError (EigenSolver α)}
    (hr : ∀ s', r = .ok s' → Quiet s s') :
    Quiet s (settle s l r : _ × Except (SolveFailure SolverError) (Reply α)).1.1 := by
  cases r with
  | error e => exact .refl s
  | ok s' => exact hr s' rfl

lemma quiet_customize (s : EigenSolver α) (o : Options) (apply : Bool) :
    Quiet s (s.customize o apply).1 := by
  obtain ⟨h', a, eq | ⟨-, e, eq⟩⟩ := customize_cases s o apply
  · rw [eq]
    exact .configured (Handle.adjusted_of_adjusts a) fun _ => rfl
  · rw [eq]
    exact .configured (Handle.adjusted_of_adjusts a) id

variable [Kernels α]

/-- What one call does to a solver. -/
inductive Transition (s : EigenSolver α) : EigenSolver α → Prop
  | quiet {s' : EigenSolver α} (q : Quiet s s') : Transition s s'
  | attached {M : Mat α} {N : Option (Mat α)} {h' : Handle α}
      (ok : s.handle.setOperators? M N = .ok h') :
      Transition s { s with handle := h', state := .operatorSet, realView := none, imagView := none }
  | solved {h' : Handle α} (attached : s.state ≠ .created) (a : Handle.Adjusted s.handle h')
      (ok : h'.solve.2 = .ok ()) :
      Transition s { s with handle := h'.solve.1, customized := true, state := .solved }
  | failed {h' : Handle α} (attached : s.state ≠ .created) (a : Handle.Adjusted s.handle h') :
      Transition s { s with handle := h'.solve.1, customized := true, state := .operatorSet }

lemma Transition.handle (t : Transition s s') :
    Relation.ReflTransGen Handle.Transition s.handle s'.handle := by
  cases t with
  | quiet q =>
    cases q with
    | configured a _ => exact .single (.adjusted a)
    | viewed _ _ => exact .refl
  | attached ok => exact .single (.operators ok)
  | solved _ a _ => exact .tail (.single (.adjusted a)) .solve
  | failed _ a => exact .tail (.single (.adjusted a)) .solve

lemma Coherent.solve {h' : Handle α} {state : SolverState} (c : s.Coherent)
    (attached : s.state ≠ .created) (a : Handle.Adjusted s.handle h') (created : state ≠ .created)
    (solved : state = .solved → h'.solve.2 = .ok ()) :
    { s with handle := h'.solve.1, customized := true, state }.Coherent := by
  have same := Handle.Adjusted.sameProblem a
  have unchanged : h'.solve.1.A = s.handle.A := (Handle.A_solve h').trans same.A
  refine ⟨(c.consistent.sameProblem same).solve, ?_, fun e => ⟨rfl, ?_⟩, ?_, ?_⟩
  · rw [unchanged, ← c.created]
    exact ⟨fun e => absurd e created, fun e => absurd e attached⟩
  · obtain ⟨A, B, r, -, -, eq⟩ := Handle.solve_eq_ok (solved e)
    rw [eq]
    rfl
  · rw [unchanged]; exact c.realView
  · rw [unchanged]; exact c.imagView

lemma Coherent.transition (t : Transition s s') (c : s.Coherent) : s'.Coherent := by
  cases t with
  | quiet q => exact c.quiet q
  | attached ok =>
    have consistent := Handle.consistent_of_setOperators? ok
    obtain ⟨-, -, rfl⟩ := Handle.setOperators?_eq_ok.1 ok
    exact
      { consistent
        created := ⟨fun e => (nomatch e), fun e => (nomatch e)⟩
        solved := fun e => nomatch e
        realView := fun _ e => nomatch e
        imagView := fun _ e => nomatch e }
  | solved attached a ok => exact c.solve attached a (by decide) fun _ => ok
  | failed attached a => exact c.solve attached a (by decide) fun e => nomatch e

/-! ### Runs -/

/-- The solver after a call. -/
def after (s : EigenSolver α) (e : Event (Call α)) : EigenSolver α :=
  (s.step e.options e.ledger e.call).1.1

/-- What the call answers. -/
def answer (s : EigenSolver α) (e : Event (Call α)) :
    Except (SolveFailure SolverError) (Reply α) :=
  (s.step e.options e.ledger e.call).2

/-- The solver after some calls. -/
def run (s : EigenSolver α) (events : List (Event (Call α))) : EigenSolver α :=
  events.foldl after s

lemma run_append (s : EigenSolver α) (u v : List (Event (Call α))) :
    s.run (u ++ v) = (s.run u).run v := List.foldl_append

lemma run_concat (s : EigenSolver α) (events : List (Event (Call α))) (e : Event (Call α)) :
    s.run (events ++ [e]) = (s.run events).after e := run_append s events [e]

lemma quiet (s : EigenSolver α) (e : Event (Call α)) (solving : e.call ≠ .solve)
    (attaching : ∀ A B, e.call ≠ .setOperators A B) : Quiet s (s.after e) := by
  obtain ⟨o, l, call⟩ := e
  cases call with
  | setOperators A B => exact absurd rfl (attaching A B)
  | setTolerance t =>
    refine quiet_settle fun s' ok => ?_
    obtain ⟨h', sent, rfl⟩ := setTolerance?_eq_ok.1 ok
    exact .configured (.single (.tolerances trivial sent)) id
  | setMaxIterations m =>
    refine quiet_settle fun s' ok => ?_
    obtain ⟨h', sent, rfl⟩ := setMaxIterations?_eq_ok.1 ok
    exact .configured (.single (.tolerances trivial sent)) id
  | setWanted n =>
    refine quiet_settle fun s' ok => ?_
    obtain ⟨h', sent, rfl⟩ := setWanted?_eq_ok.1 ok
    exact .configured (.single (.wanted sent)) id
  | setTarget x =>
    refine quiet_settle fun s' ok => ?_
    obtain ⟨h', sent, rfl⟩ := setTarget?_eq_ok.1 ok
    exact .configured (.single (.target sent)) id
  | setWhich which => exact .configured (.single (.which which)) id
  | setTransform type => exact .configured (.single (.transform type)) id
  | setProblem problem => exact .configured (.single (.problem problem)) id
  | setSolver solver => exact .configured (.single (.solver solver)) id
  | customize apply => exact quiet_customize s o apply
  | solve => exact absurd rfl solving
  | converged => exact .refl s
  | eigenvalue i => exact .refl s
  | eigenvalues => exact .refl s
  | eigenvector i real =>
    change Quiet s (s.eigenvector i real).1.1
    obtain ⟨v, eq, hv⟩ := eigenvector_views s i real
    rw [eq]
    exact .viewed hv (.inl rfl)
  | eigenvectorComplex i real imag =>
    change Quiet s (s.eigenvectorComplex i real imag).1.1
    obtain ⟨v, w, eq, hv, hw⟩ := eigenvectorComplex_views s i real imag
    rw [eq]
    exact .viewed hv hw

lemma transition_solve (s : EigenSolver α) (o : Options) : Transition s (s.solve o).1 := by
  by_cases created : s.state = .created
  · rw [solve_of_created o created]
    exact .quiet (.refl s)
  · obtain ⟨h', a, eq | ⟨-, e, eq⟩⟩ := customize_cases s o true
    · have a := Handle.adjusted_of_adjusts a
      rcases solve_of_customized created eq with ⟨ok, eq⟩ | ⟨e, f, -, eq⟩
      · rw [eq]; exact .solved created a ok
      · rw [eq]; exact .failed created a
    · rw [solve_of_refused created eq]
      exact .quiet (.configured (Handle.adjusted_of_adjusts a) id)

/-- **Every call attaches operators, solves or is quiet.** -/
theorem transition (s : EigenSolver α) (e : Event (Call α)) : Transition s (s.after e) := by
  by_cases solving : e.call = .solve
  · obtain ⟨o, l, call⟩ := e
    obtain rfl : call = .solve := solving
    exact transition_solve s o
  by_cases attaching : ∃ A B, e.call = .setOperators A B
  · obtain ⟨o, l, call⟩ := e
    obtain ⟨A, B, attaching⟩ := attaching
    obtain rfl : call = .setOperators A B := attaching
    change Transition s (s.setOperators l A B).1.1
    rcases setOperators_cases s l A B with ⟨l', e, eq⟩ | ⟨M, N, h', l', ok, eq⟩
    · rw [eq]; exact .quiet (.refl s)
    · rw [eq]; exact .attached ok
  · exact .quiet (s.quiet e solving fun A B eq => attaching ⟨A, B, eq⟩)

lemma run_induction {P : EigenSolver α → Prop} (step : ∀ s s', Transition s s' → P s → P s')
    (start : P s) (events : List (Event (Call α))) : P (s.run events) := by
  induction events generalizing s with
  | nil => exact start
  | cons e events ih => exact ih (step _ _ (s.transition e) start)

variable (family : String) (wrap : Bool) (events : List (Event (Call α)))

lemma coherent_run : ((fresh family wrap).run events).Coherent :=
  run_induction (fun _ _ t c => c.transition t) (coherent_fresh family wrap) events

lemma reachable_handle : ((fresh family wrap).run events).handle.Reachable :=
  run_induction (P := fun s => s.handle.Reachable) (fun _ _ t r => r.trans t.handle)
    (.single (.family family)) events

lemma vectorsFit_run (fits : Kernels.Fits α) :
    ((fresh family wrap).run events).handle.VectorsFit := by
  suffices both : ((fresh family wrap).run events).handle.Consistent ∧
      ((fresh family wrap).run events).handle.VectorsFit from both.2
  refine run_induction (P := fun s => s.handle.Consistent ∧ s.handle.VectorsFit) ?_ ?_ events
  · rintro s s' t ⟨c, v⟩
    exact Handle.vectorsFit_of_transitions fits t.handle c v
  · exact ⟨(coherent_fresh family wrap).consistent, Handle.vectorsFit_fresh⟩

end Eigenmesh.EigenSolver
