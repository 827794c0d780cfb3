import Mathlib.Data.List.Induction
import Mathlib.Data.Nat.Notation
import Mathlib.Tactic.Common
import Eigenmesh.Proofs.EigenSolver.Accessors

/-!
Which results a solver hands out, as told by its calls alone.

Only two kinds of calls matter: operators that are accepted, and solves while there are operators.
The last of them decides. If it is a solve that succeeded, its pairs are what every query is
answered from; if it is anything else, there is nothing to report, even if the package still holds
the solution of an earlier solve.
-/

namespace Eigenmesh.EigenSolver

variable {α : Type} [Scalar α] {s : EigenSolver α} {A : Mat α} {r : Solution α}

/-! ### Answers -/

/-- The solver answers from the pairs of a solution that count as converged. -/
structure Reports (s : EigenSolver α) (A : Mat α) (r : Solution α) : Prop where
  converged : s.converged? = .ok r.converged
  eigenvalue : ∀ i z, s.eigenvalue? i = .ok z ↔
    ∃ m, (r.modes.take r.converged)[i]? = some m ∧ z = m.value
  realEigenvalue : ∀ i x, s.realEigenvalue? i = .ok x ↔
    ∃ m, (r.modes.take r.converged)[i]? = some m ∧ x = m.value.re
  eigenvector : ∀ i real x,
    (s.eigenvector i real).2 = .ok () ∧ (s.eigenvector i real).1.2 = x ↔
      ∃ m, (r.modes.take r.converged)[i]? = some m ∧ real.size = A.rows ∧
        m.vector.size = A.rows ∧ x = m.vector.map (·.re)
  eigenvectorComplex : ∀ i real imag x,
    (s.eigenvectorComplex i real imag).2 = .ok () ∧
      (s.eigenvectorComplex i real imag).1.2 = x ↔
      ∃ m, (r.modes.take r.converged)[i]? = some m ∧ real.size = A.rows ∧ imag.size = A.rows ∧
        m.vector.size = A.rows ∧ x = (m.vector.map (·.re), m.vector.map (·.im))

/-- The solver answers nothing and leaves buffers alone. -/
structure Silent (s : EigenSolver α) : Prop where
  converged : s.converged? = .error s.unsolved
  eigenvalue : ∀ i, s.eigenvalue? i = .error s.unsolved
  realEigenvalue : ∀ i, s.realEigenvalue? i = .error s.unsolved
  eigenvector : ∀ i real, s.eigenvector i real = ((s, real), .error s.unsolved)
  eigenvectorComplex : ∀ i real imag,
    s.eigenvectorComplex i real imag = ((s, real, imag), .error s.unsolved)

lemma silent_of_unsolved (h : s.state ≠ .solved) : s.Silent where
  converged := converged?_of_unsolved h
  eigenvalue _ := eigenvalue?_of_refused (requireIndex_of_unsolved h)
  realEigenvalue _ := realEigenvalue?_of_refused (requireIndex_of_unsolved h)
  eigenvector _ _ := eigenvector_of_refused (requireIndex_of_unsolved h)
  eigenvectorComplex _ _ _ := eigenvectorComplex_of_refused (requireIndex_of_unsolved h)

lemma Solved.mode_cases (v : s.Solved A r) (i : ℕ) :
    (∃ m, (r.modes.take r.converged)[i]? = some m) ∨
    (r.modes.take r.converged)[i]? = none ∧
      s.requireIndex i = .error (.indexOutOfRange i r.converged) := by
  rcases Nat.lt_or_ge i r.converged with lt | le
  · exact .inl (v.exists_mode lt)
  · exact .inr ⟨List.getElem?_take_eq_none le, v.requireIndex_of_le le⟩

lemma Solved.reports (v : s.Solved A r) : s.Reports A r where
  converged := v.converged?_eq
  eigenvalue i z := by
    rcases v.mode_cases i with ⟨m, hm⟩ | ⟨none, refused⟩
    · rw [v.eigenvalue?_eq hm, hm]
      simp [eq_comm]
    · rw [eigenvalue?_of_refused refused, none]
      simp
  realEigenvalue i x := by
    rcases v.mode_cases i with ⟨m, hm⟩ | ⟨none, refused⟩
    · rw [v.realEigenvalue?_eq hm, hm]
      simp [eq_comm]
    · rw [realEigenvalue?_of_refused refused, none]
      simp
  eigenvector i real x := by
    rcases v.mode_cases i with ⟨m, hm⟩ | ⟨none, refused⟩
    · rw [hm]
      by_cases hr : real.size = A.rows
      · by_cases fit : m.vector.size = A.rows
        · rw [v.eigenvector_of_size hm hr fit]
          simp [hr, fit, eq_comm]
        · obtain ⟨e, he⟩ := v.eigenvector_of_unfit hm hr fit
          simp [he, fit]
      · rw [v.eigenvector_of_size_ne hm hr]
        simp [hr]
    · rw [eigenvector_of_refused refused, none]
      simp
  eigenvectorComplex i real imag x := by
    rcases v.mode_cases i with ⟨m, hm⟩ | ⟨none, refused⟩
    · rw [hm]
      by_cases sizes : real.size = A.rows ∧ imag.size = A.rows
      · obtain ⟨hr, hi⟩ := sizes
        by_cases fit : m.vector.size = A.rows
        · rw [v.eigenvectorComplex_of_size hm hr hi fit]
          simp [hr, hi, fit, eq_comm]
        · obtain ⟨e, he⟩ := v.eigenvectorComplex_of_unfit hm hr hi fit
          simp [he, fit]
      · have wrong : ([real, imag].find? (·.size ≠ A.rows)).isSome := by
          rw [List.find?_isSome]
          simpa [imp_iff_not_or] using sizes
        obtain ⟨b, first⟩ := Option.isSome_iff_exists.1 wrong
        rw [v.eigenvectorComplex_of_size_ne hm first]
        simp only [reduceCtorEq, false_and, Option.some.injEq, false_iff]
        rintro ⟨m', -, hr, hi, -⟩
        exact sizes ⟨hr, hi⟩
    · rw [eigenvectorComplex_of_refused refused, none]
      simp

lemma Quiet.frame {s' : EigenSolver α} (q : Quiet s s') :
    s'.state = s.state ∧ s'.handle.A = s.handle.A ∧ s'.handle.solution = s.handle.solution := by
  cases q with
  | configured a _ =>
    have same := Handle.Adjusted.sameProblem a
    exact ⟨rfl, same.A, same.solution⟩
  | viewed _ _ => exact ⟨rfl, rfl, rfl⟩

/-! ### Calls that settle what there is to report -/

variable [Kernels α] {e : Event (Call α)}

/-- Whether a call succeeds. -/
def succeeds (s : EigenSolver α) (e : Event (Call α)) : Bool := (s.answer e).isOk

/-- Whether a call decides anew what there is to report: operators are accepted, or there are
operators to solve for. -/
def settles (s : EigenSolver α) (e : Event (Call α)) : Bool :=
  match e.call with
  | .setOperators _ _ => s.succeeds e
  | .solve => s.handle.A.isSome
  | _ => false

/-- The solution that a solve comes to for the attached operators, with the runtime options applied
if they have not been. -/
def Computes (s : EigenSolver α) (o : Options) (A : Mat α) (r : Solution α) : Prop :=
  ∃ B, (s.customize o true).1.handle.ready? = .ok (A, B) ∧
    (s.customize o true).1.handle.solution? A B = .ok r

/-- A solve succeeds and leaves the solution that it computes. -/
def Delivers (s : EigenSolver α) (e : Event (Call α)) (s' : EigenSolver α) : Prop :=
  (e.call = .solve ∧ s.succeeds e = true) ∧ s'.state = .solved ∧
    ∃ A r, s.Computes e.options A r ∧ s'.handle.A = some A ∧ s'.handle.solution = some r

lemma succeeds_setOperators (s : EigenSolver α) (o : Options) (l : Ledger) (A : Operator α)
    (B : Option (Operator α)) :
    s.succeeds ⟨o, l, .setOperators A B⟩ = (s.setOperators l A B).2.isOk := by
  change (answered (s.setOperators l A B).2 fun _ => (.done : Reply α)).isOk = _
  cases (s.setOperators l A B).2 <;> rfl

/-- A call that settles nothing is quiet. A solve without operators is one, since a solver without
operators is new. -/
lemma quiet_of_settles (c : s.Coherent) (h : s.settles e = false) : Quiet s (s.after e) := by
  by_cases solving : e.call = .solve
  · obtain ⟨o, l, call⟩ := e
    obtain rfl : call = .solve := solving
    have created := c.created.2 (Option.not_isSome_iff_eq_none.1 (by simpa [settles] using h))
    change Quiet s (s.solve o).1
    rw [solve_of_created o created]
    exact .refl s
  by_cases attaching : ∃ A B, e.call = .setOperators A B
  · obtain ⟨o, l, call⟩ := e
    obtain ⟨A, B, attaching⟩ := attaching
    obtain rfl : call = .setOperators A B := attaching
    change Quiet s (s.setOperators l A B).1.1
    rcases setOperators_cases s l A B with ⟨l', e, eq⟩ | ⟨M, N, h', l', ok, eq⟩
    · rw [eq]; exact .refl s
    · rw [settles, succeeds_setOperators, eq] at h
      cases h
  · exact s.quiet e solving fun A B eq => attaching ⟨A, B, eq⟩

/-- A solve with operators delivers, or it fails and leaves the solver unsolved. A solver that is
solved is done with its options, so they cannot be what fails. -/
lemma solve_cases (c : s.Coherent) {o : Options} {l : Ledger} (attached : s.handle.A.isSome = true) :
    s.Delivers ⟨o, l, .solve⟩ (s.after ⟨o, l, .solve⟩) ∨
    s.succeeds ⟨o, l, .solve⟩ = false ∧ (s.after ⟨o, l, .solve⟩).state ≠ .solved := by
  have attached : s.state ≠ .created := by
    intro created
    rw [c.created.1 created] at attached
    cases attached
  have reply : s.answer ⟨o, l, .solve⟩ = (s.solve o).2.map fun _ => .done := rfl
  have next : s.after ⟨o, l, .solve⟩ = (s.solve o).1 := rfl
  obtain ⟨h', a, applied | ⟨customizing, e, refused⟩⟩ := customize_cases s o true
  · rcases solve_of_customized attached applied with ⟨ok, eq⟩ | ⟨e, f, -, eq⟩
    · obtain ⟨A, B, r, ready, computed, solved⟩ := Handle.solve_eq_ok ok
      left
      refine ⟨⟨rfl, ?_⟩, ?_, A, r, ⟨B, ?_, ?_⟩, ?_, ?_⟩
      · rw [succeeds, reply, eq]; rfl
      · rw [next, eq]
      · rw [applied]; exact ready
      · rw [applied]; exact computed
      · rw [next, eq]
        exact (Handle.A_solve h').trans (Handle.ready?_eq_ok.1 ready).1
      · rw [next, eq]
        change h'.solve.1.solution = some r
        rw [solved]
        rfl
    · right
      rw [succeeds, reply, next, eq]
      exact ⟨rfl, by simp⟩
  · right
    rw [succeeds, reply, next, solve_of_refused attached refused]
    refine ⟨rfl, fun solved => ?_⟩
    rw [(c.solved solved).1] at customizing
    cases customizing

lemma settles_cases (c : s.Coherent) (h : s.settles e = true) :
    s.Delivers e (s.after e) ∨
    ¬(e.call = .solve ∧ s.succeeds e = true) ∧ (s.after e).state ≠ .solved := by
  by_cases solving : e.call = .solve
  · obtain ⟨o, l, call⟩ := e
    obtain rfl : call = .solve := solving
    rcases solve_cases c (o := o) (l := l) h with delivers | ⟨failed, unsolved⟩
    · exact .inl delivers
    · exact .inr ⟨fun ok => Bool.false_ne_true (failed.symm.trans ok.2), unsolved⟩
  · refine .inr ⟨fun ok => solving ok.1, ?_⟩
    obtain ⟨o, l, call⟩ := e
    cases call with
    | setOperators A B =>
      rw [settles, succeeds_setOperators] at h
      change (s.setOperators l A B).1.1.state ≠ .solved
      rcases setOperators_cases s l A B with ⟨l', e, eq⟩ | ⟨M, N, h', l', ok, eq⟩
      · rw [eq] at h; cases h
      · rw [eq]; simp
    | solve => exact absurd rfl solving
    | _ => cases h

/-! ### Runs -/

/-- The calls with the solver that each of them finds. -/
def trace (s : EigenSolver α) : List (Event (Call α)) → List (EigenSolver α × Event (Call α))
  | [] => []
  | e :: events => (s, e) :: trace (s.after e) events

/-- The last call that settled what there is to report, and the solver that it found. -/
def lastSettling (s : EigenSolver α) (events : List (Event (Call α))) :
    Option (EigenSolver α × Event (Call α)) :=
  ((s.trace events).filter fun p => p.1.settles p.2).getLast?

lemma trace_concat (s : EigenSolver α) (events : List (Event (Call α))) (e : Event (Call α)) :
    s.trace (events ++ [e]) = s.trace events ++ [(s.run events, e)] := by
  induction events generalizing s with
  | nil => rfl
  | cons first events ih =>
    change (s, first) :: trace (s.after first) (events ++ [e]) = _
    rw [ih]
    rfl

lemma lastSettling_concat (s : EigenSolver α) (events : List (Event (Call α)))
    (e : Event (Call α)) : s.lastSettling (events ++ [e]) =
      if (s.run events).settles e = true then some (s.run events, e)
      else s.lastSettling events := by
  unfold lastSettling
  rw [trace_concat, List.filter_append, List.filter_cons, List.filter_nil]
  split
  · rw [List.getLast?_concat]
  · rw [List.append_nil]

/-- The solver holds what the given call left to report. -/
def Follows (s : EigenSolver α) : Option (EigenSolver α × Event (Call α)) → Prop
  | none => s.state ≠ .solved
  | some (s₀, e) => s₀.Delivers e s ∨
    ¬(e.call = .solve ∧ s₀.succeeds e = true) ∧ s.state ≠ .solved

lemma Follows.quiet {s' : EigenSolver α} {last : Option (EigenSolver α × Event (Call α))}
    (q : Quiet s s') (f : s.Follows last) : s'.Follows last := by
  obtain ⟨state, operator, solution⟩ := q.frame
  cases last with
  | none => exact fun h => f (state.symm.trans h)
  | some p =>
    rcases f with ⟨ok, solved, A, r, computed, hA, hr⟩ | ⟨ok, unsolved⟩
    · exact .inl ⟨ok, state.trans solved, A, r, computed, operator.trans hA, solution.trans hr⟩
    · exact .inr ⟨ok, fun h => unsolved (state.symm.trans h)⟩

variable (family : String) (wrap : Bool) (events : List (Event (Call α)))

lemma follows_run :
    ((fresh family wrap).run events).Follows ((fresh family wrap).lastSettling events) := by
  -- on the number of calls, from the end: the newest one decides, or it is quiet
  induction events using List.reverseRecOn with
  | nil => exact fun h => nomatch h
  | append_singleton events e ih =>
    have c := coherent_run family wrap events
    rw [run_concat, lastSettling_concat]
    split
    · rename_i h
      exact settles_cases c h
    · rename_i h
      exact ih.quiet (quiet_of_settles c (Bool.eq_false_iff.2 h))

/-- **A solver reports the last solve or nothing.** It has pairs to count exactly when the last call
that settled anything is a solve that succeeded; then all queries are answered from the solution of
that solve, and otherwise all are refused. -/
theorem reports_lastSettling :
    (((fresh family wrap).run events).converged?.isOk = true ↔
      ∃ s₀ e, (fresh family wrap).lastSettling events = some (s₀, e) ∧
        e.call = .solve ∧ s₀.succeeds e = true) ∧
    ((∃ s₀ e A r, (fresh family wrap).lastSettling events = some (s₀, e) ∧
        (e.call = .solve ∧ s₀.succeeds e = true) ∧ s₀.Computes e.options A r ∧
        ((fresh family wrap).run events).Reports A r) ∨
      ((fresh family wrap).run events).Silent) := by
  have c := coherent_run family wrap events
  have f := follows_run family wrap events
  cases hl : (fresh family wrap).lastSettling events with
  | none =>
    rw [hl] at f
    have silent := silent_of_unsolved f
    refine ⟨?_, .inr silent⟩
    rw [silent.converged]
    simp [Except.isOk, Except.toBool]
  | some p =>
    obtain ⟨s₀, e⟩ := p
    rw [hl] at f
    rcases f with ⟨ok, solved, A, r, computed, hA, hr⟩ | ⟨not, unsolved⟩
    · obtain ⟨A', r', v⟩ := c.exists_solved solved
      obtain rfl := Option.some.inj (v.attached.symm.trans hA)
      obtain rfl := Option.some.inj (v.stored.symm.trans hr)
      refine ⟨?_, .inl ⟨s₀, e, A', r', rfl, ok, computed, v.reports⟩⟩
      rw [v.converged?_eq]
      exact ⟨fun _ => ⟨s₀, e, rfl, ok⟩, fun _ => rfl⟩
    · have silent := silent_of_unsolved unsolved
      refine ⟨?_, .inr silent⟩
      rw [silent.converged]
      constructor
      · intro h
        cases h
      · rintro ⟨s₁, e₁, eq, ok⟩
        obtain ⟨rfl, rfl⟩ := Prod.mk.inj (Option.some.inj eq)
        exact absurd ok not

/-- A solve for too many pairs is refused at once, and the package holds on to what it has. -/
example :
    ((fresh "" false).run (Rational.solving [2] ++
      [Rational.plainly (.setWanted 5), Rational.plainly .solve])).handle.solution.isSome = true ∧
    ((fresh "" false).run (Rational.solving [2] ++
      [Rational.plainly (.setWanted 5), Rational.plainly .solve])).converged?.isOk = false := by
  decide +kernel

end Eigenmesh.EigenSolver
