import Mathlib.Data.List.Induction
import Mathlib.Data.Nat.Notation
import Mathlib.Tactic.Common
import Eigenmesh.Proofs.EigenSolver.Numbers
import Eigenmesh.Proofs.Handle.Families
import Eigenmesh.Proofs.Scalar.Rational

/-!
Runtime options reach a solver at most once.

A call marks the solver if it applies the options with success, or rules them out. From then on no
call looks at the options: whatever they say later, calls have the same effect and the same answers,
and the configuration is what the settings made since then say. An application that breaks off does
not mark, and is tried again.
-/

namespace Eigenmesh

namespace EigenSolver

variable {α : Type} [Scalar α] [Kernels α] {s s' : EigenSolver α} {e e' : Event (Call α)}

/-- What becomes of the call depends on the runtime options. -/
def Consults (s : EigenSolver α) (e : Event (Call α)) : Prop :=
  ∃ o, s.step o e.ledger e.call ≠ s.step e.options e.ledger e.call

/-- The call applies the runtime options, all of them. -/
def Applies (s : EigenSolver α) (e : Event (Call α)) : Prop :=
  s.Consults e ∧ (s.after e).customized = true

/-- The call applies the runtime options or rules them out. -/
def Marks (s : EigenSolver α) (e : Event (Call α)) : Prop :=
  s.Applies e ∨ e.call = .customize false

/-- Some call among the events has marked the solver. -/
def Marked (s : EigenSolver α) (events : List (Event (Call α))) : Prop :=
  ∃ u e v, events = u ++ e :: v ∧ (s.run u).Marks e

/-- What the calls answer, in turn. -/
def answers (s : EigenSolver α) :
    List (Event (Call α)) → List (Except (SolveFailure SolverError) (Reply α))
  | [] => []
  | e :: events => s.answer e :: (s.after e).answers events

/-- How problems are to be solved, apart from any problem. -/
def configuration (s : EigenSolver α) : EigenSolver α := s.withProblem (fresh "" false)

/-! ### Customized solvers -/

lemma step_of_customized (done : s.customized = true) (o o' : Options) (l : Ledger)
    (c : Call α) : s.step o' l c = s.step o l c := by
  have customize : ∀ apply, s.customize o' apply = s.customize o apply := fun apply => by
    rw [customize_of_done o (.inr done), customize_of_done o' (.inr done)]
  cases c with
  | customize apply =>
    simp only [step, customize]
  | solve =>
    simp only [step, solve, customize]
  | _ => rfl

lemma not_consults (done : s.customized = true) : ¬s.Consults e := by
  rintro ⟨o, differs⟩
  exact differs (step_of_customized done e.options o e.ledger e.call)

lemma Transition.customized (t : Transition s s') (done : s.customized = true) :
    s'.customized = true := by
  cases t with
  | quiet q =>
    cases q with
    | configured _ keeps => exact keeps done
    | viewed _ _ => exact done
  | attached _ => exact done
  | solved _ _ _ => rfl
  | failed _ _ => rfl

omit [Kernels α] in
lemma customize_of_refused {o : Options} {e : PackageError} (open' : s.customized = false)
    (refused : (s.handle.setFromOptions o).2 = .error e) :
    (s.customize o true).1.customized = false ∧ ∃ e', (s.customize o true).2 = .error e' := by
  unfold customize
  rw [open', if_neg (by decide)]
  rcases hr : s.handle.setFromOptions o with ⟨h', _ | _⟩
  · exact ⟨rfl, _, rfl⟩
  · rw [hr] at refused
    cases refused

omit [Scalar α] [Kernels α] in
lemma customized_settle {l : Ledger} {r : Except SolverError (EigenSolver α)}
    (hr : ∀ s', r = .ok s' → s'.customized = s.customized) :
    (settle s l r : _ × Except (SolveFailure SolverError) (Reply α)).1.1.customized =
      s.customized := by
  cases r with
  | error e => rfl
  | ok s' => exact hr s' rfl

lemma exists_unmarked (s : EigenSolver α) (open' : s.customized = false) :
    ∃ o, ∀ l c, c ≠ .customize false → (s.step o l c).1.1.customized = false := by
  have known : "eps_nev" ∈ Handle.optionNames := by decide
  obtain ⟨value, refuses⟩ := s.handle.exists_refused known
  obtain ⟨e, he⟩ := refuses .empty
  obtain ⟨unmarked, e', refused⟩ := customize_of_refused open' he
  refine ⟨Options.empty.put (s.handle.family ++ "eps_nev") value, fun l c other => ?_⟩
  cases c with
  | setOperators A B =>
    change (s.setOperators l A B).1.1.customized = _
    rcases setOperators_cases s l A B with ⟨l', e, eq⟩ | ⟨M, N, h', l', -, eq⟩ <;>
    · rw [eq]
      exact open'
  | setTolerance x =>
    refine (customized_settle fun s' ok => ?_).trans open'
    obtain ⟨h', -, rfl⟩ := setTolerance?_eq_ok.1 ok
    rfl
  | setMaxIterations m =>
    refine (customized_settle fun s' ok => ?_).trans open'
    obtain ⟨h', -, rfl⟩ := setMaxIterations?_eq_ok.1 ok
    rfl
  | setWanted n =>
    refine (customized_settle fun s' ok => ?_).trans open'
    obtain ⟨h', -, rfl⟩ := setWanted?_eq_ok.1 ok
    rfl
  | setTarget x =>
    refine (customized_settle fun s' ok => ?_).trans open'
    obtain ⟨h', -, rfl⟩ := setTarget?_eq_ok.1 ok
    rfl
  | customize apply =>
    cases apply with
    | false => exact absurd rfl other
    | true => exact unmarked
  | solve =>
    change (s.solve _).1.customized = false
    by_cases created : s.state = .created
    · rw [solve_of_created _ created]
      exact open'
    · rw [solve_of_refused created (Prod.ext rfl refused)]
      exact unmarked
  | eigenvector i real =>
    obtain ⟨v, eq, -⟩ := eigenvector_views s i real
    change (s.eigenvector i real).1.1.customized = false
    rw [eq]
    exact open'
  | eigenvectorComplex i real imag =>
    obtain ⟨v, w, eq, -⟩ := eigenvectorComplex_views s i real imag
    change (s.eigenvectorComplex i real imag).1.1.customized = false
    rw [eq]
    exact open'
  | _ => exact open'

lemma customized_after_iff :
    (s.after e).customized = true ↔ s.customized = true ∨ s.Marks e := by
  constructor
  · intro done
    by_cases before : s.customized = true
    · exact .inl before
    by_cases rules : e.call = .customize false
    · exact .inr (.inr rules)
    obtain ⟨o, unmarked⟩ := s.exists_unmarked (by simpa using before)
    have differs : s.step o e.ledger e.call ≠ s.step e.options e.ledger e.call := by
      intro same
      have open' := unmarked e.ledger e.call rules
      rw [same] at open'
      exact absurd (open'.symm.trans done) (by decide)
    exact .inr (.inl ⟨⟨o, differs⟩, done⟩)
  · rintro (before | ⟨-, done⟩ | rules)
    · exact (s.transition e).customized before
    · exact done
    · obtain ⟨o, l, c⟩ := e
      obtain rfl : c = .customize false := rules
      rfl

lemma marked_concat {events : List (Event (Call α))} :
    s.Marked (events ++ [e]) ↔ s.Marked events ∨ (s.run events).Marks e := by
  constructor
  · rintro ⟨u, f, v, eq, marks⟩
    rcases List.eq_nil_or_concat' v with rfl | ⟨v, g, rfl⟩
    · obtain ⟨rfl, rfl⟩ := List.append_singleton_inj.1 eq
      exact .inr marks
    · rw [← List.cons_append, ← List.append_assoc] at eq
      obtain ⟨rfl, rfl⟩ := List.append_singleton_inj.1 eq
      exact .inl ⟨u, f, v, rfl, marks⟩
  · rintro (⟨u, f, v, rfl, marks⟩ | marks)
    · exact ⟨u, f, v ++ [e], by simp, marks⟩
    · exact ⟨events, e, [], rfl, marks⟩

lemma customized_run_iff (events : List (Event (Call α))) :
    (s.run events).customized = true ↔ s.customized = true ∨ s.Marked events := by
  induction events using List.reverseRecOn with
  | nil =>
    have unmarked : ¬s.Marked [] := by
      rintro ⟨u, f, v, eq, -⟩
      simp at eq
    exact (or_iff_left unmarked).symm
  | append_singleton events e ih =>
    rw [run_concat, customized_after_iff, ih, marked_concat, or_assoc]

/-! ### Two runs -/

lemma after_congr (same : s'.unnumbered = s.unnumbered) (options : e'.options = e.options)
    (call : e'.call = e.call) :
    (s'.after e').unnumbered = (s.after e).unnumbered ∧ s'.answer e' = s.answer e := by
  obtain ⟨after, answer⟩ := s.after_unnumbered options call
  obtain ⟨after', answer'⟩ := s'.after_unnumbered (rfl : e'.options = e'.options) rfl
  rw [same] at after' answer'
  exact ⟨after'.symm.trans after, answer'.symm.trans answer⟩

lemma run_congr {u u' : List (Event (Call α))} (same : s'.unnumbered = s.unnumbered)
    (h : u'.map (fun e => (e.options, e.call)) = u.map fun e => (e.options, e.call)) :
    (s'.run u').unnumbered = (s.run u).unnumbered := by
  induction u generalizing s s' u' with
  | nil =>
    obtain rfl := List.map_eq_nil_iff.1 h
    exact same
  | cons e u ih =>
    obtain ⟨e', u', rfl, head, tail⟩ := List.map_eq_cons_iff.1 h
    obtain ⟨options, call⟩ := Prod.mk.inj head
    have rest := ih (after_congr same options call).1 tail
    exact rest

lemma run_congr_of_customized {v v' : List (Event (Call α))} (done : s.customized = true)
    (same : s'.unnumbered = s.unnumbered) (h : v'.map (·.call) = v.map (·.call)) :
    (s'.run v').unnumbered = (s.run v).unnumbered ∧ s'.answers v' = s.answers v := by
  induction v generalizing s s' v' with
  | nil =>
    obtain rfl := List.map_eq_nil_iff.1 h
    exact ⟨same, rfl⟩
  | cons e v ih =>
    obtain ⟨e', v', rfl, call, tail⟩ := List.map_eq_cons_iff.1 h
    have done' : s'.customized = true := (congrArg customized same).trans done
    -- the options of one run may as well be those of the other
    have step : s'.step e'.options e'.ledger e'.call = s'.step e.options e'.ledger e'.call :=
      step_of_customized done' e.options e'.options e'.ledger e'.call
    have options : { e' with options := e.options }.options = e.options := rfl
    obtain ⟨after, answer⟩ := after_congr same options call
    obtain ⟨run, answers⟩ := ih ((s.transition e).customized done)
      ((congrArg (·.1.1.unnumbered) step).trans after) tail
    exact ⟨run, congrArg₂ List.cons ((congrArg Prod.snd step).trans answer) answers⟩

/-! ### Configurations -/

omit [Scalar α] [Kernels α] in
lemma eq_of_customized (done : s.customized = true) : { s with customized := true } = s := by
  cases s
  cases done
  rfl

lemma configuration_solve (done : s.customized = true) (o : Options) :
    (s.solve o).1.configuration = s.configuration := by
  by_cases created : s.state = .created
  · rw [solve_of_created o created]
  · have applied : s.customize o true = ({ s with customized := true }, .ok ()) :=
      customize_of_done o (.inr done)
    rw [eq_of_customized done] at applied
    rcases solve_of_customized created applied with ⟨-, eq⟩ | ⟨e, f, -, eq⟩ <;>
    · rw [eq, Handle.solve_frame]
      rfl

lemma configuration_after_of_not_setting (done : s.customized = true)
    (other : e.call.isSetting = false) : (s.after e).configuration = s.configuration := by
  obtain ⟨o, l, c⟩ := e
  cases c with
  | setOperators A B =>
    change (s.setOperators l A B).1.1.configuration = s.configuration
    rcases setOperators_cases s l A B with ⟨l', e, eq⟩ | ⟨M, N, h', l', ok, eq⟩
    · rw [eq]
    · obtain ⟨-, -, rfl⟩ := Handle.setOperators?_eq_ok.1 ok
      rw [eq]
      rfl
  | customize apply =>
    change (s.customize o apply).1.configuration = s.configuration
    rw [customize_of_done o (.inr done), eq_of_customized done]
  | solve => exact configuration_solve done o
  | converged | eigenvalue _ | eigenvalues => rfl
  | eigenvector i real =>
    obtain ⟨v, eq, -⟩ := eigenvector_views s i real
    exact (congrArg configuration eq).trans rfl
  | eigenvectorComplex i real imag =>
    obtain ⟨v, w, eq, -⟩ := eigenvectorComplex_views s i real imag
    exact (congrArg configuration eq).trans rfl
  | _ => nomatch other

lemma configuration_after_of_setting (setting : e.call.isSetting = true) :
    (s.after e).configuration = s.configuration.after e :=
  (s.after_withProblem (fresh "" false) (e := e) rfl setting).1.symm

lemma configuration_run (done : s.customized = true) (done' : s'.customized = true)
    (same : s'.configuration = s.configuration) (v : List (Event (Call α))) :
    (s.run v).configuration = (s'.run (v.filter (·.call.isSetting))).configuration := by
  induction v generalizing s s' with
  | nil => exact same.symm
  | cons e v ih =>
    have kept := (s.transition e).customized done
    cases setting : e.call.isSetting with
    | true =>
      rw [List.filter_cons, if_pos setting]
      refine ih kept ((s'.transition e).customized done') ?_
      rw [configuration_after_of_setting setting, configuration_after_of_setting setting, same]
    | false =>
      rw [List.filter_cons, if_neg (by rw [setting]; decide)]
      refine ih kept done' ?_
      rw [configuration_after_of_not_setting done setting, same]

/-! ### Runs of new solvers -/

/-- **Runtime options reach a solver at most once.** No two calls of a run apply them, and once a
call has applied them or ruled them out, no call looks at them any more. So two runs with the same
calls and the same options up to there end in the same solver, but for the numbers of its matrices,
and give the same answers from there on as long as the calls are the same, whatever the options and
the other matrices become; and the configuration is what the settings since then have made of it. -/
theorem options_reach_once (family : String) (wrap : Bool) :
    let start : EigenSolver α := fresh family wrap
    (∀ u e v e', (start.run u).Applies e → ¬(start.run (u ++ e :: v)).Applies e') ∧
    (∀ u e v e', (start.run u).Marks e → ¬(start.run (u ++ e :: v)).Consults e') ∧
    (∀ u, (start.run u).customized = true ↔ start.Marked u) ∧
    (∀ u u' v v', u'.map (fun e => (e.options, e.call)) = u.map (fun e => (e.options, e.call)) →
      v'.map (·.call) = v.map (·.call) → start.Marked u →
      (start.run (u' ++ v')).unnumbered = (start.run (u ++ v)).unnumbered ∧
        (start.run u').answers v' = (start.run u).answers v) ∧
    (∀ u v, start.Marked u → (start.run (u ++ v)).configuration =
      (start.run (u ++ v.filter (·.call.isSetting))).configuration) := by
  intro start
  have customized : ∀ u, (start.run u).customized = true ↔ start.Marked u := fun u => by
    rw [customized_run_iff]
    exact or_iff_right Bool.false_ne_true
  have done : ∀ u e v, (start.run u).Marks e → (start.run (u ++ e :: v)).customized = true :=
    fun u e v marks => (customized _).2 ⟨u, e, v, rfl, marks⟩
  refine ⟨fun u e v e' applies again => ?_, fun u e v e' marks => ?_, customized, ?_, ?_⟩
  · exact not_consults (done u e v (.inl applies)) again.1
  · exact not_consults (done u e v marks)
  · intro u u' v v' before after marked
    rw [run_append, run_append]
    exact run_congr_of_customized ((customized u).2 marked) (run_congr rfl before) after
  · intro u v marked
    rw [run_append, run_append]
    exact configuration_run ((customized u).2 marked) ((customized u).2 marked) rfl v

/-- A solver is asked to apply options that want two modes, and then told to find one. Options that
want seven come too late, and options that would be refused are not even read. -/
theorem options_reach_once_twoModes :
    let start : EigenSolver Rat := fresh "" false
    let wanting (value : Option String) := Options.empty.put "eps_nev" value
    let u : List (Event (Call Rat)) := [⟨wanting (some "2"), .empty, .customize true⟩]
    let v (o : Options) : List (Event (Call Rat)) :=
      [⟨o, .empty, .customize true⟩, ⟨o, .empty, .setWanted 1⟩,
        ⟨o, .empty, .setOperators (.dense (Rational.diagonal [5, 3])) none⟩, ⟨o, .empty, .solve⟩]
    (start.run u).handle.wanted = 2 ∧ start.Marked u ∧
      (start.run u).answers (v (wanting (some "7"))) = (start.run u).answers (v (wanting none)) ∧
      (start.run (u ++ v (wanting (some "7")))).configuration.handle.wanted = 1 := by
  intro start wanting u v
  obtain ⟨-, -, customized, agree, settings⟩ := options_reach_once (α := Rat) "" false
  have marked : start.Marked u := (customized u).1 (by decide +kernel)
  have late := agree u u (v (wanting none)) (v (wanting (some "7"))) rfl rfl marked
  have settled := congrArg (·.handle.wanted) (settings u (v (wanting (some "7"))) marked)
  exact ⟨by decide +kernel, marked, late.2, settled.trans (by decide +kernel)⟩

end EigenSolver

end Eigenmesh
