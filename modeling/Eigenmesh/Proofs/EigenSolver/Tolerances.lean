import Mathlib.Data.List.Induction
import Mathlib.Data.Nat.Notation
import Mathlib.Tactic.Common
import Eigenmesh.Proofs.EigenSolver.Results

/-!
The tolerance and the iteration limit of a solver.

The solver keeps what it was told last and sends both whenever it is told one of them. The package
keeps what is in force. Runtime options change only the second, so a setting for one of the two
takes the other back to what the program said last, if it said anything.
-/

namespace Eigenmesh.EigenSolver

variable {α : Type} [Scalar α] {s s' : EigenSolver α}

/-! ### What a setting sends -/

lemma tolerance_of_setMaxIterations? {m : ℕ} (ok : s.setMaxIterations? m = .ok s') :
    s'.handle.tolerance = s.tolerance.or s.handle.tolerance := by
  obtain ⟨h', sent, rfl⟩ := setMaxIterations?_eq_ok.1 ok
  obtain ⟨-, -, rfl⟩ := Handle.setTolerances?_eq_ok.1 sent
  rfl

lemma maxIterations_of_setTolerance? {t : α} (ok : s.setTolerance? t = .ok s') :
    s'.handle.maxIterations = s.maxIterations.or s.handle.maxIterations := by
  obtain ⟨h', sent, rfl⟩ := setTolerance?_eq_ok.1 ok
  obtain ⟨-, -, rfl⟩ := Handle.setTolerances?_eq_ok.1 sent
  rfl

/-! ### What other calls do -/

/-- What was set stays, and what is in force may be overridden by runtime options. -/
structure Overrides (o : Options) (s s' : EigenSolver α) : Prop where
  tolerance : s'.tolerance = s.tolerance
  maxIterations : s'.maxIterations = s.maxIterations
  family : s'.handle.family = s.handle.family
  inForce : ∃ t m, (Handle.Gives o s.handle.family t m ∨ t = none ∧ m = none) ∧
    s'.handle.tolerance = t.or s.handle.tolerance ∧
    s'.handle.maxIterations = m.or s.handle.maxIterations

/-- What was set, what is in force, and where the options are looked for. -/
def settings (s : EigenSolver α) : Option α × Option ℕ × String × Option α × Option ℕ :=
  (s.tolerance, s.maxIterations, s.handle.family, s.handle.tolerance, s.handle.maxIterations)

lemma overrides_of_settings {o : Options} (same : s'.settings = s.settings) :
    Overrides o s s' := by
  simp only [settings, Prod.mk.injEq] at same
  obtain ⟨t, m, family, inForce⟩ := same
  exact ⟨t, m, family, none, none, .inr ⟨rfl, rfl⟩, inForce⟩

lemma overrides_settle {o : Options} {l : Ledger} {r : Except SolverError (EigenSolver α)}
    (hr : ∀ s', r = .ok s' → Overrides o s s') :
    Overrides o s (settle s l r : _ × Except (SolveFailure SolverError) (Reply α)).1.1 := by
  cases r with
  | error e => exact overrides_of_settings rfl
  | ok s' => exact hr s' rfl

lemma overrides_customize (s : EigenSolver α) (o : Options) (apply : Bool) :
    Overrides o s (s.customize o apply).1 := by
  obtain ⟨h', a, eq⟩ := customize_cases s o apply
  have inForce := Handle.tolerances_of_gives a
  have family := (Handle.Adjusted.sameProblem (Handle.adjusted_of_adjusts a)).family
  rcases eq with eq | ⟨-, e, eq⟩
  · rw [eq]; exact ⟨rfl, rfl, family, inForce⟩
  · rw [eq]; exact ⟨rfl, rfl, family, inForce⟩

variable [Kernels α] {e : Event (Call α)}

lemma overrides_solve (s : EigenSolver α) (o : Options) : Overrides o s (s.solve o).1 := by
  by_cases created : s.state = .created
  · rw [solve_of_created o created]
    exact overrides_of_settings rfl
  rcases hc : s.customize o true with ⟨s', e | _⟩
  · rw [solve_of_refused created hc]
    have applied := overrides_customize s o true
    rwa [hc] at applied
  · have applied := overrides_customize s o true
    rw [hc] at applied
    obtain ⟨tolerance, maxIterations, family, inForce⟩ := applied
    rcases solve_of_customized created hc with ⟨-, eq⟩ | ⟨_, _, -, eq⟩
    · rw [eq, Handle.solve_frame]; exact ⟨tolerance, maxIterations, family, inForce⟩
    · rw [eq, Handle.solve_frame]; exact ⟨tolerance, maxIterations, family, inForce⟩

lemma overrides_after (s : EigenSolver α) (e : Event (Call α))
    (tolerance : ∀ t, e.call ≠ .setTolerance t) (limit : ∀ m, e.call ≠ .setMaxIterations m) :
    Overrides e.options s (s.after e) := by
  obtain ⟨o, l, call⟩ := e
  cases call with
  | setOperators A B =>
    change Overrides o s (s.setOperators l A B).1.1
    rcases setOperators_cases s l A B with ⟨l', e, eq⟩ | ⟨M, N, h', l', ok, eq⟩
    · rw [eq]; exact overrides_of_settings rfl
    · obtain ⟨-, -, rfl⟩ := Handle.setOperators?_eq_ok.1 ok
      rw [eq]
      exact overrides_of_settings rfl
  | setTolerance t => exact absurd rfl (tolerance t)
  | setMaxIterations m => exact absurd rfl (limit m)
  | setWanted n =>
    refine overrides_settle fun s' ok => ?_
    obtain ⟨h', sent, rfl⟩ := setWanted?_eq_ok.1 ok
    obtain ⟨-, rfl⟩ := Handle.setWanted?_eq_ok.1 sent
    exact overrides_of_settings rfl
  | setTarget x =>
    refine overrides_settle fun s' ok => ?_
    obtain ⟨h', sent, rfl⟩ := setTarget?_eq_ok.1 ok
    obtain ⟨-, rfl⟩ := Handle.setTarget?_eq_ok.1 sent
    exact overrides_of_settings rfl
  | setWhich which => exact overrides_of_settings rfl
  | setTransform type => exact overrides_of_settings rfl
  | setProblem problem => exact overrides_of_settings rfl
  | setSolver solver => exact overrides_of_settings rfl
  | customize apply => exact overrides_customize s o apply
  | solve => exact overrides_solve s o
  | converged => exact overrides_of_settings rfl
  | eigenvalue i => exact overrides_of_settings rfl
  | eigenvalues => exact overrides_of_settings rfl
  | eigenvector i real =>
    change Overrides o s (s.eigenvector i real).1.1
    obtain ⟨v, eq, -⟩ := eigenvector_views s i real
    rw [eq]
    exact overrides_of_settings rfl
  | eigenvectorComplex i real imag =>
    change Overrides o s (s.eigenvectorComplex i real imag).1.1
    obtain ⟨v, w, eq, -, -⟩ := eigenvectorComplex_views s i real imag
    rw [eq]
    exact overrides_of_settings rfl

/-! ### What was set last -/

/-- The tolerance that a call sets. -/
def setsTolerance? (p : EigenSolver α × Event (Call α)) : Option α :=
  match p.2.call with
  | .setTolerance t => if p.1.succeeds p.2 then some t else none
  | _ => none

/-- The iteration limit that a call sets. -/
def setsMaxIterations? (p : EigenSolver α × Event (Call α)) : Option ℕ :=
  match p.2.call with
  | .setMaxIterations m => if p.1.succeeds p.2 then some m else none
  | _ => none

/-- The tolerance that was set last. -/
def lastTolerance (s : EigenSolver α) (events : List (Event (Call α))) : Option α :=
  ((s.trace events).filterMap setsTolerance?).getLast?

/-- The iteration limit that was set last. -/
def lastMaxIterations (s : EigenSolver α) (events : List (Event (Call α))) : Option ℕ :=
  ((s.trace events).filterMap setsMaxIterations?).getLast?

omit [Scalar α] [Kernels α] in
lemma settle_cases (s : EigenSolver α) (l : Ledger) (r : Except SolverError (EigenSolver α)) :
    let settled : _ × Except (SolveFailure SolverError) (Reply α) := settle s l r
    r = .ok settled.1.1 ∧ settled.2.isOk = true ∨ settled.1.1 = s ∧ ¬settled.2.isOk = true := by
  cases r with
  | ok s' => exact .inl ⟨rfl, rfl⟩
  | error e => exact .inr ⟨rfl, Bool.false_ne_true⟩

lemma setting_cases (s : EigenSolver α) (e : Event (Call α)) :
    (∃ t, setsTolerance? (s, e) = some t ∧ setsMaxIterations? (s, e) = none ∧
      s.setTolerance? t = .ok (s.after e)) ∨
    (∃ m, setsTolerance? (s, e) = none ∧ setsMaxIterations? (s, e) = some m ∧
      s.setMaxIterations? m = .ok (s.after e)) ∨
    setsTolerance? (s, e) = none ∧ setsMaxIterations? (s, e) = none ∧
      Overrides e.options s (s.after e) := by
  obtain ⟨o, l, call⟩ := e
  cases call with
  | setTolerance t =>
    rcases settle_cases s l (s.setTolerance? t) with ⟨ok, accepted⟩ | ⟨same, refused⟩
    · exact .inl ⟨t, if_pos accepted, rfl, ok⟩
    · exact .inr (.inr ⟨if_neg refused, rfl, overrides_of_settings (congrArg settings same)⟩)
  | setMaxIterations m =>
    rcases settle_cases s l (s.setMaxIterations? m) with ⟨ok, accepted⟩ | ⟨same, refused⟩
    · exact .inr (.inl ⟨m, rfl, if_pos accepted, ok⟩)
    · exact .inr (.inr ⟨rfl, if_neg refused, overrides_of_settings (congrArg settings same)⟩)
  | _ => exact .inr (.inr ⟨rfl, rfl, overrides_after s _ (by simp) (by simp)⟩)

/-! ### Runs -/

omit [Scalar α] [Kernels α] in
lemma getLast?_filterMap_concat {β γ : Type} (f : β → Option γ) (l : List β) (x : β) :
    ((l ++ [x]).filterMap f).getLast? = (f x).or (l.filterMap f).getLast? := by
  rw [List.filterMap_append]
  cases hf : f x with
  | none => rw [List.filterMap_cons_none hf, List.filterMap_nil, List.append_nil, Option.none_or]
  | some y =>
    rw [List.filterMap_cons_some hf, List.filterMap_nil, List.getLast?_concat, Option.some_or]

variable (family : String) (wrap : Bool) (events : List (Event (Call α)))

lemma set_run :
    ((fresh family wrap).run events).tolerance = (fresh family wrap).lastTolerance events ∧
    ((fresh family wrap).run events).maxIterations =
      (fresh family wrap).lastMaxIterations events := by
  induction events using List.reverseRecOn with
  | nil => exact ⟨rfl, rfl⟩
  | append_singleton events e ih =>
    obtain ⟨iht, ihm⟩ := ih
    unfold lastTolerance at iht ⊢
    unfold lastMaxIterations at ihm ⊢
    rw [run_concat, trace_concat, getLast?_filterMap_concat, getLast?_filterMap_concat, ← iht, ← ihm]
    rcases setting_cases ((fresh family wrap).run events) e with
      ⟨t, ht, hm, ok⟩ | ⟨m, ht, hm, ok⟩ | ⟨ht, hm, o⟩
    · obtain ⟨h', -, next⟩ := setTolerance?_eq_ok.1 ok
      rw [ht, hm, next]
      exact ⟨rfl, rfl⟩
    · obtain ⟨h', -, next⟩ := setMaxIterations?_eq_ok.1 ok
      rw [ht, hm, next]
      exact ⟨rfl, rfl⟩
    · rw [ht, hm]
      exact ⟨o.tolerance, o.maxIterations⟩

/-- **When setting one of the two keeps the other.** A new iteration limit leaves the tolerance in
force exactly if that is the one that was set last or none was set, and the same holds of a new
tolerance and the limit. -/
theorem setting_keeps_other_iff :
    (∀ m s', ((fresh family wrap).run events).setMaxIterations? m = .ok s' →
      (s'.handle.toleranceInForce = ((fresh family wrap).run events).handle.toleranceInForce ↔
        ∀ t, (fresh family wrap).lastTolerance events = some t →
          t = ((fresh family wrap).run events).handle.toleranceInForce)) ∧
    (∀ t s', ((fresh family wrap).run events).setTolerance? t = .ok s' →
      (s'.handle.maxIterations = ((fresh family wrap).run events).handle.maxIterations ↔
        ∀ m, (fresh family wrap).lastMaxIterations events = some m →
          ((fresh family wrap).run events).handle.maxIterations = some m)) := by
  obtain ⟨ht, hm⟩ := set_run family wrap events
  rw [← ht, ← hm]
  constructor
  · intro m s' ok
    unfold Handle.toleranceInForce
    rw [tolerance_of_setMaxIterations? ok]
    cases ((fresh family wrap).run events).tolerance with
    | none => simp
    | some t => simp
  · intro t s' ok
    rw [maxIterations_of_setTolerance? ok]
    cases ((fresh family wrap).run events).maxIterations with
    | none => simp
    | some m => simp [eq_comm]

/-- The calls that set a tolerance and then apply runtime options that give another one. -/
def overridden : List (Event (Call Rat)) :=
  [Rational.plainly (.setTolerance 1e-3),
    ⟨⟨[("eps_tol", some "1e-5")], by decide⟩, .empty, .customize true⟩]

/-- The tolerance that was set last is not in force there, and a new limit brings it back. -/
theorem setting_keeps_other_overridden :
    ∃ s', ((fresh "" false).run overridden).setMaxIterations? 9 = .ok s' ∧
      ((fresh "" false).run overridden).handle.toleranceInForce = 1e-5 ∧
      s'.handle.toleranceInForce = 1e-3 ∧
      (s'.handle.toleranceInForce = ((fresh "" false).run overridden).handle.toleranceInForce ↔
        ∀ t, (fresh "" false).lastTolerance overridden = some t →
          t = ((fresh "" false).run overridden).handle.toleranceInForce) := by
  have accepted : (((fresh "" false).run overridden).setMaxIterations? 9).map
      (·.handle.toleranceInForce) = .ok 1e-3 := by decide +kernel
  cases h : ((fresh "" false).run overridden).setMaxIterations? 9 with
  | error e => rw [h] at accepted; cases accepted
  | ok s' =>
    rw [h] at accepted
    exact ⟨s', rfl, by decide +kernel, Except.ok.inj accepted,
      (setting_keeps_other_iff "" false overridden).1 9 s' h⟩

/-- A new iteration limit does not always keep the tolerance in force. -/
theorem not_setting_keeps_other : ¬∀ (events : List (Event (Call Rat))) (m : ℕ) s',
    ((fresh "" false).run events).setMaxIterations? m = .ok s' →
      s'.handle.toleranceInForce = ((fresh "" false).run events).handle.toleranceInForce := by
  intro keeps
  have accepted : (((fresh "" false).run overridden).setMaxIterations? 9).map
      (·.handle.toleranceInForce) = .ok 1e-3 := by decide +kernel
  have other : ((fresh "" false).run overridden).handle.toleranceInForce ≠ 1e-3 := by
    decide +kernel
  cases h : ((fresh "" false).run overridden).setMaxIterations? 9 with
  | error e => rw [h] at accepted; cases accepted
  | ok s' =>
    rw [h] at accepted
    exact other ((keeps overridden 9 s' h).symm.trans (Except.ok.inj accepted))

/-- The tolerance is given by the runtime options of some call. -/
def ToleranceGiven (family : String) (events : List (Event (Call α))) (x : Option α) : Prop :=
  ∃ e ∈ events, ∃ (t : α) (m : Option ℕ), Handle.Gives e.options family (some t) m ∧ x = some t

/-- The iteration limit is given by the runtime options of some call. -/
def LimitGiven (family : String) (events : List (Event (Call α))) (x : Option ℕ) : Prop :=
  ∃ e ∈ events, ∃ (t : Option α) (m : ℕ), Handle.Gives e.options family t (some m) ∧ x = some m

/-- What is in force was set last, or the runtime options of some call give it. -/
structure Sourced (family : String) (events : List (Event (Call α))) (s : EigenSolver α) :
    Prop where
  found : s.handle.family = family
  tolerance : s.handle.tolerance = s.tolerance ∨ ToleranceGiven family events s.handle.tolerance
  maxIterations : s.handle.maxIterations = s.maxIterations ∨
    LimitGiven family events s.handle.maxIterations

lemma or_sourced {β : Type} {x set inForce : Option β} {P : Option β → Prop}
    (known : ∀ y, x = some y → some y = set ∨ P (some y)) (h : inForce = set ∨ P inForce) :
    x.or inForce = set ∨ P (x.or inForce) := by
  cases x with
  | none => exact h
  | some y => exact known y rfl

lemma Sourced.after {family : String} {events : List (Event (Call α))}
    (h : s.Sourced family events) (e : Event (Call α)) :
    (s.after e).Sourced family (events ++ [e]) := by
  obtain ⟨hf, ht, hm⟩ := h
  have earlier : ∀ e' ∈ events, e' ∈ events ++ [e] := fun _ h => List.mem_append_left _ h
  replace ht : s.handle.tolerance = s.tolerance ∨
      ToleranceGiven family (events ++ [e]) s.handle.tolerance :=
    ht.imp_right fun ⟨e', he, rest⟩ => ⟨e', earlier e' he, rest⟩
  replace hm : s.handle.maxIterations = s.maxIterations ∨
      LimitGiven family (events ++ [e]) s.handle.maxIterations :=
    hm.imp_right fun ⟨e', he, rest⟩ => ⟨e', earlier e' he, rest⟩
  rcases setting_cases s e with ⟨t, -, -, ok⟩ | ⟨m, -, -, ok⟩ | ⟨-, -, o⟩
  · obtain ⟨h', sent, next⟩ := setTolerance?_eq_ok.1 ok
    obtain ⟨-, -, rfl⟩ := Handle.setTolerances?_eq_ok.1 sent
    rw [next]
    exact ⟨hf, .inl rfl, or_sourced (fun _ set => .inl set.symm) hm⟩
  · obtain ⟨h', sent, next⟩ := setMaxIterations?_eq_ok.1 ok
    obtain ⟨-, -, rfl⟩ := Handle.setTolerances?_eq_ok.1 sent
    rw [next]
    exact ⟨hf, or_sourced (fun _ set => .inl set.symm) ht, .inl rfl⟩
  · obtain ⟨t, m, given, inForce⟩ := o.inForce
    refine ⟨o.family.trans hf, ?_, ?_⟩
    · rw [o.tolerance, inForce.1]
      refine or_sourced (fun t' there => ?_) ht
      subst there
      rcases given with given | ⟨none, -⟩
      · exact .inr ⟨e, by simp, t', m, hf ▸ given, rfl⟩
      · cases none
    · rw [o.maxIterations, inForce.2]
      refine or_sourced (fun m' there => ?_) hm
      subst there
      rcases given with given | ⟨-, none⟩
      · exact .inr ⟨e, by simp, t, m', hf ▸ given, rfl⟩
      · cases none

/-- **Only runtime options come between** what was set last and what is in force. -/
theorem sourced_run : ((fresh family wrap).run events).Sourced family events := by
  induction events using List.reverseRecOn with
  | nil => exact ⟨rfl, .inl rfl, .inl rfl⟩
  | append_singleton events e ih =>
    rw [run_concat]
    exact ih.after e

end Eigenmesh.EigenSolver
