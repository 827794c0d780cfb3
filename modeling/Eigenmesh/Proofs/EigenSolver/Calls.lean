import Mathlib.Data.Nat.Notation
import Mathlib.Tactic.Common
import Eigenmesh.Solver.EigenSolver
import Eigenmesh.Proofs.Handle.Solve
import Eigenmesh.Proofs.Handle.Adjustment

/-!
What each call makes of an eigensolver, and when it succeeds.

A setting that is refused changes nothing. The runtime options adjust the handle even if they break
off, but then they count as not applied. A solve that gets as far as the package always ends in a
state of its own, and one that the solver refuses itself leaves the state alone.
-/

namespace Eigenmesh.EigenSolver

variable {α : Type}

lemma bind_eq_ok {E β γ : Type} {r : Except E β} {f : β → Except E γ} {y : γ} :
    r >>= f = .ok y ↔ ∃ x, r = .ok x ∧ f x = .ok y := by
  cases r with
  | error e => simp [bind, Except.bind]
  | ok x => simp [bind, Except.bind]

lemma checked_eq_ok {β : Type} {call : String} {r : Except PackageError β} {x : β} :
    checked call r = .ok x ↔ r = .ok x := by
  cases r with
  | error e => simp [checked, Except.mapError]
  | ok y => simp [checked, Except.mapError]

lemma checked_bind_eq_ok {β γ : Type} {call : String} {r : Except PackageError β} {f : β → γ}
    {y : γ} :
    (do return f (← checked call r) : Except SolverError γ) = .ok y ↔ ∃ x, r = .ok x ∧ y = f x := by
  rw [bind_eq_ok]
  simp only [checked_eq_ok, pure, Except.pure, Except.ok.injEq, eq_comm]

variable [Scalar α] {s s' : EigenSolver α}

/-! ### Settings -/

lemma setTolerance?_eq_ok {t : α} :
    s.setTolerance? t = .ok s' ↔ ∃ h', s.handle.setTolerances? (some t) s.maxIterations = .ok h' ∧
      s' = { s with handle := h', tolerance := some t } :=
  checked_bind_eq_ok

lemma setMaxIterations?_eq_ok {m : ℕ} :
    s.setMaxIterations? m = .ok s' ↔ ∃ h', s.handle.setTolerances? s.tolerance (some m) = .ok h' ∧
      s' = { s with handle := h', maxIterations := some m } :=
  checked_bind_eq_ok

lemma setWanted?_eq_ok {n : ℕ} :
    s.setWanted? n = .ok s' ↔ ∃ h', s.handle.setWanted? n = .ok h' ∧ s' = { s with handle := h' } :=
  checked_bind_eq_ok

lemma setTarget?_eq_ok {x : α} :
    s.setTarget? x = .ok s' ↔ ∃ h', s.handle.setTarget? x = .ok h' ∧ s' = { s with handle := h' } :=
  checked_bind_eq_ok

/-! ### Operators -/

lemma setOperators_eq (s : EigenSolver α) (l : Ledger) (A : Operator α) (B : Option (Operator α)) :
    ((s.setOperators l A B).1.1, (s.setOperators l A B).2) =
      match (convertAll? s.wrap l A B).2 with
      | .error e => (s, .error e)
      | .ok (M, N) =>
        match s.handle.setOperators? M N with
        | .error e => (s, .error (.package "Eps::set_operators" e))
        | .ok handle => ({ s with
            handle, state := .operatorSet, realView := none, imagView := none }, .ok ()) := by
  unfold setOperators
  rcases convertAll? s.wrap l A B with ⟨l', e | ⟨M, N⟩⟩
  · rfl
  · unfold Handle.attach
    simp only
    cases s.handle.setOperators? M N <;> rfl

lemma setOperators_cases (s : EigenSolver α) (l : Ledger) (A : Operator α)
    (B : Option (Operator α)) :
    (∃ l' e, s.setOperators l A B = ((s, l'), .error e)) ∨
    (∃ M N h' l', s.handle.setOperators? M N = .ok h' ∧ s.setOperators l A B =
      (({ s with handle := h', state := .operatorSet, realView := none, imagView := none }, l'),
        .ok ())) := by
  have eq := s.setOperators_eq l A B
  revert eq
  rcases s.setOperators l A B with ⟨⟨s', l'⟩, r⟩
  rcases (convertAll? s.wrap l A B).2 with e | ⟨M, N⟩
  · rintro ⟨⟩
    exact .inl ⟨l', e, rfl⟩
  · cases hs : s.handle.setOperators? M N with
    | error e =>
      simp only [hs]
      rintro ⟨⟩
      exact .inl ⟨l', _, rfl⟩
    | ok h' =>
      simp only [hs]
      rintro ⟨⟩
      exact .inr ⟨M, N, h', l', hs, rfl⟩

/-! ### Runtime options -/

lemma customize_of_done {apply : Bool} (o : Options) (done : apply = false ∨ s.customized = true) :
    s.customize o apply = ({ s with customized := true }, .ok ()) := by
  unfold customize
  rw [if_pos]
  rcases done with rfl | done
  · rfl
  · rw [done, Bool.or_true]

lemma customize_cases (s : EigenSolver α) (o : Options) (apply : Bool) :
    ∃ h', Relation.ReflTransGen (Handle.Adjusts (Handle.Gives o s.handle.family)) s.handle h' ∧
      (s.customize o apply = ({ s with handle := h', customized := true }, .ok ()) ∨
        s.customized = false ∧ ∃ e, s.customize o apply = ({ s with handle := h' }, .error e)) := by
  by_cases done : apply = false ∨ s.customized = true
  · exact ⟨s.handle, .refl, .inl (customize_of_done o done)⟩
  · push Not at done
    obtain ⟨asked, open'⟩ := done
    have open' : s.customized = false := by simpa using open'
    have asked : apply = true := by simpa using asked
    refine ⟨_, Handle.setFromOptions_adjusts s.handle o, ?_⟩
    unfold customize
    rw [asked, open', if_neg (by decide)]
    rcases s.handle.setFromOptions o with ⟨h', e | _⟩
    · exact .inr ⟨rfl, _, rfl⟩
    · exact .inl rfl

/-! ### Views -/

omit [Scalar α] in
lemma some_of_view? {slot : Option Layout} {view : Layout} (ok : s.view? slot = .ok view) :
    some view = slot ∨ some view = s.handle.A.map Mat.rowLayout := by
  cases slot with
  | some v => exact .inl (congrArg some (Except.ok.inj ok).symm)
  | none =>
    unfold view? rowLayout? at ok
    cases hA : s.handle.A with
    | none => rw [hA] at ok; cases ok
    | some A => rw [hA] at ok; exact .inr (congrArg some (Except.ok.inj ok).symm)

lemma eigenvector_views (s : EigenSolver α) (i : ℕ) (real : Array α) :
    ∃ v, (s.eigenvector i real).1.1 = { s with realView := v } ∧
      (v = s.realView ∨ v = s.handle.A.map Mat.rowLayout) := by
  unfold eigenvector
  cases hp : (do s.requireIndex i; s.view? s.realView : Except SolverError Layout) with
  | error e => exact ⟨s.realView, rfl, .inl rfl⟩
  | ok view =>
    refine ⟨some view, ?_, ?_⟩
    · simp only
      split <;> rfl
    · obtain ⟨-, -, hv⟩ := bind_eq_ok.1 hp
      exact some_of_view? hv

lemma eigenvectorComplex_views (s : EigenSolver α) (i : ℕ) (real imag : Array α) :
    ∃ v w, (s.eigenvectorComplex i real imag).1.1 = { s with realView := v, imagView := w } ∧
      (v = s.realView ∨ v = s.handle.A.map Mat.rowLayout) ∧
      (w = s.imagView ∨ w = s.handle.A.map Mat.rowLayout) := by
  unfold eigenvectorComplex
  cases hp : (do s.requireIndex i; return (← s.view? s.realView, ← s.view? s.imagView) :
      Except SolverError (Layout × Layout)) with
  | error e => exact ⟨s.realView, s.imagView, rfl, .inl rfl, .inl rfl⟩
  | ok views =>
    obtain ⟨-, -, hp⟩ := bind_eq_ok.1 hp
    obtain ⟨v, hv, hp⟩ := bind_eq_ok.1 hp
    obtain ⟨w, hw, hp⟩ := bind_eq_ok.1 hp
    obtain rfl := Except.ok.inj hp
    refine ⟨some v, some w, ?_, some_of_view? hv, some_of_view? hw⟩
    simp only
    split <;> rfl

/-! ### Solving -/

variable [Kernels α]

lemma solve_of_created (o : Options) (created : s.state = .created) :
    s.solve o =
      (s, .error (.error (.invalidState "set_operator(s) must be called before solve"))) := by
  unfold solve
  rw [if_pos created]

lemma solve_of_refused {o : Options} {e : SolverError} (attached : s.state ≠ .created)
    (refused : s.customize o true = (s', .error e)) : s.solve o = (s', .error (.error e)) := by
  unfold solve
  rw [if_neg attached, refused]

lemma solve_of_customized {o : Options} (attached : s.state ≠ .created)
    (applied : s.customize o true = (s', .ok ())) :
    (s'.handle.solve.2 = .ok () ∧
      s.solve o = ({ s' with handle := s'.handle.solve.1, state := .solved }, .ok ())) ∨
    (∃ e f, s'.handle.solve.2 = .error e ∧
      s.solve o = ({ s' with handle := s'.handle.solve.1, state := .operatorSet }, .error f)) := by
  unfold solve
  rw [if_neg attached, applied]
  rcases hs : s'.handle.solve with ⟨h', e | _⟩
  · exact .inr ⟨e, _, rfl, by simp only [hs]; rfl⟩
  · exact .inl ⟨rfl, by simp only [hs]⟩

end Eigenmesh.EigenSolver
