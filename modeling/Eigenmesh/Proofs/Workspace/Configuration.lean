import Mathlib.Data.Nat.Notation
import Mathlib.Tactic.Common
import Eigenmesh.Factor.Backend
import Eigenmesh.Proofs.EigenSolver.Tolerances
import Eigenmesh.Proofs.Workspace.Holders
import Eigenmesh.Proofs.Workspace.Slots
import Eigenmesh.Scalar.Double

/-!
Whatever a program does, its solvers are configured in a sensible way.

A value gets into a configuration only through a setting that looks at it, also when runtime options
break off between two of them. What a solver of the host program keeps beside its handle has passed
the same test, so it can be sent once more without being refused.
-/

namespace Eigenmesh

variable {α : Type} [Scalar α]

lemma Handle.Configured.isFinite_effectiveShift {h : Handle α} (c : h.Configured)
    (zero : Scalar.isFinite (0 : α) = true) :
    Scalar.isFinite (h.transform.effectiveShift h.target) = true := by
  unfold Transform.effectiveShift
  cases hs : h.transform.shift.or h.target with
  | none => exact zero
  | some x =>
    obtain there | ⟨-, there⟩ := Option.or_eq_some_iff.1 hs
    · exact c.shift x there
    · exact c.target x there

namespace EigenSolver

variable {s s' : EigenSolver α}

/-- The handle and the pair that is kept beside it are configured in a sensible way. -/
structure Configured (s : EigenSolver α) : Prop where
  handle : s.handle.Configured
  tolerance : ∀ t, s.tolerance = some t → 0 < t
  maxIterations : s.maxIterations ≠ some 0

lemma configured_fresh (family : String) (wrap : Bool) :
    (fresh family wrap : EigenSolver α).Configured where
  handle := { Handle.configured_fresh with }
  tolerance := fun _ e => nomatch e
  maxIterations := fun e => nomatch e

/-! ### The pair -/

lemma Configured.exists_setTolerance?_iff (c : s.Configured) {t : α} :
    (∃ s', s.setTolerance? t = .ok s') ↔ 0 < t := by
  constructor
  · rintro ⟨s', ok⟩
    obtain ⟨h', sent, -⟩ := setTolerance?_eq_ok.1 ok
    exact (Handle.setTolerances?_eq_ok.1 sent).1 t rfl
  · intro pos
    have sent := Handle.setTolerances?_eq_ok (h := s.handle).2
      ⟨fun x e => Option.some.inj e ▸ pos, c.maxIterations, rfl⟩
    exact ⟨_, setTolerance?_eq_ok.2 ⟨_, sent, rfl⟩⟩

lemma Configured.exists_setMaxIterations?_iff (c : s.Configured) {m : ℕ} :
    (∃ s', s.setMaxIterations? m = .ok s') ↔ m ≠ 0 := by
  constructor
  · rintro ⟨s', ok⟩ rfl
    obtain ⟨h', sent, -⟩ := setMaxIterations?_eq_ok.1 ok
    exact (Handle.setTolerances?_eq_ok.1 sent).2.1 rfl
  · intro pos
    have sent := Handle.setTolerances?_eq_ok (h := s.handle).2
      ⟨c.tolerance, fun e => pos (Option.some.inj e), rfl⟩
    exact ⟨_, setMaxIterations?_eq_ok.2 ⟨_, sent, rfl⟩⟩

variable [Kernels α]

lemma Configured.after (c : s.Configured) (e : Event (Call α)) : (s.after e).Configured := by
  have handle := c.handle.transitions (s.transition e).handle
  obtain ⟨t, -, -, ok⟩ | ⟨m, -, -, ok⟩ | ⟨-, -, kept⟩ := setting_cases s e
  · obtain ⟨h', sent, next⟩ := setTolerance?_eq_ok.1 ok
    obtain ⟨pos, -, -⟩ := Handle.setTolerances?_eq_ok.1 sent
    refine ⟨handle, ?_, ?_⟩
    · rw [next]
      rintro x ⟨rfl⟩
      exact pos t rfl
    · rw [next]
      exact c.maxIterations
  · obtain ⟨h', sent, next⟩ := setMaxIterations?_eq_ok.1 ok
    obtain ⟨-, pos, -⟩ := Handle.setTolerances?_eq_ok.1 sent
    refine ⟨handle, ?_, ?_⟩
    · rw [next]
      exact c.tolerance
    · rw [next]
      exact pos
  · refine ⟨handle, ?_, ?_⟩
    · rw [kept.tolerance]
      exact c.tolerance
    · rw [kept.maxIterations]
      exact c.maxIterations

end EigenSolver

def Slot.Configured : Slot α → Prop
  | .solver s => s.Configured
  | .handle h => h.Configured

lemma Slot.Configured.package {slot : Slot α} (c : slot.Configured) : slot.package.Configured := by
  cases slot with
  | solver s => exact EigenSolver.Configured.handle c
  | handle h => exact c

namespace Workspace

variable {w : Workspace α}

/-- All solvers are configured in a sensible way. -/
def Configured (w : Workspace α) : Prop := ∀ name slot, w.slot? name = some slot → slot.Configured

lemma Configured.congr {w' : Workspace α} (c : w.Configured) (slots : w'.slots = w.slots) :
    w'.Configured := by
  intro name slot there
  exact c name slot ((congrArg (List.lookup name) slots).symm.trans there)

lemma Configured.put {w' : Workspace α} {name : String} {slot : Slot α} (c : w.Configured)
    (configured : slot.Configured)
    (put : ∀ k, w'.slot? k = if k = name then some slot else w.slot? k) : w'.Configured := by
  intro k slot' there
  rw [put] at there
  split at there
  · cases there
    exact configured
  · exact c k slot' there

lemma Configured.dropSlot (c : w.Configured) (name : String) : (w.dropSlot name).Configured := by
  intro k slot there
  rw [slot?_dropSlot] at there
  split at there
  · cases there
  · exact c k slot there

variable [Kernels α]

lemma Configured.step (c : w.Configured) (call : Call α) : (w.step call).1.Configured := by
  have change := w.change_step call
  generalize (w.step call).2.isOk = ok, (w.step call).1 = w' at change
  cases change with
  | kept _ slots _ _ _ => exact c.congr slots
  | @made _ name session slot _ new =>
    have configured : slot.Configured := by
      obtain rfl | ⟨family, wrap, rfl⟩ := new
      · exact Handle.configured_fresh
      · exact EigenSolver.configured_fresh family wrap
    have registered : ({ w with session } : Workspace α).Configured := c.congr rfl
    exact registered.put configured fun k => slot?_addSlot
  | @dropped name _ => exact c.dropSlot name
  | @solver name s call there =>
    have before : s.Configured := c name _ there
    refine c.put ?_ fun k => lookup_putSlot
    exact before.after ⟨w.session.options, w.ledger, call⟩
  | @handle name h call there =>
    have before : h.Configured := c name _ there
    refine c.put ?_ fun k => lookup_putSlot
    exact before.transition (h.transition ⟨w.session.options, w.ledger, call⟩)

lemma Configured.run (c : w.Configured) (calls : List (Call α)) : (w.run calls).Configured := by
  induction calls generalizing w with
  | nil => exact c
  | cons call calls ih => exact ih (c.step call)

lemma refused_iff {name : String} {s : EigenSolver α} (there : w.slot? name = some (.solver s))
    (call : EigenSolver.Call α) {r : Except SolverError (EigenSolver α)}
    (settles : s.step w.session.options w.ledger call = settle s w.ledger r) :
    (∃ e, (w.step (.solver name call)).2 = .error e) ↔ ¬∃ s', r = .ok s' := by
  simp only [step, there, settles]
  cases r with
  | ok s' =>
    refine iff_of_false ?_ (not_not.2 ⟨s', rfl⟩)
    rintro ⟨e, refused⟩
    cases refused
  | error e =>
    refine iff_of_true ⟨_, rfl⟩ ?_
    rintro ⟨s', accepted⟩
    cases accepted

/-- **The configuration is valid at any time.** Whatever calls a program has made, with whatever
values and options, and however many of them failed: each of its solvers wants at least one
eigenpair, its tolerance is positive and its iteration limit is not zero where they are set, its
target and its shift are finite, and so is the shift that is used. What an eigensolver keeps beside
its handle is valid too, so it refuses exactly the tolerances that are not positive and the limit
zero. -/
theorem configured_run (calls : List (Call α)) :
    (∀ name slot, (fresh.run calls).slot? name = some slot → slot.package.Configured ∧
      (Scalar.isFinite (0 : α) = true →
        Scalar.isFinite (slot.package.transform.effectiveShift slot.package.target) = true)) ∧
    ∀ name s, (fresh.run calls).slot? name = some (.solver s) →
      (∀ t, s.tolerance = some t → 0 < t) ∧ s.maxIterations ≠ some 0 ∧
      (∀ t, (∃ e, ((fresh.run calls).step (.solver name (.setTolerance t))).2 = .error e) ↔
        ¬0 < t) ∧
      ∀ m, (∃ e, ((fresh.run calls).step (.solver name (.setMaxIterations m))).2 = .error e) ↔
        m = 0 := by
  have start : (fresh : Workspace α).Configured := fun _ _ there => nomatch there
  have configured := start.run calls
  constructor
  · intro name slot there
    have package := (configured name slot there).package
    exact ⟨package, package.isFinite_effectiveShift⟩
  · intro name s there
    have c : s.Configured := configured name _ there
    refine ⟨c.tolerance, c.maxIterations, fun t => ?_, fun m => ?_⟩
    · rw [refused_iff there (.setTolerance t) rfl, c.exists_setTolerance?_iff]
    · rw [refused_iff there (.setMaxIterations m) rfl, c.exists_setMaxIterations?_iff,
        not_not]

/-- The number of eigenpairs from the command line is stored before the tolerance is refused. -/
def brokenOff : List (Call Float) :=
  [.start ⟨none, ["-eps_nev", "3", "-eps_tol", "nan"], none⟩, .newSolver "s" "" false,
    .solver "s" (.customize true), .solver "s" (.setTarget (1 / 0))]

theorem configured_run_brokenOff :
    ∃ s, (fresh.run brokenOff).slot? "s" = some (.solver s) ∧ s.handle.wanted = 3 ∧
      s.customized = false ∧ Scalar.isFinite (0 : Float) = true ∧ s.handle.Configured ∧
      Scalar.isFinite (s.handle.transform.effectiveShift s.handle.target) = true ∧
      (∃ e, ((fresh.run brokenOff).step (.solver "s" (.setTolerance (0 / 0)))).2 = .error e) ∧
      ¬∃ e, ((fresh.run brokenOff).step (.solver "s" (.setTolerance 1e-6))).2 = .error e := by
  obtain ⟨s, there, wanted, customized⟩ : ∃ s, (fresh.run brokenOff).slot? "s" = some (.solver s) ∧
      s.handle.wanted = 3 ∧ s.customized = false := ⟨_, rfl, by decide +kernel, by decide +kernel⟩
  have zero : Scalar.isFinite (0 : Float) = true := by decide +kernel
  obtain ⟨packages, solvers⟩ := configured_run brokenOff
  obtain ⟨configured, finite⟩ := packages "s" _ there
  obtain ⟨-, -, tolerances, -⟩ := solvers "s" s there
  exact ⟨s, there, wanted, customized, zero, configured, finite zero,
    (tolerances _).2 (by decide +kernel),
    fun refused => (tolerances _).1 refused (by decide +kernel)⟩

end Workspace

end Eigenmesh
