import Mathlib.Data.Nat.Notation
import Mathlib.Tactic.Common
import Eigenmesh.Proofs.Scalar.Rational
import Eigenmesh.Proofs.Workspace.Numbers
import Eigenmesh.Proofs.Workspace.Owners

/-!
Calls that an eigensolver refuses.

A value is looked at before anything is stored, in the solver and in the handle behind it. Operators
are converted first, and can be refused at the first one, at the second one, and when the package
looks at both. Then the matrices that were made on the way are given up again, and nobody can tell
that there was a call.
-/

namespace Eigenmesh

namespace Ledger

variable {l l' : Ledger} {n m : ℕ} {numbers : List ℕ}

/-- The second ledger is the first with one more hold on each matrix of the list, as far as there is
one. -/
structure Lends (l l' : Ledger) (numbers : List ℕ) : Prop where
  size : l.counts.size ≤ l'.counts.size
  le : ∀ n, l'.count n ≤ l.count n + numbers.count n
  eq : ∀ n < l.counts.size, l'.count n = l.count n + numbers.count n

lemma Lends.refl (l : Ledger) : Lends l l [] :=
  ⟨Nat.le_refl _, fun _ => Nat.le_refl _, fun _ _ => rfl⟩

lemma Lends.count_eq (lends : Lends l l' []) (n : ℕ) : l'.count n = l.count n := by
  by_cases old : n < l.counts.size
  · exact lends.eq n old
  · have absent := count_eq_zero (Nat.le_of_not_lt old)
    have le := lends.le n
    rw [absent] at le ⊢
    exact Nat.le_zero.1 le

lemma count_concat : (numbers ++ [m]).count n = numbers.count n + if m = n then 1 else 0 := by
  rw [List.count_append, List.count_singleton]
  simp only [beq_iff_eq]

lemma Lends.retain (lends : Lends l l' numbers) (m : ℕ) :
    Lends l (l'.retain m) (numbers ++ [m]) := by
  obtain ⟨size, le, eq⟩ := lends
  by_cases there : m < l'.counts.size
  · refine ⟨size.trans size_retain.ge, fun n => ?_, fun n old => ?_⟩
    · have := le n
      rw [count_retain_of_lt there, count_concat]
      omega
    · rw [count_retain_of_lt there, count_concat, eq n old, Nat.add_assoc]
  · -- there is no such matrix, so its number is none of the first ledger's
    rw [retain_of_le (Nat.le_of_not_lt there)]
    refine ⟨size, fun n => ?_, fun n old => ?_⟩
    · have := le n
      rw [count_concat]
      omega
    · have other : m ≠ n := by omega
      rw [count_concat, if_neg other]
      exact eq n old

lemma Lends.create (lends : Lends l l' numbers) :
    Lends l l'.create.2 (numbers ++ [l'.create.1]) := by
  obtain ⟨size, le, eq⟩ := lends
  have grown : l'.create.2.counts.size = l'.counts.size + 1 := Array.size_push _
  refine ⟨by omega, fun n => ?_, fun n old => ?_⟩
  · have := le n
    rw [count_create, count_concat]
    omega
  · rw [count_create, count_concat, eq n old, Nat.add_assoc]

lemma Lends.release (lends : Lends l l' (m :: numbers)) : Lends l (l'.release m) numbers := by
  obtain ⟨size, le, eq⟩ := lends
  have head : ∀ n, (m :: numbers).count n = numbers.count n + if m = n then 1 else 0 := fun n => by
    rw [List.count_cons]
    simp only [beq_iff_eq]
  refine ⟨size.trans size_release.ge, fun n => ?_, fun n old => ?_⟩
  · have := le n
    rw [head] at this
    rw [count_release]
    omega
  · rw [count_release, eq n old, head]
    omega

end Ledger

namespace EigenSolver

open Ledger (Lends)

variable {α : Type} {s : EigenSolver α} {l l' l'' : Ledger} {A op : Operator α}
  {B : Option (Operator α)} {M : Mat α} {numbers : List ℕ}

/-- The calls that may be refused with nothing done. -/
def Call.isRefusable : Call α → Bool
  | .setOperators _ _ | .setTolerance _ | .setMaxIterations _ | .setWanted _ | .setTarget _ => true
  | _ => false

lemma settle_of_error {r : Except SolverError (EigenSolver α)} {f : SolveFailure SolverError}
    (refused : (settle s l r : _ × Except (SolveFailure SolverError) (Reply α)).2 = .error f) :
    (settle s l r : _ × Except (SolveFailure SolverError) (Reply α)).1 = (s, l) := by
  cases r with
  | ok s' => cases refused
  | error e => rfl

variable [Scalar α]

lemma lends_convert? {wrap : Bool} {operand : String} (lends : Lends l l' numbers)
    (ok : convert? wrap l' op operand = .ok (M, l'')) : Lends l l'' (numbers ++ [M.number]) := by
  unfold convert? at ok
  split at ok
  · cases ok
  · cases op with
    | native N =>
      obtain ⟨rfl, rfl⟩ := Prod.mk.inj (Except.ok.inj ok)
      exact lends.retain _
    | _ =>
      cases wrap <;>
      · obtain ⟨rfl, rfl⟩ := Prod.mk.inj (Except.ok.inj ok)
        exact lends.create

lemma lends_convertAll? (wrap : Bool) (l : Ledger) (A : Operator α) (B : Option (Operator α)) :
    match convertAll? wrap l A B with
    | (l', .error _) => Lends l l' []
    | (l', .ok (M, N)) => Lends l l' (M.number :: N.toList.map Mat.number) := by
  unfold convertAll?
  cases hA : convert? wrap l A "A" with
  | error e => exact .refl l
  | ok Ml =>
    obtain ⟨M, l₁⟩ := Ml
    have first : Lends l l₁ [M.number] := lends_convert? (.refl l) hA
    cases B with
    | none => exact first
    | some B =>
      cases hB : convert? wrap l₁ B "B" with
      | error e =>
        simp only [hB]
        exact first.release
      | ok Nl =>
        obtain ⟨N, l₂⟩ := Nl
        simp only [hB]
        exact lends_convert? first hB

/-- **Refused operators leave no trace**, wherever they are refused. -/
lemma setOperators_of_error {e : SolverError} (refused : (s.setOperators l A B).2 = .error e) :
    (s.setOperators l A B).1.1 = s ∧ ∀ n, (s.setOperators l A B).1.2.count n = l.count n := by
  have lends := lends_convertAll? s.wrap l A B
  revert refused
  unfold setOperators
  revert lends
  rcases convertAll? s.wrap l A B with ⟨l₁, e | ⟨M, N⟩⟩
  · intro lends _
    exact ⟨rfl, lends.count_eq⟩
  · intro lends
    cases hs : s.handle.setOperators? M N with
    | ok h' =>
      obtain ⟨-, done⟩ := Handle.attach_of_ok l₁ hs
      rcases ha : s.handle.attach l₁ M N with ⟨⟨h₂, l₂⟩, r⟩
      rw [ha] at done
      obtain rfl : r = .ok () := done
      simp only [ha]
      exact fun refused => nomatch refused
    | error e =>
      -- both are converted and neither is attached
      simp only [Handle.attach_of_error l₁ hs]
      intro _
      refine ⟨rfl, fun n => ?_⟩
      have first := lends.release
      cases N with
      | none => exact first.count_eq n
      | some N => exact first.release.count_eq n

variable [Kernels α] {o : Options}

lemma step_of_refused {c : Call α} (refusable : c.isRefusable = true)
    {f : SolveFailure SolverError} (refused : (s.step o l c).2 = .error f) :
    (s.step o l c).1.1 = s ∧ ∀ n, (s.step o l c).1.2.count n = l.count n := by
  have settled : (s.step o l c).1 = (s, l) →
      (s.step o l c).1.1 = s ∧ ∀ n, (s.step o l c).1.2.count n = l.count n := fun same => by
    rw [same]
    exact ⟨rfl, fun _ => rfl⟩
  cases c with
  | setOperators A B =>
    change answered (s.setOperators l A B).2 _ = _ at refused
    cases hr : (s.setOperators l A B).2 with
    | ok _ => rw [hr] at refused; cases refused
    | error e => exact setOperators_of_error hr
  | setTolerance | setMaxIterations | setWanted | setTarget =>
    exact settled (settle_of_error refused)
  | _ => nomatch refusable

end EigenSolver

namespace Workspace

variable {α : Type} {w : Workspace α} {name : String} {slot : Slot α}
  {slots : List (String × Slot α)}

lemma putSlot_of_lookup (there : slots.lookup name = some slot) :
    putSlot name slot slots = slots := by
  induction slots with
  | nil => cases there
  | cons e slots ih =>
    obtain ⟨k, s⟩ := e
    rw [Options.lookup_cons] at there
    unfold putSlot
    split at there
    · rename_i same
      obtain rfl := Option.some.inj there
      rw [if_pos same.symm, same]
    · rename_i other
      rw [if_neg (Ne.symm other), ih there]

variable [Scalar α] [Kernels α]

/-- **A refused call changes nothing.** An eigensolver that fails to take operators, a tolerance, an
iteration limit, a number of eigenpairs or a target is the same as before, with all that is stored
in it and in the handle behind it, and so is everything else in the program; every matrix is held as
often as before. Whatever the program does next, it gets the answers that it would have got without
the call. -/
theorem refused_keeps (w : Workspace α) (name : String) {call : EigenSolver.Call α}
    (refusable : call.isRefusable = true) {e : Failure}
    (refused : (w.step (.solver name call)).2 = .error e) :
    (w.step (.solver name call)).1.session = w.session ∧
      (w.step (.solver name call)).1.slots = w.slots ∧
      (∀ n, (w.step (.solver name call)).1.ledger.count n = w.ledger.count n) ∧
      ∀ calls c, (((w.step (.solver name call)).1.run calls).step c).2 =
        ((w.run calls).step c).2 := by
  suffices same : (w.step (.solver name call)).1.session = w.session ∧
      (w.step (.solver name call)).1.slots = w.slots ∧
      ∀ n, (w.step (.solver name call)).1.ledger.count n = w.ledger.count n by
    obtain ⟨session, slots, counts⟩ := same
    have alike : Alike w (w.step (.solver name call)).1 :=
      ⟨session, fun k => by rw [slot?, slot?, slots]⟩
    exact ⟨session, slots, counts, fun calls c => ((alike.run calls).step c).2⟩
  rcases there : w.slot? name with _ | s | h
  · simp only [step, there]
    exact ⟨trivial, trivial, fun _ => trivial⟩
  · simp only [step, there] at refused ⊢
    cases hr : (s.step w.session.options w.ledger call).2 with
    | ok r =>
      rw [hr] at refused
      cases refused
    | error f =>
      obtain ⟨same, counts⟩ := EigenSolver.step_of_refused refusable hr
      rw [same]
      exact ⟨trivial, putSlot_of_lookup there, counts⟩
  · simp only [step, there]
    exact ⟨trivial, trivial, fun _ => trivial⟩

/-- A program that has solved a problem. -/
def solving : List (Call Rat) :=
  [.start ⟨none, [], none⟩, .newSolver "s" "" false,
    .solver "s" (.setOperators (.dense (Rational.diagonal [2])) none), .solver "s" .solve]

/-- Operators that are both converted before the package sees that they do not go together. -/
def mismatched : EigenSolver.Call Rat :=
  .setOperators (.dense (Rational.diagonal [5])) (some (.dense (Rational.diagonal [1, 1])))

theorem refused_keeps_solved :
    mismatched.isRefusable = true ∧
    (∃ e, ((fresh.run solving).step (.solver "s" mismatched)).2 = .error e) ∧
    (∀ n, ((fresh.run solving).step (.solver "s" mismatched)).1.ledger.count n =
      (fresh.run solving).ledger.count n) ∧
    ((((fresh.run solving).step (.solver "s" mismatched)).1.slot? "s").bind fun slot =>
      slot.package.converged?.toOption) = some 1 ∧
    (((fresh.run solving).step (.solver "s" mismatched)).1.step (.solver "s" .eigenvalues)).2 =
      ((fresh.run solving).step (.solver "s" .eigenvalues)).2 := by
  have fails : ((fresh.run solving).step (.solver "s" mismatched)).2.isOk = false := by
    decide +kernel
  obtain ⟨e, refused⟩ : ∃ e, ((fresh.run solving).step (.solver "s" mismatched)).2 = .error e := by
    cases h : ((fresh.run solving).step (.solver "s" mismatched)).2 with
    | error e => exact ⟨e, rfl⟩
    | ok r => rw [h] at fails; cases fails
  obtain ⟨-, slots, counts, answers⟩ := refused_keeps (fresh.run solving) "s" rfl refused
  have converged : (((fresh.run solving).slot? "s").bind fun slot =>
      slot.package.converged?.toOption) = some 1 := by decide +kernel
  refine ⟨rfl, ⟨e, refused⟩, counts, ?_, answers [] _⟩
  rw [slot?, slots]
  exact converged

end Workspace

end Eigenmesh
