import Mathlib.Data.Nat.Notation
import Mathlib.Tactic.Common
import Eigenmesh.Solver.Handle

/-!
How a solve of a handle ends.

A handle that is not ready is left as it is. From a ready one the solve makes a spectrum, and what
is kept of it is stored; when there is no spectrum, the solution of an earlier solve is gone as
well.
-/

namespace Eigenmesh.Handle

variable {α : Type} [Scalar α] {h h' : Handle α} {A : Mat α} {B : Option (Mat α)}

lemma setOperators?_eq_ok :
    h.setOperators? A B = .ok h' ↔ A.rows = A.cols ∧
      (∀ M, B = some M → M.rows = M.cols ∧ M.rows = A.rows) ∧
      h' = { h with A := some A, B := B }.invalidated := by
  unfold setOperators?
  by_cases hA : A.rows = A.cols
  · cases B with
    | none => simp [hA, eq_comm]
    | some M =>
      by_cases hM : M.rows ≠ M.cols ∨ M.rows ≠ A.rows
      · have refuted : ¬(M.rows = M.cols ∧ M.rows = A.rows) := by tauto
        simp only [hA, ne_eq, not_true_eq_false, if_false]
        rw [if_pos (by simpa [hA] using hM)]
        simp only [reduceCtorEq, Option.some.injEq, false_iff]
        rintro ⟨-, conform, -⟩
        exact refuted (by simpa [hA] using conform M rfl)
      · have conform : M.rows = M.cols ∧ M.rows = A.rows := by tauto
        simp [hA, conform.2, ← conform.1, eq_comm]
  · simp [hA]

lemma attach_of_ok (l : Ledger) (ok : h.setOperators? A B = .ok h') :
    (h.attach l A B).1.1 = h' ∧ (h.attach l A B).2 = .ok () := by
  unfold attach
  rw [ok]
  exact ⟨rfl, rfl⟩

lemma attach_of_error (l : Ledger) {e : PackageError} (refused : h.setOperators? A B = .error e) :
    h.attach l A B = ((h, l), .error e) := by
  unfold attach
  rw [refused]

lemma ready?_eq_ok :
    h.ready? = .ok (A, B) ↔ h.A = some A ∧ h.B = B ∧ h.wanted ≤ A.rows ∧
      (h.which.needsTarget = true → h.target.isSome = true) := by
  unfold ready?
  cases hA : h.A with
  | none => simp
  | some M =>
    simp only [Option.some.injEq]
    split
    · rename_i few
      simp only [reduceCtorEq, false_iff]
      rintro ⟨rfl, -, enough, -⟩
      omega
    · rename_i enough
      split
      · rename_i missing
        simp only [reduceCtorEq, false_iff]
        rintro ⟨-, -, -, target⟩
        rw [Bool.and_eq_true] at missing
        have some := target missing.1
        rw [Option.isSome_iff_ne_none] at some
        exact some (Option.isNone_iff_eq_none.1 missing.2)
      · rename_i target
        have target : h.which.needsTarget = true → h.target.isSome = true := by
          intro needs
          rw [needs, Bool.true_and, Bool.not_eq_true, Option.isNone_eq_false_iff] at target
          exact target
        rw [Except.ok.injEq, Prod.mk.injEq]
        constructor
        · rintro ⟨rfl, hB⟩
          exact ⟨rfl, hB, by omega, target⟩
        · rintro ⟨hM, hB, -, -⟩
          exact ⟨hM, hB⟩

variable [Kernels α]

lemma solve_of_ok {r : Solution α} (ready : h.ready? = .ok (A, B))
    (ok : h.solution? A B = .ok r) : h.solve = (h.solved r, .ok ()) := by
  unfold solve
  simp only [ready, ok]

lemma solve_of_error {e : SolveFailure PackageError} (ready : h.ready? = .ok (A, B))
    (failed : h.solution? A B = .error e) :
    h.solve = (h.invalidated, .error (e.map (·.via "Eps::solve"))) := by
  unfold solve
  simp only [ready, failed]

lemma solve_cases (h : Handle α) :
    (∃ e, h.ready? = .error e ∧ h.solve = (h, .error (.error (e.via "Eps::solve")))) ∨
    (∃ A B r, h.ready? = .ok (A, B) ∧ h.solution? A B = .ok r ∧ h.solve = (h.solved r, .ok ())) ∨
    (∃ A B e, h.ready? = .ok (A, B) ∧ h.solution? A B = .error e ∧
      h.solve = (h.invalidated, .error (e.map (·.via "Eps::solve")))) := by
  cases hr : h.ready? with
  | error e => exact .inl ⟨e, rfl, by unfold solve; simp only [hr]⟩
  | ok AB =>
    obtain ⟨A, B⟩ := AB
    cases hs : h.solution? A B with
    | error e => exact .inr (.inr ⟨A, B, e, rfl, hs, solve_of_error hr hs⟩)
    | ok r => exact .inr (.inl ⟨A, B, r, rfl, hs, solve_of_ok hr hs⟩)

lemma solve_eq_ok (ok : h.solve.2 = .ok ()) :
    ∃ A B r, h.ready? = .ok (A, B) ∧ h.solution? A B = .ok r ∧ h.solve.1 = h.solved r := by
  rcases solve_cases h with ⟨e, -, hs⟩ | ⟨A, B, r, hr, hs, eq⟩ | ⟨A, B, e, -, -, hs⟩
  · rw [hs] at ok
    cases ok
  · exact ⟨A, B, r, hr, hs, by rw [eq]⟩
  · rw [hs] at ok
    cases ok

lemma solve_frame (h : Handle α) :
    h.solve.1 = { h with solution := h.solve.1.solution, reason := h.solve.1.reason } := by
  rcases solve_cases h with ⟨e, -, eq⟩ | ⟨A, B, r, -, -, eq⟩ | ⟨A, B, e, -, -, eq⟩
  · rw [eq]
  · rw [eq]; rfl
  · rw [eq]; rfl

lemma A_solve (h : Handle α) : h.solve.1.A = h.A := by
  rw [solve_frame]

lemma converged_le_of_solution? {r : Solution α} (e : h.solution? A B = .ok r) :
    r.converged ≤ r.modes.length := by
  unfold solution? at e
  cases hs : h.spectrum? A B with
  | error f => rw [hs] at e; cases e
  | ok s =>
    rw [hs] at e
    obtain rfl := Except.ok.inj e
    obtain ⟨hermitian, _ | pairs⟩ := s
    · exact Nat.le_refl 0
    · exact (List.takeWhile_prefix _).length_le

end Eigenmesh.Handle
