import Mathlib.Data.Nat.Notation
import Mathlib.Tactic.Common
import Eigenmesh.Proofs.Handle.Run
import Eigenmesh.Proofs.Scalar.Rational
import Eigenmesh.Proofs.Sorting

/-!
What a solve stores of the spectrum that it computes.

The pairs go through sorting, cutting off and scaling one by one, so that a value never gets the
vector of another. The modes that count as converged are all those before the first one that is not
accurate enough, even if accurate ones follow it.
-/

namespace Eigenmesh.Handle

variable {α : Type} [Scalar α] {h : Handle α} {A : Mat α} {B : Option (Mat α)} {hermitian : Bool}
  {pairs : List (EigenPair α)}

lemma length_takeWhile_longest {β : Type} (p : β → Bool) (l : List β) :
    (∀ x ∈ l.take (l.takeWhile p).length, p x = true) ∧
      ∀ x, l[(l.takeWhile p).length]? = some x → p x = false := by
  induction l with
  | nil => exact ⟨fun _ h => (nomatch h), fun _ h => (nomatch h)⟩
  | cons y l ih =>
    by_cases hy : p y = true
    · rw [List.takeWhile_cons_of_pos hy, List.length_cons]
      refine ⟨?_, ih.2⟩
      rw [List.take_succ_cons]
      exact List.forall_mem_cons.2 ⟨hy, ih.1⟩
    · rw [List.takeWhile_cons_of_neg hy]
      refine ⟨fun _ h => (nomatch h), ?_⟩
      rintro x ⟨rfl⟩
      exact Bool.eq_false_iff.2 hy

/-- Whether a pair may come before another one for what is wanted of the handle. -/
def ahead (h : Handle α) (p q : EigenPair α) : Bool :=
  h.which.prefers (h.target.getD 0) p.value q.value

/-- What is stored of the eigenpairs of the matrices: the best ones with scaled vectors, the residual
of each, and the number of those before the first that is not accurate enough. -/
structure Keeps (h : Handle α) (A : Mat α) (B : Option (Mat α)) (hermitian : Bool)
    (pairs : List (EigenPair α)) (r : Solution α) : Prop where
  selected : ∃ sorted, StableSort h.ahead pairs sorted ∧
    (r.modes.map fun m => (m.value, m.vector)) =
      (sorted.take (min h.wanted pairs.length)).map (fun p =>
        (p.value, Solution.normalize (B.map (·.toDense.toCplx)) hermitian p.vector)) ∧
    ∀ p ∈ sorted.take (min h.wanted pairs.length),
      ∀ q ∈ sorted.drop (min h.wanted pairs.length), h.ahead p q = true
  error : ∀ m ∈ r.modes, m.error =
    Solution.residual A.toDense.toCplx (B.map (·.toDense.toCplx)) m.value m.vector
  converged_le : r.converged ≤ min h.wanted pairs.length
  accurate : ∀ m ∈ r.modes.take r.converged, m.error ≤ h.toleranceInForce
  inaccurate : ∀ m, r.modes[r.converged]? = some m → ¬m.error ≤ h.toleranceInForce

lemma Keeps.counted {r : Solution α} (k : h.Keeps A B hermitian pairs r) :
    r.converged ≤ r.modes.length := by
  obtain ⟨sorted, sort, modes, -⟩ := k.selected
  have length := congrArg List.length modes
  rw [List.length_map, List.length_map, List.length_take, sort.perm.length_eq] at length
  have le := k.converged_le
  omega

lemma keeps_kept [Scalar.Ranked α] :
    h.Keeps A B hermitian pairs (h.kept (pencil A B) (hermitian, some pairs)) := by
  have sort : StableSort h.ahead pairs (Solution.sorted h.which (h.target.getD 0) pairs) :=
    stableSort_mergeSort (fun _ _ _ => h.which.prefers_trans _ _ _ _)
      (fun _ _ => h.which.prefers_total _ _ _) pairs
  have length := sort.perm.length_eq
  have cut : (Solution.sorted h.which (h.target.getD 0) pairs).take (min h.wanted pairs.length) =
      (Solution.sorted h.which (h.target.getD 0) pairs).take h.wanted := by
    rw [← length]
    exact List.take_eq_take_min.symm
  have operand : (pencil A B).B.map Dense.toCplx = B.map (·.toDense.toCplx) := by
    cases B <;> rfl
  have longest := length_takeWhile_longest
    (fun m : Mode α => decide (m.error ≤ h.toleranceInForce))
    (h.kept (pencil A B) (hermitian, some pairs)).modes
  refine ⟨⟨_, sort, ?_, sort.first_le _⟩, ?_, ?_, ?_, ?_⟩
  · rw [cut]
    change List.map _ (List.map _ _) = _
    rw [List.map_map, ← operand]
    rfl
  · intro m hm
    obtain ⟨p, -, rfl⟩ := List.mem_map.1 hm
    rw [← operand]
    rfl
  · refine Nat.le_trans (List.takeWhile_sublist _).length_le (Nat.le_of_eq ?_)
    rw [List.length_map, List.length_take, length]
  · exact fun m hm => of_decide_eq_true (longest.1 m hm)
  · exact fun m hm => of_decide_eq_false (longest.2 m hm)

lemma relativeError?_solved {r : Solution α} {m : Mode α} {i : ℕ}
    (hm : (r.modes.take r.converged)[i]? = some m) :
    (h.solved r).relativeError? i = .ok m.error := by
  unfold relativeError? mode? solutionFor? solved
  simp only [hm]
  rfl

omit [Scalar α] in
lemma reason_solved {r : Solution α} :
    (h.solved r).reason = .convergedTol ↔ r.converged = h.wanted := by
  unfold solved
  simp only
  split
  · rename_i all
    exact ⟨fun _ => all, fun _ => rfl⟩
  · rename_i some
    exact ⟨fun e => (nomatch e), fun all => absurd all some⟩

/-- What a solve that succeeds leaves of the spectrum that it comes to. -/
inductive Leaves (h : Handle α) (A : Mat α) (B : Option (Mat α)) :
    Bool × Option (List (EigenPair α)) → Handle α → Prop
  | exhausted {hermitian : Bool} {h' : Handle α} (solution : h'.solution = some ⟨[], 0⟩)
      (reason : h'.reason = .divergedIts) : Leaves h A B (hermitian, none) h'
  | stored {hermitian : Bool} {pairs : List (EigenPair α)} {r : Solution α} {h' : Handle α}
      (solution : h'.solution = some r) (keeps : h.Keeps A B hermitian pairs r)
      (reason : h'.reason = .convergedTol ↔ r.converged = h.wanted)
      (accurate : ∀ i < r.converged, ∃ x, h'.relativeError? i = .ok x ∧ x ≤ h.toleranceInForce) :
      Leaves h A B (hermitian, some pairs) h'

variable [Kernels α]

/-- **A solve stores the wanted part of the spectrum**, and a handle that has not been solved, or
that has lost its solution, says so. -/
theorem stored_spectrum [Scalar.Ranked α] (reachable : h.Reachable) :
    (h.reason = .iterating ↔ h.solution = none) ∧
    (h.solve.2 = .ok () → ∃ A B found, h.ready? = .ok (A, B) ∧ h.spectrum? A B = .ok found ∧
      h.Leaves A B found h.solve.1) := by
  refine ⟨reachable.consistent.reason, fun ok => ?_⟩
  obtain ⟨A, B, r, ready, computed, solved⟩ := solve_eq_ok ok
  rw [solved]
  unfold solution? at computed
  cases hs : h.spectrum? A B with
  | error e => rw [hs] at computed; cases computed
  | ok found =>
    rw [hs] at computed
    obtain rfl := Except.ok.inj computed
    refine ⟨A, B, found, ready, hs, ?_⟩
    obtain ⟨hermitian, _ | pairs⟩ := found
    · exact .exhausted rfl (if_neg (Nat.ne_of_lt reachable.configured.wanted))
    · have keeps : h.Keeps A B hermitian pairs _ := keeps_kept
      refine .stored rfl keeps reason_solved fun i hi => ?_
      have counted := keeps.counted
      have there : i < ((h.kept (pencil A B) (hermitian, some pairs)).modes.take
          (h.kept (pencil A B) (hermitian, some pairs)).converged).length := by
        rw [List.length_take]
        omega
      have hm := List.getElem?_eq_getElem there
      exact ⟨_, relativeError?_solved hm, keeps.accurate _ (List.mem_of_getElem? hm)⟩

/-- The calls that attach a diagonal matrix of two entries and ask for one eigenvalue. -/
def choosing : List (Event (Handle.Call Rat)) :=
  [Rational.plainly (.setOperators (.dense 0 (Rational.diagonal [2, 3])) none),
    Rational.plainly (.setWanted 1)]

/-- That handle may come about, it can be solved, and one of the two pairs is stored. -/
theorem stored_spectrum_choosing :
    (fresh.run choosing).Reachable ∧ (fresh.run choosing).solve.2 = .ok () ∧
    ∃ A B found, (fresh.run choosing).ready? = .ok (A, B) ∧
      (fresh.run choosing).spectrum? A B = .ok found ∧
      (fresh.run choosing).Leaves A B found (fresh.run choosing).solve.1 := by
  have reachable := reachable_run choosing
  have accepted : (fresh.run choosing).solve.2.isOk = true := by decide +kernel
  have ok : (fresh.run choosing).solve.2 = .ok () := by
    cases hs : (fresh.run choosing).solve.2 with
    | error e => rw [hs] at accepted; cases accepted
    | ok _ => rfl
  exact ⟨reachable, ok, (stored_spectrum reachable).2 ok⟩

end Eigenmesh.Handle
