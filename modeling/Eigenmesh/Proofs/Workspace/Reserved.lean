import Mathlib.Data.Nat.Notation
import Mathlib.Tactic.Common
import Eigenmesh.Proofs.Scalar.Rational
import Eigenmesh.Proofs.Workspace.Owners

/-!
How often a native matrix is counted in the course of a program.

Counts agree with holders after every call. For a matrix that a solver made itself, out of an
operator of the host program, this comes to one count until the operand is replaced or the solver
dropped, and none from then on, unless a later call passes on the matrix itself.
-/

namespace Eigenmesh

open Ledger (tally tally_append tally_cons)

variable {α : Type} {n : ℕ} {name : String} {second : Bool}

namespace Handle

variable {h : Handle α}

lemma mem_matrices {M : Mat α} : M ∈ h.matrices ↔ ∃ second, h.operand second = some M := by
  simp [matrices, operand, operandAt, Option.mem_toList]

lemma tally_matrices_eq_one (holds : h.Holds second n) (alone : ¬h.Holds (!second) n) :
    tally n h.matrices = 1 := by
  obtain ⟨M, there, rfl⟩ := holds
  have one : tally M.number (h.operand second).toList = 1 := by
    rw [there, Option.toList_some, tally_cons, if_pos rfl]
    rfl
  have zero : tally M.number (h.operand (!second)).toList = 0 := by
    refine List.countP_eq_zero.2 fun N hN => ?_
    simp only [decide_eq_true_eq]
    exact fun same => alone ⟨N, Option.mem_toList.1 hN, same⟩
  cases second with
  | false =>
    change tally M.number ((h.operand false).toList ++ (h.operand true).toList) = 1
    rw [tally_append, one, show true = !false from rfl, zero]
  | true =>
    change tally M.number ((h.operand false).toList ++ (h.operand true).toList) = 1
    rw [tally_append, one, show false = !true from rfl, zero]

end Handle

namespace Workspace

variable {slots : List (String × Slot α)} {slot : Slot α} {w : Workspace α}

lemma lookup_of_mem (nodup : (slots.map Prod.fst).Nodup) (mem : (name, slot) ∈ slots) :
    slots.lookup name = some slot := by
  induction slots with
  | nil => nomatch mem
  | cons e slots ih =>
    obtain ⟨k, x⟩ := e
    obtain ⟨new, rest⟩ := List.nodup_cons.1 nodup
    rw [Options.lookup_cons]
    rcases List.mem_cons.1 mem with eq | later
    · obtain ⟨rfl, rfl⟩ := Prod.mk.inj eq
      exact if_pos rfl
    · rw [if_neg, ih rest later]
      rintro rfl
      exact new (List.mem_map.2 ⟨_, later, rfl⟩)

lemma holds_of_mem {M : Mat α} (nodup : w.names.Nodup) (mem : M ∈ operands w.slots) :
    ∃ name second, w.Holds name second M.number := by
  obtain ⟨⟨name, slot⟩, there, mem⟩ := List.mem_flatMap.1 mem
  obtain ⟨second, place⟩ := Handle.mem_matrices.1 mem
  exact ⟨name, second, slot, lookup_of_mem nodup there, M, place, rfl⟩

lemma mem_of_lookup (there : slots.lookup name = some slot) : (name, slot) ∈ slots := by
  induction slots with
  | nil => nomatch there
  | cons e slots ih =>
    rw [Options.lookup_cons] at there
    split at there
    · rename_i same
      rw [same, ← Option.some.inj there]
      exact List.mem_cons_self
    · exact List.mem_cons_of_mem _ (ih there)

lemma Holds.pos (holds : w.Holds name second n) : 0 < tally n (operands w.slots) := by
  obtain ⟨slot, there, M, place, rfl⟩ := holds
  refine List.countP_pos_iff.2 ⟨M, ?_, by simp⟩
  exact List.mem_flatMap.2 ⟨_, mem_of_lookup there, Handle.mem_matrices.2 ⟨second, place⟩⟩

lemma tally_operands_eq_zero (nodup : w.names.Nodup) (free : ∀ k q, ¬w.Holds k q n) :
    tally n (operands w.slots) = 0 := by
  refine List.countP_eq_zero.2 fun M mem => ?_
  simp only [decide_eq_true_eq]
  rintro rfl
  obtain ⟨k, q, holds⟩ := holds_of_mem nodup mem
  exact free k q holds

lemma tally_operands_eq_one (nodup : w.names.Nodup) (holds : w.Holds name second n)
    (alone : ∀ k q, w.Holds k q n → k = name ∧ q = second) : tally n (operands w.slots) = 1 := by
  obtain ⟨slot, there, here⟩ := holds
  have once : ¬slot.package.Holds (!second) n := fun twice => by
    have := (alone name (!second) ⟨slot, there, twice⟩).2
    cases second <;> cases this
  have others := tally_operands_eq_zero (n := n)
    (w := { w with slots := w.slots.filter fun e => e.1 ≠ name }) ?_ fun k q ⟨x, elsewhere, h⟩ => ?_
  · rw [tally_operands nodup there, Handle.tally_matrices_eq_one here once]
    exact congrArg (1 + ·) others
  · exact nodup.sublist (List.filter_sublist.map _)
  · rw [slot?, lookup_filter_ne] at elsewhere
    split at elsewhere
    · cases elsewhere
    · exact absurd (alone k q ⟨x, elsewhere, h⟩).1 ‹_›

variable [Scalar α] [Kernels α] {c : Call α}

lemma new_of_setOperators {A op : Operator α} {B : Option (Operator α)}
    (given : ∀ M ∈ EigenSolver.natives A B, M.number < w.ledger.counts.size)
    (elsewhere : ∀ k q n, w.Holds k q n → n < w.ledger.counts.size)
    (place : operandAt (some A) B second = some op) (host : op.native? = none)
    (ok : (w.step (.solver name (.setOperators A B))).2.isOk = true) :
    ∃ n, w.ledger.counts.size ≤ n ∧
      n < (w.step (.solver name (.setOperators A B))).1.ledger.counts.size ∧
      (w.step (.solver name (.setOperators A B))).1.Holds name second n ∧
      ∀ k q, (w.step (.solver name (.setOperators A B))).1.Holds k q n → k = name ∧ q = second := by
  have change := w.change_step (.solver name (.setOperators A B))
  generalize (w.step (.solver name (.setOperators A B))).2.isOk = done,
    (w.step (.solver name (.setOperators A B))).1 = w' at change ok
  cases change with
  | kept _ _ _ calls => exact absurd rfl ((calls ok name).1 _)
  | made drops => nomatch drops
  | @solver _ s =>
    have accepted := eq_ok_of_answered ok
    rcases EigenSolver.operands_setOperators s w.ledger A B with
      ⟨e, eq, -⟩ | ⟨M, N, -, converted, hA, hB⟩
    · exact nomatch eq.symm.trans accepted
    obtain ⟨X, there, new, last, apart⟩ :=
      EigenSolver.new_of_convertAll? converted given place host
    have operand : ∀ q, (s.setOperators w.ledger A B).1.1.handle.operand q =
        operandAt (some M) N q := fun q => by rw [Handle.operand, hA, hB]
    refine ⟨X.number, new, ?_, ?_, fun k q holds => ?_⟩
    · exact Nat.lt_of_lt_of_eq last EigenSolver.size_setOperators.symm
    · exact ⟨_, lookup_putSlot.trans (if_pos rfl), X, (operand second).trans there, rfl⟩
    · obtain ⟨slot, found, Y, here, same⟩ := holds
      rw [slot?, lookup_putSlot] at found
      split at found
      · rename_i named
        obtain rfl := Option.some.inj found
        refine ⟨named, ?_⟩
        by_contra other
        obtain rfl : q = !second := by revert other; cases q <;> cases second <;> decide
        exact apart Y ((operand _).symm.trans here) same
      · have := elsewhere k q X.number ⟨slot, found, Y, here, same⟩
        omega

omit [Scalar α] [Kernels α] in
lemma replaces_of_drops (drops : c.drops = some name) : c.replaces name = true := by
  cases c with
  | newSolver | newHandle | drop => exact decide_eq_true (Option.some.inj drops)
  | _ => nomatch drops

lemma Holds.step (holds : w.Holds name second n)
    (stays : ¬(c.replaces name = true ∧ (w.step c).2.isOk = true)) :
    (w.step c).1.Holds name second n := by
  have change := w.change_step c
  generalize (w.step c).2.isOk = ok, (w.step c).1 = w' at change stays
  have apart : ok = true → ∀ {k}, c.drops = some k → name ≠ k := by
    rintro ok k drops rfl
    exact stays ⟨replaces_of_drops drops, ok⟩
  have ⟨slot, there, here⟩ := holds
  cases change with
  | kept _ slots => exact ⟨slot, (congrArg (List.lookup name) slots).trans there, here⟩
  | made drops =>
    exact ⟨slot, (slot?_addSlot.trans (if_neg (apart rfl drops))).trans there, here⟩
  | dropped =>
    exact ⟨slot, (slot?_dropSlot.trans (if_neg (apart rfl rfl))).trans there, here⟩
  | @solver k s call found =>
    by_cases same : name = k
    · subst same
      obtain rfl := Option.some.inj (found.symm.trans there)
      refine ⟨_, lookup_putSlot.trans (if_pos rfl), ?_⟩
      by_cases attaching : ∃ A B, call = .setOperators A B
      · obtain ⟨A, B, rfl⟩ := attaching
        rcases EigenSolver.operands_setOperators s w.ledger A B with ⟨e, -, eq⟩ | ⟨M, N, ok, -⟩
        · change (s.setOperators w.ledger A B).1.1.handle.Holds second n
          rwa [eq]
        · refine absurd ⟨decide_eq_true rfl, ?_⟩ stays
          change (answered (s.setOperators w.ledger A B).2 _).isOk = true
          rw [ok]
          rfl
      · obtain ⟨hA, hB⟩ := EigenSolver.operands_step (s := s) (o := w.session.options)
          (l := w.ledger) fun A B eq => attaching ⟨A, B, eq⟩
        exact (Handle.holds_of_eq hA hB).2 here
    · exact ⟨slot, (lookup_putSlot.trans (if_neg same)).trans there, here⟩
  | @handle k h call found =>
    by_cases same : name = k
    · subst same
      obtain rfl := Option.some.inj (found.symm.trans there)
      refine ⟨_, lookup_putSlot.trans (if_pos rfl), ?_⟩
      by_cases attaching : ∃ A B, call = .setOperators A B
      · obtain ⟨A, B, rfl⟩ := attaching
        change (h.attach w.ledger A B).1.1.Holds second n
        cases hs : h.setOperators? A B with
        | error e =>
          rw [Handle.attach_of_error _ hs]
          exact here
        | ok h' =>
          refine absurd ⟨decide_eq_true rfl, ?_⟩ stays
          change (answered (h.attach w.ledger A B).2 _).isOk = true
          rw [(Handle.attach_of_ok _ hs).2]
          rfl
      · obtain ⟨hA, hB⟩ := Handle.operands_step (h := h) (o := w.session.options)
          (l := w.ledger) fun A B eq => attaching ⟨A, B, eq⟩
        exact (Handle.holds_of_eq hA hB).2 here
    · exact ⟨slot, (lookup_putSlot.trans (if_neg same)).trans there, here⟩

end Workspace

namespace Custody

variable {c : Custody α} {call : Call α}

/-- The matrix of that number is nobody's but the solver's of that name, in one place. -/
structure Reserved (c : Custody α) (n : ℕ) (name : String) (second : Bool) : Prop where
  given : n < c.ledger.counts.size
  apart : ∀ M ∈ c.held, M.number ≠ n
  alone : ∀ k q, c.workspace.Holds k q n → k = name ∧ q = second

variable [Scalar α] [Kernels α]

lemma size_after : c.ledger.counts.size ≤ (c.after call).ledger.counts.size := by
  have made : c.ledger.counts.size ≤ (c.ledger.counts.push 1).size := by
    rw [Array.size_push]
    exact Nat.le_succ _
  cases call with
  | aij | dense | shell | assembled => exact made
  | share M => exact Nat.le_of_eq Ledger.size_retain.symm
  | giveUp i =>
    rw [after]
    split
    · exact Nat.le_of_eq Ledger.size_release.symm
    · exact Nat.le_refl _
  | workspace call => exact Workspace.size_step

lemma mem_held_after {M : Mat α} (mem : M ∈ (c.after call).held) :
    M ∈ c.held ∨ M.number = c.ledger.counts.size ∨ M ∈ call.natives := by
  have kept : ∀ made : Mat α × Ledger, made.1.number = c.ledger.counts.size →
      M ∈ (c.keep made).held → M ∈ c.held ∨ M.number = c.ledger.counts.size := by
    intro made number mem
    rcases List.mem_cons.1 mem with rfl | mem
    · exact .inr number
    · exact .inl mem
  cases call with
  | aij | dense | shell | assembled => exact (kept _ rfl mem).imp_right .inl
  | share N =>
    rcases List.mem_cons.1 mem with rfl | mem
    · exact .inr (.inr (List.mem_singleton_self M))
    · exact .inl mem
  | giveUp i =>
    rw [after] at mem
    split at mem
    · exact .inl (List.mem_of_mem_eraseIdx mem)
    · exact .inl mem
  | workspace call => exact .inl mem

lemma holds_after {k : String} {q : Bool} (given : n < c.ledger.counts.size)
    (unnamed : ∀ M ∈ call.natives, M.number ≠ n) (holds : (c.after call).workspace.Holds k q n) :
    c.workspace.Holds k q n := by
  cases call with
  | giveUp i =>
    rw [after] at holds
    split at holds <;> exact holds
  | workspace call => exact Workspace.holds_step given unnamed holds
  | _ => exact holds

lemma Reserved.after (r : c.Reserved n name second) (unnamed : ∀ M ∈ call.natives, M.number ≠ n) :
    (c.after call).Reserved n name second where
  given := Nat.lt_of_lt_of_le r.given size_after
  apart M mem := by
    rcases mem_held_after mem with mem | new | passed
    · exact r.apart M mem
    · have := r.given
      omega
    · exact unnamed M passed
  alone k q holds := r.alone k q (holds_after r.given unnamed holds)

lemma Reserved.step (r : c.Reserved n name second) (unnamed : ∀ M ∈ call.natives, M.number ≠ n) :
    (c.step call).Reserved n name second := by
  unfold Custody.step
  split
  · exact r.after unnamed
  · exact r

lemma Exact.step (e : c.Exact) : (c.step call).Exact := e.run [call]

omit [Scalar α] [Kernels α] in
lemma Reserved.tally_held (r : c.Reserved n name second) : tally n c.held = 0 :=
  List.countP_eq_zero.2 fun M mem => by simpa using r.apart M mem

omit [Scalar α] [Kernels α] in
lemma Reserved.count_eq_one (r : c.Reserved n name second) (e : c.Exact)
    (holds : c.workspace.Holds name second n) : c.ledger.count n = 1 := by
  rw [e.balanced, holders, tally_append, r.tally_held,
    Workspace.tally_operands_eq_one e.sound.nodup holds r.alone]

omit [Scalar α] [Kernels α] in
lemma Reserved.count_eq_zero (r : c.Reserved n name second) (e : c.Exact)
    (free : ¬c.workspace.Holds name second n) : c.ledger.count n = 0 := by
  rw [e.balanced, holders, tally_append, r.tally_held, Workspace.tally_operands_eq_zero
    e.sound.nodup fun k q holds => ?_]
  obtain ⟨rfl, rfl⟩ := r.alone k q holds
  exact free holds

/-- The call replaces the operands of the solver of that name or drops it, and succeeds. -/
def replaces (c : Custody α) (name : String) : Call α → Bool
  | .workspace call =>
    c.allows (.workspace call) && call.replaces name && (c.workspace.step call).2.isOk
  | _ => false

/-- One of the calls, made one after the other, does so. -/
def replaced (c : Custody α) (name : String) : List (Call α) → Bool
  | [] => false
  | call :: calls => c.replaces name call || (c.step call).replaced name calls

lemma holds_of_not_replaces (holds : c.workspace.Holds name second n)
    (stays : c.replaces name call = false) : (c.step call).workspace.Holds name second n := by
  unfold Custody.step
  split
  case isFalse => exact holds
  case isTrue allowed =>
    cases call with
    | giveUp i =>
      rw [after]
      split <;> exact holds
    | workspace call =>
      refine holds.step ?_
      rintro ⟨replaces, ok⟩
      rw [Custody.replaces, allowed, replaces, ok] at stays
      cases stays
    | _ => exact holds

lemma not_holds_of_replaces (r : c.Reserved n name second)
    (unnamed : ∀ M ∈ call.natives, M.number ≠ n) (replaces : c.replaces name call = true) :
    ¬(c.step call).workspace.Holds name second n := by
  cases call with
  | workspace call =>
    simp only [Custody.replaces, Bool.and_eq_true] at replaces
    obtain ⟨⟨allowed, replaces⟩, ok⟩ := replaces
    rw [Custody.step, if_pos allowed]
    exact Workspace.not_holds_of_replaces r.given unnamed replaces ok
  | _ => nomatch replaces

lemma Reserved.count_run_of_not_holds (r : c.Reserved n name second) (e : c.Exact)
    (free : ¬c.workspace.Holds name second n) (calls : List (Call α))
    (unnamed : ∀ call ∈ calls, ∀ M ∈ call.natives, M.number ≠ n) :
    (c.run calls).ledger.count n = 0 := by
  induction calls generalizing c with
  | nil => exact r.count_eq_zero e free
  | cons call calls ih =>
    have here := unnamed call (.head _)
    refine ih (r.step here) e.step (fun holds => free ?_) fun d hd => unnamed d (.tail _ hd)
    unfold Custody.step at holds
    split at holds
    · exact holds_after r.given here holds
    · exact holds

/-- **A matrix that is reserved is counted once until it is replaced**, and not at all from then
on. -/
theorem Reserved.count_run (r : c.Reserved n name second) (e : c.Exact)
    (holds : c.workspace.Holds name second n) (calls : List (Call α))
    (unnamed : ∀ call ∈ calls, ∀ M ∈ call.natives, M.number ≠ n) :
    (c.run calls).ledger.count n = if c.replaced name calls then 0 else 1 := by
  induction calls generalizing c with
  | nil => exact r.count_eq_one e holds
  | cons call calls ih =>
    have here := unnamed call (.head _)
    have rest : ∀ d ∈ calls, ∀ M ∈ d.natives, M.number ≠ n := fun d hd => unnamed d (.tail _ hd)
    unfold replaced
    cases replaces : c.replaces name call with
    | true =>
      exact (r.step here).count_run_of_not_holds e.step (not_holds_of_replaces r here replaces)
        calls rest
    | false => exact ih (r.step here) e.step (holds_of_not_replaces holds replaces) rest

omit [Scalar α] [Kernels α] in
lemma Exact.lt_size {k : String} {q : Bool} (e : c.Exact) (holds : c.workspace.Holds k q n) :
    n < c.ledger.counts.size := by
  refine Ledger.lt_size ?_
  rw [e.balanced, holders, tally_append]
  exact Nat.lt_of_lt_of_le holds.pos (Nat.le_add_right _ _)

lemma Exact.reserved_setOperators {A op : Operator α} {B : Option (Operator α)} (e : c.Exact)
    (place : operandAt (some A) B second = some op) (host : op.native? = none)
    (allowed : c.allows (.workspace (.solver name (.setOperators A B))) = true)
    (ok : (c.workspace.step (.solver name (.setOperators A B))).2.isOk = true) :
    ∃ n, c.ledger.count n = 0 ∧
      (c.after (.workspace (.solver name (.setOperators A B)))).Reserved n name second ∧
      (c.after (.workspace (.solver name (.setOperators A B)))).workspace.Holds name second n := by
  have given : ∀ M ∈ EigenSolver.natives A B, M.number < c.ledger.counts.size := fun M mem =>
    Ledger.lt_size (by simpa using List.all_eq_true.1 allowed M mem)
  obtain ⟨n, new, last, holds, alone⟩ :=
    Workspace.new_of_setOperators given (fun _ _ _ => e.lt_size) place host ok
  refine ⟨n, Ledger.count_eq_zero new, ⟨last, fun M mem same => ?_, alone⟩, holds⟩
  have counted : 0 < c.ledger.count M.number :=
    e.balanced.pos_of_mem (List.mem_append_right _ mem)
  have := Ledger.lt_size counted
  change c.ledger.counts.size ≤ n at new
  omega

/-- **Matrices are shared and released exactly.** After any calls, whether they succeed or fail, a
matrix is counted once for every handle that the program has on it and once for every place where it
is an operand of a solver that is alive. A matrix that a solver makes, wrapping or copying an
operator of the host program, is a new one; as long as no call passes it on, it is counted once
until the operands are replaced or the solver is dropped, and not at all from then on. -/
theorem holders_exact (before : List (Call α)) :
    let c : Custody α := fresh.run before
    (∀ n, c.ledger.count n = tally n (Workspace.operands c.workspace.slots) + tally n c.held) ∧
    ∀ (name : String) (A : Operator α) (B : Option (Operator α)) (second : Bool) (op : Operator α),
      let call : Workspace.Call α := .solver name (.setOperators A B)
      operandAt (some A) B second = some op → op.native? = none →
      c.allows (.workspace call) = true → (c.workspace.step call).2.isOk = true →
      let c' := c.step (.workspace call)
      ∃ n, c.ledger.count n = 0 ∧ c'.workspace.Holds name second n ∧
        ∀ later : List (Call α), (∀ d ∈ later, ∀ M ∈ d.natives, M.number ≠ n) →
          (c'.run later).ledger.count n = if c'.replaced name later then 0 else 1 := by
  intro c
  have e : c.Exact := exact_fresh.run before
  refine ⟨fun n => (e.balanced n).trans tally_append, ?_⟩
  intro name A B second op call place host allowed ok
  obtain ⟨n, new, reserved, holds⟩ := e.reserved_setOperators place host allowed ok
  have step : c.step (.workspace call) = c.after (.workspace call) := if_pos allowed
  rw [step]
  refine ⟨n, new, holds, fun later unnamed => ?_⟩
  exact reserved.count_run (e.after allowed) holds later unnamed

/-- A solver copies an operator, and is asked to solve. Then another operator takes its place. -/
theorem holders_exact_copy :
    let before : List (Call Rat) :=
      [.workspace (.start ⟨none, [], none⟩), .workspace (.newSolver "modes" "" false)]
    let c : Custody Rat := fresh.run before
    let call (x : Rat) : Workspace.Call Rat :=
      .solver "modes" (.setOperators (.dense (Rational.diagonal [x])) none)
    let c' := c.step (.workspace (call 5))
    ∃ n, c.ledger.count n = 0 ∧ c'.workspace.Holds "modes" false n ∧
      (c'.run [.workspace (.solver "modes" .solve)]).ledger.count n = 1 ∧
      (c'.run [.workspace (call 3)]).ledger.count n = 0 := by
  intro before c call c'
  obtain ⟨n, new, holds, counted⟩ := (holders_exact before).2 "modes"
    (.dense (Rational.diagonal [5])) none false _ rfl rfl (by decide +kernel) (by decide +kernel)
  refine ⟨n, new, holds, ?_, ?_⟩
  · exact (counted [.workspace (.solver "modes" .solve)] (by simp [Call.natives,
      Workspace.Call.natives])).trans (by decide +kernel)
  · exact (counted [.workspace (call 3)] (by simp [call, Call.natives, Workspace.Call.natives,
      Operator.native?])).trans (by decide +kernel)

end Custody

end Eigenmesh
