import Mathlib.Data.Nat.Notation
import Mathlib.Tactic.Common
import Eigenmesh.Proofs.EigenSolver.Numbers
import Eigenmesh.Proofs.Workspace.Slots

/-!
The numbers of the matrices do not matter to a program.

Two programs with the same session, whose solvers agree apart from the numbers of their matrices,
get the same answers from then on, whatever the holders of their matrices are.
-/

namespace Eigenmesh

variable {α : Type}

namespace Handle

lemma unnumbered_withProblem {h h' : Handle α} (kept : h' = h'.withProblem h) :
    (h'.withProblem h.unnumbered).unnumbered = h'.unnumbered :=
  calc (h'.withProblem h.unnumbered).unnumbered
      = (h'.withProblem h).unnumbered.unnumbered := rfl
    _ = h'.unnumbered := by rw [unnumbered_unnumbered, ← kept]

variable [Scalar α] (h : Handle α)

omit [Scalar α] in
lemma settle_unnumbered {f : Handle α → Except PackageError (Handle α)} (hf : IsSetting f)
    (l l' : Ledger) :
    (settle h.unnumbered l' (f h.unnumbered) :
        _ × Except (SolveFailure PackageError) (Reply α)).1.1.unnumbered =
        (settle h l (f h) : _ × Except (SolveFailure PackageError) (Reply α)).1.1.unnumbered ∧
      (settle h.unnumbered l' (f h.unnumbered) :
        _ × Except (SolveFailure PackageError) (Reply α)).2 = (settle h l (f h)).2 := by
  have moved : f h.unnumbered = (f h).map (·.withProblem h.unnumbered) := hf h h.unnumbered
  have kept : f h = (f h).map (·.withProblem h) := hf h h
  rw [moved]
  cases done : f h with
  | error e => exact ⟨h.unnumbered_unnumbered, rfl⟩
  | ok h' =>
    rw [done] at kept
    exact ⟨unnumbered_withProblem (Except.ok.inj kept), rfl⟩

lemma attach_unnumbered (l l' : Ledger) (A : Mat α) (B : Option (Mat α)) :
    (h.unnumbered.attach l' A B).1.1.unnumbered = (h.attach l A B).1.1.unnumbered ∧
      (h.unnumbered.attach l' A B).2 = (h.attach l A B).2 := by
  have same : (h.unnumbered.setOperators? A B).map unnumbered =
      (h.setOperators? A B).map unnumbered := by
    rw [← setOperators?_unnumbered, ← setOperators?_unnumbered, unnumbered_unnumbered]
  rcases EigenSolver.map_eq_map_cases same with ⟨e, there, here⟩ | ⟨h₂, h₁, there, here, eq⟩
  · rw [attach_of_error l' there, attach_of_error l here]
    exact ⟨h.unnumbered_unnumbered, rfl⟩
  · rw [(attach_of_ok l' there).1, (attach_of_ok l here).1, (attach_of_ok l' there).2,
      (attach_of_ok l here).2]
    exact ⟨eq, rfl⟩

variable [Kernels α]

lemma step_unnumbered (o : Options) (l l' : Ledger) (c : Call α) :
    (h.unnumbered.step o l' c).1.1.unnumbered = (h.step o l c).1.1.unnumbered ∧
      (h.unnumbered.step o l' c).2 = (h.step o l c).2 := by
  cases c with
  | setOperators A B =>
    obtain ⟨after, result⟩ := h.attach_unnumbered l l' A B
    exact ⟨after, congrArg (answered · _) result⟩
  | setTolerances t m => exact h.settle_unnumbered (isSetting_setTolerances? t m) l l'
  | setWanted n => exact h.settle_unnumbered (isSetting_setWanted? n) l l'
  | setTarget x => exact h.settle_unnumbered (isSetting_setTarget? x) l l'
  | setShift x => exact h.settle_unnumbered (isSetting_setShift? x) l l'
  | setFromOptions =>
    have kept : (h.setFromOptions o).1 = (h.setFromOptions o).1.withProblem h :=
      congrArg Prod.fst (setFromOptions_withProblem h h o)
    have moved := setFromOptions_withProblem h h.unnumbered o
    change ((h.withProblem h.unnumbered).setFromOptions o).1.unnumbered =
        (h.setFromOptions o).1.unnumbered ∧
      answered ((h.withProblem h.unnumbered).setFromOptions o).2 _ = answered _ _
    rw [moved]
    exact ⟨unnumbered_withProblem kept, rfl⟩
  | solve =>
    unfold step
    simp only [solve_unnumbered]
    exact ⟨unnumbered_unnumbered _, trivial⟩
  | setFamily family => exact ⟨unnumbered_unnumbered { h with family }, rfl⟩
  | setWhich which => exact ⟨unnumbered_unnumbered { h with which }, rfl⟩
  | setProblem problem => exact ⟨unnumbered_unnumbered { h with problem := some problem }, rfl⟩
  | setSolver solver => exact ⟨unnumbered_unnumbered { h with solver }, rfl⟩
  | setTransform type =>
    exact ⟨unnumbered_unnumbered { h with transform := { h.transform with type } }, rfl⟩
  | converged | eigenvalue | relativeError | eigenvector => exact ⟨h.unnumbered_unnumbered, rfl⟩

lemma step_alike {h h' : Handle α} (same : h'.unnumbered = h.unnumbered) (o : Options)
    (l l' : Ledger) (c : Call α) :
    (h'.step o l' c).1.1.unnumbered = (h.step o l c).1.1.unnumbered ∧
      (h'.step o l' c).2 = (h.step o l c).2 := by
  obtain ⟨here, answer⟩ := h.step_unnumbered o l l c
  obtain ⟨there, answer'⟩ := h'.step_unnumbered o l' l c
  rw [same] at there answer'
  exact ⟨there.symm.trans here, answer'.symm.trans answer⟩

end Handle

lemma EigenSolver.after_alike [Scalar α] [Kernels α] {s s' : EigenSolver α}
    (same : s'.unnumbered = s.unnumbered) (o : Options) (l l' : Ledger) (c : Call α) :
    (s'.after ⟨o, l', c⟩).unnumbered = (s.after ⟨o, l, c⟩).unnumbered ∧
      s'.answer ⟨o, l', c⟩ = s.answer ⟨o, l, c⟩ := by
  obtain ⟨here, answer⟩ : (s.unnumbered.after ⟨o, l, c⟩).unnumbered = _ ∧
    s.unnumbered.answer ⟨o, l, c⟩ = s.answer ⟨o, l, c⟩ := s.after_unnumbered rfl rfl
  obtain ⟨there, answer'⟩ : (s'.unnumbered.after ⟨o, l, c⟩).unnumbered = _ ∧
    s'.unnumbered.answer ⟨o, l, c⟩ = s'.answer ⟨o, l', c⟩ := s'.after_unnumbered rfl rfl
  rw [same] at there answer'
  exact ⟨there.symm.trans here, answer'.symm.trans answer⟩

/-- The solver, whatever numbers its matrices have. -/
def Slot.unnumbered : Slot α → Slot α
  | .solver s => .solver s.unnumbered
  | .handle h => .handle h.unnumbered

namespace Workspace

/-- The sessions are the same, and the solvers agree apart from the numbers of their matrices. -/
structure Alike (w w' : Workspace α) : Prop where
  session : w'.session = w.session
  slot : ∀ name, (w'.slot? name).map Slot.unnumbered = (w.slot? name).map Slot.unnumbered

variable {w w' : Workspace α} {name : String}

lemma Alike.cases (a : Alike w w') (name : String) :
    w.slot? name = none ∧ w'.slot? name = none ∨
    (∃ s s', w.slot? name = some (.solver s) ∧ w'.slot? name = some (.solver s') ∧
      s'.unnumbered = s.unnumbered) ∨
    ∃ h h', w.slot? name = some (.handle h) ∧ w'.slot? name = some (.handle h') ∧
      h'.unnumbered = h.unnumbered := by
  have same := a.slot name
  generalize w.slot? name = slot, w'.slot? name = slot' at same ⊢
  rcases slot with _ | s | h <;> rcases slot' with _ | s' | h' <;>
    first
    | exact .inl ⟨rfl, rfl⟩
    | exact .inr (.inl ⟨s, s', rfl, rfl, Slot.solver.inj (Option.some.inj same)⟩)
    | exact .inr (.inr ⟨h, h', rfl, rfl, Slot.handle.inj (Option.some.inj same)⟩)
    | cases same

lemma Alike.put {v v' : Workspace α} (a : Alike w w') (session : v'.session = v.session)
    {slot slot' : Slot α} (same : slot'.unnumbered = slot.unnumbered)
    (put : ∀ k, v.slot? k = if k = name then some slot else w.slot? k)
    (put' : ∀ k, v'.slot? k = if k = name then some slot' else w'.slot? k) : Alike v v' := by
  refine ⟨session, fun k => ?_⟩
  rw [put, put']
  split
  · exact congrArg some same
  · exact a.slot k

variable [Scalar α]

omit [Scalar α] in
lemma Alike.mem_names_iff (a : Alike w w') : name ∈ w'.names ↔ name ∈ w.names := by
  have same := congrArg Option.isSome (a.slot name)
  rw [Option.isSome_map, Option.isSome_map] at same
  rw [← isSome_slot?_iff, ← isSome_slot?_iff, same]

lemma Alike.dropSlot (a : Alike w w') (name : String) :
    Alike (w.dropSlot name) (w'.dropSlot name) := by
  refine ⟨?_, fun k => ?_⟩
  · simp only [session_dropSlot, a.mem_names_iff, a.session]
  · rw [slot?_dropSlot, slot?_dropSlot]
    split
    · rfl
    · exact a.slot k

lemma Alike.addSlot (a : Alike w w') (name : String) (slot : Slot α) :
    Alike (w.addSlot name slot) (w'.addSlot name slot) :=
  a.put (a.dropSlot name).session rfl (fun _ => slot?_addSlot) fun _ => slot?_addSlot

omit [Scalar α] in
lemma Alike.onSession (a : Alike w w') (r : Except PackageError Session) :
    Alike (w.onSession r).1 (w'.onSession r).1 ∧ (w'.onSession r).2 = (w.onSession r).2 := by
  cases r with
  | ok session => exact ⟨⟨rfl, a.slot⟩, rfl⟩
  | error e => exact ⟨a, rfl⟩

omit [Scalar α] in
lemma Alike.create? (a : Alike w w') :
    (∃ e, w.create? = .error e ∧ w'.create? = .error e) ∨
      ∃ v v', w.create? = .ok v ∧ w'.create? = .ok v' ∧ Alike v v' := by
  unfold Workspace.create?
  rw [a.session]
  cases w.session.register? with
  | ok session => exact .inr ⟨_, _, rfl, rfl, rfl, a.slot⟩
  | error e => exact .inl ⟨_, rfl, rfl⟩

variable [Kernels α]

lemma Alike.step (a : Alike w w') (c : Call α) :
    Alike (w.step c).1 (w'.step c).1 ∧ (w'.step c).2 = (w.step c).2 := by
  cases c with
  | start sources =>
    unfold Workspace.step
    rw [a.session]
    exact a.onSession _
  | finish =>
    unfold Workspace.step
    rw [a.session]
    exact a.onSession _
  | setOption name value =>
    unfold Workspace.step
    rw [a.session]
    exact a.onSession _
  | newSolver name family wrap =>
    obtain ⟨e, here, there⟩ | ⟨v, v', here, there, made⟩ := a.create?
    · simp only [Workspace.step, here, there]
      exact ⟨a, rfl⟩
    · simp only [Workspace.step, here, there]
      exact ⟨made.addSlot name _, rfl⟩
  | newHandle name =>
    obtain ⟨e, here, there⟩ | ⟨v, v', here, there, made⟩ := a.create?
    · simp only [Workspace.step, here, there]
      exact ⟨a, trivial⟩
    · simp only [Workspace.step, here, there]
      exact ⟨made.addSlot name _, trivial⟩
  | drop name =>
    simp only [Workspace.step, isSome_slot?_iff, a.mem_names_iff]
    split
    · exact ⟨a.dropSlot name, rfl⟩
    · exact ⟨a, rfl⟩
  | solver name call =>
    obtain ⟨here, there⟩ | ⟨s, s', here, there, same⟩ | ⟨h, h', here, there, -⟩ := a.cases name
    · simp only [Workspace.step, here, there]
      exact ⟨a, trivial⟩
    · obtain ⟨after, answer⟩ :=
        EigenSolver.after_alike same w.session.options w.ledger w'.ledger call
      simp only [Workspace.step, here, there, a.session]
      refine ⟨a.put rfl ?_ (fun _ => lookup_putSlot) fun _ => lookup_putSlot,
        congrArg (Except.mapError _) answer⟩
      exact congrArg Slot.solver after
    · simp only [Workspace.step, here, there]
      exact ⟨a, trivial⟩
  | handle name call =>
    obtain ⟨here, there⟩ | ⟨s, s', here, there, -⟩ | ⟨h, h', here, there, same⟩ := a.cases name
    · simp only [Workspace.step, here, there]
      exact ⟨a, trivial⟩
    · simp only [Workspace.step, here, there]
      exact ⟨a, trivial⟩
    · obtain ⟨after, answer⟩ :=
        Handle.step_alike same w.session.options w.ledger w'.ledger call
      simp only [Workspace.step, here, there, a.session]
      refine ⟨a.put rfl ?_ (fun _ => lookup_putSlot) fun _ => lookup_putSlot,
        congrArg (Except.mapError _) answer⟩
      exact congrArg Slot.handle after

lemma Alike.run (a : Alike w w') (calls : List (Call α)) : Alike (w.run calls) (w'.run calls) := by
  induction calls generalizing w w' with
  | nil => exact a
  | cons c calls ih => exact ih (a.step c).1

end Workspace

end Eigenmesh
