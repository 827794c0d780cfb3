import Mathlib.Data.List.Perm.Basic
import Mathlib.Data.Nat.Notation
import Mathlib.Tactic.Common
import Eigenmesh.Proofs.Ledger
import Eigenmesh.Proofs.Workspace.Slots

/-!
Who holds the native matrices of a program.

The holders are the handles of the program itself and the places of the operands in the solvers that
are alive. After every call, whether it succeeds or fails, each matrix is counted as often as it has
holders, so nothing made on the way is left over.
-/

namespace Eigenmesh

variable {α : Type}

/-- The handle of the package behind a solver. -/
def Slot.package : Slot α → Handle α
  | .solver s => s.handle
  | .handle h => h

namespace Workspace

open Ledger (tally tally_append)

/-- The operands of all solvers, once for each place. -/
def operands (slots : List (String × Slot α)) : List (Mat α) :=
  slots.flatMap fun e => e.2.package.matrices

variable {w : Workspace α} {name : String} {slot : Slot α} {slots : List (String × Slot α)} {n : ℕ}

lemma tally_operands_cons {e : String × Slot α} :
    tally n (operands (e :: slots)) = tally n e.2.package.matrices + tally n (operands slots) := by
  rw [operands, List.flatMap_cons, tally_append]
  rfl

lemma filter_of_notMem (absent : name ∉ slots.map Prod.fst) :
    slots.filter (fun e => e.1 ≠ name) = slots := by
  refine List.filter_eq_self.2 fun e he => ?_
  simp only [ne_eq, decide_eq_true_eq]
  rintro rfl
  exact absent (List.mem_map_of_mem he)

lemma tally_operands (nodup : (slots.map Prod.fst).Nodup) (there : slots.lookup name = some slot) :
    tally n (operands slots) = tally n slot.package.matrices +
      tally n (operands (slots.filter fun e => e.1 ≠ name)) := by
  induction slots with
  | nil => nomatch there
  | cons e slots ih =>
    obtain ⟨k, x⟩ := e
    obtain ⟨new, rest⟩ := List.nodup_cons.1 nodup
    rw [tally_operands_cons]
    by_cases same : name = k
    · subst same
      rw [List.lookup_cons_self] at there
      obtain rfl := Option.some.inj there
      rw [List.filter_cons_of_neg (by simp), filter_of_notMem new]
    · rw [List.lookup_cons, beq_eq_false_iff_ne.2 same] at there
      rw [List.filter_cons_of_pos (by simpa using Ne.symm same), tally_operands_cons, ih rest there]
      omega

lemma tally_operands_putSlot (slot : Slot α) (nodup : (slots.map Prod.fst).Nodup) :
    tally n (operands (putSlot name slot slots)) = tally n slot.package.matrices +
      tally n (operands (slots.filter fun e => e.1 ≠ name)) := by
  induction slots with
  | nil => simp [putSlot, operands, tally]
  | cons e slots ih =>
    obtain ⟨k, x⟩ := e
    obtain ⟨new, rest⟩ := List.nodup_cons.1 nodup
    unfold putSlot
    by_cases same : k = name
    · subst same
      rw [if_pos rfl, tally_operands_cons, List.filter_cons_of_neg (by simp), filter_of_notMem new]
    · rw [if_neg same, List.filter_cons_of_pos (by simpa using same), tally_operands_cons,
        tally_operands_cons, ih rest]
      omega

variable [Scalar α] {others : List (Mat α)}

lemma balanced_dropSlot (nodup : w.names.Nodup)
    (b : w.ledger.Balanced (operands w.slots ++ others)) :
    (w.dropSlot name).ledger.Balanced (operands (w.dropSlot name).slots ++ others) := by
  unfold dropSlot
  cases there : w.slot? name with
  | none => exact b
  | some slot =>
    have dropped : slot.dropped w.ledger = slot.package.dropped w.ledger := by cases slot <;> rfl
    change (slot.dropped w.ledger).Balanced
      (operands (w.slots.filter fun e => e.1 ≠ name) ++ others)
    rw [dropped]
    refine Handle.balanced_dropped (b.congr fun n => ?_)
    rw [tally_append, tally_append, tally_append, tally_operands nodup there]
    omega

lemma balanced_addSlot (nodup : w.names.Nodup) (empty : slot.package.matrices = [])
    (b : w.ledger.Balanced (operands w.slots ++ others)) :
    (w.addSlot name slot).ledger.Balanced (operands (w.addSlot name slot).slots ++ others) := by
  have absent : name ∉ (w.dropSlot name).slots.map Prod.fst := by
    change name ∉ (w.dropSlot name).names
    rw [names_dropSlot]
    simp
  have nodup' : ((w.dropSlot name).slots.map Prod.fst).Nodup := by
    change (w.dropSlot name).names.Nodup
    rw [names_dropSlot]
    exact nodup.filter _
  have dropped : (w.dropSlot name).ledger.Balanced _ := balanced_dropSlot nodup b
  refine dropped.congr fun n => ?_
  change _ = tally n (operands (putSlot name slot (w.dropSlot name).slots) ++ others)
  rw [tally_append, tally_append, tally_operands_putSlot _ nodup', empty, filter_of_notMem absent]
  simp [tally]

omit [Scalar α] in
lemma balanced_putSlot {slot' : Slot α} {l' : Ledger} (nodup : w.names.Nodup)
    (there : w.slot? name = some slot)
    (step : ∀ others, w.ledger.Balanced (slot.package.matrices ++ others) →
      l'.Balanced (slot'.package.matrices ++ others))
    (b : w.ledger.Balanced (operands w.slots ++ others)) :
    l'.Balanced (operands (putSlot name slot' w.slots) ++ others) := by
  refine (step (operands (w.slots.filter fun e => e.1 ≠ name) ++ others)
    (b.congr fun n => ?_)).congr fun n => ?_
  · simp only [tally_append, tally_operands nodup there]
    omega
  · simp only [tally_append, tally_operands_putSlot slot' nodup]
    omega

variable [Kernels α]

/-- **Every call leaves as many counts as holders**, whether it succeeds or fails. -/
theorem balanced_step {c : Call α} (nodup : w.names.Nodup)
    (held : ∀ M ∈ c.natives, 0 < w.ledger.count M.number)
    (b : w.ledger.Balanced (operands w.slots ++ others)) :
    (w.step c).1.ledger.Balanced (operands (w.step c).1.slots ++ others) := by
  have change := w.change_step c
  generalize (w.step c).2.isOk = ok, (w.step c).1 = w' at change
  cases change with
  | kept ledger slots => rwa [ledger, slots]
  | @made _ _ session slot _ new =>
    have empty : slot.package.matrices = [] := by
      rcases new with rfl | ⟨family, wrap, rfl⟩ <;> rfl
    exact balanced_addSlot (w := { w with session }) nodup empty b
  | dropped => exact balanced_dropSlot nodup b
  | solver there =>
    refine balanced_putSlot nodup there (fun others b => ?_) b
    exact EigenSolver.balanced_step b fun A B eq => by subst eq; exact held
  | handle there =>
    refine balanced_putSlot nodup there (fun others b => ?_) b
    exact Handle.balanced_step b fun A B eq => by subst eq; exact held

end Workspace

namespace Custody

open Ledger (tally tally_cons tally_append)

/-- Everyone who holds a matrix: the solvers and the program. -/
def holders (c : Custody α) : List (Mat α) := Workspace.operands c.workspace.slots ++ c.held

variable [Scalar α] [Kernels α] {c : Custody α} {call : Call α}

/-- The names in use differ, and each matrix is counted as often as it is held. -/
structure Exact (c : Custody α) : Prop where
  sound : Workspace.Sound c.workspace.session c.workspace.names
  balanced : c.ledger.Balanced c.holders

omit [Scalar α] [Kernels α] in
lemma exact_fresh : (fresh : Custody α).Exact where
  sound := ⟨List.nodup_nil, rfl, fun h => absurd h (Nat.lt_irrefl 0)⟩
  balanced := Ledger.balanced_empty

lemma Exact.after (e : c.Exact) (allowed : c.allows call = true) : (c.after call).Exact := by
  have held : ∀ M ∈ call.natives, 0 < c.ledger.count M.number := by
    simpa [allows] using allowed
  have kept : ∀ made : Mat α × Ledger, made.1.number = c.ledger.create.1 →
      made.2 = c.ledger.create.2 → (c.keep made).Exact := by
    rintro ⟨M, l⟩ number rfl
    refine ⟨e.sound, (e.balanced.create number).congr fun n => ?_⟩
    change _ = tally n (Workspace.operands c.workspace.slots ++ M :: c.held)
    simp only [holders, tally_append, tally_cons]
    omega
  cases call with
  | aij | dense | shell | assembled => exact kept _ rfl rfl
  | share M =>
    refine ⟨e.sound, (e.balanced.retain (held M (List.mem_singleton_self M))).congr fun n => ?_⟩
    change _ = tally n (Workspace.operands c.workspace.slots ++ M :: c.held)
    simp only [holders, tally_append, tally_cons]
    omega
  | giveUp i =>
    rw [Custody.after]
    split
    case h_1 M there =>
      refine ⟨e.sound, Ledger.Balanced.release (M := M) (e.balanced.congr fun n => ?_)⟩
      obtain ⟨hi, rfl⟩ := List.getElem?_eq_some_iff.1 there
      have taken : tally n c.held = tally n (c.held[i] :: c.held.eraseIdx i) :=
        ((List.getElem_cons_eraseIdx_perm hi).countP_eq _).symm
      change _ = tally n (c.held[i] :: (Workspace.operands c.workspace.slots ++ c.held.eraseIdx i))
      rw [tally_cons] at taken
      simp only [holders, tally_append, tally_cons, taken]
      omega
    case h_2 => exact e
  | workspace call =>
    refine ⟨?_, Workspace.balanced_step e.sound.nodup held e.balanced⟩
    exact (c.workspace.effect_step call).sound e.sound

lemma Exact.run (e : c.Exact) (calls : List (Call α)) : (c.run calls).Exact := by
  induction calls generalizing c with
  | nil => exact e
  | cons call calls ih =>
    refine ih ?_
    unfold step
    split
    case isTrue allowed => exact e.after allowed
    case isFalse => exact e

end Custody

end Eigenmesh
