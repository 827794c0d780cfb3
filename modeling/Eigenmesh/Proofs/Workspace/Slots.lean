import Mathlib.Data.Nat.Notation
import Mathlib.Tactic.Common
import Eigenmesh.Proofs.EigenSolver.Run
import Eigenmesh.Proofs.Package.Precedence
import Eigenmesh.Proofs.Workspace.Lifecycle

/-!
What a name stands for in the course of a program.

A solver is changed by the calls on its own name only. From when it is made until it is dropped or
replaced, it goes through exactly those calls, each with the options that are in force in the
session at that time and the matrices that there are then.
-/

namespace Eigenmesh.Workspace

open Options (lookup_cons)

variable {α : Type} {w : Workspace α} {k name : String} {slot : Slot α}
  {slots : List (String × Slot α)}

lemma lookup_putSlot :
    (putSlot name slot slots).lookup k = if k = name then some slot else slots.lookup k := by
  induction slots with
  | nil => exact lookup_cons
  | cons e slots ih =>
    obtain ⟨j, s⟩ := e
    unfold putSlot
    split
    case isTrue same =>
      subst same
      rw [lookup_cons, lookup_cons]
      split <;> rfl
    case isFalse other =>
      rw [lookup_cons, lookup_cons, ih]
      by_cases h : k = j
      · rw [if_pos h, if_neg (h ▸ other), if_pos h]
      · rw [if_neg h, if_neg h]

lemma lookup_filter_ne :
    (slots.filter fun e => e.1 ≠ name).lookup k = if k = name then none else slots.lookup k := by
  induction slots with
  | nil => split <;> rfl
  | cons e slots ih =>
    obtain ⟨j, s⟩ := e
    by_cases same : j = name
    · subst same
      rw [List.filter_cons_of_neg (by simp), ih, lookup_cons]
      split <;> rfl
    · rw [List.filter_cons_of_pos (by simpa using same), lookup_cons, lookup_cons, ih]
      by_cases h : k = j
      · rw [if_pos h, if_neg (h ▸ same), if_pos h]
      · rw [if_neg h, if_neg h]

variable [Scalar α]

lemma slot?_dropSlot : (w.dropSlot name).slot? k = if k = name then none else w.slot? k := by
  unfold dropSlot
  cases there : w.slot? name with
  | some slot => exact lookup_filter_ne
  | none =>
    by_cases same : k = name
    · rw [if_pos same, same]
      exact there
    · rw [if_neg same]

lemma slot?_addSlot :
    (w.addSlot name slot).slot? k = if k = name then some slot else w.slot? k := by
  refine lookup_putSlot.trans ?_
  by_cases same : k = name
  · rw [if_pos same, if_pos same]
  · rw [if_neg same, if_neg same]
    exact slot?_dropSlot.trans (if_neg same)

/-! ### What a call does to the solvers -/

variable [Kernels α]

/-- What a call does to the solvers and the holders, and whether it succeeds. -/
inductive Change (w : Workspace α) : Call α → Bool → Workspace α → Prop
  | kept {c : Call α} {ok : Bool} {w' : Workspace α} (ledger : w'.ledger = w.ledger)
    (slots : w'.slots = w.slots) (drops : ok = true → c.drops = none)
    (calls : ok = true → ∀ k, (∀ call, c ≠ .solver k call) ∧ ∀ call, c ≠ .handle k call)
    (absent : ∀ k s call, c = .solver k call → w.slot? k ≠ some (.solver s)) : Change w c ok w'
  | made {c : Call α} {name : String} {session : Session} {slot : Slot α}
    (drops : c.drops = some name)
    (new : slot = .handle .fresh ∨ ∃ family wrap, slot = .solver (.fresh family wrap)) :
    Change w c true ({ w with session }.addSlot name slot)
  | dropped {name : String} (there : (w.slot? name).isSome) :
    Change w (.drop name) true (w.dropSlot name)
  | solver {name : String} {s : EigenSolver α} {call : EigenSolver.Call α}
    (there : w.slot? name = some (.solver s)) :
    Change w (.solver name call) (s.step w.session.options w.ledger call).2.isOk
      { w with
        ledger := (s.step w.session.options w.ledger call).1.2
        slots := putSlot name (.solver (s.step w.session.options w.ledger call).1.1) w.slots }
  | handle {name : String} {h : Handle α} {call : Handle.Call α}
    (there : w.slot? name = some (.handle h)) :
    Change w (.handle name call) (h.step w.session.options w.ledger call).2.isOk
      { w with
        ledger := (h.step w.session.options w.ledger call).1.2
        slots := putSlot name (.handle (h.step w.session.options w.ledger call).1.1) w.slots }

omit [Scalar α] [Kernels α] in
lemma isOk_mapError {E E' β : Type} {f : E → E'} {r : Except E β} :
    (r.mapError f).isOk = r.isOk := by
  cases r <;> rfl

omit [Scalar α] [Kernels α] in
lemma exists_of_create? {w' : Workspace α} (ok : w.create? = .ok w') :
    ∃ session, w' = { w with session } := by
  unfold create? at ok
  split at ok
  · exact ⟨_, (Except.ok.inj ok).symm⟩
  · cases ok

lemma Change.refused {c : Call α} (absent : ∀ k s call, c = .solver k call →
    w.slot? k ≠ some (.solver s)) : Change w c false w :=
  .kept rfl rfl (fun ok => absurd ok Bool.false_ne_true) (fun ok => absurd ok Bool.false_ne_true)
    absent

/-- **Every call makes one of the changes.** -/
lemma change_step (w : Workspace α) (c : Call α) :
    Change w c (w.step c).2.isOk (w.step c).1 := by
  have onSession : ∀ r : Except PackageError Session,
      (w.onSession r).1.ledger = w.ledger ∧ (w.onSession r).1.slots = w.slots := by
    intro r
    cases r <;> exact ⟨rfl, rfl⟩
  cases c with
  | start | finish | setOption =>
    rw [step]
    refine .kept (onSession _).1 (onSession _).2 (fun _ => rfl) (fun _ _ => ⟨?_, ?_⟩) ?_
    · rintro _ ⟨⟩
    · rintro _ ⟨⟩
    · rintro _ _ _ ⟨⟩
  | newSolver name family wrap =>
    rw [step]
    cases hc : w.create? with
    | ok w' =>
      obtain ⟨session, rfl⟩ := exists_of_create? hc
      exact .made rfl (.inr ⟨family, wrap, rfl⟩)
    | error e => exact .refused (by rintro _ _ _ ⟨⟩)
  | newHandle name =>
    rw [step]
    cases hc : w.create? with
    | ok w' =>
      obtain ⟨session, rfl⟩ := exists_of_create? hc
      exact .made rfl (.inl rfl)
    | error e => exact .refused (by rintro _ _ _ ⟨⟩)
  | drop name =>
    rw [step]
    split
    case isTrue there => exact .dropped there
    case isFalse => exact .refused (by rintro _ _ _ ⟨⟩)
  | solver name call =>
    rw [step]
    split
    case h_1 s there =>
      rw [isOk_mapError]
      exact .solver there
    case h_2 none =>
      refine .refused ?_
      rintro k s _ ⟨⟩
      exact none s
  | handle name call =>
    rw [step]
    split
    case h_1 h there =>
      rw [isOk_mapError]
      exact .handle there
    case h_2 => exact .refused (by rintro _ _ _ ⟨⟩)

/-! ### Solvers -/

/-- What a call makes the solver of that name go through. -/
def event? (w : Workspace α) (name : String) : Call α → Option (Event (EigenSolver.Call α))
  | .solver k call => if k = name then some ⟨w.session.options, w.ledger, call⟩ else none
  | _ => none

/-- What the solver of that name goes through in the course of some calls. -/
def events (w : Workspace α) (name : String) : List (Call α) → List (Event (EigenSolver.Call α))
  | [] => []
  | c :: calls => (w.event? name c).toList ++ (w.step c).1.events name calls

omit [Scalar α] [Kernels α] in
lemma event?_eq_none {c : Call α} (other : ∀ call, c ≠ .solver name call) :
    w.event? name c = none := by
  cases c with
  | solver k call =>
    refine if_neg ?_
    rintro rfl
    exact other call rfl
  | _ => rfl

lemma slot?_step {s : EigenSolver α} {c : Call α} (there : w.slot? name = some (.solver s))
    (stays : c.drops ≠ some name) :
    (w.step c).1.slot? name = some (.solver (s.run (w.event? name c).toList)) := by
  have change := w.change_step c
  generalize (w.step c).2.isOk = ok, (w.step c).1 = w' at change
  have apart : ∀ {k slot}, w.slot? k = some slot → slot ≠ .solver s → name ≠ k := by
    rintro k slot here other rfl
    exact other (Option.some.inj (here.symm.trans there))
  cases change with
  | kept ledger slots drops calls absent =>
    rw [event?_eq_none fun call eq => absent name s call eq there]
    exact (congrArg (List.lookup name) slots).trans there
  | @made _ k _ _ drops new =>
    have other : name ≠ k := fun eq => stays (drops.trans (congrArg some eq.symm))
    have idle : w.event? name c = none := event?_eq_none fun call eq => by
      rw [eq] at drops
      cases drops
    rw [idle]
    exact (slot?_addSlot.trans (if_neg other)).trans there
  | @dropped k here =>
    have other : name ≠ k := fun eq => stays (congrArg some eq.symm)
    exact (slot?_dropSlot.trans (if_neg other)).trans there
  | @solver k s' call here =>
    by_cases same : k = name
    · subst same
      obtain rfl : s' = s := Slot.solver.inj (Option.some.inj (here.symm.trans there))
      rw [event?, if_pos rfl]
      exact lookup_putSlot.trans (if_pos rfl)
    · rw [event?, if_neg same]
      exact (lookup_putSlot.trans (if_neg (Ne.symm same))).trans there
  | @handle k h call here =>
    exact (lookup_putSlot.trans (if_neg (apart here nofun))).trans there

/-- **A solver in a program is what its own calls make of it**, with the options of the session, as
long as it is not dropped. -/
theorem slot?_run {s : EigenSolver α} (there : w.slot? name = some (.solver s))
    (calls : List (Call α)) (kept : ∀ c ∈ calls, c.drops ≠ some name) :
    (w.run calls).slot? name = some (.solver (s.run (w.events name calls))) := by
  induction calls generalizing w s with
  | nil => exact there
  | cons c calls ih =>
    rw [events, EigenSolver.run_append]
    exact ih (slot?_step there (kept c (.head _))) fun d hd => kept d (.tail _ hd)

end Eigenmesh.Workspace
