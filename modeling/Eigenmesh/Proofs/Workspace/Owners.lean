import Mathlib.Data.Nat.Notation
import Mathlib.Tactic.Common
import Eigenmesh.Proofs.EigenSolver.Numbers
import Eigenmesh.Proofs.Workspace.Holders
import Eigenmesh.Proofs.Workspace.Slots

/-!
Matrices that belong to one solver.

A matrix made for an operator of the host program has a number that was never given before, and one
place where it is held: that of the operand it was made for. As long as no call shares it or passes
it on, nobody else comes to hold it. So it is counted once until the operand is replaced or the
solver is dropped, and not at all afterwards.
-/

namespace Eigenmesh

variable {α : Type} {l l' : Ledger} {n m : ℕ}

namespace Ledger

lemma size_retain : (l.retain m).counts.size = l.counts.size := Array.size_modify

lemma size_release : (l.release m).counts.size = l.counts.size := Array.size_modify

lemma size_retainSlot {B : Option (Mat α)} : (l.retainSlot B).counts.size = l.counts.size := by
  cases B with
  | none => rfl
  | some M => exact size_retain

lemma size_releaseSlot {B : Option (Mat α)} : (l.releaseSlot B).counts.size = l.counts.size := by
  cases B with
  | none => rfl
  | some M => exact size_release

end Ledger

/-- One of two operands. -/
def operandAt {β : Type} (A : Option β) (B : Option β) (second : Bool) : Option β :=
  if second then B else A

namespace Handle

variable {h : Handle α} {A : Mat α} {B : Option (Mat α)} {second : Bool}

/-- The operand in one of the two places. -/
def operand (h : Handle α) (second : Bool) : Option (Mat α) := operandAt h.A h.B second

/-- The matrix of that number is the operand in one of the two places. -/
def Holds (h : Handle α) (second : Bool) (n : ℕ) : Prop :=
  ∃ M, h.operand second = some M ∧ M.number = n

lemma size_dropped : (h.dropped l).counts.size = l.counts.size :=
  Ledger.size_releaseSlot.trans Ledger.size_releaseSlot

lemma size_retained : (h.retained l).counts.size = l.counts.size :=
  Ledger.size_retainSlot.trans Ledger.size_retainSlot

lemma size_attach [Scalar α] : (h.attach l A B).1.2.counts.size = l.counts.size := by
  unfold attach
  split
  · rfl
  · simp only [Ledger.size_releaseSlot, Ledger.size_retainSlot, Ledger.size_retain]

lemma holds_of_eq {h' : Handle α} (hA : h'.A = h.A) (hB : h'.B = h.B) :
    h'.Holds second n ↔ h.Holds second n := by
  rw [Holds, Holds, operand, operand, hA, hB]

lemma not_holds (hA : h.A = some A) (hB : h.B = B) (other : ∀ M ∈ A :: B.toList, M.number ≠ n) :
    ¬h.Holds second n := by
  rintro ⟨M, there, number⟩
  rw [operand, hA, hB] at there
  refine other M ?_ number
  cases second with
  | false => exact List.mem_cons.2 (.inl (Option.some.inj there).symm)
  | true => exact List.mem_cons_of_mem _ (Option.mem_toList.2 there)

section Step

variable [Scalar α] [Kernels α] {o : Options} {c : Call α}

lemma size_step : (h.step o l c).1.2.counts.size = l.counts.size := by
  by_cases attaching : ∃ A B, c = .setOperators A B
  · obtain ⟨A, B, rfl⟩ := attaching
    exact size_attach
  · rcases ledger_step (h := h) (o := o) (l := l) fun A B eq => attaching ⟨A, B, eq⟩ with eq | eq
    · rw [eq]
    · rw [eq, size_dropped, size_retained]

omit [Kernels α] in
lemma not_holds_of_setOperators (other : ∀ M ∈ A :: B.toList, M.number ≠ n)
    (ok : (h.attach l A B).2 = .ok ()) : ¬(h.attach l A B).1.1.Holds second n := by
  cases hs : h.setOperators? A B with
  | error e =>
    rw [attach_of_error l hs] at ok
    cases ok
  | ok h' =>
    rw [(attach_of_ok l hs).1]
    obtain ⟨-, -, rfl⟩ := setOperators?_eq_ok.1 hs
    exact not_holds rfl rfl other

lemma holds_step (unnamed : ∀ A B, c = .setOperators A B → ∀ M ∈ A :: B.toList, M.number ≠ n)
    (holds : (h.step o l c).1.1.Holds second n) : h.Holds second n := by
  by_cases attaching : ∃ A B, c = .setOperators A B
  · obtain ⟨A, B, rfl⟩ := attaching
    change (h.attach l A B).1.1.Holds second n at holds
    cases hs : h.setOperators? A B with
    | error e => rwa [attach_of_error l hs] at holds
    | ok h' =>
      exact absurd holds (not_holds_of_setOperators (unnamed A B rfl) (attach_of_ok l hs).2)
  · obtain ⟨hA, hB⟩ :=
      operands_step (h := h) (o := o) (l := l) fun A B eq => attaching ⟨A, B, eq⟩
    exact (holds_of_eq hA hB).1 holds

end Step

end Handle

namespace EigenSolver

variable [Scalar α] {s : EigenSolver α} {wrap : Bool} {A op : Operator α} {B : Option (Operator α)}
  {M : Mat α} {N : Option (Mat α)}

lemma convert?_cases {operand : String} (ok : convert? wrap l op operand = .ok (M, l')) :
    op.native? = some M ∧ l'.counts.size = l.counts.size ∨
      op.native? = none ∧ M.number = l.counts.size ∧ l'.counts.size = l.counts.size + 1 := by
  unfold convert? at ok
  split at ok
  · cases ok
  · cases op with
    | native X =>
      obtain ⟨rfl, rfl⟩ := Prod.mk.inj (Except.ok.inj ok)
      exact .inl ⟨rfl, Ledger.size_retain⟩
    | _ =>
      cases wrap <;>
      · obtain ⟨rfl, rfl⟩ := Prod.mk.inj (Except.ok.inj ok)
        exact .inr ⟨rfl, rfl, Array.size_push _⟩

lemma convertAll?_eq_ok (ok : (convertAll? wrap l A B).2 = .ok (M, N)) :
    ∃ l₁, convert? wrap l A "A" = .ok (M, l₁) ∧
      (B = none ∧ N = none ∧ (convertAll? wrap l A B).1 = l₁ ∨
        ∃ B' N', B = some B' ∧ N = some N' ∧
          convert? wrap l₁ B' "B" = .ok (N', (convertAll? wrap l A B).1)) := by
  revert ok
  unfold convertAll?
  cases hA : convert? wrap l A "A" with
  | error e => exact fun ok => nomatch ok
  | ok Ml =>
    obtain ⟨X, l₁⟩ := Ml
    cases B with
    | none =>
      intro ok
      obtain ⟨rfl, rfl⟩ := Prod.mk.inj (Except.ok.inj ok)
      exact ⟨l₁, rfl, .inl ⟨rfl, rfl, rfl⟩⟩
    | some B =>
      cases hB : convert? wrap l₁ B "B" with
      | error e =>
        simp only [hB]
        exact fun ok => nomatch ok
      | ok Nl =>
        obtain ⟨Y, l₂⟩ := Nl
        simp only [hB]
        intro ok
        obtain ⟨rfl, rfl⟩ := Prod.mk.inj (Except.ok.inj ok)
        exact ⟨l₁, rfl, .inr ⟨B, Y, rfl, rfl, hB⟩⟩

/-- The native matrices that operators are. -/
def natives (A : Operator α) (B : Option (Operator α)) : List (Mat α) :=
  A.native?.toList ++ (B.bind Operator.native?).toList

lemma number_ne_of_convert? {operand : String} (ok : convert? wrap l op operand = .ok (M, l'))
    (old : n < l.counts.size) (unnamed : ∀ X, op.native? = some X → X.number ≠ n) :
    M.number ≠ n ∧ n < l'.counts.size := by
  rcases convert?_cases ok with ⟨native, size⟩ | ⟨-, number, size⟩
  · exact ⟨unnamed M native, by omega⟩
  · exact ⟨by omega, by omega⟩

lemma number_lt_of_convert? {operand : String} (ok : convert? wrap l op operand = .ok (M, l'))
    (there : ∀ X, op.native? = some X → X.number < l.counts.size) :
    M.number < l'.counts.size := by
  rcases convert?_cases ok with ⟨native, size⟩ | ⟨-, number, size⟩
  · exact size ▸ there M native
  · omega

lemma new_of_convert? {operand : String} (ok : convert? wrap l op operand = .ok (M, l'))
    (host : op.native? = none) :
    M.number = l.counts.size ∧ l'.counts.size = l.counts.size + 1 := by
  rcases convert?_cases ok with ⟨native, -⟩ | ⟨-, new⟩
  · exact nomatch host.symm.trans native
  · exact new

lemma size_convert? {operand : String} (ok : convert? wrap l op operand = .ok (M, l')) :
    l.counts.size ≤ l'.counts.size := by
  rcases convert?_cases ok with ⟨-, size⟩ | ⟨-, -, size⟩ <;> omega

lemma size_convertAll? : l.counts.size ≤ (convertAll? wrap l A B).1.counts.size := by
  unfold convertAll?
  cases hA : convert? wrap l A "A" with
  | error e => exact Nat.le_refl _
  | ok Ml =>
    obtain ⟨X, l₁⟩ := Ml
    cases B with
    | none => exact size_convert? hA
    | some B =>
      cases hB : convert? wrap l₁ B "B" with
      | error e =>
        simp only [hB, Ledger.size_release]
        exact size_convert? hA
      | ok Nl =>
        simp only [hB]
        exact Nat.le_trans (size_convert? hA) (size_convert? hB)

lemma number_ne_of_convertAll? (ok : (convertAll? wrap l A B).2 = .ok (M, N))
    (old : n < l.counts.size) (unnamed : ∀ X ∈ natives A B, X.number ≠ n) :
    ∀ X ∈ M :: N.toList, X.number ≠ n := by
  obtain ⟨l₁, hA, hB⟩ := convertAll?_eq_ok ok
  obtain ⟨first, old₁⟩ := number_ne_of_convert? hA old fun X native =>
    unnamed X (by simp [natives, native])
  rcases hB with ⟨rfl, rfl, -⟩ | ⟨B, Y, rfl, rfl, hB⟩
  · simpa using first
  · have second := (number_ne_of_convert? hB old₁ fun X native =>
      unnamed X (by simp [natives, native])).1
    simpa using ⟨first, second⟩

lemma new_of_convertAll? (ok : (convertAll? wrap l A B).2 = .ok (M, N))
    (there : ∀ X ∈ natives A B, X.number < l.counts.size) {second : Bool}
    (hop : operandAt (some A) B second = some op) (host : op.native? = none) :
    ∃ X, operandAt (some M) N second = some X ∧ l.counts.size ≤ X.number ∧
      X.number < (convertAll? wrap l A B).1.counts.size ∧
      ∀ Y, operandAt (some M) N (!second) = some Y → Y.number ≠ X.number := by
  obtain ⟨l₁, hA, hB⟩ := convertAll?_eq_ok ok
  cases second with
  | false =>
    obtain rfl : A = op := Option.some.inj hop
    obtain ⟨number, size⟩ := new_of_convert? hA host
    have old : M.number < l₁.counts.size := by omega
    rcases hB with ⟨rfl, rfl, last⟩ | ⟨B, Z, rfl, rfl, hB⟩
    · exact ⟨M, rfl, number.ge, last.symm ▸ old, nofun⟩
    · -- what the second operator is was there before the first was converted
      have unnamed : ∀ X, B.native? = some X → X.number ≠ M.number := fun X native => by
        have := there X (by simp [natives, native])
        omega
      obtain ⟨apart, last⟩ := number_ne_of_convert? hB old unnamed
      refine ⟨M, rfl, number.ge, last, fun Y hY => ?_⟩
      obtain rfl : Z = Y := Option.some.inj hY
      exact apart
  | true =>
    rcases hB with ⟨rfl, rfl, -⟩ | ⟨B, Z, rfl, rfl, hB⟩
    · nomatch hop
    · obtain rfl : B = op := Option.some.inj hop
      obtain ⟨number, size⟩ := new_of_convert? hB host
      have grown := size_convert? hA
      have first := number_lt_of_convert? hA fun X native => there X (by simp [natives, native])
      refine ⟨Z, rfl, by omega, by omega, fun Y hY => ?_⟩
      obtain rfl : M = Y := Option.some.inj hY
      omega

lemma operands_setOperators (s : EigenSolver α) (l : Ledger) (A : Operator α)
    (B : Option (Operator α)) :
    (∃ e, (s.setOperators l A B).2 = .error e ∧ (s.setOperators l A B).1.1 = s) ∨
    ∃ M N, (s.setOperators l A B).2 = .ok () ∧ (convertAll? s.wrap l A B).2 = .ok (M, N) ∧
      (s.setOperators l A B).1.1.handle.A = some M ∧
      (s.setOperators l A B).1.1.handle.B = N := by
  have eq := s.setOperators_eq l A B
  revert eq
  cases hc : (convertAll? s.wrap l A B).2 with
  | error e =>
    intro eq
    exact .inl ⟨e, (Prod.mk.inj eq).2, (Prod.mk.inj eq).1⟩
  | ok MN =>
    obtain ⟨M, N⟩ := MN
    cases hs : s.handle.setOperators? M N with
    | error e =>
      simp only [hs]
      exact fun eq => .inl ⟨_, (Prod.mk.inj eq).2, (Prod.mk.inj eq).1⟩
    | ok h' =>
      simp only [hs]
      intro eq
      obtain ⟨-, -, rfl⟩ := Handle.setOperators?_eq_ok.1 hs
      exact .inr ⟨M, N, (Prod.mk.inj eq).2, rfl, by rw [(Prod.mk.inj eq).1]; rfl,
        by rw [(Prod.mk.inj eq).1]; rfl⟩

lemma size_setOperators : (s.setOperators l A B).1.2.counts.size =
    (convertAll? s.wrap l A B).1.counts.size := by
  unfold setOperators
  rcases convertAll? s.wrap l A B with ⟨l₁, e | ⟨M, N⟩⟩
  · rfl
  · rcases ha : s.handle.attach l₁ M N with ⟨⟨h', l₂⟩, r⟩
    have size : l₂.counts.size = l₁.counts.size := by
      have := Handle.size_attach (h := s.handle) (l := l₁) (A := M) (B := N)
      rwa [ha] at this
    have released : ((l₂.release M.number).releaseSlot N).counts.size = l₁.counts.size := by
      rw [Ledger.size_releaseSlot, Ledger.size_release, size]
    simp only [ha]
    cases r <;> exact released

lemma not_holds_of_setOperators {second : Bool} (old : n < l.counts.size)
    (unnamed : ∀ X ∈ natives A B, X.number ≠ n) (ok : (s.setOperators l A B).2 = .ok ()) :
    ¬(s.setOperators l A B).1.1.handle.Holds second n := by
  rcases operands_setOperators s l A B with ⟨e, eq, -⟩ | ⟨M, N, -, made, hA, hB⟩
  · exact nomatch eq.symm.trans ok
  · exact Handle.not_holds hA hB (number_ne_of_convertAll? made old unnamed)

section Step

variable [Kernels α] {o : Options} {c : Call α} {second : Bool}

lemma size_step : l.counts.size ≤ (s.step o l c).1.2.counts.size := by
  by_cases attaching : ∃ A B, c = .setOperators A B
  · obtain ⟨A, B, rfl⟩ := attaching
    exact Nat.le_trans size_convertAll? (Nat.le_of_eq size_setOperators.symm)
  · rcases ledger_step (s := s) (o := o) (l := l) fun A B eq => attaching ⟨A, B, eq⟩ with eq | eq
    · exact Nat.le_of_eq (by rw [eq])
    · exact Nat.le_of_eq (by rw [eq, Handle.size_dropped, Handle.size_retained])

lemma holds_step (old : n < l.counts.size)
    (unnamed : ∀ A B, c = .setOperators A B → ∀ M ∈ natives A B, M.number ≠ n)
    (holds : (s.step o l c).1.1.handle.Holds second n) : s.handle.Holds second n := by
  by_cases attaching : ∃ A B, c = .setOperators A B
  · obtain ⟨A, B, rfl⟩ := attaching
    change (s.setOperators l A B).1.1.handle.Holds second n at holds
    rcases operands_setOperators s l A B with ⟨e, -, eq⟩ | ⟨M, N, ok, -⟩
    · rwa [eq] at holds
    · exact absurd holds (not_holds_of_setOperators old (unnamed A B rfl) ok)
  · obtain ⟨hA, hB⟩ :=
      operands_step (s := s) (o := o) (l := l) fun A B eq => attaching ⟨A, B, eq⟩
    exact (Handle.holds_of_eq hA hB).1 holds

end Step

end EigenSolver

namespace Workspace

variable {w : Workspace α} {k name : String} {second : Bool}

/-- The matrix of that number is the operand in one of the two places of the solver of that
name. -/
def Holds (w : Workspace α) (name : String) (second : Bool) (n : ℕ) : Prop :=
  ∃ slot, w.slot? name = some slot ∧ slot.package.Holds second n

/-- The call replaces the operands of the solver of that name, or drops it. -/
def Call.replaces (name : String) : Call α → Bool
  | .newSolver k _ _ | .newHandle k | .drop k | .solver k (.setOperators _ _)
  | .handle k (.setOperators _ _) => k = name
  | _ => false

lemma cases_of_replaces {c : Call α} (replaces : c.replaces name = true) :
    c.drops = some name ∨ (∃ A B, c = .solver name (.setOperators A B)) ∨
      ∃ A B, c = .handle name (.setOperators A B) := by
  cases c with
  | newSolver k | newHandle k | drop k => exact .inl (congrArg some (of_decide_eq_true replaces))
  | solver k call =>
    cases call with
    | setOperators A B =>
      obtain rfl := of_decide_eq_true replaces
      exact .inr (.inl ⟨A, B, rfl⟩)
    | _ => nomatch replaces
  | handle k call =>
    cases call with
    | setOperators A B =>
      obtain rfl := of_decide_eq_true replaces
      exact .inr (.inr ⟨A, B, rfl⟩)
    | _ => nomatch replaces
  | _ => nomatch replaces

variable [Scalar α]

lemma size_dropSlot : (w.dropSlot name).ledger.counts.size = w.ledger.counts.size := by
  unfold dropSlot
  cases w.slot? name with
  | none => rfl
  | some slot => cases slot <;> exact Handle.size_dropped

omit [Scalar α] in
lemma not_holds_new {slot : Slot α}
    (new : slot = .handle .fresh ∨ ∃ family wrap, slot = .solver (.fresh family wrap)) :
    ¬slot.package.Holds second n := by
  rintro ⟨M, there, -⟩
  rcases new with rfl | ⟨family, wrap, rfl⟩ <;> cases second <;> cases there

lemma holds_dropSlot (holds : (w.dropSlot name).Holds k second n) :
    k ≠ name ∧ w.Holds k second n := by
  obtain ⟨slot, there, holds⟩ := holds
  rw [slot?_dropSlot] at there
  split at there
  · cases there
  · rename_i other
    exact ⟨other, slot, there, holds⟩

variable [Kernels α] {c : Call α}

lemma size_step : w.ledger.counts.size ≤ (w.step c).1.ledger.counts.size := by
  have change := w.change_step c
  generalize (w.step c).2.isOk = ok, (w.step c).1 = w' at change
  cases change with
  | kept ledger => exact Nat.le_of_eq (by rw [ledger])
  | @made _ _ session => exact Nat.le_of_eq (size_dropSlot (w := { w with session })).symm
  | dropped => exact Nat.le_of_eq size_dropSlot.symm
  | solver => exact EigenSolver.size_step
  | handle => exact Nat.le_of_eq Handle.size_step.symm

lemma holds_step (old : n < w.ledger.counts.size) (unnamed : ∀ M ∈ c.natives, M.number ≠ n)
    (holds : (w.step c).1.Holds k second n) : w.Holds k second n := by
  have change := w.change_step c
  generalize (w.step c).2.isOk = ok, (w.step c).1 = w' at change holds
  cases change with
  | kept _ slots =>
    obtain ⟨slot, there, holds⟩ := holds
    exact ⟨slot, (congrArg (List.lookup k) slots).symm.trans there, holds⟩
  | @made _ name session slot _ new =>
    obtain ⟨slot', there, holds⟩ := holds
    rw [slot?_addSlot] at there
    split at there
    · obtain rfl := Option.some.inj there
      exact absurd holds (not_holds_new new)
    · exact ⟨slot', there, holds⟩
  | dropped => exact (holds_dropSlot holds).2
  | @solver name s call here =>
    obtain ⟨slot', there, holds⟩ := holds
    rw [slot?, lookup_putSlot] at there
    split at there
    · rename_i same
      subst same
      obtain rfl := Option.some.inj there
      exact ⟨_, here, EigenSolver.holds_step old (fun A B eq => by subst eq; exact unnamed) holds⟩
    · exact ⟨slot', there, holds⟩
  | @handle name h call here =>
    obtain ⟨slot', there, holds⟩ := holds
    rw [slot?, lookup_putSlot] at there
    split at there
    · rename_i same
      subst same
      obtain rfl := Option.some.inj there
      exact ⟨_, here, Handle.holds_step (fun A B eq => by subst eq; exact unnamed) holds⟩
    · exact ⟨slot', there, holds⟩

omit [Scalar α] [Kernels α] in
lemma eq_ok_of_answered {E : Type} {r : Except E Unit}
    (ok : (answered r fun _ => Reply.done : Except (SolveFailure E) (Reply α)).isOk = true) :
    r = .ok () := by
  cases r with
  | error e => nomatch ok
  | ok u => rfl

omit [Scalar α] [Kernels α] in
lemma holds_putSlot (slot : Slot α) {w' : Workspace α}
    (slots : w'.slots = putSlot name slot w.slots) (holds : w'.Holds name second n) :
    slot.package.Holds second n := by
  obtain ⟨slot', there, holds⟩ := holds
  rw [slot?, slots, lookup_putSlot, if_pos rfl] at there
  obtain rfl := Option.some.inj there
  exact holds

lemma not_holds_of_replaces (old : n < w.ledger.counts.size)
    (unnamed : ∀ M ∈ c.natives, M.number ≠ n) (replaces : c.replaces name = true)
    (succeeds : (w.step c).2.isOk = true) : ¬(w.step c).1.Holds name second n := by
  have change := w.change_step c
  generalize (w.step c).2.isOk = ok, (w.step c).1 = w' at change succeeds
  intro holds
  rcases cases_of_replaces replaces with drops | ⟨A, B, rfl⟩ | ⟨A, B, rfl⟩
  · cases change with
    | kept _ _ none => exact nomatch (none succeeds).symm.trans drops
    | made drops' new =>
      obtain rfl := Option.some.inj (drops'.symm.trans drops)
      exact not_holds_new new (holds_putSlot _ rfl holds)
    | dropped there =>
      obtain rfl := Option.some.inj drops
      exact (holds_dropSlot holds).1 rfl
    | solver => nomatch drops
    | handle => nomatch drops
  · cases change with
    | kept _ _ _ calls => exact (calls succeeds name).1 _ rfl
    | made drops' => nomatch drops'
    | @solver _ s =>
      have held := holds_putSlot (.solver (s.setOperators w.ledger A B).1.1) rfl holds
      exact EigenSolver.not_holds_of_setOperators old unnamed (eq_ok_of_answered succeeds) held
  · cases change with
    | kept _ _ _ calls => exact (calls succeeds name).2 _ rfl
    | made drops' => nomatch drops'
    | @handle _ h =>
      have held := holds_putSlot (.handle (h.attach w.ledger A B).1.1) rfl holds
      exact Handle.not_holds_of_setOperators unnamed (eq_ok_of_answered succeeds) held

end Workspace

end Eigenmesh
