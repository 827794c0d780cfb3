import Mathlib.Data.Nat.Notation
import Mathlib.Tactic.Common
import Eigenmesh.Proofs.Handle.Adjustment

/-!
What settings depend on.

Saying how a problem is to be solved has nothing to do with which problem it is. Whether a setting
is accepted and what it changes is the same for any matrices and any stored solution, and so is
what the runtime options do, in full or broken off.
-/

namespace Eigenmesh.Handle

variable {α : Type}

/-- The settings of `h`, with the matrices and the solution of `k`. -/
def withProblem (h k : Handle α) : Handle α :=
  { h with A := k.A, B := k.B, solution := k.solution, reason := k.reason }

/-- The change is made whatever the problem is, and leaves the problem alone. -/
def IsSetting (f : Handle α → Except PackageError (Handle α)) : Prop :=
  ∀ h k, f (h.withProblem k) = (f h).map (·.withProblem k)

variable [Scalar α]

lemma isSetting_setWanted? (n : ℕ) : IsSetting (α := α) (·.setWanted? n) := by
  intro h k
  unfold setWanted?
  split <;> rfl

lemma isSetting_setTarget? (x : α) : IsSetting (·.setTarget? x) := by
  intro h k
  unfold setTarget?
  split <;> rfl

lemma isSetting_setShift? (x : α) : IsSetting (·.setShift? x) := by
  intro h k
  change (h.transform.setShift? x).map _ = ((h.transform.setShift? x).map _).map _
  cases h.transform.setShift? x <;> rfl

lemma isSetting_setTolerances? (t : Option α) (m : Option ℕ) :
    IsSetting (·.setTolerances? t m) := by
  intro h k
  simp only [setTolerances?]
  by_cases limit : m = some 0
  · cases t with
    | none => simp only [limit]; rfl
    | some x => by_cases hx : 0 < x <;> · simp only [limit, hx]; rfl
  · cases t with
    | none => simp only [limit]; rfl
    | some x => by_cases hx : 0 < x <;> · simp only [limit, hx]; rfl

namespace Update

variable {β γ : Type}

/-- The update is made whatever the problem is, and leaves the problem alone. -/
def Indifferent (m : Update α β) : Prop :=
  ∀ h k : Handle α, m.run (h.withProblem k) = ((m.run h).1, (m.run h).2.withProblem k)

omit [Scalar α]

lemma Indifferent.pure (x : β) : Indifferent (Pure.pure x : Update α β) := fun _ _ => rfl

lemma Indifferent.throw (e : PackageError) : Indifferent (throw e : Update α β) := fun _ _ => rfl

lemma Indifferent.lift (r : Except PackageError β) : Indifferent (liftM r : Update α β) := by
  intro h k
  cases r <;> rfl

lemma Indifferent.modify {f : Handle α → Handle α}
    (hf : ∀ h k, f (h.withProblem k) = (f h).withProblem k) :
    Indifferent (modify f : Update α PUnit) :=
  fun h k => congrArg (Prod.mk _) (hf h k)

lemma Indifferent.update {routine : String} {f : Handle α → Except PackageError (Handle α)}
    (hf : IsSetting f) : Indifferent (update routine f) := by
  intro h k
  simp only [Handle.update, ExceptT.run, hf h k]
  cases f h <;> rfl

lemma Indifferent.bind {m : Update α β} {f : β → Update α γ} (hm : Indifferent m)
    (hf : ∀ x, Indifferent (f x)) : Indifferent (m >>= f) := by
  intro h k
  rw [run_bind, run_bind, hm h k]
  rcases m.run h with ⟨_ | x, h'⟩
  · rfl
  · exact hf x h' k

lemma Indifferent.forM {f : β → Update α PUnit} (hf : ∀ x, Indifferent (f x)) :
    ∀ l : List β, Indifferent (l.forM f)
  | [] => .pure _
  | x :: l => .bind (hf x) fun _ => .forM hf l

section Stages

variable {o : Options} {family : String}

lemma indifferent_applyValue {read : String → Option β} {option routine : String}
    {f : Handle α → β → Except PackageError (Handle α)} (hf : ∀ x, IsSetting (f · x)) :
    Indifferent (applyValue o family read option routine f) := by
  refine .bind (.lift _) fun x => ?_
  cases x with
  | none => exact .pure _
  | some x => exact .update (hf x)

lemma indifferent_applyFlags {choices : List β} {flag : β → String} {f : Handle α → β → Handle α}
    (hf : ∀ h k x, f (h.withProblem k) x = (f h x).withProblem k) :
    Indifferent (applyFlags o family choices flag f) := by
  refine .forM (fun c => .bind (.lift _) fun b => ?_) choices
  split
  · exact .modify fun h k => hf h k c
  · exact .pure _

lemma indifferent_applyName [Scalar α] {option : String} {ofName? : String → Option β}
    {unknown : String → Fault α} {f : Handle α → β → Handle α}
    (hf : ∀ h k x, f (h.withProblem k) x = (f h x).withProblem k) :
    Indifferent (applyName o family option ofName? unknown f) := by
  unfold Handle.applyName
  split
  · split
    · rename_i c _
      exact .modify fun h k => hf h k c
    · exact .throw _
  · exact .pure _

end Stages

lemma indifferent_applyFamily [Scalar α] (o : Options) (family : String) :
    Indifferent (applyFamily o family : Update α Unit) := by
  unfold applyFamily
  refine .bind (indifferent_applyValue isSetting_setWanted?) fun _ => ?_
  refine .bind (.bind (.lift _) fun t => .bind (.lift _) fun m =>
    .update (isSetting_setTolerances? t m)) fun _ => ?_
  refine .bind (indifferent_applyValue isSetting_setTarget?) fun _ => ?_
  refine .bind (indifferent_applyFlags fun _ _ _ => rfl) fun _ => ?_
  refine .bind (indifferent_applyFlags fun _ _ _ => rfl) fun _ => ?_
  refine .bind (indifferent_applyName fun _ _ _ => rfl) fun _ => ?_
  refine .bind (indifferent_applyName fun _ _ _ => rfl) fun _ => ?_
  refine .bind (indifferent_applyValue isSetting_setShift?) fun _ => ?_
  refine .bind (.lift _) fun viewRequested => ?_
  cases viewRequested with
  | none => exact .pure _
  | some v => exact .modify fun _ _ => rfl

end Update

lemma setFromOptions_withProblem (h k : Handle α) (o : Options) :
    (h.withProblem k).setFromOptions o =
      ((h.setFromOptions o).1.withProblem k, (h.setFromOptions o).2) := by
  have family : (h.withProblem k).family = h.family := rfl
  rw [setFromOptions_eq, setFromOptions_eq, family, Update.indifferent_applyFamily o h.family h k]

end Eigenmesh.Handle
