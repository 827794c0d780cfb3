import Mathlib.Data.Nat.Notation
import Mathlib.Logic.Relation
import Mathlib.Tactic.Common
import Eigenmesh.Solver.Handle

/-!
What may change about a handle between two solves.

Every way of saying how a problem is to be solved is an adjustment of the handle. The runtime
options are no further way: applied in full or broken off by an error, they amount to a sequence
of adjustments, and the only tolerance and iteration limit among them are those that the options
give. Adjustments leave the matrices and the stored solution alone.
-/

namespace Eigenmesh.Handle

variable {α : Type}

/-- The handles have the same matrices, the same solution and the same options to look for. -/
structure SameProblem (h h' : Handle α) : Prop where
  family : h'.family = h.family
  A : h'.A = h.A
  B : h'.B = h.B
  solution : h'.solution = h.solution
  reason : h'.reason = h.reason

lemma SameProblem.refl (h : Handle α) : SameProblem h h := ⟨rfl, rfl, rfl, rfl, rfl⟩

lemma SameProblem.trans {h₁ h₂ h₃ : Handle α} (a : SameProblem h₁ h₂) (b : SameProblem h₂ h₃) :
    SameProblem h₁ h₃ :=
  ⟨b.family.trans a.family, b.A.trans a.A, b.B.trans a.B, b.solution.trans a.solution,
    b.reason.trans a.reason⟩

variable [Scalar α] {h h' : Handle α}

/-! ### When a setting is accepted -/

lemma setWanted?_eq_ok {n : ℕ} :
    h.setWanted? n = .ok h' ↔ 0 < n ∧ h' = { h with wanted := n } := by
  unfold setWanted?
  split
  · simp only [reduceCtorEq, false_iff]
    omega
  · rename_i hn
    rw [Except.ok.injEq]
    exact ⟨fun e => ⟨by omega, e.symm⟩, fun e => e.2.symm⟩

lemma setTarget?_eq_ok {x : α} :
    h.setTarget? x = .ok h' ↔ Scalar.isFinite x = true ∧ h' = { h with target := some x } := by
  unfold setTarget?
  split
  · rename_i hx
    rw [Except.ok.injEq]
    exact ⟨fun e => ⟨hx, e.symm⟩, fun e => e.2.symm⟩
  · rename_i hx
    simp only [reduceCtorEq, false_iff]
    exact fun e => hx e.1

lemma setShift?_eq_ok {x : α} :
    h.setShift? x = .ok h' ↔ Scalar.isFinite x = true ∧
      h' = { h with transform := { h.transform with shift := some x } } := by
  unfold setShift? Transform.setShift?
  split
  · rename_i hx
    simp only [Except.map, Except.ok.injEq]
    exact ⟨fun e => ⟨hx, e.symm⟩, fun e => e.2.symm⟩
  · rename_i hx
    simp only [Except.map, reduceCtorEq, false_iff]
    exact fun e => hx e.1

lemma setTolerances?_eq_ok {t : Option α} {m : Option ℕ} :
    h.setTolerances? t m = .ok h' ↔ (∀ x, t = some x → 0 < x) ∧ m ≠ some 0 ∧
      h' = { h with
        tolerance := t.or h.tolerance
        maxIterations := m.or h.maxIterations } := by
  have limit : ∀ h'' : Handle α,
      (do if m = some 0 then throw (Fault.noIterations : Fault α).error
          return h'' : Except PackageError (Handle α)) = .ok h' ↔ m ≠ some 0 ∧ h' = h'' := by
    intro h''
    by_cases hm : m = some 0
    · simp [hm, bind, Except.bind, throw, throwThe, MonadExceptOf.throw]
    · simp [hm, pure, Except.pure, eq_comm]
  unfold setTolerances?
  cases t with
  | none => simpa using limit _
  | some x =>
    by_cases hx : 0 < x
    · simpa [hx] using limit _
    · simp [hx, bind, Except.bind, throw, throwThe, MonadExceptOf.throw]

/-! ### Adjustments -/

/-- One change of how the problem is to be solved. Tolerance and iteration limit are sent together,
and `sent` says which ones may be. -/
inductive Adjusts (sent : Option α → Option ℕ → Prop) (h : Handle α) : Handle α → Prop
  | wanted {n : ℕ} {h' : Handle α} (ok : h.setWanted? n = .ok h') : Adjusts sent h h'
  | tolerances {t : Option α} {m : Option ℕ} {h' : Handle α} (given : sent t m)
      (ok : h.setTolerances? t m = .ok h') : Adjusts sent h h'
  | target {x : α} {h' : Handle α} (ok : h.setTarget? x = .ok h') : Adjusts sent h h'
  | shift {x : α} {h' : Handle α} (ok : h.setShift? x = .ok h') : Adjusts sent h h'
  | which (which : Which) : Adjusts sent h { h with which }
  | problem (problem : ProblemType) : Adjusts sent h { h with problem := some problem }
  | solver (solver : SolverType) : Adjusts sent h { h with solver }
  | transform (type : TransformType) :
      Adjusts sent h { h with transform := { h.transform with type } }
  | view (viewRequested : Bool) : Adjusts sent h { h with viewRequested }

/-- The handle after some adjustments, with any tolerances. -/
def Adjusted : Handle α → Handle α → Prop := Relation.ReflTransGen (Adjusts fun _ _ => True)

lemma Adjusts.mono {sent sent' : Option α → Option ℕ → Prop} (hs : ∀ t m, sent t m → sent' t m)
    (a : Adjusts sent h h') : Adjusts sent' h h' := by
  cases a with
  | wanted ok => exact .wanted ok
  | tolerances given ok => exact .tolerances (hs _ _ given) ok
  | target ok => exact .target ok
  | shift ok => exact .shift ok
  | which w => exact .which w
  | problem p => exact .problem p
  | solver s => exact .solver s
  | transform t => exact .transform t
  | view v => exact .view v

lemma Adjusts.sameProblem {sent : Option α → Option ℕ → Prop} (a : Adjusts sent h h') :
    SameProblem h h' := by
  cases a with
  | wanted ok => obtain ⟨-, rfl⟩ := setWanted?_eq_ok.1 ok; exact ⟨rfl, rfl, rfl, rfl, rfl⟩
  | tolerances _ ok =>
    obtain ⟨-, -, rfl⟩ := setTolerances?_eq_ok.1 ok; exact ⟨rfl, rfl, rfl, rfl, rfl⟩
  | target ok => obtain ⟨-, rfl⟩ := setTarget?_eq_ok.1 ok; exact ⟨rfl, rfl, rfl, rfl, rfl⟩
  | shift ok => obtain ⟨-, rfl⟩ := setShift?_eq_ok.1 ok; exact ⟨rfl, rfl, rfl, rfl, rfl⟩
  | which w => exact ⟨rfl, rfl, rfl, rfl, rfl⟩
  | problem p => exact ⟨rfl, rfl, rfl, rfl, rfl⟩
  | solver s => exact ⟨rfl, rfl, rfl, rfl, rfl⟩
  | transform t => exact ⟨rfl, rfl, rfl, rfl, rfl⟩
  | view v => exact ⟨rfl, rfl, rfl, rfl, rfl⟩

lemma Adjusted.sameProblem (a : Adjusted h h') : SameProblem h h' := by
  induction a with
  | refl => exact .refl _
  | tail _ step ih => exact ih.trans step.sameProblem

/-! ### Runtime options -/

namespace Update

variable {β γ : Type} {sent : Option α → Option ℕ → Prop}

/-- Whether it succeeds or breaks off, the update makes adjustments only. -/
def Adjusting (sent : Option α → Option ℕ → Prop) (m : Update α β) : Prop :=
  ∀ h : Handle α, Relation.ReflTransGen (Adjusts sent) h (m.run h).2

lemma Adjusting.pure (x : β) : Adjusting sent (Pure.pure x : Update α β) :=
  fun _ => .refl

lemma Adjusting.throw (e : PackageError) : Adjusting sent (throw e : Update α β) :=
  fun _ => .refl

lemma Adjusting.lift (r : Except PackageError β) : Adjusting sent (liftM r : Update α β) := by
  intro h
  cases r <;> exact .refl

omit [Scalar α] in
lemma run_bind (m : Update α β) (f : β → Update α γ) (h : Handle α) :
    (m >>= f).run h = match m.run h with
      | (.ok x, h') => (f x).run h'
      | (.error e, h') => (.error e, h') := by
  rw [ExceptT.run_bind]
  change StateT.bind m.run _ h = _
  simp only [StateT.bind, bind]
  rcases m.run h with ⟨_ | x, h'⟩ <;> rfl

lemma Adjusting.bind {m : Update α β} {f : β → Update α γ} (hm : Adjusting sent m)
    (hf : ∀ x, Adjusting sent (f x)) : Adjusting sent (m >>= f) := by
  intro h
  have first := hm h
  rw [run_bind]
  rcases hr : m.run h with ⟨_ | x, h'⟩
  · rw [hr] at first
    exact first
  · rw [hr] at first
    exact first.trans (hf x h')

lemma Adjusting.modify {f : Handle α → Handle α} (hf : ∀ h, Adjusts sent h (f h)) :
    Adjusting sent (modify f : Update α PUnit) :=
  fun h => .single (hf h)

lemma Adjusting.update {routine : String} {f : Handle α → Except PackageError (Handle α)}
    (hf : ∀ h h', f h = .ok h' → Adjusts sent h h') : Adjusting sent (update routine f) := by
  intro h
  simp only [Handle.update, ExceptT.run]
  split
  · rename_i h' hr
    exact .single (hf h h' hr)
  · exact .refl

lemma Adjusting.forM {f : β → Update α PUnit} (hf : ∀ x, Adjusting sent (f x)) :
    ∀ l : List β, Adjusting sent (l.forM f)
  | [] => .pure _
  | x :: l => .bind (hf x) fun _ => .forM hf l

section Stages

variable {β : Type} {o : Options} {family : String}

lemma adjusting_applyValue {read : String → Option β} {option routine : String}
    {f : Handle α → β → Except PackageError (Handle α)}
    (hf : ∀ h x h', f h x = .ok h' → Adjusts sent h h') :
    Adjusting sent (applyValue o family read option routine f) := by
  refine .bind (.lift _) fun x => ?_
  cases x with
  | none => exact .pure _
  | some x => exact .update fun h h' ok => hf h x h' ok

lemma adjusting_applyFlags {choices : List β} {flag : β → String}
    {f : Handle α → β → Handle α} (hf : ∀ h x, Adjusts sent h (f h x)) :
    Adjusting sent (applyFlags o family choices flag f) := by
  refine .forM (fun c => .bind (.lift _) fun b => ?_) choices
  split
  · exact .modify fun h => hf h c
  · exact .pure _

lemma adjusting_applyName {option : String} {ofName? : String → Option β}
    {unknown : String → Fault α} {f : Handle α → β → Handle α}
    (hf : ∀ h x, Adjusts sent h (f h x)) :
    Adjusting sent (applyName o family option ofName? unknown f) := by
  unfold Handle.applyName
  split
  · split
    · rename_i c _
      exact .modify fun h => hf h c
    · exact .throw _
  · exact .pure _

end Stages

end Update

/-- The tolerance and iteration limit that options give. -/
def Gives (o : Options) (family : String) (t : Option α) (m : Option ℕ) : Prop :=
  o.value? Scalar.read? family "eps_tol" = .ok t ∧ o.value? Decimal.size? family "eps_max_it" = .ok m

lemma Update.adjusting_applyTolerances {o : Options} {family : String} :
    Adjusting (Gives o family) (applyTolerances o family : Update α Unit) := by
  intro h
  unfold Handle.applyTolerances
  cases ht : (o.value? Scalar.read? family "eps_tol" : Except PackageError (Option α)) with
  | error e => exact .refl
  | ok t =>
    cases hm : o.value? Decimal.size? family "eps_max_it" with
    | error e => exact .refl
    | ok m =>
      have sends : Adjusting (Gives o family)
          (update "Eps::set_tolerances" (·.setTolerances? t m) : Update α Unit) :=
        .update fun h h' ok => .tolerances ⟨ht, hm⟩ ok
      exact sends h

/-- The family is read before the first stage, so it is the same in all of them. -/
lemma setFromOptions_eq (h : Handle α) (o : Options) :
    h.setFromOptions o =
      (((applyFamily o h.family).run h).2,
        ((applyFamily o h.family).run h).1.mapError (·.via "Eps::set_from_options")) :=
  rfl

/-- **The runtime options make adjustments only**, also when they break off. -/
theorem setFromOptions_adjusts (h : Handle α) (o : Options) :
    Relation.ReflTransGen (Adjusts (Gives o h.family)) h (h.setFromOptions o).1 := by
  suffices stages : Update.Adjusting (Gives o h.family) (applyFamily o h.family) from stages h
  refine .bind (Update.adjusting_applyValue fun _ _ _ ok => .wanted ok) fun _ => ?_
  refine .bind Update.adjusting_applyTolerances fun _ => ?_
  refine .bind (Update.adjusting_applyValue fun _ _ _ ok => .target ok) fun _ => ?_
  refine .bind (Update.adjusting_applyFlags fun _ which => .which which) fun _ => ?_
  refine .bind (Update.adjusting_applyFlags fun _ problem => .problem problem) fun _ => ?_
  refine .bind (Update.adjusting_applyName fun _ solver => .solver solver) fun _ => ?_
  refine .bind (Update.adjusting_applyName fun _ type => .transform type) fun _ => ?_
  refine .bind (Update.adjusting_applyValue fun _ _ _ ok => .shift ok) fun _ => ?_
  refine .bind (.lift _) fun viewRequested => ?_
  cases viewRequested with
  | none => exact .pure _
  | some v => exact .modify fun _ => .view v

lemma Gives.unique {o : Options} {family : String} {t t' : Option α} {m m' : Option ℕ}
    (g : Gives o family t m) (g' : Gives o family t' m') : t = t' ∧ m = m' :=
  ⟨Except.ok.inj (g.1.symm.trans g'.1), Except.ok.inj (g.2.symm.trans g'.2)⟩

lemma tolerances_of_gives {o : Options} {family : String}
    (a : Relation.ReflTransGen (Adjusts (Gives o family)) h h') :
    ∃ t m, (Gives o family t m ∨ t = none ∧ m = none) ∧ h'.tolerance = t.or h.tolerance ∧
      h'.maxIterations = m.or h.maxIterations := by
  induction a with
  | refl => exact ⟨none, none, .inr ⟨rfl, rfl⟩, rfl, rfl⟩
  | @tail h₁ h₂ _ step ih =>
    obtain ⟨t, m, given, ht, hm⟩ := ih
    cases step with
    | wanted ok => obtain ⟨-, rfl⟩ := setWanted?_eq_ok.1 ok; exact ⟨t, m, given, ht, hm⟩
    | @tolerances t' m' _ given' ok =>
      obtain ⟨-, -, rfl⟩ := setTolerances?_eq_ok.1 ok
      -- the options give one pair of values, so sending them again changes nothing
      refine ⟨t', m', .inl given', ?_, ?_⟩
      · change t'.or h₁.tolerance = _
        rcases given with given | ⟨rfl, -⟩
        · obtain rfl := (given.unique given').1
          rw [ht, ← Option.or_assoc, Option.or_self]
        · rw [ht, Option.none_or]
      · change m'.or h₁.maxIterations = _
        rcases given with given | ⟨-, rfl⟩
        · obtain rfl := (given.unique given').2
          rw [hm, ← Option.or_assoc, Option.or_self]
        · rw [hm, Option.none_or]
    | target ok => obtain ⟨-, rfl⟩ := setTarget?_eq_ok.1 ok; exact ⟨t, m, given, ht, hm⟩
    | shift ok => obtain ⟨-, rfl⟩ := setShift?_eq_ok.1 ok; exact ⟨t, m, given, ht, hm⟩
    | which w => exact ⟨t, m, given, ht, hm⟩
    | problem p => exact ⟨t, m, given, ht, hm⟩
    | solver s => exact ⟨t, m, given, ht, hm⟩
    | transform t => exact ⟨_, m, given, ht, hm⟩
    | view v => exact ⟨t, m, given, ht, hm⟩

lemma adjusted_of_adjusts {sent : Option α → Option ℕ → Prop}
    (a : Relation.ReflTransGen (Adjusts sent) h h') : Adjusted h h' := by
  have weaken : (Adjusts sent : Handle α → Handle α → Prop) ≤ Adjusts fun _ _ => True :=
    fun _ _ a => a.mono fun _ _ _ => trivial
  exact Relation.ReflTransGen.mono weaken _ _ a

lemma setFromOptions_adjusted (h : Handle α) (o : Options) :
    Adjusted h (h.setFromOptions o).1 :=
  adjusted_of_adjusts (setFromOptions_adjusts h o)

end Eigenmesh.Handle
