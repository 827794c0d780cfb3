import Mathlib.Data.Nat.Notation
import Mathlib.Tactic.Common
import Eigenmesh.Custody
import Eigenmesh.Proofs.EigenSolver.Run

/-!
Counts that agree with a list of the handles there are.

Every handle on a native matrix is an entry of a list, whoever holds it. The ledger is balanced if
it counts each matrix as often as the list has a handle on it. What a call does to the ledger is
then told by what it does to the list: handles come and go at its head, and their order does not
matter.
-/

namespace Eigenmesh

namespace Ledger

variable {α : Type} {l l' : Ledger} {n m : ℕ}

/-! ### Counts -/

lemma count_eq_zero (h : l.counts.size ≤ n) : l.count n = 0 := by
  unfold count
  rw [Array.getD_eq_getD_getElem?, Array.getElem?_eq_none h]
  rfl

lemma lt_size (h : 0 < l.count n) : n < l.counts.size := by
  by_contra le
  rw [count_eq_zero (Nat.le_of_not_lt le)] at h
  exact Nat.lt_irrefl 0 h

lemma count_retain_of_lt (size : m < l.counts.size) :
    (l.retain m).count n = l.count n + if m = n then 1 else 0 := by
  unfold count retain
  rw [Array.getD_eq_getD_getElem?, Array.getD_eq_getD_getElem?, Array.getElem?_modify]
  split
  · rename_i same
    subst same
    rw [Array.getElem?_eq_getElem size]
    rfl
  · rfl

lemma count_retain (held : 0 < l.count m) :
    (l.retain m).count n = l.count n + if m = n then 1 else 0 :=
  count_retain_of_lt (lt_size held)

lemma retain_of_le (size : l.counts.size ≤ m) : l.retain m = l := by
  refine congrArg Ledger.mk (Array.ext_getElem? fun i => ?_)
  rw [Array.getElem?_modify]
  split
  · rename_i same
    rw [← same, Array.getElem?_eq_none size]
    rfl
  · rfl

lemma count_release : (l.release m).count n = l.count n - if m = n then 1 else 0 := by
  unfold count release
  rw [Array.getD_eq_getD_getElem?, Array.getD_eq_getD_getElem?, Array.getElem?_modify]
  split
  · cases l.counts[n]? <;> rfl
  · rfl

lemma count_create : l.create.2.count n = l.count n + if l.create.1 = n then 1 else 0 := by
  unfold count create
  rw [Array.getD_eq_getD_getElem?, Array.getD_eq_getD_getElem?, Array.getElem?_push]
  by_cases new : n = l.counts.size
  · rw [if_pos new, if_pos new.symm, Array.getElem?_eq_none (Nat.le_of_eq new.symm)]
    rfl
  · rw [if_neg new, if_neg (Ne.symm new)]
    rfl

/-! ### Balance -/

/-- How many of the handles are on the matrix of that number. -/
def tally (n : ℕ) (holders : List (Mat α)) : ℕ := holders.countP (·.number = n)

/-- Every matrix is counted as often as there are handles on it. -/
def Balanced (l : Ledger) (holders : List (Mat α)) : Prop := ∀ n, l.count n = tally n holders

variable {M : Mat α} {holders holders' : List (Mat α)}

lemma tally_cons : tally n (M :: holders) = tally n holders + if M.number = n then 1 else 0 := by
  simp [tally, List.countP_cons]

lemma tally_append : tally n (holders ++ holders') = tally n holders + tally n holders' :=
  List.countP_append

lemma balanced_empty : Balanced empty ([] : List (Mat α)) := fun _ => rfl

lemma Balanced.congr (b : l.Balanced holders) (h : ∀ n, tally n holders = tally n holders') :
    l.Balanced holders' :=
  fun n => (b n).trans (h n)

lemma Balanced.pos_of_mem (b : l.Balanced holders) (h : M ∈ holders) : 0 < l.count M.number := by
  rw [b]
  exact List.countP_pos_iff.2 ⟨M, h, by simp⟩

lemma Balanced.create (b : l.Balanced holders) (h : M.number = l.create.1) :
    l.create.2.Balanced (M :: holders) := by
  intro n
  rw [count_create, tally_cons, b, h]

lemma Balanced.retain (b : l.Balanced holders) (held : 0 < l.count M.number) :
    (l.retain M.number).Balanced (M :: holders) := by
  intro n
  rw [count_retain held, tally_cons, b]

lemma Balanced.release (b : l.Balanced (M :: holders)) : (l.release M.number).Balanced holders := by
  intro n
  rw [count_release, b, tally_cons, Nat.add_sub_cancel]

lemma Balanced.retainSlot {B : Option (Mat α)} (b : l.Balanced holders)
    (held : ∀ M, B = some M → 0 < l.count M.number) :
    (l.retainSlot B).Balanced (B.toList ++ holders) := by
  cases B with
  | none => exact b
  | some M => exact b.retain (held M rfl)

lemma Balanced.releaseSlot {B : Option (Mat α)} (b : l.Balanced (B.toList ++ holders)) :
    (l.releaseSlot B).Balanced holders := by
  cases B with
  | none => exact b
  | some M => exact b.release

end Ledger

/-! ### Handles on problems -/

namespace Handle

variable {α : Type} [Scalar α] {h h' : Handle α} {l l' : Ledger} {A : Mat α} {B : Option (Mat α)}
  {others : List (Mat α)}

omit [Scalar α] in
/-- The matrices that the handle holds, once for each place where it holds them. -/
def matrices (h : Handle α) : List (Mat α) := h.A.toList ++ h.B.toList

omit [Scalar α] in
lemma matrices_of_eq {h h' : Handle α} (hA : h'.A = h.A) (hB : h'.B = h.B) :
    h'.matrices = h.matrices := by
  rw [matrices, matrices, hA, hB]

lemma matrices_of_setOperators? (ok : h.setOperators? A B = .ok h') :
    h'.matrices = A :: B.toList := by
  obtain ⟨-, -, rfl⟩ := setOperators?_eq_ok.1 ok
  rfl

omit [Scalar α] in
lemma balanced_dropped (b : l.Balanced (h.matrices ++ others)) : (h.dropped l).Balanced others := by
  rw [matrices, List.append_assoc] at b
  exact b.releaseSlot.releaseSlot

omit [Scalar α] in
lemma balanced_retained (b : l.Balanced (h.matrices ++ others)) :
    (h.retained l).Balanced (h.matrices ++ (h.matrices ++ others)) := by
  have heldA : ∀ M, h.A = some M → 0 < l.count M.number := fun M hM =>
    b.pos_of_mem (by simp [matrices, hM])
  have heldB : ∀ M, h.B = some M → M ∈ h.A.toList ++ (h.matrices ++ others) := fun M hM => by
    simp [matrices, hM]
  have first := b.retainSlot heldA
  refine (first.retainSlot fun M hM => first.pos_of_mem (heldB M hM)).congr fun n => ?_
  simp only [matrices, Ledger.tally_append]
  omega

lemma balanced_attach (b : l.Balanced (h.matrices ++ others)) (heldA : 0 < l.count A.number)
    (heldB : ∀ M, B = some M → 0 < l.count M.number) :
    (h.attach l A B).1.2.Balanced ((h.attach l A B).1.1.matrices ++ others) := by
  unfold attach
  cases hs : h.setOperators? A B with
  | error e => exact b
  | ok h' =>
    have shared : ((l.retain A.number).retainSlot B).Balanced
        (h.matrices ++ (h'.matrices ++ others)) := by
      refine ((b.retain heldA).retainSlot fun M hM => ?_).congr fun n => ?_
      · rw [Ledger.count_retain heldA]
        exact Nat.lt_of_lt_of_le (heldB M hM) (Nat.le_add_right _ _)
      · simp only [matrices_of_setOperators? hs, Ledger.tally_append, Ledger.tally_cons]
        omega
    exact balanced_dropped shared

variable [Kernels α] {o : Options} {c : Call α}

lemma operands_step (attaching : ∀ A B, c ≠ .setOperators A B) :
    (h.step o l c).1.1.A = h.A ∧ (h.step o l c).1.1.B = h.B := by
  have settled : ∀ r : Except PackageError (Handle α),
      (∀ h', r = .ok h' → h'.A = h.A ∧ h'.B = h.B) →
      (settle h l r : _ × Except (SolveFailure PackageError) (Reply α)).1.1.A = h.A ∧
      (settle h l r : _ × Except (SolveFailure PackageError) (Reply α)).1.1.B = h.B := by
    intro r hr
    cases r with
    | error e => exact ⟨rfl, rfl⟩
    | ok h' => exact hr h' rfl
  cases c with
  | setOperators A B => exact absurd rfl (attaching A B)
  | setTolerances t m =>
    refine settled _ fun h' ok => ?_
    obtain ⟨-, -, rfl⟩ := setTolerances?_eq_ok.1 ok
    exact ⟨rfl, rfl⟩
  | setWanted n =>
    refine settled _ fun h' ok => ?_
    obtain ⟨-, rfl⟩ := setWanted?_eq_ok.1 ok
    exact ⟨rfl, rfl⟩
  | setTarget x =>
    refine settled _ fun h' ok => ?_
    obtain ⟨-, rfl⟩ := setTarget?_eq_ok.1 ok
    exact ⟨rfl, rfl⟩
  | setShift x =>
    refine settled _ fun h' ok => ?_
    obtain ⟨-, rfl⟩ := setShift?_eq_ok.1 ok
    exact ⟨rfl, rfl⟩
  | setFromOptions =>
    have same := (setFromOptions_adjusted h o).sameProblem
    exact ⟨same.A, same.B⟩
  | solve =>
    change h.solve.1.A = h.A ∧ h.solve.1.B = h.B
    rw [solve_frame]
    exact ⟨rfl, rfl⟩
  | _ => exact ⟨rfl, rfl⟩

lemma ledger_step (attaching : ∀ A B, c ≠ .setOperators A B) :
    (h.step o l c).1.2 = l ∨ (h.step o l c).1.2 = h.dropped (h.retained l) := by
  have settled : ∀ r : Except PackageError (Handle α),
      (settle h l r : _ × Except (SolveFailure PackageError) (Reply α)).1.2 = l := by
    intro r
    cases r <;> rfl
  cases c with
  | setOperators A B => exact absurd rfl (attaching A B)
  | setTolerances | setWanted | setTarget | setShift => exact .inl (settled _)
  | solve => exact .inr rfl
  | _ => exact .inl rfl

lemma balanced_step (b : l.Balanced (h.matrices ++ others))
    (held : ∀ A B, c = .setOperators A B → ∀ M ∈ A :: B.toList, 0 < l.count M.number) :
    (h.step o l c).1.2.Balanced ((h.step o l c).1.1.matrices ++ others) := by
  by_cases attaching : ∃ A B, c = .setOperators A B
  · obtain ⟨A, B, rfl⟩ := attaching
    exact balanced_attach b (held A B rfl A (by simp)) fun M hM => held A B rfl M (by simp [hM])
  · have attaching : ∀ A B, c ≠ .setOperators A B := fun A B eq => attaching ⟨A, B, eq⟩
    obtain ⟨hA, hB⟩ := operands_step (h := h) (o := o) (l := l) attaching
    rw [matrices_of_eq hA hB]
    rcases ledger_step (h := h) (o := o) (l := l) attaching with eq | eq
    · rwa [eq]
    · rw [eq]
      exact balanced_dropped (balanced_retained b)

end Handle

namespace EigenSolver

variable {α : Type} [Scalar α] {s : EigenSolver α} {l l' : Ledger} {op A : Operator α}
  {B : Option (Operator α)} {others : List (Mat α)}

lemma balanced_convert? {wrap : Bool} {operand : String} {M : Mat α} (b : l.Balanced others)
    (held : ∀ M, op.native? = some M → 0 < l.count M.number)
    (ok : convert? wrap l op operand = .ok (M, l')) : l'.Balanced (M :: others) := by
  unfold convert? at ok
  split at ok
  · cases ok
  · cases op with
    | native N =>
      obtain ⟨rfl, rfl⟩ := Prod.mk.inj (Except.ok.inj ok)
      exact b.retain (held N rfl)
    | _ =>
      cases wrap <;>
      · obtain ⟨rfl, rfl⟩ := Prod.mk.inj (Except.ok.inj ok)
        exact b.create rfl

lemma balanced_convertAll? (wrap : Bool) (b : l.Balanced others)
    (held : ∀ M ∈ A.native?.toList ++ (B.bind Operator.native?).toList, 0 < l.count M.number) :
    match convertAll? wrap l A B with
    | (l', .error _) => l'.Balanced others
    | (l', .ok (M, N)) => l'.Balanced (M :: (N.toList ++ others)) := by
  unfold convertAll?
  cases hA : convert? wrap l A "A" with
  | error e => exact b
  | ok Ml =>
    obtain ⟨M, l₁⟩ := Ml
    have first : l₁.Balanced (M :: others) :=
      balanced_convert? b (fun M hM => held M (by simp [hM])) hA
    cases B with
    | none => exact first
    | some B =>
      have heldB : ∀ N, B.native? = some N → 0 < l₁.count N.number := fun N hN => by
        have before := held N (by simp [hN])
        rw [b] at before
        rw [first, Ledger.tally_cons]
        exact Nat.lt_of_lt_of_le before (Nat.le_add_right _ _)
      cases hB : convert? wrap l₁ B "B" with
      | error e => simpa only [hB] using first.release
      | ok Nl =>
        obtain ⟨N, l₂⟩ := Nl
        simp only [hB]
        refine (balanced_convert? first heldB hB).congr fun n => ?_
        simp only [Ledger.tally_cons, Option.toList_some, List.singleton_append]
        omega

lemma balanced_setOperators (b : l.Balanced (s.handle.matrices ++ others))
    (held : ∀ M ∈ A.native?.toList ++ (B.bind Operator.native?).toList, 0 < l.count M.number) :
    (s.setOperators l A B).1.2.Balanced ((s.setOperators l A B).1.1.handle.matrices ++ others) := by
  have made := balanced_convertAll? s.wrap b held
  unfold setOperators
  revert made
  rcases convertAll? s.wrap l A B with ⟨l₁, e | ⟨M, N⟩⟩
  · exact id
  intro made
  have passed : l₁.Balanced (s.handle.matrices ++ (M :: (N.toList ++ others))) :=
    made.congr fun n => by
      simp only [Ledger.tally_cons, Ledger.tally_append]
      omega
  have attached := Handle.balanced_attach passed (A := M) (B := N) (made.pos_of_mem (by simp))
    fun X hX => made.pos_of_mem (by simp [hX])
  rcases ha : s.handle.attach l₁ M N with ⟨⟨h', l₂⟩, r⟩
  rw [ha] at attached
  -- the temporaries are given up whether they were attached or not
  have given : ((l₂.release M.number).releaseSlot N).Balanced (h'.matrices ++ others) := by
    refine Ledger.Balanced.releaseSlot (Ledger.Balanced.release (M := M) ?_)
    refine attached.congr fun n => ?_
    simp only [Ledger.tally_cons, Ledger.tally_append]
    omega
  simp only [ha]
  cases hs : s.handle.setOperators? M N with
  | error e =>
    rw [Handle.attach_of_error l₁ hs] at ha
    obtain ⟨⟨rfl, -⟩, rfl⟩ := Prod.mk.inj ha |>.imp_left Prod.mk.inj
    exact given
  | ok h₁ =>
    have done := (Handle.attach_of_ok l₁ hs).2
    rw [ha] at done
    obtain rfl : r = .ok () := done
    exact given

lemma operands_quiet {s' : EigenSolver α} (q : Quiet s s') :
    s'.handle.A = s.handle.A ∧ s'.handle.B = s.handle.B := by
  cases q with
  | configured a _ =>
    have same := Handle.Adjusted.sameProblem a
    exact ⟨same.A, same.B⟩
  | viewed _ _ => exact ⟨rfl, rfl⟩

variable [Kernels α] {o : Options} {c : Call α}

lemma operands_solve (s : EigenSolver α) (o : Options) :
    (s.solve o).1.handle.A = s.handle.A ∧ (s.solve o).1.handle.B = s.handle.B := by
  by_cases created : s.state = .created
  · rw [solve_of_created o created]
    exact ⟨rfl, rfl⟩
  have customized := operands_quiet (quiet_customize s o true)
  rcases hc : s.customize o true with ⟨s', e | _⟩
  · rw [solve_of_refused created hc]
    rwa [hc] at customized
  · rw [hc] at customized
    rcases solve_of_customized created hc with ⟨-, eq⟩ | ⟨e, f, -, eq⟩ <;>
    · rw [eq, Handle.solve_frame]
      exact customized

lemma operands_step (attaching : ∀ A B, c ≠ .setOperators A B) :
    (s.step o l c).1.1.handle.A = s.handle.A ∧ (s.step o l c).1.1.handle.B = s.handle.B := by
  by_cases solving : c = .solve
  · subst solving
    exact operands_solve s o
  · exact operands_quiet (s.quiet ⟨o, l, c⟩ solving attaching)

lemma ledger_step (attaching : ∀ A B, c ≠ .setOperators A B) :
    (s.step o l c).1.2 = l ∨ (s.step o l c).1.2 = s.handle.dropped (s.handle.retained l) := by
  have settled : ∀ r : Except SolverError (EigenSolver α),
      (settle s l r : _ × Except (SolveFailure SolverError) (Reply α)).1.2 = l := by
    intro r
    cases r <;> rfl
  cases c with
  | setOperators A B => exact absurd rfl (attaching A B)
  | setTolerance | setMaxIterations | setWanted | setTarget => exact .inl (settled _)
  | solve => exact .inr rfl
  | _ => exact .inl rfl

lemma balanced_step (b : l.Balanced (s.handle.matrices ++ others))
    (held : ∀ A B, c = .setOperators A B →
      ∀ M ∈ A.native?.toList ++ (B.bind Operator.native?).toList, 0 < l.count M.number) :
    (s.step o l c).1.2.Balanced ((s.step o l c).1.1.handle.matrices ++ others) := by
  by_cases attaching : ∃ A B, c = .setOperators A B
  · obtain ⟨A, B, rfl⟩ := attaching
    exact balanced_setOperators b (held A B rfl)
  · have attaching : ∀ A B, c ≠ .setOperators A B := fun A B eq => attaching ⟨A, B, eq⟩
    obtain ⟨hA, hB⟩ := operands_step (s := s) (o := o) (l := l) attaching
    rw [Handle.matrices_of_eq hA hB]
    rcases ledger_step (s := s) (o := o) (l := l) attaching with eq | eq
    · rwa [eq]
    · rw [eq]
      exact Handle.balanced_dropped (Handle.balanced_retained b)

end EigenSolver

end Eigenmesh
