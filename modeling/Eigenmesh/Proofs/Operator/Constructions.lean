import Mathlib.LinearAlgebra.Pi
import Mathlib.Tactic.Common
import Eigenmesh.Construction
import Eigenmesh.Proofs.Operator.Denotation
import Eigenmesh.Proofs.Scalar.Rational

/-!
Operators of any depth.

Every operator that is put together from matrices, smoothers and linear closures denotes one matrix,
which is read off what it is put together from. All ways from an operator to a matrix give this one.
Products may be written to buffers that hold old values, as long as closures overwrite them.
-/

namespace Eigenmesh

variable {α : Type}

namespace Construction

/-- The matrix that the operator is to denote. What is not given by its entries has the products
with the unit vectors as columns. -/
def matrix [Scalar α] : Construction α → Dense α
  | csr A => .ofFn A.rows A.cols A.entry
  | dense A => A
  | closure rows cols write =>
    .ofFn rows cols fun i j => (write (Coords.unit cols j) (Coords.zeros rows)).getD i 0
  | smoother S =>
    .ofFn S.matrix.rows S.matrix.cols fun i j =>
      (S.mult (Coords.unit S.matrix.cols j)).getD i 0
  | aij A => .ofFn A.rows A.cols A.entry
  | nativeDense A => A
  | shell inner => inner.matrix
  | copy inner => inner.matrix

variable [Scalar.Exact α]

/-- The closure applies a linear map and overwrites the buffer with the result. -/
def Overwrites (rows cols : ℕ) (write : Array α → Array α → Array α) : Prop :=
  ∃ f : (Fin cols → α) →ₗ[α] Fin rows → α, ∀ x buffer : Array α, x.size = cols →
    buffer.size = rows → write x buffer = Array.ofFn (f fun j => x.getD j 0)

/-- Closures are linear and overwrite their output, and the patches of smoothers fit. -/
def Sound : Construction α → Prop
  | closure rows cols write => Overwrites rows cols write
  | smoother S => S.Fits
  | shell inner => inner.Sound
  | copy inner => inner.Sound
  | _ => True

variable {c : Construction α} {rows cols : ℕ} {write : Array α → Array α → Array α} {l : Ledger}

/-! ### Every part denotes its matrix -/

lemma getD_ofFn_mem_forms (f : (Fin cols → α) →ₗ[α] Fin rows → α) {i : ℕ} (hi : i < rows) :
    (fun x : Array α => (Array.ofFn (f fun j => x.getD j 0)).getD i 0) ∈ forms α cols := by
  let weight (j : Fin cols) : α := f (fun k => if j = k then 1 else 0) ⟨i, hi⟩
  refine ⟨fun j => if hj : j < cols then weight ⟨j, hj⟩ else 0, fun x _ => ?_⟩
  have entries := congrFun (f.pi_apply_eq_sum_univ fun j => x.getD j 0) ⟨i, hi⟩
  rw [Finset.sum_apply] at entries
  beta_reduce
  rw [Array.getD_eq_getD_getElem?, Array.getElem?_ofFn, dif_pos hi, Option.getD_some, entries,
    Finset.sum_range]
  refine Finset.sum_congr rfl fun j _ => ?_
  rw [dif_pos j.isLt, mul_comm]
  rfl

lemma denotes_closure (overwrites : Overwrites rows cols write) :
    (Operator.action rows cols fun x => write x (Coords.zeros rows)).Denotes
      (closure rows cols write).matrix := by
  obtain ⟨f, hf⟩ := overwrites
  have product (x : Array α) (hx : x.size = cols) :
      write x (Coords.zeros rows) = Array.ofFn (f fun j => x.getD j 0) :=
    hf x _ hx Array.size_replicate
  have d := Operator.denotes_probeDense
    (.action rows cols fun x => write x (Coords.zeros rows)) ?_ ?_ ?_
  · rw [Operator.probeDense_eq_ofFn] at d
    simp only [Operator.mult] at d
    exact d
  · exact decide_eq_true le_rfl
  · intro x hx
    simp only [Operator.mult]
    rw [product x hx]
    exact Array.size_ofFn
  · intro i hi
    obtain ⟨c, hc⟩ := getD_ofFn_mem_forms f hi
    refine ⟨c, fun x hx => ?_⟩
    simp only [Operator.mult]
    rw [product x hx]
    exact hc x hx

lemma denotes_smoother {S : Smoother α} (fits : S.Fits) :
    (Operator.smoother S).Denotes (smoother S).matrix := by
  have d := Operator.denotes_smoother fits
  rw [Operator.probeDense_eq_ofFn] at d
  simp only [Operator.mult] at d
  exact d

/-- **Every construction denotes its matrix**, in every form. -/
theorem standsFor (sound : c.Sound) (l : Ledger) : (c.build l).1.StandsFor c.matrix := by
  induction c generalizing l with
  | csr A =>
    have d := Operator.denotes_assembled A
    rw [A.toDense_eq] at d
    exact d.standsFor rfl
  | dense A => exact (Operator.denotes_dense A).standsFor rfl
  | closure rows cols write => exact (denotes_closure sound).standsFor rfl
  | smoother S => exact (denotes_smoother sound).standsFor rfl
  | aij A =>
    have d : (Mat.aij l.counts.size A).Denotes A.toDense := Mat.denotes_aij A
    rw [A.toDense_eq] at d
    exact Operator.standsFor_native d
  | nativeDense A => exact Operator.standsFor_native (Mat.denotes_dense A)
  | shell inner ih => exact (ih sound l).shell _
  | copy inner ih => exact (ih sound l).copy _

/-! ### Buffers -/

omit [Scalar.Exact α] in
lemma writeOver_eq {product buffer : Array α} (size : buffer.size = product.size) :
    Coords.writeOver product buffer = product := by
  refine Array.ext (Array.size_ofFn.trans size) fun i hi hi' => ?_
  simp [Coords.writeOver, hi']

lemma size_mult (sound : c.Sound) (l : Ledger) {x : Array α} (hx : x.size = (c.build l).1.width) :
    ((c.build l).1.mult x).size = (c.build l).1.height := by
  have d := (standsFor sound l).denotes
  rw [d.mult x hx, Dense.size_mulVec, d.rows]

lemma multInto_eq (sound : c.Sound) (l : Ledger) {x buffer : Array α}
    (hx : x.size = (c.build l).1.width) (size : buffer.size = (c.build l).1.height) :
    c.multInto l x buffer = (c.build l).1.mult x := by
  have whole := size.trans (size_mult sound l hx).symm
  induction c with
  | closure rows cols write =>
    obtain ⟨f, hf⟩ := sound
    exact (hf x buffer hx size).trans (hf x _ hx Array.size_replicate).symm
  | shell inner ih => exact ih sound hx size whole
  | _ => exact writeOver_eq whole

end Construction

namespace Coords

variable [Scalar α] {n j : ℕ}

lemma zeros_setIfInBounds (hj : j < n) : (zeros n : Array α).setIfInBounds j 1 = unit n j := by
  have size : (zeros n : Array α).size = n := Array.size_replicate
  refine (eq_iff_getD (by simp [size])).2 fun i hi => ?_
  have hi : i < n := by simpa [size] using hi
  rw [Dense.getD_setIfInBounds (size.symm ▸ hj), getD_unit hi, zeros, getD_replicate_zero]

lemma unit_setIfInBounds (hj : j < n) : (unit n j : Array α).setIfInBounds j 0 = zeros n := by
  have size : (zeros n : Array α).size = n := Array.size_replicate
  refine (eq_iff_getD (by simp [size])).2 fun i hi => ?_
  have hi : i < n := by simpa using hi
  rw [Dense.getD_setIfInBounds (by simpa using hj), getD_unit hi, zeros, getD_replicate_zero]
  split <;> rfl

end Coords

/-- **Probing with one unit vector and one buffer** finds the same columns. -/
lemma probeInto_eq [Scalar.Exact α] {op : Operator α} {multInto : Array α → Array α → Array α}
    (overwrites : ∀ x buffer : Array α, x.size = op.width → buffer.size = op.height →
      multInto x buffer = op.mult x)
    (size : ∀ x, x.size = op.width → (op.mult x).size = op.height) :
    probeInto op.height op.width multInto = op.probeDense := by
  -- between columns the unit vector is clear and the buffer has the size of a column
  have found : ∀ m ≤ op.width, ∃ buffer : Array α, buffer.size = op.height ∧
      m.fold (fun j _ => probeColumn multInto j)
        (Coords.zeros op.width, Coords.zeros op.height, #[]) = (Coords.zeros op.width, buffer,
          (Array.range m).map fun j => op.mult (Coords.unit op.width j)) := by
    intro m hm
    induction m with
    | zero => exact ⟨Coords.zeros op.height, Array.size_replicate, by simp⟩
    | succ m ih =>
      obtain ⟨buffer, fits, columns⟩ := ih (Nat.le_of_succ_le hm)
      have unit := Coords.size_unit (α := α) op.width m
      refine ⟨_, size _ unit, ?_⟩
      rw [Nat.fold_succ, columns, probeColumn, Coords.zeros_setIfInBounds hm,
        Coords.unit_setIfInBounds hm, overwrites _ _ unit fits]
      simp [Array.range_succ]
  obtain ⟨buffer, -, columns⟩ := found op.width le_rfl
  rw [probeInto, columns]
  rfl

namespace Construction

variable [Scalar.Exact α]

/-- **Every conversion denotes the same linear map.** An operator that is put together to any depth
has one matrix. Probing gives it, also when one buffer is used for all columns, and gives it without
stored zeros; native matrices on the way have it as their entries, and so does what a solver
attaches, whether it wraps or copies. -/
theorem conversions_agree (c : Construction α) (sound : c.Sound) (l : Ledger) :
    let op := (c.build l).1
    (op.Denotes c.matrix ∧ ∀ M, op.Denotes M → M = c.matrix) ∧
    (op.probeDense = c.matrix ∧ probeInto op.height op.width (c.multInto l) = c.matrix) ∧
    (op.probeCsr.toDense = c.matrix ∧ ∀ row ∈ op.probeCsr.stored, ∀ e ∈ row, e.2 ≠ 0) ∧
    (∀ N, op = .native N → N.Denotes c.matrix) ∧
    ∀ (s : EigenSolver α) (l₁ l₂ : Ledger) (c' : Option (Construction α)), (∀ d ∈ c', d.Sound) →
      let attached := s.setOperators l₁ op (c'.map fun d => (d.build l₂).1)
      c.matrix.rows = c.matrix.cols → c.matrix.rows ≠ 0 →
      (∀ d ∈ c', d.matrix.rows = c.matrix.rows ∧ d.matrix.cols = c.matrix.rows) →
      attached.2 = .ok () ∧
        (∃ N, attached.1.1.handle.A = some N ∧ N.Denotes c.matrix) ∧
        ∀ d ∈ c', ∃ N, attached.1.1.handle.B = some N ∧ N.Denotes d.matrix := by
  intro op
  have stands := standsFor sound l
  have probed := stands.denotes.probeDense_eq
  refine ⟨⟨stands.denotes, fun M d => d.unique stands.denotes⟩, ⟨probed, ?_⟩, ⟨?_, ?_⟩,
    stands.native, ?_⟩
  · refine (probeInto_eq (fun x buffer => ?_) fun x => ?_).trans probed
    · exact multInto_eq sound l
    · exact size_mult sound l
  · exact (Csr.toDense_ofDense _).trans probed
  · exact fun row hrow e he => Csr.ne_zero_of_mem_ofDense hrow he
  · intro s l₁ l₂ c' sound' attached square nonempty conform
    have denotes : ∀ op', (c'.map fun d => (d.build l₂).1) = some op' →
        ∃ M : Dense α, op'.StandsFor M ∧ M.rows = c.matrix.rows ∧ M.cols = c.matrix.rows := by
      intro op' hop
      obtain ⟨d, hd, rfl⟩ := Option.map_eq_some_iff.1 hop
      exact ⟨d.matrix, standsFor (sound' d hd) l₂, conform d hd⟩
    obtain ⟨ok, first, second⟩ := s.setOperators_denotes l₁ stands square nonempty denotes
    refine ⟨ok, first, fun d hd => ?_⟩
    exact second _ (congrArg _ (Option.mem_def.1 hd)) _ (standsFor (sound' d hd) l₂)

/-- A closure that swaps two entries, copied and wrapped, with a smoother for the second operand. -/
theorem conversions_agree_swap :
    let swap : Construction Rat :=
      .closure 2 2 fun x _ => Array.ofFn fun i : Fin 2 => x.getD i.rev 0
    let diagonal : Smoother Rat :=
      { matrix := .ofDense (Rational.diagonal [4, 4])
        patches := ⟨2, [⟨0, [0]⟩, ⟨1, [1]⟩]⟩
        factors := [Rational.diagonal [2], Rational.diagonal [2]]
        theta := 1 }
    let c : Construction Rat := .shell (.copy swap)
    let attached := (EigenSolver.fresh "" true).setOperators .empty (c.build .empty).1
      (some ((smoother diagonal).build .empty).1)
    c.Sound ∧ (smoother diagonal).Sound ∧
      (c.build .empty).1.probeDense.entries = #[0, 1, 1, 0] ∧
      (∃ N, attached.1.1.handle.A = some N ∧ N.toDense.entries = #[0, 1, 1, 0]) ∧
      ∃ N, attached.1.1.handle.B = some N ∧ N.toDense.entries = #[1 / 4, 0, 0, 1 / 4] := by
  intro swap diagonal c attached
  have sound : c.Sound := ⟨LinearMap.funLeft ℚ ℚ Fin.rev, fun x buffer _ _ => rfl⟩
  have fits : diagonal.Fits := ⟨by decide +kernel, by decide +kernel⟩
  obtain ⟨-, ⟨probed, -⟩, -, -, attaches⟩ := conversions_agree c sound .empty
  obtain ⟨-, ⟨N, first, denotes⟩, second⟩ := attaches (.fresh "" true) .empty .empty
    (some (smoother diagonal)) (fun d hd => Option.mem_some.1 hd ▸ fits) rfl (by decide) fun d hd =>
      Option.mem_some.1 hd ▸ ⟨rfl, rfl⟩
  obtain ⟨N', there, denotes'⟩ := second (smoother diagonal) rfl
  refine ⟨sound, fits, ?_, ⟨N, first, ?_⟩, ⟨N', there, ?_⟩⟩
  · rw [probed]
    decide +kernel
  · rw [denotes.toDense]
    decide +kernel
  · rw [denotes'.toDense]
    decide +kernel

end Construction

end Eigenmesh
