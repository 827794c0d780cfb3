import Mathlib.Algebra.BigOperators.Ring.Finset
import Mathlib.Data.Nat.Notation
import Mathlib.Tactic.Common
import Eigenmesh.Proofs.EigenSolver.Numbers
import Eigenmesh.Proofs.Operator.Forms
import Eigenmesh.Proofs.Sparse.Conversions

/-!
Operators as matrices.

An operator denotes a matrix if the two have the same product with every vector. The columns of the
matrix are then the products with the unit vectors, so there is only one such matrix, and probing
finds it, if there is room. An operator whose products are linear denotes what probing gives. Native
matrices that store, wrap or copy an operator denote the same matrix as the operator.
-/

namespace Eigenmesh

variable {α : Type}

namespace Coords

@[simp] lemma size_unit [Scalar α] (n j : ℕ) : (unit n j : Array α).size = n := Array.size_ofFn

lemma getD_unit [Scalar α] {n i : ℕ} (hi : i < n) (j : ℕ) :
    (unit n j : Array α).getD i 0 = if i = j then 1 else 0 := by
  rw [unit, Array.getD_eq_getD_getElem?, Array.getElem?_ofFn, dif_pos hi]
  rfl

lemma sum_mul_getD_unit [Scalar.Exact α] {n j : ℕ} (hj : j < n) (c : ℕ → α) :
    ∑ k ∈ Finset.range n, c k * (unit n j : Array α).getD k 0 = c j := by
  have terms : ∀ k ∈ Finset.range n,
      c k * (unit n j : Array α).getD k 0 = if j = k then c k else 0 := by
    intro k hk
    rw [getD_unit (Finset.mem_range.1 hk), mul_ite, mul_one, mul_zero]
    exact if_congr eq_comm rfl rfl
  rw [Finset.sum_congr rfl terms, Finset.sum_ite_eq, if_pos (Finset.mem_range.2 hj)]

end Coords

namespace Dense

variable [Scalar.Exact α] (A : Dense α)

lemma getD_mulVec_unit {i j : ℕ} (hi : i < A.rows) (hj : j < A.cols) :
    (A.mulVec (Coords.unit A.cols j)).getD i 0 = A.entry i j := by
  rw [getD_mulVec A _ hi, Coords.sum_mul_getD_unit hj]

end Dense

namespace Operator

variable [Scalar.Exact α] {op : Operator α} {M N : Dense α}

/-- The operator can be applied to every vector of its width, and the product is that with the
matrix. -/
structure Denotes (op : Operator α) (M : Dense α) : Prop where
  rows : M.rows = op.height
  cols : M.cols = op.width
  takes : op.takes op.width = true
  mult : ∀ x : Array α, x.size = op.width → op.mult x = M.mulVec x

lemma probeDense_eq_ofFn (op : Operator α) : op.probeDense =
    .ofFn op.height op.width fun i j => (op.mult (Coords.unit op.width j)).getD i 0 := by
  have size : ((Array.range op.width).map fun j => op.mult (Coords.unit op.width j)).size =
      op.width := by simp
  rw [probeDense, Dense.ofCols, size]
  exact Dense.ofFn_congr fun i _ j hj => by simp [hj]

@[simp] lemma cols_probeDense : op.probeDense.cols = op.width := by rw [probeDense_eq_ofFn]; rfl

lemma entry_probeDense {i j : ℕ} (hi : i < op.height) (hj : j < op.width) :
    op.probeDense.entry i j = (op.mult (Coords.unit op.width j)).getD i 0 := by
  rw [probeDense_eq_ofFn, Dense.entry_ofFn _ hi hj]

theorem Denotes.probeDense_eq (d : op.Denotes M) : op.probeDense = M := by
  have cols : op.probeDense.cols = M.cols := cols_probeDense.trans d.cols.symm
  refine Dense.eq_of_entry d.rows.symm cols fun i hi j hj => ?_
  have hi : i < op.height := hi
  have hj : j < op.width := cols.trans d.cols ▸ hj
  rw [entry_probeDense hi hj, d.mult _ (Coords.size_unit _ _), ← d.cols,
    M.getD_mulVec_unit (d.rows.symm ▸ hi) (d.cols.symm ▸ hj)]

lemma Denotes.unique (d : op.Denotes M) (d' : op.Denotes N) : M = N :=
  d.probeDense_eq.symm.trans d'.probeDense_eq

/-- **Whatever is linear denotes what probing gives.** -/
lemma denotes_probeDense (op : Operator α) (takes : op.takes op.width = true)
    (size : ∀ x, x.size = op.width → (op.mult x).size = op.height)
    (linear : ∀ i < op.height, (fun x => (op.mult x).getD i 0) ∈ forms α op.width) :
    op.Denotes op.probeDense where
  rows := rfl
  cols := cols_probeDense
  takes := takes
  mult x hx := by
    refine Dense.mulVec_eq_of_getD _ (size x hx) fun i hi => ?_
    obtain ⟨c, hc⟩ := linear i hi
    beta_reduce at hc
    have column : ∀ j < op.width, op.probeDense.entry i j = c j := by
      intro j hj
      rw [entry_probeDense hi hj, hc _ (Coords.size_unit _ _), Coords.sum_mul_getD_unit hj]
    rw [hc x hx, cols_probeDense]
    exact Finset.sum_congr rfl fun j hj => by rw [column j (Finset.mem_range.1 hj)]

lemma denotes_assembled (A : Csr α) : (assembled A).Denotes A.toDense where
  rows := congrArg Dense.rows A.toDense_eq
  cols := congrArg Dense.cols A.toDense_eq
  takes := decide_eq_true rfl
  mult x _ := by
    simp only [mult]
    exact A.mulVec_toDense x

lemma denotes_dense (A : Dense α) : (dense A).Denotes A where
  rows := rfl
  cols := rfl
  takes := decide_eq_true le_rfl
  mult _ _ := by simp only [mult]

lemma denotes_smoother {S : Smoother α} (fits : S.Fits) :
    (smoother S).Denotes (smoother S).probeDense := by
  refine denotes_probeDense _ ?_ (fun x _ => ?_) fun i hi => ?_
  · simp only [takes]
    exact Smoother.takes_of_fits fits
  · simp only [mult]
    exact S.size_correction _ _
  · simp only [mult]
    exact Smoother.getD_correction_mem_forms (fun p hp v hv => (fits.inside p hp v hv).2) hi

lemma Denotes.isProbed_eq (d : op.Denotes M) :
    op.isProbed = (Word.isArray M.rows 8 && Word.isArray M.cols 8) := by
  rw [isProbed, d.takes, Bool.or_true, Bool.and_true, d.rows, d.cols]

/-- Nothing but room is needed to probe an operator that denotes a matrix. -/
lemma Denotes.probeDense?_eq (d : op.Denotes M) : op.probeDense? =
    if Word.isArray M.rows 8 && Word.isArray M.cols 8 && Word.isArray (M.rows * M.cols) 8
      then some M else none := by
  rw [probeDense?, d.isProbed_eq, d.probeDense_eq, ← d.rows, ← d.cols]

lemma Denotes.map_probeCsr? (d : op.Denotes M) : op.probeCsr?.map Csr.toDense =
    if Word.isArray M.rows 8 && Word.isArray M.cols 8 && Word.isArray (M.rows + 1) 8
      then some M else none := by
  rw [probeCsr?, d.isProbed_eq, ← d.rows, apply_ite (Option.map Csr.toDense), Option.map_some,
    Option.map_none, probeCsr, Csr.toDense_ofDense, d.probeDense_eq]

lemma Denotes.mult?_eq (d : op.Denotes M) {x : Array α} (hx : x.size = op.width) :
    op.mult? x = some (M.mulVec x) := by
  rw [mult?, hx, d.takes, if_pos rfl, d.mult x hx]

end Operator

/-! ### Native matrices -/

namespace Mat

variable [Scalar.Exact α] {op : Operator α} {M : Dense α} {n : ℕ}

/-- The native matrix denotes the matrix as an operator, and it is what its entries say in either
form; a product with checked sizes is that with the matrix. -/
structure Denotes (N : Mat α) (M : Dense α) : Prop where
  operator : (Operator.native N).Denotes M
  toDense : N.toDense = M
  toCsr : N.toCsr.toDense = M
  apply : ∀ x : Array α, x.size = N.cols → N.multInto? x N.rows = .ok (M.mulVec x)

lemma Denotes.of_operator {N : Mat α} (operator : (Operator.native N).Denotes M)
    (toDense : N.toDense = M) (toCsr : N.toCsr.toDense = M) : N.Denotes M where
  operator := operator
  toDense := toDense
  toCsr := toCsr
  apply x size := by
    rw [multInto?, if_pos ⟨size, rfl⟩, ← operator.mult x size]
    rfl

lemma denotes_aij (A : Csr α) : (Mat.aij n A).Denotes A.toDense := by
  refine .of_operator ⟨?_, ?_, ?_, fun x _ => ?_⟩ ?_ ?_
  · exact congrArg Dense.rows A.toDense_eq
  · exact congrArg Dense.cols A.toDense_eq
  · exact decide_eq_true rfl
  · exact A.mulVec_toDense x
  · rfl
  · rfl

lemma denotes_dense (A : Dense α) : (Mat.dense n A).Denotes A := by
  refine .of_operator ⟨rfl, rfl, ?_, fun _ _ => ?_⟩ ?_ ?_
  · exact decide_eq_true le_rfl
  · rfl
  · rfl
  · exact Csr.toDense_ofDense A

lemma denotes_shell (d : op.Denotes M) : (Mat.shell n op).Denotes M := by
  refine .of_operator ⟨d.rows, d.cols, d.takes, fun x hx => ?_⟩ ?_ ?_
  · exact d.mult x hx
  · exact d.probeDense_eq
  · exact (Csr.toDense_ofDense _).trans d.probeDense_eq

lemma Denotes.eq_of_toDense? {N : Mat α} {D : Dense α} (d : N.Denotes M)
    (h : N.toDense? = some D) : D = M := by
  rw [← d.toDense]
  cases N with
  | aij _ A => exact (Option.some.inj (Option.ite_none_right_eq_some.1 h).2).symm
  | dense _ A => exact (Option.some.inj h).symm
  | shell _ op => exact (Option.some.inj (Option.ite_none_right_eq_some.1 h).2).symm

lemma Denotes.toDense_of_toCsr? {N : Mat α} {C : Csr α} (d : N.Denotes M)
    (h : N.toCsr? = some C) : C.toDense = M := by
  rw [← d.toCsr]
  cases N with
  | aij _ A => exact congrArg _ (Option.some.inj h).symm
  | dense _ A => exact congrArg _ (Option.some.inj (Option.ite_none_right_eq_some.1 h).2).symm
  | shell _ op => exact congrArg _ (Option.some.inj (Option.ite_none_right_eq_some.1 h).2).symm

end Mat

namespace Operator

variable [Scalar.Exact α] {op : Operator α} {M : Dense α} {N : Mat α}

/-- The operator denotes the matrix, and if it is a native matrix, it does so in every form. -/
structure StandsFor (op : Operator α) (M : Dense α) : Prop where
  denotes : op.Denotes M
  native : ∀ N, op = .native N → N.Denotes M

lemma Denotes.standsFor (d : op.Denotes M) (host : op.native? = none) : op.StandsFor M where
  denotes := d
  native N hN := by
    subst hN
    cases host

lemma standsFor_native (d : N.Denotes M) : (native N).StandsFor M where
  denotes := d.operator
  native N' hN := by
    obtain rfl := Operator.native.inj hN
    exact d

lemma StandsFor.toDense_toCsr (s : op.StandsFor M) : op.toCsr.toDense = M := by
  have probed : op.probeCsr.toDense = M :=
    (Csr.toDense_ofDense _).trans s.denotes.probeDense_eq
  cases op with
  | native N => exact (s.native N rfl).toCsr
  | assembled A => exact (denotes_assembled A).unique s.denotes
  | dense | action | smoother => exact probed

lemma StandsFor.toDense_of_toCsr? {C : Csr α} (s : op.StandsFor M) (h : op.toCsr? = some C) :
    C.toDense = M := by
  rw [← s.toDense_toCsr]
  cases op with
  | native N => exact ((s.native N rfl).toDense_of_toCsr? h).trans s.toDense_toCsr.symm
  | assembled A => exact congrArg _ (Option.some.inj h).symm
  | dense | action | smoother =>
    exact congrArg _ (Option.some.inj (Option.ite_none_right_eq_some.1 h).2).symm

lemma StandsFor.shell (s : op.StandsFor M) (n : ℕ) : (Operator.native (.shell n op)).StandsFor M :=
  standsFor_native (Mat.denotes_shell s.denotes)

lemma StandsFor.copy (s : op.StandsFor M) (n : ℕ) :
    (Operator.native (.aij n op.toCsr)).StandsFor M := by
  have d := Mat.denotes_aij (n := n) op.toCsr
  rw [s.toDense_toCsr] at d
  exact standsFor_native d

end Operator

/-! ### Operands -/

namespace EigenSolver

variable [Scalar.Exact α] {A : Operator α} {B : Option (Operator α)} {op : Operator α}
  {M : Dense α}

/-- **The matrix that a solver shares, wraps or copies denotes the same.** -/
lemma convert?_denotes (wrap : Bool) (l : Ledger) (operand : String) (s : op.StandsFor M)
    (square : M.rows = M.cols) (nonempty : M.rows ≠ 0) :
    ∃ N l', convert? wrap l op operand = .ok (N, l') ∧ N.Denotes M := by
  have shape : ¬((!op.isSquare || op.height = 0) = true) := by
    rw [s.denotes.rows] at nonempty
    have square := s.denotes.rows.symm.trans (square.trans s.denotes.cols)
    simpa [Operator.isSquare, square] using fun none => nonempty (square.trans none)
  unfold convert?
  rw [if_neg shape]
  have made : ∀ n, (if wrap then Mat.shell n op else .aij n op.toCsr).Denotes M := by
    intro n
    cases wrap with
    | true => exact (s.shell n).native _ rfl
    | false => exact (s.copy n).native _ rfl
  cases op with
  | native N => exact ⟨N, _, rfl, s.native N rfl⟩
  | _ =>
    have made := made l.counts.size
    cases wrap <;> exact ⟨_, _, rfl, made⟩

lemma setOperators_of_converted (e : EigenSolver α) {l : Ledger} {X : Mat α} {Y : Option (Mat α)}
    (converted : (convertAll? e.wrap l A B).2 = .ok (X, Y)) (square : X.rows = X.cols)
    (conform : ∀ N, Y = some N → N.rows = N.cols ∧ N.rows = X.rows) :
    (e.setOperators l A B).2 = .ok () ∧ (e.setOperators l A B).1.1.handle.A = some X ∧
      (e.setOperators l A B).1.1.handle.B = Y := by
  have eq := e.setOperators_eq l A B
  simp only [converted, Handle.setOperators?_eq_ok.2 ⟨square, conform, rfl⟩] at eq
  obtain ⟨solver, done⟩ := Prod.mk.inj eq
  refine ⟨done, ?_, ?_⟩
  · rw [solver]
    rfl
  · rw [solver]
    rfl

lemma setOperators_denotes (e : EigenSolver α) (l : Ledger) (a : A.StandsFor M)
    (square : M.rows = M.cols) (nonempty : M.rows ≠ 0)
    (conform : ∀ op, B = some op →
      ∃ N : Dense α, op.StandsFor N ∧ N.rows = M.rows ∧ N.cols = M.rows) :
    (e.setOperators l A B).2 = .ok () ∧
      (∃ X, (e.setOperators l A B).1.1.handle.A = some X ∧ X.Denotes M) ∧
      ∀ op, B = some op → ∀ N : Dense α, op.StandsFor N →
        ∃ Y, (e.setOperators l A B).1.1.handle.B = some Y ∧ Y.Denotes N := by
  obtain ⟨X, l₁, hX, dX⟩ := convert?_denotes e.wrap l "A" a square nonempty
  have squareX : X.rows = X.cols := dX.operator.rows.symm.trans (square.trans dX.operator.cols)
  cases B with
  | none =>
    have converted : (convertAll? e.wrap l A none).2 = .ok (X, none) := by
      simp only [convertAll?, hX]
    obtain ⟨ok, first, -⟩ := e.setOperators_of_converted converted squareX nofun
    exact ⟨ok, ⟨X, first, dX⟩, nofun⟩
  | some op =>
    obtain ⟨N, b, rows, cols⟩ := conform op rfl
    obtain ⟨Y, l₂, hY, dY⟩ :=
      convert?_denotes e.wrap l₁ "B" b (rows.trans cols.symm) (rows.symm ▸ nonempty)
    have converted : (convertAll? e.wrap l A (some op)).2 = .ok (X, some Y) := by
      simp only [convertAll?, hX, hY]
    have conformY : Y.rows = Y.cols ∧ Y.rows = X.rows := by
      have hr := dY.operator.rows
      have hc := dY.operator.cols
      have hx := dX.operator.rows
      exact ⟨hr.symm.trans ((rows.trans cols.symm).trans hc), hr.symm.trans (rows.trans hx)⟩
    obtain ⟨ok, first, second⟩ := e.setOperators_of_converted converted squareX fun Z hZ => by
      obtain rfl := Option.some.inj hZ
      exact conformY
    refine ⟨ok, ⟨X, first, dX⟩, ?_⟩
    intro op' same N' b'
    obtain rfl := Option.some.inj same
    obtain rfl := b.denotes.unique b'.denotes
    exact ⟨Y, second, dY⟩

end EigenSolver

end Eigenmesh
