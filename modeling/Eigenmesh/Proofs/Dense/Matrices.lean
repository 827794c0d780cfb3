import Mathlib.LinearAlgebra.Matrix.Block
import Mathlib.LinearAlgebra.Matrix.ToLinearEquiv
import Eigenmesh.Proofs.Dense.Expansion
import Eigenmesh.Proofs.Dense.Substitution
import Eigenmesh.Proofs.Sparse.Conversions

/-!
Dense matrices as matrices of algebra.

The operations on stored entries are those on matrices, and arrays of the right size are the vectors
that these act on. A square matrix takes different vectors to different ones exactly if its
determinant is not zero; every right side then has a solution.
-/

namespace Eigenmesh

variable {β : Type}

/-- The first entries of an array as a vector. -/
def Coords.vector [Zero β] (n : ℕ) (x : Array β) : Fin n → β := fun i => x.getD i 0

namespace Coords

lemma vector_ofFn [Zero β] {n : ℕ} (v : Fin n → β) : vector n (Array.ofFn v) = v := by
  funext i
  simp [vector]

lemma eq_of_vector [Zero β] {n : ℕ} {x y : Array β} (hx : x.size = n) (hy : y.size = n)
    (h : vector n x = vector n y) : x = y :=
  (eq_iff_getD (hx.trans hy.symm)).2 fun i hi => congrFun h ⟨i, hx ▸ hi⟩

lemma vector_map_mul [MulZeroClass β] {n : ℕ} (c : β) (x : Array β) :
    vector n (x.map (c * ·)) = c • vector n x := by
  funext i
  rw [Pi.smul_apply, vector, vector, Array.getD_eq_getD_getElem?, Array.getD_eq_getD_getElem?,
    Array.getElem?_map]
  cases x[i.val]? <;> simp

end Coords

namespace Dense

/-! ### Entries -/

section Entries

variable [Ring β] (A B : Dense β) {i j : ℕ}

lemma entry_add (hi : i < A.rows) (hj : j < A.cols) :
    (A.add B).entry i j = A.entry i j + B.entry i j := entry_ofFn _ hi hj

lemma entry_sub (hi : i < A.rows) (hj : j < A.cols) :
    (A.sub B).entry i j = A.entry i j - B.entry i j := entry_ofFn _ hi hj

lemma entry_mul (hi : i < A.rows) (hj : j < B.cols) :
    (A.mul B).entry i j = ∑ k ∈ Finset.range A.cols, A.entry i k * B.entry k j := by
  rw [mul, entry_ofFn _ hi hj, sumTo_eq_sum]

lemma entry_map {γ : Type} [Zero γ] (f : β → γ) (zero : f 0 = 0) (i j : ℕ) :
    (A.map f).entry i j = f (A.entry i j) := by
  change (if j < A.cols then (A.entries.map f).getD (i * A.cols + j) 0 else 0) =
    f (if j < A.cols then A.entries.getD (i * A.cols + j) 0 else 0)
  split
  · rw [Array.getD_eq_getD_getElem?, Array.getD_eq_getD_getElem?, Array.getElem?_map]
    cases A.entries[i * A.cols + j]? <;> simp [zero]
  · rw [zero]

lemma entry_scale (c : β) (i j : ℕ) : (A.scale c).entry i j = A.entry i j * c :=
  A.entry_map (· * c) (zero_mul c) i j

end Entries

/-! ### Square matrices -/

section Leading

variable [CommRing β] {A B : Dense β} {n : ℕ}

lemma leading_add (rows : A.rows = n) (cols : A.cols = n) :
    (A.add B).leading n = A.leading n + B.leading n := by
  ext i j
  exact entry_add A B (rows ▸ i.isLt) (cols ▸ j.isLt)

lemma leading_sub (rows : A.rows = n) (cols : A.cols = n) :
    (A.sub B).leading n = A.leading n - B.leading n := by
  ext i j
  exact entry_sub A B (rows ▸ i.isLt) (cols ▸ j.isLt)

lemma leading_mul (rows : A.rows = n) (cols : A.cols = n) (width : B.cols = n) :
    (A.mul B).leading n = A.leading n * B.leading n := by
  ext i j
  rw [leading_apply, entry_mul A B (rows ▸ i.isLt) (width ▸ j.isLt), cols, Finset.sum_range,
    Matrix.mul_apply]
  rfl

lemma leading_scale (c : β) : (A.scale c).leading n = c • A.leading n := by
  ext i j
  exact (entry_scale A c i j).trans (mul_comm _ _)

lemma leading_identity : (identity n : Dense β).leading n = 1 := by
  ext i j
  rw [leading_apply, identity, entry_ofFn _ i.isLt j.isLt, Matrix.one_apply]
  exact if_congr Fin.ext_iff.symm rfl rfl

lemma leading_transpose (rows : A.rows = n) (cols : A.cols = n) :
    A.transpose.leading n = (A.leading n).transpose := by
  ext i j
  exact entry_transpose A (cols ▸ i.isLt) (rows ▸ j.isLt)

lemma vector_mulVec (rows : A.rows = n) (cols : A.cols = n) (x : Array β) :
    Coords.vector n (A.mulVec x) = (A.leading n).mulVec (Coords.vector n x) := by
  funext i
  rw [Coords.vector, getD_mulVec A x (rows ▸ i.isLt), cols, Finset.sum_range]
  rfl

/-- The dense matrix with the entries of a matrix. -/
def ofMatrix (M : Matrix (Fin n) (Fin n) β) : Dense β :=
  ofFn n n fun i j => if h : i < n ∧ j < n then M ⟨i, h.1⟩ ⟨j, h.2⟩ else 0

lemma leading_ofMatrix (M : Matrix (Fin n) (Fin n) β) : (ofMatrix M).leading n = M := by
  ext i j
  rw [leading_apply, ofMatrix, entry_ofFn _ i.isLt j.isLt, dif_pos ⟨i.isLt, j.isLt⟩]

lemma mulVec_eq_map_iff (rows : A.rows = n) (cols : A.cols = n) {x y : Array β} (size : y.size = n)
    (c : β) : A.mulVec x = y.map (c * ·) ↔
      (A.leading n).mulVec (Coords.vector n x) = c • Coords.vector n y := by
  rw [← vector_mulVec rows cols, ← Coords.vector_map_mul]
  refine ⟨congrArg _, Coords.eq_of_vector ((size_mulVec A x).trans rows) ?_⟩
  rw [Array.size_map, size]

end Leading

/-! ### Systems of equations -/

section Systems

variable [Zero β] [Add β] [Mul β] {A : Dense β} {x y b : Array β}

/-- The vector `x` is a solution of `A x = b`. -/
structure Solves (A : Dense β) (x b : Array β) : Prop where
  size : x.size = A.cols
  mulVec : A.mulVec x = b

/-- A square matrix that takes different vectors to different ones. -/
structure Regular (A : Dense β) : Prop where
  square : A.cols = A.rows
  injective : ∀ x y, x.size = A.cols → y.size = A.cols → A.mulVec x = A.mulVec y → x = y

lemma Regular.unique (regular : A.Regular) (hx : A.Solves x b) (hy : A.Solves y b) : x = y :=
  regular.injective x y hx.size hy.size (hx.mulVec.trans hy.mulVec.symm)

end Systems

variable [Field β] {A : Dense β} {n : ℕ}

lemma regular_iff_det (rows : A.rows = n) (cols : A.cols = n) :
    A.Regular ↔ (A.leading n).det ≠ 0 := by
  constructor
  · intro regular singular
    obtain ⟨v, nonzero, hv⟩ := Matrix.exists_mulVec_eq_zero_iff.2 singular
    have sent (w : Fin n → β) (hw : (A.leading n).mulVec w = 0) :
        A.mulVec (Array.ofFn w) = A.mulVec (Array.ofFn (0 : Fin n → β)) := by
      refine Coords.eq_of_vector (n := n) ((size_mulVec _ _).trans rows)
        ((size_mulVec _ _).trans rows) ?_
      rw [vector_mulVec rows cols, vector_mulVec rows cols, Coords.vector_ofFn,
        Coords.vector_ofFn, hw, Matrix.mulVec_zero]
    have same := regular.injective _ _ (Array.size_ofFn.trans cols.symm)
      (Array.size_ofFn.trans cols.symm) (sent v hv)
    refine nonzero ?_
    rw [← Coords.vector_ofFn v, same, Coords.vector_ofFn]
  · intro nonsingular
    refine ⟨cols.trans rows.symm, fun x y hx hy same => ?_⟩
    refine Coords.eq_of_vector (hx.trans cols) (hy.trans cols) (sub_eq_zero.1 ?_)
    refine Matrix.eq_zero_of_mulVec_eq_zero nonsingular ?_
    rw [Matrix.mulVec_sub, ← vector_mulVec rows cols, ← vector_mulVec rows cols, same, sub_self]

lemma Regular.exists_solves (regular : A.Regular) {b : Array β} (size : b.size = A.rows) :
    ∃ x, A.Solves x b := by
  have square := regular.square
  have det := (regular_iff_det rfl square).1 regular
  refine ⟨Array.ofFn ((A.leading A.rows)⁻¹.mulVec (Coords.vector A.rows b)),
    Array.size_ofFn.trans square.symm, ?_⟩
  refine Coords.eq_of_vector (size_mulVec A _) size ?_
  rw [vector_mulVec rfl square, Coords.vector_ofFn, Matrix.mulVec_mulVec,
    Matrix.mul_nonsing_inv _ (Ne.isUnit det), Matrix.one_mulVec]

/-! ### Triangular factors -/

section Factors

variable {α : Type} [Scalar.Exact α] {L A : Dense α} {n : ℕ}

lemma IsFactor.leading_mul_transpose (h : L.IsFactor n A.entry) :
    L.leading n * (L.leading n).transpose = A.leading n := by
  ext i j
  rw [Matrix.mul_apply, leading_apply, ← h.mul i i.isLt j j.isLt, Finset.sum_range]
  rfl

lemma IsFactor.det_ne_zero (h : L.IsFactor n A.entry) : (L.leading n).det ≠ 0 := by
  rw [Matrix.det_of_isLowerTriangular, Finset.prod_ne_zero_iff]
  · exact fun i _ => (h.diagonal i i.isLt).ne'
  · exact fun i j hij => h.lower i i.isLt j j.isLt hij

lemma IsFactor.solves_forward {M : ℕ → ℕ → α} (h : L.IsFactor n M) {b : Array α}
    (size : b.size = n) : L.Solves (L.forward b) b := by
  refine ⟨(size_forward L b).trans (h.rows.trans h.cols.symm), ?_⟩
  refine Coords.eq_of_vector ((size_mulVec L _).trans h.rows) size ?_
  funext i
  rw [Coords.vector, getD_mulVec L _ (h.rows.symm ▸ i.isLt), h.cols]
  exact h.forward_eq b i.isLt

lemma IsFactor.transpose_mulVec_backward {M : ℕ → ℕ → α} (h : L.IsFactor n M) {y : Array α}
    (size : y.size = n) : (L.leading n).transpose.mulVec (Coords.vector n (L.backward y)) =
      Coords.vector n y := by
  funext k
  rw [Coords.vector, ← h.backwardSums_eq size k.isLt, ← backwardFrom_eq_backwardSumsFrom,
    Finset.sum_range]
  rfl

end Factors

end Dense

end Eigenmesh
