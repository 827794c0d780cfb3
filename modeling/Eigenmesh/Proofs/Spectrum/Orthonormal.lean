import Eigenmesh.Proofs.Smoother.Correction
import Eigenmesh.Proofs.Spectrum.Transforms

/-!
The vectors that the symmetric path returns.

With `B = L Lᵀ` the reduced matrix is symmetric, and an orthonormal basis of eigenvectors `y` of it
gives vectors `x` with `Lᵀ x = y` that solve the equation of the pencil. The inner product of two
such `x` in `B` is that of the `y`.
-/

namespace Eigenmesh

variable {α : Type} [Scalar.Exact α]

/-- Eigenvalues of a matrix and an orthonormal basis of eigenvectors, its columns. -/
structure Dense.IsEigenbasis (A : Dense α) (n : ℕ) (values : Array α) (vectors : Dense α) :
    Prop where
  size : values.size = n
  rows : vectors.rows = n
  orthonormal : (vectors.leading n).transpose * vectors.leading n = 1
  eigen : A.leading n * vectors.leading n =
    vectors.leading n * Matrix.diagonal fun j : Fin n => values.getD j 0

/-- The eigen decomposition of a symmetric matrix is exact. -/
def Kernels.DiagonalizesSymmetric (α : Type) [Scalar.Exact α] [Kernels α] : Prop :=
  ∀ (n budget : ℕ) (A : Dense α) (values : Array α) (vectors : Dense α), A.rows = n → A.cols = n →
    (A.leading n).IsSymm → Kernels.symmetricEigen? budget A = some (values, vectors) →
    A.IsEigenbasis n values vectors

lemma epsilon_eq : (Scalar.epsilon : α) = 2220446049250313 / 10 ^ 31 :=
  Scalar.Exact.ofScientific_eq 2220446049250313 true 31

lemma epsilon_pos : (0 : α) < Scalar.epsilon := by
  rw [epsilon_eq]
  positivity

lemma Coords.vector_map_ofReal {n : ℕ} (x : Array α) :
    vector n (x.map Cplx.ofReal) = Cplx.ofRealHom ∘ vector n x := by
  funext i
  rw [Function.comp_apply, vector, vector, Array.getD_eq_getD_getElem?,
    Array.getD_eq_getD_getElem?, Array.getElem?_map]
  cases x[i.val]? <;> rfl

namespace Pencil

variable {P : Pencil α} {T : Transform α} {σ θ : α} {L : Option (Dense α)}

/-! ### Real vectors among the complex ones -/

/-- The inner product `xᴴ B y` that belongs to a pencil. -/
def inner (P : Pencil α) (x y : Array (Cplx α)) : Cplx α :=
  ∑ i : Fin P.A.rows, (Coords.vector P.A.rows x i).conj *
    Coords.vector P.A.rows (P.second.toCplx.mulVec y) i

/-- Vectors of length one that are orthogonal to each other. -/
structure Orthonormal (P : Pencil α) (vectors : List (Array (Cplx α))) : Prop where
  length_one : ∀ x ∈ vectors, P.inner x x = 1
  orthogonal : vectors.Pairwise fun x y => P.inner x y = 0

lemma mulVec_ofReal {n : ℕ} (M : Matrix (Fin n) (Fin n) α) (x : Array α) :
    (Cplx.ofRealHom.mapMatrix M).mulVec (Coords.vector n (x.map .ofReal)) =
      Cplx.ofRealHom ∘ M.mulVec (Coords.vector n x) := by
  rw [Coords.vector_map_ofReal]
  funext i
  exact (Cplx.ofRealHom.map_mulVec M _ i).symm

lemma inner_ofReal (stored : P.Stored) (x y : Array α) :
    P.inner (x.map .ofReal) (y.map .ofReal) = .ofReal (dotProduct (Coords.vector P.A.rows x)
      ((P.second.leading P.A.rows).mulVec (Coords.vector P.A.rows y))) := by
  obtain ⟨rows, cols⟩ := stored.rows_second
  have product := Dense.vector_mulVec (A := P.second.toCplx) rows cols (y.map .ofReal)
  rw [Dense.leading_toCplx, mulVec_ofReal] at product
  rw [inner, product, Coords.vector_map_ofReal]
  have real (z : α) : (Cplx.ofReal z).conj = .ofReal z := by
    ext
    · rfl
    · exact neg_zero
  refine (Finset.sum_congr rfl fun i _ => ?_).trans (map_sum Cplx.ofRealHom _ _).symm
  rw [map_mul]
  exact congrArg (· * _) (real _)

lemma isEigenpair_ofReal (stored : P.Stored) {x : Array α} (size : x.size = P.A.rows)
    (equation : (P.A.leading P.A.rows).mulVec (Coords.vector P.A.rows x) =
      θ • (P.second.leading P.A.rows).mulVec (Coords.vector P.A.rows x)) :
    P.IsEigenpair ⟨.ofReal θ, x.map .ofReal⟩ := by
  rw [isEigenpair_iff stored (Array.size_map.trans size), mulVec_ofReal, mulVec_ofReal, equation]
  funext i
  exact map_mul Cplx.ofRealHom θ _

/-! ### The reduced matrix -/

/-- The equation that a reduced matrix is defined by, `F` being the factor of `B`. -/
def IsReduced (P : Pencil α) (T : Transform α) (σ : α)
    (F C : Matrix (Fin P.A.rows) (Fin P.A.rows) α) : Prop :=
  match T.type with
  | .shift => F * (C + σ • 1) * F.transpose = P.A.leading P.A.rows
  | .shiftInvert => ∃ X, (P.shifted σ).leading P.A.rows * X = F ∧ C = F.transpose * X

lemma IsReduced.isSymm (stored : P.Stored) (symmetric : (P.A.leading P.A.rows).IsSymm)
    (factor : P.IsFactorOf L) {C : Matrix (Fin P.A.rows) (Fin P.A.rows) α}
    (reduced : P.IsReduced T σ (P.factorMatrix L) C) : C.IsSymm := by
  obtain ⟨product, regular⟩ := factorMatrix_spec factor
  unfold IsReduced at reduced
  cases ht : T.type with
  | shift =>
    simp only [ht] at reduced
    have inverse := Matrix.nonsing_inv_mul _ (Ne.isUnit regular)
    have inverse' : (P.factorMatrix L).transpose * (P.factorMatrix L)⁻¹.transpose = 1 := by
      rw [← Matrix.transpose_mul, inverse, Matrix.transpose_one]
    have alone : C + σ • 1 =
        (P.factorMatrix L)⁻¹ * P.A.leading P.A.rows * (P.factorMatrix L)⁻¹.transpose := by
      rw [← reduced, mul_assoc, mul_assoc, mul_assoc, inverse', mul_one, ← mul_assoc, inverse,
        one_mul]
    have shifted : (C + σ • 1).IsSymm := by
      rw [alone, Matrix.IsSymm, Matrix.transpose_mul, Matrix.transpose_mul,
        Matrix.transpose_transpose, symmetric.eq, mul_assoc]
    have unshifted := shifted.sub ((Matrix.isSymm_one).smul σ)
    rwa [add_sub_cancel_right] at unshifted
  | shiftInvert =>
    simp only [ht] at reduced
    obtain ⟨X, solved, rfl⟩ := reduced
    have second : (P.second.leading P.A.rows).IsSymm := by
      rw [← product]
      exact Matrix.isSymm_mul_transpose_self _
    refine isSymm_reduced ?_ solved
    rw [leading_shifted stored]
    exact symmetric.sub (second.smul σ)

/-- **An eigenvector of the reduced matrix stands for one of the pencil.** -/
lemma IsReduced.isEigenpair (stored : P.Stored) (factor : P.IsFactorOf L)
    {C : Matrix (Fin P.A.rows) (Fin P.A.rows) α} (reduced : P.IsReduced T σ (P.factorMatrix L) C)
    {x : Array α} {y : Fin P.A.rows → α} (size : x.size = P.A.rows)
    (back : (P.factorMatrix L).transpose.mulVec (Coords.vector P.A.rows x) = y)
    (eigen : C.mulVec y = θ • y) (nonzero : T.type = .shiftInvert → θ ≠ 0) :
    P.IsEigenpair ⟨T.back (.ofReal θ) σ, x.map .ofReal⟩ := by
  obtain ⟨product, regular⟩ := factorMatrix_spec factor
  have second : (P.second.leading P.A.rows).mulVec (Coords.vector P.A.rows x) =
      (P.factorMatrix L).mulVec y := by
    rw [← product, ← Matrix.mulVec_mulVec, back]
  unfold IsReduced at reduced
  cases ht : T.type with
  | shift =>
    simp only [ht] at reduced
    have value : T.back (.ofReal θ) σ = .ofReal (θ + σ) := by
      unfold Transform.back
      rw [ht]
      exact (Cplx.shift_eq _ _).trans (map_add Cplx.ofRealHom θ σ).symm
    rw [value]
    refine isEigenpair_ofReal stored size ?_
    rw [second, ← reduced, ← Matrix.mulVec_mulVec, ← Matrix.mulVec_mulVec, back, Matrix.add_mulVec,
      eigen, Matrix.smul_mulVec, Matrix.one_mulVec, ← add_smul, Matrix.mulVec_smul]
  | shiftInvert =>
    simp only [ht] at reduced
    obtain ⟨X, solved, rfl⟩ := reduced
    have value : T.back (.ofReal θ) σ = .ofReal (θ⁻¹ + σ) := by
      rw [back_eq ht, Cplx.ofReal_inv_add]
    have transposed : (P.factorMatrix L).transpose.det ≠ 0 := by rwa [Matrix.det_transpose]
    -- `X Fᵀ` inverts the pencil, and has the vector for an eigenvector
    have inverted : (P.shifted σ).leading P.A.rows * (X * (P.factorMatrix L).transpose) =
        P.second.leading P.A.rows := by
      rw [← mul_assoc, solved, product]
    have eigenvector : (X * (P.factorMatrix L).transpose).mulVec (Coords.vector P.A.rows x) =
        θ • Coords.vector P.A.rows x := by
      rw [← mulVec_eq_mulVec_iff transposed, Matrix.mulVec_smul, ← Matrix.mulVec_mulVec, back,
        Matrix.mulVec_mulVec, eigen]
    have shifted : ((P.shifted σ).leading P.A.rows).det ≠ 0 := by
      intro zero
      rw [← solved, Matrix.det_mul, zero, zero_mul] at regular
      exact regular rfl
    rw [value]
    refine isEigenpair_ofReal stored size ?_
    exact (mulVec_eq_smul_iff_of_inverted shifted (leading_shifted stored σ) inverted
      (nonzero ht)).1 eigenvector

lemma size_forwardCols (M A : Dense α) :
    (M.forwardCols A).rows = M.rows ∧ (M.forwardCols A).cols = A.cols :=
  ⟨rfl, Array.size_map.trans Array.size_range⟩

lemma leading_reduced_shift {M : Dense α} (stored : P.Stored)
    (factor : M.IsFactor P.A.rows P.second.entry) :
    M.leading P.A.rows *
        (M.forwardCols (M.forwardCols P.A).transpose).leading P.A.rows *
          (M.leading P.A.rows).transpose = (P.A.leading P.A.rows).transpose := by
  obtain ⟨rows, cols⟩ := size_forwardCols M P.A
  have rows := rows.trans factor.rows
  have cols := cols.trans stored.square
  have columns {A : Dense α} (height : A.rows = P.A.rows) (width : A.cols = P.A.rows) :
      M.leading P.A.rows * (M.forwardCols A).leading P.A.rows = A.leading P.A.rows := by
    have solved := leading_solveCols factor.rows factor.cols height width
      fun b size => factor.solves_forward size
    rw [Dense.forwardCols, factor.rows]
    exact solved
  rw [columns cols rows, Dense.leading_transpose rows cols, ← Matrix.transpose_mul,
    columns rfl stored.square]

/-! ### The pairs that are returned -/

/-- The vector `x` with `Lᵀ x = y`. -/
def recovered (L : Option (Dense α)) (y : Array α) : Array α :=
  match L with
  | some L => L.backward y
  | none => y

lemma recovered_spec (factor : P.IsFactorOf L) {y : Array α} (size : y.size = P.A.rows) :
    (recovered L y).size = P.A.rows ∧
      (P.factorMatrix L).transpose.mulVec (Coords.vector P.A.rows (recovered L y)) =
        Coords.vector P.A.rows y := by
  cases L with
  | none => exact ⟨size, by rw [factorMatrix, Matrix.transpose_one, Matrix.one_mulVec]; rfl⟩
  | some M =>
    have factor : M.IsFactor P.A.rows P.second.entry := factor
    exact ⟨(Dense.size_backward M y).trans size, factor.transpose_mulVec_backward size⟩

/-- The pairs that eigenvectors of the reduced matrix stand for. -/
def recoveredPairs (T : Transform α) (σ : α) (L : Option (Dense α)) (θs : Array α)
    (vectors : Dense α) : List (EigenPair α) :=
  θs.toList.zipIdx.filterMap fun (θ, j) =>
    if T.type = .shiftInvert ∧ Scalar.abs θ < Scalar.epsilon then none
    else some ⟨T.back (.ofReal θ) σ, (recovered L (vectors.col j)).map .ofReal⟩

/-- The pair of one eigenvector. -/
def recoveredPair (T : Transform α) (σ : α) (L : Option (Dense α)) (θs : Array α)
    (vectors : Dense α) (j : ℕ) : EigenPair α :=
  ⟨T.back (.ofReal (θs.getD j 0)) σ, (recovered L (vectors.col j)).map .ofReal⟩

/-- The numbers of the eigenvectors that are not left out. -/
def keptNumbers (T : Transform α) (θs : Array α) : List ℕ :=
  (List.range θs.size).filter fun j =>
    !decide (T.type = .shiftInvert ∧ Scalar.abs (θs.getD j 0) < Scalar.epsilon)

lemma recoveredPairs_eq (T : Transform α) (σ : α) (L : Option (Dense α)) (θs : Array α)
    (vectors : Dense α) : recoveredPairs T σ L θs vectors =
      (keptNumbers T θs).map (recoveredPair T σ L θs vectors) := by
  have numbered : θs.toList.zipIdx = (List.range θs.size).map fun j => (θs.getD j 0, j) := by
    refine List.ext_getElem (by simp) fun j hj _ => ?_
    have inside : j < θs.size := by simpa using hj
    simp [inside]
  rw [recoveredPairs, numbered, List.filterMap_map, keptNumbers, ← List.filterMap_eq_map,
    List.filterMap_filter]
  refine List.filterMap_congr fun j _ => ?_
  by_cases small : T.type = .shiftInvert ∧ Scalar.abs (θs.getD j 0) < Scalar.epsilon
  · simp only [Function.comp_apply, if_pos small, decide_eq_true small, Bool.not_true,
      Bool.false_eq_true, if_false]
  · simp only [Function.comp_apply, if_neg small, decide_eq_false small, Bool.not_false, if_true]
    rfl

lemma of_mem_keptNumbers {θs : Array α} {j : ℕ} (mem : j ∈ keptNumbers T θs) :
    j < θs.size ∧ (T.type = .shiftInvert → θs.getD j 0 ≠ 0) := by
  obtain ⟨inside, kept⟩ := List.mem_filter.1 mem
  refine ⟨List.mem_range.1 inside, fun inverts zero => ?_⟩
  simp [inverts, zero, Scalar.abs_eq, epsilon_pos] at kept

lemma keptNumbers_of_shift (shifts : T.type = .shift) (θs : Array α) :
    keptNumbers T θs = List.range θs.size := by
  simp [keptNumbers, shifts]

section Basis

variable {θs : Array α} {vectors : Dense α} (stored : P.Stored) (factor : P.IsFactorOf L)
  (rows : vectors.rows = P.A.rows)

include rows in
lemma vector_col (j : Fin P.A.rows) : Coords.vector P.A.rows (vectors.col j) =
    fun i => vectors.leading P.A.rows i j := by
  funext i
  simp [Coords.vector, Dense.col, rows]

include stored factor rows in
lemma inner_recovered
    (orthonormal : (vectors.leading P.A.rows).transpose * vectors.leading P.A.rows = 1)
    (j k : Fin P.A.rows) :
    P.inner ((recovered L (vectors.col j)).map .ofReal)
      ((recovered L (vectors.col k)).map .ofReal) = if j = k then 1 else 0 := by
  obtain ⟨product, -⟩ := factorMatrix_spec factor
  have back (j : Fin P.A.rows) :=
    (recovered_spec factor ((Dense.size_col vectors j).trans rows)).2
  have entry := congrFun (congrFun orthonormal j) k
  rw [Matrix.mul_apply, Matrix.one_apply] at entry
  rw [inner_ofReal stored, ← product, ← Matrix.mulVec_mulVec, Matrix.dotProduct_mulVec,
    ← Matrix.mulVec_transpose, back, back, vector_col rows, vector_col rows]
  refine (congrArg Cplx.ofReal entry).trans ?_
  split <;> rfl

include stored factor rows in
lemma orthonormal_recoveredPairs (size : θs.size = P.A.rows)
    (orthonormal : (vectors.leading P.A.rows).transpose * vectors.leading P.A.rows = 1) :
    P.Orthonormal ((recoveredPairs T σ L θs vectors).map (·.vector)) := by
  have products := inner_recovered stored factor rows orthonormal
  rw [recoveredPairs_eq, List.map_map]
  refine ⟨fun x mem => ?_, ?_⟩
  · obtain ⟨j, kept, rfl⟩ := List.mem_map.1 mem
    have inside := (of_mem_keptNumbers kept).1.trans_eq size
    exact (products ⟨j, inside⟩ ⟨j, inside⟩).trans (if_pos rfl)
  · rw [List.pairwise_map]
    have nodup : (keptNumbers T θs).Nodup := List.nodup_range.filter _
    refine nodup.imp_of_mem fun {j k} hj hk apart => ?_
    have hj := (of_mem_keptNumbers hj).1.trans_eq size
    have hk := (of_mem_keptNumbers hk).1.trans_eq size
    exact (products ⟨j, hj⟩ ⟨k, hk⟩).trans (if_neg fun same => apart (Fin.mk.inj same))

include stored factor rows in
lemma isEigenpair_recoveredPairs (size : θs.size = P.A.rows)
    {C : Matrix (Fin P.A.rows) (Fin P.A.rows) α} (reduced : P.IsReduced T σ (P.factorMatrix L) C)
    (eigen : C * vectors.leading P.A.rows =
      vectors.leading P.A.rows * Matrix.diagonal fun j : Fin P.A.rows => θs.getD j 0) :
    ∀ p ∈ recoveredPairs T σ L θs vectors, P.IsEigenpair p := by
  rw [recoveredPairs_eq]
  intro p mem
  obtain ⟨j, kept, rfl⟩ := List.mem_map.1 mem
  obtain ⟨inside, nonzero⟩ := of_mem_keptNumbers kept
  obtain ⟨fits, back⟩ := recovered_spec factor ((Dense.size_col vectors j).trans rows)
  refine reduced.isEigenpair stored factor fits back ?_ nonzero
  let k : Fin P.A.rows := ⟨j, inside.trans_eq size⟩
  have column := congrArg (fun M : Matrix (Fin P.A.rows) (Fin P.A.rows) α => fun i => M i k) eigen
  rw [vector_col rows k]
  refine Eq.trans ?_ (column.trans ?_)
  · rfl
  · funext i
    rw [Matrix.mul_diagonal, Pi.smul_apply, smul_eq_mul, mul_comm]

end Basis

/-! ### What the symmetric path does -/

variable [Kernels α]

lemma exists_reduced? (eliminates : Kernels.Eliminates α) (stored : P.Stored)
    (symmetric : (P.A.leading P.A.rows).IsSymm) (factor : P.IsFactorOf L)
    (admitted : ¬P.Refused T σ) :
    ∃ C, P.reduced? T σ L = .ok C ∧ C.rows = P.A.rows ∧ C.cols = P.A.rows ∧
      P.IsReduced T σ (P.factorMatrix L) (C.leading P.A.rows) := by
  unfold IsReduced
  cases ht : T.type with
  | shift =>
    unfold reduced?
    cases L with
    | none =>
      refine ⟨P.A.sub ((Dense.identity P.A.rows).scale σ), by simp only [ht], rfl,
        stored.square, ?_⟩
      rw [leading_sub_scale_identity rfl stored.square, factorMatrix, Matrix.transpose_one,
        one_mul, mul_one]
    | some M =>
      have factor : M.IsFactor P.A.rows P.second.entry := factor
      obtain ⟨rows, cols⟩ := size_forwardCols M (M.forwardCols P.A).transpose
      have rows := rows.trans factor.rows
      have cols : (M.forwardCols (M.forwardCols P.A).transpose).cols = P.A.rows :=
        cols.trans factor.rows
      refine ⟨(M.forwardCols (M.forwardCols P.A).transpose).sub
        ((Dense.identity P.A.rows).scale σ), by simp only [ht], rows, cols, ?_⟩
      rw [leading_sub_scale_identity rows cols]
      exact (leading_reduced_shift stored factor).trans symmetric.eq
  | shiftInvert =>
    have regular : ¬P.Degenerate σ := fun h => admitted ⟨ht, h⟩
    obtain ⟨C, hC⟩ := exists_reduced?_of_inverts eliminates stored regular ht L
    obtain ⟨rows, cols, product⟩ := leading_of_reduced? eliminates stored ht factor.size hC
    exact ⟨C, hC, rows, cols, product⟩

lemma hermitian?_eq {budget : ℕ} {C : Dense α} (hL : P.factorB? = .ok L)
    (hC : P.reduced? T σ L = .ok C) : P.hermitian? T σ budget =
      .ok ((Kernels.symmetricEigen? budget (symmetrized C)).map fun found =>
        recoveredPairs T σ L found.1 found.2) := by
  unfold hermitian?
  rw [hL]
  simp only [bind, Except.bind]
  rw [hC]
  simp only
  cases Kernels.symmetricEigen? budget (symmetrized C) with
  | none => rfl
  | some found => rfl

lemma exists_isFactorOf (factors : Kernels.FactorsExactly α) (stored : P.Stored)
    (positive : ∀ B, P.B = some B → PosDef P.A.rows B.entry) :
    ∃ L, P.factorB? = .ok L ∧ P.IsFactorOf L := by
  unfold factorB? IsFactorOf second
  cases hB : P.B with
  | none => exact ⟨none, rfl, rfl⟩
  | some B =>
    obtain ⟨rows, cols⟩ := stored.conform B hB
    obtain ⟨L, found, factor⟩ := factors B (cols.trans rows.symm) (rows.symm ▸ positive B hB)
    refine ⟨some L, by simp only [found], ?_⟩
    rw [rows] at factor
    exact factor

end Pencil

end Eigenmesh
