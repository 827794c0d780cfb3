import Mathlib.Data.Nat.Notation
import Mathlib.Tactic.Common
import Eigenmesh.Proofs.Lists
import Eigenmesh.Solver.Handle

/-!
The size of eigenvectors.

If the decompositions return vectors that fit the matrix they are given, then every eigenvector of
a pencil has as many entries as the pencil has rows: transformations, reductions and inverse
iteration all keep the size.
-/

namespace Eigenmesh

/-- The decompositions return vectors that fit the matrix. -/
structure Kernels.Fits (α : Type) [Scalar α] [Kernels α] : Prop where
  cholesky : ∀ (A L : Dense α), Kernels.cholesky? A = some L → L.rows = A.rows ∧ L.cols = A.rows
  complexLu : ∀ (A : Dense (Cplx α)) (b x : Array (Cplx α)),
    (Kernels.complexLu A).solve? b = some x → x.size = A.rows
  symmetricEigen : ∀ (budget : ℕ) (A : Dense α) (values : Array α) (vectors : Dense α),
    Kernels.symmetricEigen? budget A = some (values, vectors) → vectors.rows = A.rows
  lanczos : ∀ (steps : ℕ) (A : Csr α) (pairs : List (α × Array α)),
    Kernels.lanczos? steps A = some pairs → ∀ p ∈ pairs, p.2.size = A.rows

/-! ### Dense matrices -/

namespace Dense

variable {α β : Type}

@[simp] lemma size_col [Zero α] (A : Dense α) (j : ℕ) : (A.col j).size = A.rows := Array.size_ofFn

@[simp] lemma rows_ofCols [Zero α] (rows : ℕ) (columns : Array (Array α)) :
    (ofCols rows columns).rows = rows := rfl

variable [Scalar α]

@[simp] lemma rows_sub (A B : Dense α) : (A.sub B).rows = A.rows := rfl

@[simp] lemma rows_toCplx (A : Dense α) : A.toCplx.rows = A.rows := rfl

lemma size_backwardFrom (L : Dense α) (i : ℕ) (x : Array α) :
    (L.backwardFrom i x).size = x.size := by
  induction i generalizing x with
  | zero => rfl
  | succ i ih =>
    unfold backwardFrom
    rw [ih, Array.size_setIfInBounds]

lemma size_backward (L : Dense α) (b : Array α) : (L.backward b).size = b.size :=
  size_backwardFrom L L.rows b

end Dense

lemma Csr.rows_toDense {α : Type} [Scalar α] (A : Csr α) : A.toDense.rows = A.rows := rfl

lemma Csr.cols_toDense {α : Type} [Scalar α] (A : Csr α) : A.toDense.cols = A.cols := rfl

lemma Mat.rows_toDense {α : Type} [Scalar α] (M : Mat α) : M.toDense.rows = M.rows := by
  cases M with
  | aij n A => simp only [Mat.toDense, Mat.rows, Csr.rows_toDense]
  | dense n A => simp only [Mat.toDense, Mat.rows]
  | shell n op => simp only [Mat.toDense, Mat.rows, Operator.probeDense, Dense.rows_ofCols]

lemma Mat.cols_toDense {α : Type} [Scalar α] (M : Mat α) : M.toDense.cols = M.cols := by
  cases M with
  | aij n A => simp only [Mat.toDense, Mat.cols, Csr.cols_toDense]
  | dense n A => simp only [Mat.toDense, Mat.cols]
  | shell n op =>
    simp only [Mat.toDense, Mat.cols, Operator.probeDense]
    exact Array.size_map.trans Array.size_range

lemma Mat.toDense_of_csr? {α : Type} [Scalar α] {M : Mat α} {A : Csr α} (h : M.csr? = some A) :
    M.toDense = A.toDense := by
  cases M with
  | aij n A' =>
    obtain rfl := Option.some.inj h
    simp only [Mat.toDense]
  | dense n A' => cases h
  | shell n op => cases h

lemma Mat.rows_of_csr? {α : Type} {M : Mat α} {A : Csr α} (h : M.csr? = some A) :
    A.rows = M.rows := by
  cases M with
  | aij n A' =>
    obtain rfl := Option.some.inj h
    simp only [Mat.rows]
  | dense n A' => cases h
  | shell n op => cases h

/-! ### Pencils -/

namespace Pencil

variable {α : Type} [Scalar α] [Kernels α] {P : Pencil α} {T : Transform α} {σ : α} {budget : ℕ}
  {pairs : List (EigenPair α)}

lemma rows_of_solveShifted? {rhs X : Dense α} (h : P.solveShifted? σ rhs = .ok X) :
    X.rows = P.A.rows := by
  unfold solveShifted? at h
  simp only at h
  split at h
  · cases h
  · split at h
    · split at h
      · obtain rfl := Except.ok.inj h; rfl
      · cases h
      · cases h
    · obtain rfl := Except.ok.inj h; rfl

lemma rows_of_transformed? {M : Dense α} (h : P.transformed? T σ = .ok M) :
    M.rows = P.A.rows := by
  unfold transformed? at h
  simp only at h
  split at h
  · split at h
    · rename_i C hC
      obtain rfl := Except.ok.inj h
      split at hC
      · obtain ⟨columns, -, rfl⟩ := Option.map_eq_some_iff.1 hC
        rfl
      · obtain rfl := Option.some.inj hC
        rfl
    · cases h
  · exact rows_of_solveShifted? h

lemma hermitian?_eq_ok (h : P.hermitian? T σ budget = .ok (some pairs)) :
    ∃ L C θs vectors, P.factorB? = .ok L ∧ P.reduced? T σ L = .ok C ∧
      Kernels.symmetricEigen? budget (symmetrized C) = some (θs, vectors) ∧
      pairs = θs.toList.zipIdx.filterMap fun (θ, j) =>
        if T.type = .shiftInvert ∧ Scalar.abs θ < Scalar.epsilon then none
        else some ⟨T.back (.ofReal θ) σ,
          (match L with
            | some L => L.backward (vectors.col j)
            | none => vectors.col j).map .ofReal⟩ := by
  unfold hermitian? at h
  cases hL : P.factorB? with
  | error e => rw [hL] at h; cases h
  | ok L =>
    rw [hL] at h
    simp only [bind, Except.bind] at h
    cases hC : P.reduced? T σ L with
    | error e => rw [hC] at h; cases h
    | ok C =>
      rw [hC] at h
      simp only at h
      cases hE : Kernels.symmetricEigen? budget (symmetrized C) with
      | none => rw [hE] at h; cases h
      | some E =>
        obtain ⟨θs, vectors⟩ := E
        rw [hE] at h
        obtain rfl := Option.some.inj (Except.ok.inj h)
        exact ⟨L, C, θs, vectors, rfl, hC, hE, rfl⟩

lemma general?_eq_ok (h : P.general? T σ budget = .ok (some pairs)) :
    ∃ M θs, P.transformed? T σ = .ok M ∧ Kernels.eigenvalues? budget M = some θs ∧
      List.Forall₂ (fun θ p => ∃ x, eigenvector? M.toCplx θ = some x ∧ p = ⟨T.back θ σ, x⟩)
        (θs.filter fun θ => !(T.type = .shiftInvert ∧ θ.norm < Scalar.epsilon)) pairs := by
  unfold general? at h
  cases hM : P.transformed? T σ with
  | error e => rw [hM] at h; cases h
  | ok M =>
    rw [hM] at h
    simp only [bind, Except.bind] at h
    cases hE : Kernels.eigenvalues? budget M with
    | none => rw [hE] at h; cases h
    | some θs =>
      rw [hE] at h
      simp only at h
      split at h
      · cases h
      · rename_i found iterated
        obtain rfl := Option.some.inj (Except.ok.inj h)
        refine ⟨M, θs, rfl, hE, (forall₂_of_mapM_eq_ok iterated).imp fun θ p hp => ?_⟩
        split at hp
        · rename_i x hx
          exact ⟨x, hx, (Except.ok.inj hp).symm⟩
        · cases hp

variable (fits : Kernels.Fits α)
include fits

lemma size_of_factorB? {L : Dense α} (square : ∀ B, P.B = some B → B.rows = P.A.rows)
    (h : P.factorB? = .ok (some L)) : L.rows = P.A.rows ∧ L.cols = P.A.rows := by
  unfold factorB? at h
  split at h
  · cases h
  · rename_i B hB
    split at h
    · rename_i L' hL
      obtain rfl := Option.some.inj (Except.ok.inj h)
      rw [← square B hB]
      exact fits.cholesky B L' hL
    · cases h

omit [Kernels α] fits in
lemma rows_symmetrized (A : Dense α) : (symmetrized A).rows = A.rows := rfl

omit fits in
lemma rows_of_reduced? {L : Option (Dense α)} {C : Dense α}
    (factor : ∀ M, L = some M → M.rows = P.A.rows ∧ M.cols = P.A.rows)
    (h : P.reduced? T σ L = .ok C) : C.rows = P.A.rows := by
  unfold reduced? at h
  simp only at h
  split at h
  · obtain rfl := Except.ok.inj h
    rw [Dense.rows_sub]
    cases L with
    | none => rfl
    | some M => exact (factor M rfl).1
  · cases L with
    | none => exact rows_of_solveShifted? h
    | some M =>
      simp only at h
      cases hX : P.solveShifted? σ M with
      | error e => rw [hX] at h; cases h
      | ok X =>
        rw [hX] at h
        obtain rfl := Except.ok.inj h
        exact (factor M rfl).2

theorem size_of_mem_hermitian? (square : ∀ B, P.B = some B → B.rows = P.A.rows)
    (h : P.hermitian? T σ budget = .ok (some pairs)) :
    ∀ p ∈ pairs, p.vector.size = P.A.rows := by
  obtain ⟨L, C, values, vectors, hL, hC, hE, rfl⟩ := hermitian?_eq_ok h
  have factor : ∀ M, L = some M → M.rows = P.A.rows ∧ M.cols = P.A.rows := by
    rintro M rfl
    exact size_of_factorB? fits square hL
  have rows : vectors.rows = P.A.rows := by
    rw [fits.symmetricEigen _ _ _ _ hE, rows_symmetrized, rows_of_reduced? factor hC]
  intro p hp
  obtain ⟨⟨θ, j⟩, -, hp⟩ := List.mem_filterMap.1 hp
  simp only at hp
  split at hp
  · cases hp
  · obtain rfl := Option.some.inj hp
    -- without a factor the columns are the eigenvectors, with one they are solved back
    cases L with
    | none => simp [rows]
    | some M => simp [Dense.size_backward, rows]

lemma size_of_inverseStep? {M : Dense (Cplx α)} {x y : Array (Cplx α)}
    (h : inverseStep? (Kernels.complexLu M) x = some y) : y.size = M.rows := by
  unfold inverseStep? at h
  obtain ⟨z, hz, h⟩ := Option.bind_eq_some_iff.1 h
  simp only at h
  split at h
  · obtain rfl := Option.some.inj h
    rw [Array.size_map]
    exact fits.complexLu _ _ _ hz
  · cases h

lemma size_of_eigenvector? {M : Dense (Cplx α)} {θ : Cplx α} {x : Array (Cplx α)}
    (h : eigenvector? M θ = some x) : x.size = M.rows := by
  unfold eigenvector? at h
  obtain ⟨ε, -, h⟩ := List.exists_of_findSome?_eq_some h
  unfold inverseSteps? at h
  obtain ⟨x₁, -, h⟩ := Option.bind_eq_some_iff.1 h
  obtain ⟨x₂, -, h⟩ := Option.bind_eq_some_iff.1 h
  have size := size_of_inverseStep? fits h
  exact size

theorem size_of_mem_general? (h : P.general? T σ budget = .ok (some pairs)) :
    ∀ p ∈ pairs, p.vector.size = P.A.rows := by
  obtain ⟨M, θs, hM, -, all⟩ := general?_eq_ok h
  intro p hp
  obtain ⟨i, hi, rfl⟩ := List.getElem_of_mem hp
  obtain ⟨x, hx, found⟩ := all.get (all.length_eq ▸ hi) hi
  rw [List.get_eq_getElem] at found
  rw [found, ← rows_of_transformed? hM, ← Dense.rows_toCplx M]
  exact size_of_eigenvector? fits hx

end Pencil

/-! ### Handles -/

namespace Handle

variable {α : Type} [Scalar α] [Kernels α] {h : Handle α} {A : Mat α} {B : Option (Mat α)}

omit [Kernels α] in
lemma rows_pencil (A : Mat α) (B : Option (Mat α)) : (pencil A B).A.rows = A.rows :=
  A.rows_toDense

lemma size_of_mem_lanczos? (fits : Kernels.Fits α) {P : Pencil α} {hermitian : Bool}
    {pairs : List (EigenPair α)} (e : h.lanczos? A P hermitian = .ok pairs) :
    ∀ p ∈ pairs, p.vector.size = A.rows := by
  unfold lanczos? at e
  simp only at e
  split at e
  · cases e
  · split at e
    · cases e
    · split at e
      · cases e
      · split at e
        · cases e
        · rename_i csr hcsr
          split at e
          · rename_i found hfound
            obtain rfl := Except.ok.inj e
            intro p hp
            obtain ⟨⟨θ, x⟩, hx, rfl⟩ := List.mem_map.1 hp
            have size := fits.lanczos _ _ _ hfound _ hx
            simp only [Array.size_map]
            rw [size, Mat.rows_of_csr? hcsr]
          · cases e

lemma general?_eq_ok {P : Pencil α} {hermitian : Bool} {pairs : List (EigenPair α)}
    (e : h.general? P = .ok (hermitian, some pairs)) :
    P.general? h.transform (h.transform.effectiveShift h.target) (h.maxIterations.getD 0) =
      .ok (some pairs) := by
  unfold general? at e
  cases hs : P.general? h.transform (h.transform.effectiveShift h.target)
      (h.maxIterations.getD 0) with
  | error f => rw [hs] at e; cases e
  | ok found =>
    rw [hs] at e
    rw [(Prod.mk.inj (Except.ok.inj e)).2]

lemma size_of_mem_lapack? (fits : Kernels.Fits α) {P : Pencil α} {symmetric hermitian : Bool}
    {pairs : List (EigenPair α)} (square : ∀ B, P.B = some B → B.rows = P.A.rows)
    (e : h.lapack? P symmetric = .ok (hermitian, some pairs)) :
    ∀ p ∈ pairs, p.vector.size = P.A.rows := by
  unfold lapack? at e
  split at e
  · split at e
    · rename_i found hs
      obtain ⟨-, rfl⟩ := Prod.mk.inj (Except.ok.inj e)
      exact Pencil.size_of_mem_hermitian? fits square hs
    · split at e
      · exact Pencil.size_of_mem_general? fits (general?_eq_ok e)
      · cases e
    · cases e
  · exact Pencil.size_of_mem_general? fits (general?_eq_ok e)

/-- **Every eigenvector of a spectrum has as many entries as the matrices have rows.** -/
theorem size_of_mem_spectrum? (fits : Kernels.Fits α) {hermitian : Bool}
    {pairs : List (EigenPair α)} (conform : ∀ M, B = some M → M.rows = A.rows)
    (e : h.spectrum? A B = .ok (hermitian, some pairs)) :
    ∀ p ∈ pairs, p.vector.size = A.rows := by
  unfold spectrum? at e
  split at e
  · cases e
  · split at e
    · rw [← rows_pencil A B]
      refine size_of_mem_lapack? fits (fun M hM => ?_) e
      obtain ⟨N, hN, rfl⟩ := Option.map_eq_some_iff.1 hM
      rw [Mat.rows_toDense, rows_pencil, conform N hN]
    · rename_i symmetric _ _ _
      cases hs : h.lanczos? A (pencil A B) symmetric with
      | error f => rw [hs] at e; cases e
      | ok found =>
        rw [hs] at e
        obtain ⟨-, e⟩ := Prod.mk.inj (Except.ok.inj e)
        obtain rfl := Option.some.inj e
        exact size_of_mem_lanczos? fits hs

omit [Kernels α] in
lemma size_normalize (B : Option (Dense (Cplx α))) (hermitian : Bool) (x : Array (Cplx α)) :
    (Solution.normalize B hermitian x).size = x.size := by
  unfold Solution.normalize
  simp only
  split
  · rfl
  · split
    · rfl
    · rw [Array.size_map]

lemma size_of_mem_modes (fits : Kernels.Fits α) {r : Solution α}
    (conform : ∀ M, B = some M → M.rows = A.rows) (e : h.solution? A B = .ok r) :
    ∀ m ∈ r.modes, m.vector.size = A.rows := by
  unfold solution? at e
  cases hs : h.spectrum? A B with
  | error f => rw [hs] at e; cases e
  | ok found =>
    obtain ⟨hermitian, _ | pairs⟩ := found
    · rw [hs] at e
      obtain rfl := Except.ok.inj e
      intro m hm
      cases hm
    · rw [hs] at e
      obtain rfl := Except.ok.inj e
      intro m hm
      obtain ⟨p, hp, rfl⟩ := List.mem_map.1 hm
      have mem : p ∈ pairs := List.mem_mergeSort.1 (List.mem_of_mem_take hp)
      change (Solution.normalize _ hermitian p.vector).size = A.rows
      rw [size_normalize, size_of_mem_spectrum? fits conform hs p mem]

end Handle

end Eigenmesh
