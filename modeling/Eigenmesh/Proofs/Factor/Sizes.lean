import Mathlib.Tactic.Common
import Eigenmesh.Factor.Backend
import Eigenmesh.Proofs.Spectrum.Sizes

/-!
The decompositions of matrices of doubles return vectors that fit the matrix.
-/

namespace Eigenmesh.Factor

lemma size_of_cholesky? {A L : Dense Float} (h : cholesky? A = some L) :
    L.rows = A.rows ∧ L.cols = A.rows := by
  unfold cholesky? at h
  obtain ⟨d, -, h⟩ := Option.bind_eq_some_iff.1 h
  obtain rfl := Option.some.inj h
  exact ⟨rfl, rfl⟩

lemma rows_of_symmetricEigen? {budget : ℕ} {A vectors : Dense Float} {values : Array Float}
    (h : symmetricEigen? budget A = some (values, vectors)) : vectors.rows = A.rows := by
  unfold symmetricEigen? at h
  obtain ⟨T, -, h⟩ := Option.bind_eq_some_iff.1 h
  obtain ⟨-, rfl⟩ := Prod.mk.inj (Option.some.inj h)
  rfl

lemma ComplexEliminated.size_ofStore (n : ℕ) (d : FloatArray) : (ofStore n d).size = n := by
  unfold ofStore
  rw [Nat.fold_eq_finRange_foldl]
  refine List.foldlRecOn (motive := fun f : ComplexEliminated => f.size = n) _ _ rfl ?_
  rintro ⟨m, d, exchanges⟩ hm j -
  simp only at hm ⊢
  split
  · exact hm
  · exact hm

lemma size_of_complexLu {A : Dense (Cplx Float)} {b x : Array (Cplx Float)}
    (h : (complexLu A).solve? b = some x) : x.size = A.rows := by
  unfold complexLu ComplexEliminated.solve? at h
  simp only at h
  split at h
  · cases h
  · obtain rfl := Option.some.inj h
    rw [Array.size_ofFn, ComplexEliminated.size_ofStore]

lemma size_of_lanczos? {steps : ℕ} {A : Csr Float} {pairs : List (Float × Array Float)}
    (h : lanczos? steps A = some pairs) : ∀ p ∈ pairs, p.2.size = A.rows := by
  unfold lanczos? at h
  obtain ⟨⟨basis, diagonal, beside⟩, -, h⟩ := Option.bind_eq_some_iff.1 h
  obtain ⟨T, -, h⟩ := Option.bind_eq_some_iff.1 h
  obtain rfl := Option.some.inj h
  intro p hp
  obtain ⟨j, -, rfl⟩ := List.mem_map.1 hp
  -- each vector is a sum that starts from zero and takes the size of its first operand
  refine List.foldlRecOn (motive := fun x : Array Float => x.size = A.rows) _ _ ?_ ?_
  · exact Array.size_replicate
  · intro x hx k _
    rw [← hx]
    exact Array.size_ofFn

/-- **The decompositions of doubles keep the size of what they decompose.** -/
theorem fits : Kernels.Fits Float where
  cholesky _ _ h := size_of_cholesky? h
  complexLu _ _ _ h := size_of_complexLu h
  symmetricEigen _ _ _ _ h := rows_of_symmetricEigen? h
  lanczos _ _ _ h := size_of_lanczos? h

end Eigenmesh.Factor
