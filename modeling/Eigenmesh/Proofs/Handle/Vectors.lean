import Mathlib.LinearAlgebra.LinearIndependent.Defs
import Eigenmesh.Proofs.Handle.Solve
import Eigenmesh.Proofs.Scalar.Elimination

/-!
The vectors that a solve on the general path reports.

Inverse iteration starts from the same vector for every eigenvalue and sees nothing of the vectors
found before. So a vector depends on its eigenvalue only, and an eigenvalue that is found several
times comes with one vector several times.
-/

namespace Eigenmesh

variable {α : Type} [Scalar.Exact α]

namespace Transform

/-- The eigenvalue of the transformed matrix that an eigenvalue of the problem comes from. -/
def forth (T : Transform α) (z : Cplx α) (σ : α) : Cplx α :=
  match T.type with
  | .shift => z.shift (-σ)
  | .shiftInvert => (z.shift (-σ)).inv

lemma forth_back (T : Transform α) (θ : Cplx α) (σ : α) : T.forth (T.back θ σ) σ = θ := by
  have undone (z : Cplx α) : (z.shift σ).shift (-σ) = z := by
    rw [Cplx.shift_eq, Cplx.shift_eq, Cplx.ofReal_neg, add_neg_cancel_right]
  unfold forth back
  cases T.type with
  | shift => exact undone θ
  | shiftInvert =>
    simp only [undone]
    exact inv_inv θ

end Transform

/-- The modes that count as converged. -/
def Solution.reported (r : Solution α) : List (Mode α) := r.modes.take r.converged

/-- The vectors of these modes, with so many entries. -/
def Solution.vectors (r : Solution α) (n : ℕ) : Fin r.reported.length → Fin n → Cplx α :=
  fun i => Coords.vector n (r.reported.get i).vector

variable [Kernels α]

lemma Pencil.vector_of_general? {P : Pencil α} {T : Transform α} {σ : α} {budget : ℕ}
    {pairs : List (EigenPair α)} (h : P.general? T σ budget = .ok (some pairs)) :
    ∃ M, P.transformed? T σ = .ok M ∧
      ∀ p ∈ pairs, eigenvector? M.toCplx (T.forth p.value σ) = some p.vector := by
  obtain ⟨M, θs, hM, -, all⟩ := general?_eq_ok h
  refine ⟨M, hM, fun p hp => ?_⟩
  obtain ⟨i, hi, rfl⟩ := List.getElem_of_mem hp
  obtain ⟨x, iterated, found⟩ := all.get (all.length_eq ▸ hi) hi
  rw [List.get_eq_getElem] at found
  rw [found, Transform.forth_back]
  exact iterated

namespace Handle

variable {h : Handle α} {A : Mat α} {B : Option (Mat α)} {pairs : List (EigenPair α)}

lemma solution?_of_spectrum? {found : Bool × Option (List (EigenPair α))}
    (e : h.spectrum? A B = .ok found) : h.solution? A B = .ok (h.kept (pencil A B) found) := by
  unfold solution?
  rw [e]
  rfl

/-- The shift that a solve uses. -/
def shiftInForce (h : Handle α) : α := h.transform.effectiveShift h.target

lemma general?_of_spectrum? (found : h.spectrum? A B = .ok (false, some pairs)) :
    (pencil A B).general? h.transform h.shiftInForce (h.maxIterations.getD 0) =
      .ok (some pairs) := by
  unfold spectrum? at found
  split at found
  · cases found
  · split at found
    · unfold lapack? at found
      split at found
      · split at found
        · cases found
        · split at found
          · exact general?_eq_ok found
          · cases found
        · cases found
      · exact general?_eq_ok found
    · rename_i symmetric _ _ _
      cases hl : h.lanczos? A (pencil A B) symmetric with
      | error f => rw [hl] at found; cases found
      | ok l => rw [hl] at found; cases found

/-- Every stored vector is the scaled result of inverse iteration for its eigenvalue. -/
def Iterated (h : Handle α) (P : Pencil α) (r : Solution α) : Prop :=
  ∃ M, P.transformed? h.transform h.shiftInForce = .ok M ∧
    ∀ m ∈ r.modes, ∃ x,
      Pencil.eigenvector? M.toCplx (h.transform.forth m.value h.shiftInForce) = some x ∧
      m.vector = Solution.normalize (P.B.map Dense.toCplx) false x

/-- The reported vectors depend on their eigenvalues only. -/
structure OnePerValue (h : Handle α) (A : Mat α) (B : Option (Mat α)) (r : Solution α) :
    Prop where
  iterated : h.Iterated (pencil A B) r
  independent : LinearIndependent (Cplx α) (r.vectors A.rows) →
    Function.Injective fun i : Fin r.reported.length => (r.reported.get i).value

lemma Iterated.vector_eq {P : Pencil α} {r : Solution α} (iterated : h.Iterated P r)
    {m m' : Mode α} (hm : m ∈ r.modes) (hm' : m' ∈ r.modes) (same : m.value = m'.value) :
    m.vector = m'.vector := by
  obtain ⟨M, -, all⟩ := iterated
  obtain ⟨x, found, vector⟩ := all m hm
  obtain ⟨x', found', vector'⟩ := all m' hm'
  rw [same, found'] at found
  rw [vector, vector', Option.some.inj found]

omit [Kernels α] in
lemma length_modes_kept (P : Pencil α) (hermitian : Bool) :
    (h.kept P (hermitian, some pairs)).modes.length = min h.wanted pairs.length := by
  unfold kept Solution.ofSpectrum Solution.sorted
  simp only [List.length_map, List.length_take, List.length_mergeSort]

/-- **An eigenvalue that is reported twice has its vector reported twice.** A solve that comes to a
spectrum of the general path succeeds and stores as much of it as is wanted. Each stored vector is
the scaled result of inverse iteration for its eigenvalue, so that the reported vectors are
independent only if the eigenvalues are different. -/
theorem onePerValue_of_general (ready : h.ready? = .ok (A, B))
    (found : h.spectrum? A B = .ok (false, some pairs)) :
    ∃ r, h.solve = (h.solved r, .ok ()) ∧ r.modes.length = min h.wanted pairs.length ∧
      h.OnePerValue A B r := by
  obtain ⟨M, transformed, all⟩ := Pencil.vector_of_general? (general?_of_spectrum? found)
  refine ⟨_, solve_of_ok ready (solution?_of_spectrum? found), length_modes_kept _ _, ?_⟩
  have iterated : h.Iterated (pencil A B) (h.kept (pencil A B) (false, some pairs)) := by
    refine ⟨M, transformed, fun m hm => ?_⟩
    -- sorting and cutting off leave pairs of the spectrum
    obtain ⟨p, hp, rfl⟩ := List.mem_map.1 hm
    exact ⟨p.vector, all p (List.mem_mergeSort.1 (List.mem_of_mem_take hp)), rfl⟩
  refine ⟨iterated, fun independent i j same => ?_⟩
  have stored (i) : (h.kept (pencil A B) (false, some pairs)).reported.get i ∈
      (h.kept (pencil A B) (false, some pairs)).modes := List.mem_of_mem_take (List.get_mem _ i)
  exact independent.injective
    (congrArg (Coords.vector A.rows) (iterated.vector_eq (stored i) (stored j) same))

omit [Kernels α] in
lemma kept_replicate {P : Pencil α} {p : EigenPair α} {k : ℕ} (enough : h.wanted ≤ k)
    (accurate : (Solution.ofPair P.A.toCplx (P.B.map Dense.toCplx) false p).error ≤
      h.toleranceInForce) :
    h.kept P (false, some (List.replicate k p)) =
      ⟨List.replicate h.wanted (Solution.ofPair P.A.toCplx (P.B.map Dense.toCplx) false p),
        h.wanted⟩ := by
  have sorted : Solution.sorted h.which (h.target.getD 0) (List.replicate k p) =
      List.replicate k p := List.perm_replicate.1 (List.mergeSort_perm _ _)
  unfold kept Solution.ofSpectrum
  simp only [sorted, List.take_replicate, Nat.min_eq_left enough, List.map_replicate]
  rw [List.takeWhile_replicate, if_pos (decide_eq_true accurate), List.length_replicate]

/-- A handle that is to find so many eigenvalues of a diagonal matrix without regard to its
symmetry. -/
def unsymmetric (values : List ℚ) (wanted : ℕ) (T : Transform ℚ) : Handle ℚ :=
  { fresh with
    A := some (.dense 0 (Rational.diagonal values))
    problem := some .nonHermitian
    wanted := wanted
    transform := T }

/-- All four eigenvalues of a multiple of the identity are found, with shift-and-invert as well. -/
theorem onePerValue_of_general_inverting :
    letI := Rational.elimination
    let A : Mat ℚ := .dense 0 (Rational.diagonal [3, 3, 3, 3])
    let h := unsymmetric [3, 3, 3, 3] 4 ⟨.shiftInvert, some 1⟩
    ∃ pairs, h.ready? = .ok (A, none) ∧ h.spectrum? A none = .ok (false, some pairs) ∧
      pairs.length = 4 ∧ ∃ r, h.solve = (h.solved r, .ok ()) ∧
        r.modes.length = min h.wanted pairs.length ∧ h.OnePerValue A none r := by
  let := Rational.elimination
  intro A h
  have ready : h.ready? = .ok (A, none) :=
    ready?_eq_ok.2 ⟨rfl, rfl, by decide +kernel, nofun⟩
  obtain ⟨⟨hermitian, o⟩, found, shape⟩ : ∃ found, h.spectrum? A none = .ok found ∧
      (found.1, found.2.map List.length) = (false, some 4) := exists_of_toOption (by decide +kernel)
  obtain ⟨rfl, lengths⟩ := Prod.mk.inj shape
  obtain ⟨pairs, rfl, four⟩ := Option.map_eq_some_iff.1 lengths
  have outcome := @onePerValue_of_general ℚ _ Rational.elimination h A none pairs ready found
  exact ⟨pairs, ready, found, four, outcome⟩

/-- What inverse iteration comes to for the identity of size four. -/
def halves : EigenPair ℚ := ⟨1, Array.replicate 4 (.ofReal (-1 / 2))⟩

/-- **One vector for a repeated eigenvalue.** The first two eigenpairs of the identity are accurate,
and their vectors are one vector. -/
theorem repeated_vector :
    letI := Rational.elimination
    let A : Mat ℚ := .dense 0 (Rational.diagonal [1, 1, 1, 1])
    let h := unsymmetric [1, 1, 1, 1] 2 .default
    Kernels.Eliminates ℚ ∧ Kernels.Diagonalizes ℚ ∧
      (∀ M : Dense (Cplx ℚ), M.Regular → ∀ b, b.size = M.rows →
        ∃ x, (Kernels.complexLu M).solve? b = some x ∧ M.Solves x b) ∧
      h.solver = .lapack ∧ (∃ pairs, h.spectrum? A none = .ok (false, some pairs)) ∧
      (∃ M, (pencil A none).transformed? h.transform h.shiftInForce = .ok M ∧ M.IsDiagonal) ∧
      ∃ r, h.solve = (h.solved r, .ok ()) ∧ r.converged = 2 ∧
        ¬LinearIndependent (Cplx ℚ) (r.vectors A.rows) := by
  let := Rational.elimination
  intro A h
  have ready : h.ready? = .ok (A, none) :=
    ready?_eq_ok.2 ⟨rfl, rfl, by decide +kernel, nofun⟩
  obtain ⟨_, found, rfl⟩ : ∃ found, h.spectrum? A none = .ok found ∧
      found = (false, some (List.replicate 4 halves)) :=
    exists_of_toOption (f := id) (by decide +kernel)
  have kept := @kept_replicate ℚ _ h (pencil A none) halves 4 (by decide) (by decide +kernel)
  have computed := (solution?_of_spectrum? found).trans (congrArg Except.ok kept)
  refine ⟨Rational.eliminates, Rational.diagonalizes, fun M regular b size =>
    regular.exists_solve? size, rfl, ⟨_, found⟩, ⟨_, rfl, by decide +kernel⟩, _,
    solve_of_ok ready computed, rfl, fun independent => ?_⟩
  have same : (0 : Fin 2) = 1 := independent.injective rfl
  exact absurd same (by decide)

end Handle

end Eigenmesh
