import Eigenmesh.Proofs.Dense.Matrices
import Eigenmesh.Proofs.Scalar.Complex
import Eigenmesh.Proofs.Scalar.Real
import Eigenmesh.Solver.Solution

/-!
Normalized vectors as representatives of complex lines.

A decomposition returns some vector of every line that is invariant. The length of a vector and the
phase of its pivot, the last entry of largest modulus, are all that is divided out, and neither is
left of a multiple: on every line there is one vector of length one with a positive pivot.
-/

namespace Eigenmesh.Solution

variable {α : Type} [Scalar.Exact α] {B : Option (Dense (Cplx α))} {hermitian : Bool} {n i : ℕ}
  {x y : Array (Cplx α)} {c d : Cplx α}

/-! ### Multiples of vectors -/

/-- A multiple of a vector. -/
def scaled (c : Cplx α) (x : Array (Cplx α)) : Array (Cplx α) := x.map (c * ·)

@[simp] lemma size_scaled (c : Cplx α) (x : Array (Cplx α)) : (scaled c x).size = x.size :=
  Array.size_map

@[simp] lemma getD_scaled (c : Cplx α) (x : Array (Cplx α)) (i : ℕ) :
    (scaled c x).getD i 0 = c * x.getD i 0 := by
  rw [scaled, Array.getD_eq_getD_getElem?, Array.getD_eq_getD_getElem?, Array.getElem?_map]
  cases x[i]? <;> simp

lemma scaled_scaled (c d : Cplx α) (x : Array (Cplx α)) :
    scaled c (scaled d x) = scaled (c * d) x := by
  simp only [scaled, Array.map_map, Function.comp_def, mul_assoc]

@[simp] lemma scaled_one (x : Array (Cplx α)) : scaled 1 x = x := by
  simp [scaled]

lemma mulVec_scaled (A : Dense (Cplx α)) (c : Cplx α) (x : Array (Cplx α)) :
    A.mulVec (scaled c x) = scaled c (A.mulVec x) := by
  refine (Coords.eq_iff_getD (by simp)).2 fun i hi => ?_
  rw [Dense.size_mulVec] at hi
  simp only [getD_scaled, A.getD_mulVec _ hi, Finset.mul_sum, mul_left_comm]

/-! ### Lengths -/

/-- What a vector is multiplied with for its length: its product with `B` for a symmetric pencil,
else itself. -/
def dual (B : Option (Dense (Cplx α))) (hermitian : Bool) (x : Array (Cplx α)) :
    Array (Cplx α) :=
  match B with
  | some B => if hermitian then B.mulVec x else x
  | none => x

/-- The square of the length: `xᴴ B x` for a symmetric pencil, else `xᴴ x`. -/
def square (B : Option (Dense (Cplx α))) (hermitian : Bool) (x : Array (Cplx α)) : Cplx α :=
  ∑ i ∈ Finset.range x.size, (x.getD i 0).conj * (dual B hermitian x).getD i 0

/-- For a symmetric pencil the matrix, if there is one, is positive definite: `xᴴ B x` is a positive
real number unless `x` is zero. Else it may be anything. -/
def Admissible (n : ℕ) (B : Option (Dense (Cplx α))) (hermitian : Bool) : Prop :=
  ∀ M, B = some M → hermitian = true → M.rows = n ∧ M.cols = n ∧
    ∀ x : Array (Cplx α), x.size = n → (∃ i, x.getD i 0 ≠ 0) → ∃ s, 0 < s ∧
      ∑ i ∈ Finset.range n, (x.getD i 0).conj * (M.mulVec x).getD i 0 = .ofReal s

lemma square_scaled (c : Cplx α) (x : Array (Cplx α)) :
    square B hermitian (scaled c x) = .ofReal c.normSq * square B hermitian x := by
  have multiple : dual B hermitian (scaled c x) = scaled c (dual B hermitian x) := by
    unfold dual
    split
    · split
      · exact mulVec_scaled _ c x
      · rfl
    · rfl
  rw [square, square, multiple, size_scaled, Finset.mul_sum]
  refine Finset.sum_congr rfl fun i _ => ?_
  rw [getD_scaled, getD_scaled, Cplx.conj_mul, mul_mul_mul_comm, Cplx.conj_mul_self]

lemma square_self (x : Array (Cplx α)) : ∑ i ∈ Finset.range x.size, (x.getD i 0).conj * x.getD i 0 =
    .ofReal (∑ i ∈ Finset.range x.size, (x.getD i 0).normSq) := by
  simp only [Cplx.conj_mul_self]
  exact (map_sum Cplx.ofRealHom _ _).symm

lemma Admissible.exists_square (admissible : Admissible n B hermitian) (size : x.size = n)
    (nonzero : ∃ i, x.getD i 0 ≠ 0) : ∃ s, 0 < s ∧ square B hermitian x = .ofReal s := by
  have plain : ∃ s, 0 < s ∧
      ∑ i ∈ Finset.range x.size, (x.getD i 0).conj * x.getD i 0 = .ofReal s := by
    obtain ⟨i, hi⟩ := nonzero
    have inside : i < x.size := by
      by_contra outside
      exact hi (by simp [outside])
    refine ⟨_, ?_, square_self x⟩
    exact Finset.sum_pos' (fun j _ => Cplx.normSq_nonneg _)
      ⟨i, Finset.mem_range.2 inside, Cplx.normSq_pos hi⟩
  unfold square dual
  cases B with
  | none => exact plain
  | some M =>
    cases hermitian with
    | false => exact plain
    | true =>
      obtain ⟨-, -, positive⟩ := admissible M rfl rfl
      rw [size]
      exact positive x size nonzero

lemma length_eq (B : Option (Dense (Cplx α))) (hermitian : Bool) (x : Array (Cplx α)) :
    length B hermitian x = Scalar.sqrt (square B hermitian x).re := by
  have plain : Coords.cplxNorm x =
      Scalar.sqrt (∑ i ∈ Finset.range x.size, (x.getD i 0).conj * x.getD i 0).re := by
    rw [square_self, Coords.cplxNorm, sumByEight_eq_sum]
    rfl
  unfold length square dual
  cases B with
  | none => exact plain
  | some M =>
    cases hermitian with
    | false => exact plain
    | true =>
      simp only [if_true, sumByEight_eq_sum]
      rfl

section Roots

variable [Scalar.Rooted α]

lemma length_scaled (admissible : Admissible n B hermitian) (size : x.size = n)
    (nonzero : ∃ i, x.getD i 0 ≠ 0) (c : Cplx α) :
    length B hermitian (scaled c x) = c.norm * length B hermitian x := by
  obtain ⟨s, pos, value⟩ := admissible.exists_square size nonzero
  rw [length_eq, length_eq, square_scaled, value, ← Cplx.ofReal_mul, ← Cplx.norm_mul_self]
  exact Scalar.sqrt_mul_self_mul c.norm_nonneg pos.le

lemma length_pos (admissible : Admissible n B hermitian) (size : x.size = n)
    (nonzero : ∃ i, x.getD i 0 ≠ 0) : 0 < length B hermitian x ∧
      square B hermitian x = .ofReal (length B hermitian x * length B hermitian x) := by
  obtain ⟨s, pos, value⟩ := admissible.exists_square size nonzero
  have root := Scalar.Rooted.mul_self_sqrt s pos.le
  rw [length_eq, value]
  refine ⟨(Scalar.Rooted.sqrt_nonneg s).lt_of_ne fun zero => ?_, ?_⟩
  · rw [← zero, mul_zero] at root
    exact pos.ne root
  · rw [show (Cplx.ofReal s).re = s from rfl, root]

end Roots

/-! ### The pivot -/

/-- The last entry of largest modulus stands at `i`. -/
structure IsPivot (x : Array (Cplx α)) (i : ℕ) : Prop where
  lt : i < x.size
  largest : ∀ j < x.size, (x.getD j 0).norm ≤ (x.getD i 0).norm
  last : ∀ j < x.size, i < j → (x.getD j 0).norm < (x.getD i 0).norm

lemma IsPivot.unique {j : ℕ} (hi : IsPivot x i) (hj : IsPivot x j) : i = j := by
  rcases lt_trichotomy i j with before | same | after
  · exact absurd (hj.largest i hi.lt) (not_le.2 (hi.last j hj.lt before))
  · exact same
  · exact absurd (hi.largest j hj.lt) (not_le.2 (hj.last i hi.lt after))

/-- One more entry takes over unless it is smaller. -/
lemma IsPivot.push (pivot : IsPivot x i) (z : Cplx α) :
    IsPivot (x.push z) (if (x.getD i 0).norm ≤ z.norm then x.size else i) := by
  have before {j : ℕ} (hj : j < x.size) : (x.push z).getD j 0 = x.getD j 0 :=
    (Dense.getD_push x z j).trans (if_neg hj.ne)
  have added : (x.push z).getD x.size 0 = z := (Dense.getD_push x z _).trans (if_pos rfl)
  have cases {j : ℕ} (hj : j < (x.push z).size) : j < x.size ∨ j = x.size := by
    rw [Array.size_push] at hj
    omega
  split
  case isTrue takes =>
    refine ⟨by simp, fun j hj => ?_, fun j hj after => ?_⟩
    · rcases cases hj with hj | rfl
      · rw [before hj, added]
        exact (pivot.largest j hj).trans takes
      · exact le_rfl
    · rcases cases hj with hj | rfl
      · exact absurd hj after.not_gt
      · exact absurd after (lt_irrefl _)
  case isFalse under =>
    refine ⟨?_, fun j hj => ?_, fun j hj after => ?_⟩
    · rw [Array.size_push]
      exact pivot.lt.trans (Nat.lt_succ_self _)
    · rw [before pivot.lt]
      rcases cases hj with hj | rfl
      · rw [before hj]
        exact pivot.largest j hj
      · rw [added]
        exact (not_le.1 under).le
    · rw [before pivot.lt]
      rcases cases hj with hj | rfl
      · rw [before hj]
        exact pivot.last j hj after
      · rw [added]
        exact not_le.1 under

lemma pivot?_push (x : Array (Cplx α)) (z : Cplx α) : pivot? (x.push z) =
    match pivot? x with
    | some p => if Scalar.ranks p.norm z.norm then some z else some p
    | none => some z := by
  rw [pivot?, Array.toList_push, List.foldl_concat]
  rfl

section Normalizing

variable [Scalar.Rooted α]

lemma IsPivot.scaled (pivot : IsPivot x i) (hc : c ≠ 0) : IsPivot (scaled c x) i where
  lt := (size_scaled c x).symm ▸ pivot.lt
  largest j hj := by
    rw [getD_scaled, getD_scaled, Cplx.norm_mul, Cplx.norm_mul]
    exact mul_le_mul_of_nonneg_left (pivot.largest j (size_scaled c x ▸ hj)) c.norm_nonneg
  last j hj after := by
    rw [getD_scaled, getD_scaled, Cplx.norm_mul, Cplx.norm_mul]
    exact mul_lt_mul_of_pos_left (pivot.last j (size_scaled c x ▸ hj) after) (Cplx.norm_pos hc)

lemma IsPivot.nonzero (pivot : IsPivot x i) (nonzero : ∃ j, x.getD j 0 ≠ 0) :
    x.getD i 0 ≠ 0 := by
  obtain ⟨j, hj⟩ := nonzero
  have inside : j < x.size := by
    by_contra outside
    exact hj (by simp [outside])
  intro zero
  have largest := (Cplx.norm_pos hj).trans_le (pivot.largest j inside)
  rw [zero, Cplx.norm_eq_re rfl le_rfl] at largest
  exact lt_irrefl _ largest

lemma exists_isPivot {m : ℕ} (size : x.size = m + 1) :
    ∃ i, IsPivot x i ∧ pivot? x = some (x.getD i 0) := by
  induction m generalizing x with
  | zero =>
    obtain ⟨y, z, rfl⟩ := Array.exists_push_of_size_eq_add_one size
    obtain rfl : y = #[] := by simpa using size
    refine ⟨0, ⟨Nat.one_pos, fun j hj => ?_, fun j hj after => ?_⟩, rfl⟩
    · obtain rfl : j = 0 := Nat.lt_one_iff.1 hj
      exact le_rfl
    · exact absurd after (Nat.lt_one_iff.1 hj).not_gt
  | succ m ih =>
    obtain ⟨y, z, rfl⟩ := Array.exists_push_of_size_eq_add_one size
    obtain ⟨i, pivot, found⟩ := ih (x := y) (by simpa using size)
    refine ⟨_, pivot.push z, ?_⟩
    rw [pivot?_push, found, Dense.getD_push]
    by_cases takes : (y.getD i 0).norm ≤ z.norm
    · rw [if_pos takes, if_pos rfl]
      exact if_pos ((Scalar.Rooted.ranks_iff _ _).2 takes)
    · rw [if_neg takes, if_neg pivot.lt.ne]
      exact if_neg (mt (Scalar.Rooted.ranks_iff _ _).1 takes)

/-- What a vector is multiplied with that has the pivot `p` and the length `l`. -/
def factor (p : Cplx α) (l : α) : Cplx α := (p.conj.unscale p.norm).unscale l

lemma normalize_eq (pivot : IsPivot x i) (nonzero : x.getD i 0 ≠ 0)
    (pos : 0 < length B hermitian x) : normalize B hermitian x =
      scaled (factor (x.getD i 0) (length B hermitian x)) x := by
  obtain ⟨m, size⟩ := Nat.exists_eq_add_one_of_ne_zero (Nat.ne_zero_of_lt pivot.lt)
  obtain ⟨j, pivot', found⟩ := exists_isPivot size
  obtain rfl := pivot.unique pivot'
  have regular : (length B hermitian x == 0 || (x.getD i 0).norm == 0) = false := by
    rw [Bool.or_eq_false_iff, Bool.eq_false_iff, Bool.eq_false_iff, Ne, Ne, Scalar.beq_zero_iff,
      Scalar.beq_zero_iff]
    exact ⟨pos.ne', (Cplx.norm_pos nonzero).ne'⟩
  rw [normalize, found]
  simp only [regular, Bool.false_eq_true, if_false]
  refine congrArg x.map (funext fun z => ?_)
  ext
  · simp [factor]
    ring
  · simp [factor]
    ring

omit [Scalar.Rooted α] in
lemma factor_eq (p : Cplx α) (l : α) : factor p l = .ofReal (p.norm * l)⁻¹ * p.conj := by
  ext
  · simp [factor]
    ring
  · simp [factor]
    ring

lemma factor_mul {p : Cplx α} (hp : p ≠ 0) (l : α) : factor p l * p = .ofReal (p.norm / l) := by
  have norm := (Cplx.norm_pos hp).ne'
  rw [factor_eq, mul_assoc, Cplx.conj_mul_self, ← Cplx.ofReal_mul, ← Cplx.norm_mul_self]
  congr 1
  field_simp

lemma normSq_factor {p : Cplx α} (hp : p ≠ 0) (l : α) : (factor p l).normSq = (l * l)⁻¹ := by
  have norm := (Cplx.norm_pos hp).ne'
  rw [factor_eq, Cplx.normSq_mul, Cplx.normSq_ofReal, Cplx.normSq_conj, ← Cplx.norm_mul_self]
  field_simp

lemma factor_scaled (hc : c ≠ 0) (p : Cplx α) (l : α) :
    factor (c * p) (c.norm * l) * c = factor p l := by
  have norm := (Cplx.norm_pos hc).ne'
  calc factor (c * p) (c.norm * l) * c
      = .ofReal ((c * p).norm * (c.norm * l))⁻¹ * (c.conj * c) * p.conj := by
        rw [factor_eq, Cplx.conj_mul]
        ring
    _ = .ofReal (((c * p).norm * (c.norm * l))⁻¹ * (c.norm * c.norm)) * p.conj := by
        rw [Cplx.conj_mul_self, ← Cplx.ofReal_mul, Cplx.norm_mul_self]
    _ = .ofReal (p.norm * l)⁻¹ * p.conj := by
        rw [Cplx.norm_mul]
        congr 2
        field_simp
    _ = factor p l := (factor_eq p l).symm

lemma factor_ne_zero {p : Cplx α} (hp : p ≠ 0) {l : α} (pos : 0 < l) : factor p l ≠ 0 := by
  intro zero
  have value := normSq_factor hp l
  rw [zero, Cplx.normSq_eq_zero.2 rfl] at value
  exact (inv_ne_zero (mul_pos pos pos).ne') value.symm

lemma factor_one {p : Cplx α} (im : p.im = 0) (re : 0 < p.re) : factor p 1 = 1 := by
  have norm := Cplx.norm_eq_re im re.le
  ext
  · simp [factor, norm, re.ne']
  · simp [factor, im]

/-! ### One vector on every line -/

/-- A vector of length one with a positive pivot. -/
structure IsCanonical (B : Option (Dense (Cplx α))) (hermitian : Bool) (y : Array (Cplx α)) :
    Prop where
  unit : square B hermitian y = 1
  positive : ∃ i, IsPivot y i ∧ (y.getD i 0).im = 0 ∧ 0 < (y.getD i 0).re

section Lines

variable (admissible : Admissible n B hermitian) (size : x.size = n)
  (nonzero : ∃ i, x.getD i 0 ≠ 0)
include admissible size nonzero

lemma exists_normalize_eq : ∃ i, IsPivot x i ∧ x.getD i 0 ≠ 0 ∧ normalize B hermitian x =
    scaled (factor (x.getD i 0) (length B hermitian x)) x := by
  obtain ⟨j, hj⟩ := nonzero
  obtain ⟨m, hm⟩ : ∃ m, x.size = m + 1 := by
    refine Nat.exists_eq_add_one_of_ne_zero fun empty => hj ?_
    simp [Array.eq_empty_of_size_eq_zero empty]
  obtain ⟨i, pivot, -⟩ := exists_isPivot hm
  have regular := pivot.nonzero ⟨j, hj⟩
  exact ⟨i, pivot, regular,
    normalize_eq pivot regular (length_pos admissible size ⟨j, hj⟩).1⟩

lemma normalize_scaled (hc : c ≠ 0) :
    normalize B hermitian (scaled c x) = normalize B hermitian x := by
  obtain ⟨i, pivot, regular, normalized⟩ := exists_normalize_eq admissible size nonzero
  have length := length_scaled admissible size nonzero c
  have pos := (length_pos admissible size nonzero).1
  rw [normalized, normalize_eq (pivot.scaled hc), length, getD_scaled, scaled_scaled,
    factor_scaled hc]
  · rw [getD_scaled]
    exact mul_ne_zero hc regular
  · rw [length]
    exact mul_pos (Cplx.norm_pos hc) pos

lemma isCanonical_normalize : IsCanonical B hermitian (normalize B hermitian x) := by
  obtain ⟨i, pivot, regular, normalized⟩ := exists_normalize_eq admissible size nonzero
  obtain ⟨pos, value⟩ := length_pos admissible size nonzero
  rw [normalized]
  refine ⟨?_, i, pivot.scaled (factor_ne_zero regular pos), ?_⟩
  · rw [square_scaled, value, normSq_factor regular, ← Cplx.ofReal_mul,
      inv_mul_cancel₀ (mul_pos pos pos).ne']
    rfl
  · rw [getD_scaled, factor_mul regular]
    exact ⟨rfl, div_pos (Cplx.norm_pos regular) pos⟩

end Lines

lemma IsCanonical.normalize_eq (canonical : IsCanonical B hermitian y) :
    normalize B hermitian y = y := by
  obtain ⟨unit, i, pivot, im, re⟩ := canonical
  have one : length B hermitian y = 1 := by
    rw [length_eq, unit]
    exact Scalar.sqrt_eq_of_mul_self zero_le_one (one_mul 1)
  have regular : y.getD i 0 ≠ 0 := fun zero => re.ne' (by rw [zero]; rfl)
  rw [Solution.normalize_eq pivot regular (one ▸ zero_lt_one), one, factor_one im re, scaled_one]

/-! ### The residual -/

lemma cplxNorm_scaled (c : Cplx α) (x : Array (Cplx α)) :
    Coords.cplxNorm (scaled c x) = c.norm * Coords.cplxNorm x := by
  simp only [Coords.cplxNorm, sumByEight_eq_sum, size_scaled, getD_scaled, Cplx.normSq_mul,
    ← Finset.mul_sum, ← c.norm_mul_self]
  exact Scalar.sqrt_mul_self_mul c.norm_nonneg
    (Finset.sum_nonneg fun i _ => Cplx.normSq_nonneg _)

lemma residual_scaled (A : Dense (Cplx α)) (B : Option (Dense (Cplx α))) (z : Cplx α)
    (x : Array (Cplx α)) (hc : c ≠ 0) : residual A B z (scaled c x) = residual A B z x := by
  have rest (v w : Array (Cplx α)) :
      (scaled c v).mapIdx (fun i a => a - (scaled c w).getD i 0 * z) =
        scaled c (v.mapIdx fun i a => a - w.getD i 0 * z) := by
    refine Array.ext (by simp [scaled]) fun i hi hi' => ?_
    simp only [getD_scaled]
    simp only [scaled, Array.getElem_mapIdx, Array.getElem_map]
    ring
  have norm := (Cplx.norm_pos hc).ne'
  unfold residual cplxMul
  cases B with
  | none =>
    simp only [mulVec_scaled, rest, cplxNorm_scaled, mul_assoc]
    exact mul_div_mul_left _ _ norm
  | some B =>
    simp only [mulVec_scaled, rest, cplxNorm_scaled, mul_assoc]
    exact mul_div_mul_left _ _ norm

/-! ### Results -/

/-- An eigenpair with a multiple of the vector. -/
def rescaled (t : EigenPair α × Cplx α) : EigenPair α :=
  { t.1 with vector := scaled t.2 t.1.vector }

/-- **What is kept of a spectrum does not depend on the vectors that stand for the lines.** -/
lemma ofSpectrum_rescaled {P : Pencil α}
    (admissible : Admissible n (P.B.map Dense.toCplx) hermitian) (which : Which) (target : α)
    (wanted : ℕ) (tolerance : α) {l : List (EigenPair α × Cplx α)}
    (spanned : ∀ t ∈ l, t.1.vector.size = n ∧ (∃ i, t.1.vector.getD i 0 ≠ 0) ∧ t.2 ≠ 0) :
    ofSpectrum P hermitian which target wanted tolerance (l.map rescaled) =
      ofSpectrum P hermitian which target wanted tolerance (l.map Prod.fst) := by
  let le (s t : EigenPair α × Cplx α) : Bool := which.prefers target s.1.value t.1.value
  have first : (l.mergeSort le).map rescaled = sorted which target (l.map rescaled) :=
    List.map_mergeSort fun _ _ _ _ => rfl
  have second : (l.mergeSort le).map Prod.fst = sorted which target (l.map Prod.fst) :=
    List.map_mergeSort fun _ _ _ _ => rfl
  have modes : ((sorted which target (l.map rescaled)).take wanted).map
        (ofPair P.A.toCplx (P.B.map Dense.toCplx) hermitian) =
      ((sorted which target (l.map Prod.fst)).take wanted).map
        (ofPair P.A.toCplx (P.B.map Dense.toCplx) hermitian) := by
    rw [← first, ← second, ← List.map_take, ← List.map_take, List.map_map, List.map_map]
    refine List.map_congr_left fun t ht => ?_
    obtain ⟨size, nonzero, factor⟩ := spanned t (List.mem_mergeSort.1 (List.mem_of_mem_take ht))
    have same := normalize_scaled admissible size nonzero factor
    simp only [Function.comp_apply, ofPair, rescaled, same]
  unfold ofSpectrum
  simp only [modes]

/-- **Normalized vectors are canonical representatives of their lines.** For every vector but zero,
and every multiple of it but zero, the same vector comes out: the one on the line that has length
one and whose last entry of largest modulus is positive. To normalize it again changes nothing.
The residual is that of the line, so what is kept of a spectrum, down to the number of pairs that
have converged, does not depend on how a decomposition scales its vectors. -/
theorem normalize_canonical (admissible : Admissible n B hermitian) (size : x.size = n)
    (nonzero : ∃ i, x.getD i 0 ≠ 0) (hc : c ≠ 0) :
    normalize B hermitian (scaled c x) = normalize B hermitian x ∧
      (∃ d, d ≠ 0 ∧ normalize B hermitian x = scaled d x) ∧
      IsCanonical B hermitian (normalize B hermitian x) ∧
      (∀ d, d ≠ 0 → IsCanonical B hermitian (scaled d x) →
        scaled d x = normalize B hermitian x) ∧
      normalize B hermitian (normalize B hermitian x) = normalize B hermitian x ∧
      (∀ A B' z, residual A B' z (scaled c x) = residual A B' z x ∧
        residual A B' z (normalize B hermitian x) = residual A B' z x) ∧
      ∀ (P : Pencil α) which target wanted tolerance (l : List (EigenPair α × Cplx α)),
        P.B.map Dense.toCplx = B →
        (∀ t ∈ l, t.1.vector.size = n ∧ (∃ i, t.1.vector.getD i 0 ≠ 0) ∧ t.2 ≠ 0) →
        ofSpectrum P hermitian which target wanted tolerance (l.map rescaled) =
          ofSpectrum P hermitian which target wanted tolerance (l.map Prod.fst) := by
  obtain ⟨i, pivot, regular, normalized⟩ := exists_normalize_eq admissible size nonzero
  have line := factor_ne_zero regular (length_pos admissible size nonzero).1
  have canonical := isCanonical_normalize admissible size nonzero
  refine ⟨normalize_scaled admissible size nonzero hc, ⟨_, line, normalized⟩, canonical,
    fun d hd other => ?_, canonical.normalize_eq, fun A B' z => ⟨residual_scaled A B' z x hc, ?_⟩,
    fun P which target wanted tolerance l same spanned => ?_⟩
  · rw [← other.normalize_eq, normalize_scaled admissible size nonzero hd]
  · rw [normalized, residual_scaled A B' z x line]
  · exact ofSpectrum_rescaled (same ▸ admissible) which target wanted tolerance spanned

end Normalizing

/-- A positive definite matrix that is not real. -/
noncomputable def tilted : Dense (Cplx ℝ) :=
  .ofFn 2 2 fun i j => if i = j then ⟨(2 : ℕ), 0⟩ else if i < j then ⟨0, 1⟩ else ⟨0, -1⟩

lemma admissible_tilted : Admissible 2 (some tilted) true := by
  intro M same _
  obtain rfl := Option.some.inj same
  refine ⟨rfl, rfl, fun x size nonzero => ?_⟩
  let a := x.getD 0 0
  let b := x.getD 1 0
  -- the form is a sum of four squares
  refine ⟨(a.re - b.im) * (a.re - b.im) + (a.im + b.re) * (a.im + b.re) + (a.normSq + b.normSq),
    ?_, ?_⟩
  · have one : 0 < a.normSq + b.normSq := by
      obtain ⟨i, hi⟩ := nonzero
      match i, hi with
      | 0, hi => exact add_pos_of_pos_of_nonneg (Cplx.normSq_pos hi) b.normSq_nonneg
      | 1, hi => exact add_pos_of_nonneg_of_pos a.normSq_nonneg (Cplx.normSq_pos hi)
      | i + 2, hi => exact absurd (by simp [size]) hi
    have first := mul_self_nonneg (a.re - b.im)
    have second := mul_self_nonneg (a.im + b.re)
    linarith
  · have row {i : ℕ} (hi : i < 2) :
        (tilted.mulVec x).getD i 0 = tilted.entry i 0 * a + tilted.entry i 1 * b := by
      rw [tilted.getD_mulVec x (show i < tilted.rows from hi)]
      exact Finset.sum_range_succ _ 1 |>.trans (congrArg (· + _) (Finset.sum_range_one _))
    have entry {i j : ℕ} (hi : i < 2) (hj : j < 2) : tilted.entry i j =
        if i = j then ⟨(2 : ℕ), 0⟩ else if i < j then ⟨0, 1⟩ else ⟨0, -1⟩ :=
      Dense.entry_ofFn _ hi hj
    rw [Finset.sum_range_succ, Finset.sum_range_one, row Nat.two_pos, row Nat.one_lt_two,
      entry Nat.two_pos Nat.two_pos, entry Nat.two_pos Nat.one_lt_two,
      entry Nat.one_lt_two Nat.two_pos, entry Nat.one_lt_two Nat.one_lt_two]
    change a.conj * _ + b.conj * _ = _
    ext
    · simp [Cplx.normSq]
      ring
    · simp
      ring

/-- A vector whose two entries are of the same modulus, and a multiple of it. The second entry
becomes the positive one. -/
theorem normalize_canonical_tilted :
    let x : Array (Cplx ℝ) := #[⟨1, 0⟩, ⟨0, 1⟩]
    Admissible 2 (some tilted) true ∧ x.size = 2 ∧ (∃ i, x.getD i 0 ≠ 0) ∧
      (⟨0, 2⟩ : Cplx ℝ) ≠ 0 ∧
      normalize (some tilted) true (scaled ⟨0, 2⟩ x) = normalize (some tilted) true x ∧
      IsCanonical (some tilted) true (normalize (some tilted) true x) := by
  intro x
  have nonzero : ∃ i, x.getD i 0 ≠ 0 := ⟨0, fun h => one_ne_zero (congrArg Cplx.re h)⟩
  have factor : (⟨0, 2⟩ : Cplx ℝ) ≠ 0 := fun h => two_ne_zero (congrArg Cplx.im h)
  have canonical := normalize_canonical admissible_tilted rfl nonzero factor
  exact ⟨admissible_tilted, rfl, nonzero, factor, canonical.1, canonical.2.2.1⟩

end Eigenmesh.Solution
