import Eigenmesh.Proofs.Element.Order
import Eigenmesh.Proofs.Mesh.Volumes
import Eigenmesh.Proofs.Scalar.Rational

/-!
The stiffness matrix as the energy of affine functions.

The values at the corners of a simplex that spans the space determine an affine function, and the
slopes of the functions of the corners give its gradient. The product of the stiffness matrix with
two lists of values is the inner product of the two gradients, times the volume. What the energy
does not see, the matrix does not see: constants, and where and how the simplex lies.
-/

namespace Eigenmesh

variable {α : Type} [Scalar.Exact α]

namespace Element

/-- The affine function with the values `p` at the corners has the gradient `g`: along the edge from
the first corner to any other it rises by what the two values differ. -/
structure IsGradient (corners : Dense α) (p g : Array α) : Prop where
  size : g.size = corners.rows
  rise : ∀ c < corners.cols, p.getD c 0 - p.getD 0 0 =
    Coords.dot g (Coords.sub (corners.col c) (corners.col 0))

/-- The corners after the motion that takes `x` to `Q x + t`. -/
def moved (Q : Dense α) (t : Array α) (corners : Dense α) : Dense α :=
  .ofFn corners.rows corners.cols fun r c => (Q.mul corners).entry r c + t.getD r 0

variable {corners : Dense α} {f : ℕ → ℕ → α} {p q g h : Array α}

/-! ### Volume -/

lemma volume_eq (corners : Dense α) : volume corners =
    |((Simplex.edges corners).leading corners.rows).det| / corners.rows.factorial := by
  rw [volume, Simplex.det, Dense.det_eq_det rfl, Scalar.abs_eq, factorial_eq]
  rfl

lemma volume_pos (regular : ((Simplex.edges corners).leading corners.rows).det ≠ 0) :
    0 < volume corners := by
  rw [volume_eq]
  exact div_pos (abs_pos.2 regular) (Nat.cast_pos.2 corners.rows.factorial_pos)

/-! ### Slopes and gradients -/

/-- The slopes of the functions of the corners, read off a matrix that inverts the edges: the rows
are those of all corners but the first. -/
def slopesOfInverse (B : Dense α) (r : ℕ) : ℕ → α
  | 0 => -∑ c ∈ Finset.range B.rows, B.entry c r
  | c + 1 => B.entry c r

lemma exists_areSlopes (regular : ((Simplex.edges corners).leading corners.rows).det ≠ 0) :
    ∃ f, AreSlopes corners f := by
  obtain ⟨B, -, rows, -, leading⟩ :=
    Dense.inverse?_eq_some (A := Simplex.edges corners) rfl regular
  replace rows : B.rows = corners.rows := rows
  have inverse : B.leading corners.rows * (Simplex.edges corners).leading corners.rows = 1 := by
    rw [show B.leading corners.rows = _ from leading]
    exact Matrix.nonsing_inv_mul _ (Ne.isUnit regular)
  refine ⟨slopesOfInverse B, fun c hc j hj => ?_, fun r _ => ?_⟩
  · have product := congrFun₂ inverse ⟨c, hc⟩ ⟨j, hj⟩
    rw [Matrix.mul_apply, Matrix.one_apply, if_congr Fin.ext_iff rfl rfl] at product
    rw [← product, Finset.sum_range]
    refine Finset.sum_congr rfl fun r _ => ?_
    rw [leading_edges_apply]
    rfl
  · rw [Finset.sum_range_succ', ← rows]
    exact add_neg_cancel _

/-- The slope along an axis of the function with the given values at the corners. -/
def slope (corners : Dense α) (f : ℕ → ℕ → α) (p : Array α) (r : ℕ) : α :=
  ∑ c ∈ Finset.range (corners.rows + 1), f r c * p.getD c 0

lemma sum_slope_mul_eq (s : ℕ → α) :
    ∑ r ∈ Finset.range corners.rows, slope corners f p r * s r =
      ∑ c ∈ Finset.range (corners.rows + 1),
        p.getD c 0 * ∑ r ∈ Finset.range corners.rows, f r c * s r := by
  simp only [slope, Finset.sum_mul, Finset.mul_sum]
  rw [Finset.sum_comm]
  exact Finset.sum_congr rfl fun c _ => Finset.sum_congr rfl fun r _ => by ring

lemma dot_sub_col (hg : g.size = corners.rows) (c : ℕ) :
    Coords.dot g (Coords.sub (corners.col c) (corners.col 0)) =
      ∑ r ∈ Finset.range corners.rows, g.getD r 0 * (corners.entry r c - corners.entry r 0) := by
  rw [Coords.dot_eq_sum, hg]
  refine Finset.sum_congr rfl fun r hr => ?_
  have hr : r < corners.rows := Finset.mem_range.1 hr
  have inside (c : ℕ) : (corners.col c).getD r 0 = corners.entry r c := by simp [Dense.col, hr]
  rw [Coords.getD_sub _ _ (by simpa [Dense.col] using hr), inside, inside]

namespace AreSlopes

variable (slopes : AreSlopes corners f)
include slopes

lemma edge_zero {j : ℕ} (hj : j < corners.rows) : ∑ r ∈ Finset.range corners.rows,
    f r 0 * (corners.entry r (j + 1) - corners.entry r 0) = -1 := by
  have first {r : ℕ} (hr : r ∈ Finset.range corners.rows) :
      f r 0 = -∑ c ∈ Finset.range corners.rows, f r (c + 1) := by
    have total := slopes.sum r (Finset.mem_range.1 hr)
    rw [Finset.sum_range_succ'] at total
    exact eq_neg_of_add_eq_zero_right total
  rw [Finset.sum_congr rfl fun r hr => by rw [first hr, neg_mul, Finset.sum_mul],
    Finset.sum_neg_distrib, Finset.sum_comm,
    Finset.sum_congr rfl fun c hc => slopes.edge c (Finset.mem_range.1 hc) j hj,
    Finset.sum_ite_eq', if_pos (Finset.mem_range.2 hj)]

lemma sum_slope_mul (p : Array α) {j : ℕ} (hj : j < corners.rows) :
    ∑ r ∈ Finset.range corners.rows,
      slope corners f p r * (corners.entry r (j + 1) - corners.entry r 0) =
        p.getD (j + 1) 0 - p.getD 0 0 := by
  rw [sum_slope_mul_eq, Finset.sum_range_succ', slopes.edge_zero hj,
    Finset.sum_congr rfl fun c hc => by rw [slopes.edge c (Finset.mem_range.1 hc) j hj]]
  simp only [mul_ite, mul_one, mul_zero, Finset.sum_ite_eq', Finset.mem_range, hj, if_true]
  ring

lemma slope_eq_zero_iff (simplex : IsSimplex corners) (hp : p.size = corners.cols) :
    (∀ r < corners.rows, slope corners f p r = 0) ↔ ∃ c, p = Array.replicate corners.cols c := by
  have width : corners.cols = corners.rows + 1 := simplex
  have value (c : α) {i : ℕ} (hi : i < corners.cols) :
      (Array.replicate corners.cols c).getD i 0 = c := by simp [hi]
  constructor
  · intro flat
    refine ⟨p.getD 0 0, (Coords.eq_iff_getD (hp.trans Array.size_replicate.symm)).2 fun c hc => ?_⟩
    rw [hp] at hc
    rw [value _ hc]
    cases c with
    | zero => rfl
    | succ j =>
      have rise := slopes.sum_slope_mul p (Nat.lt_of_succ_lt_succ (hc.trans_eq width))
      rw [Finset.sum_congr rfl fun r hr => by rw [flat r (Finset.mem_range.1 hr), zero_mul],
        Finset.sum_const_zero] at rise
      exact sub_eq_zero.1 rise.symm
  · rintro ⟨c, rfl⟩ r hr
    rw [slope, Finset.sum_congr rfl fun b hb => by
      rw [value c (width ▸ Finset.mem_range.1 hb)], ← Finset.sum_mul, slopes.sum r hr, zero_mul]

lemma isGradient_iff (simplex : IsSimplex corners) : IsGradient corners p g ↔
    g.size = corners.rows ∧ ∀ r < corners.rows, g.getD r 0 = slope corners f p r := by
  have width : corners.cols = corners.rows + 1 := simplex
  constructor
  · intro gradient
    refine ⟨gradient.size, fun r hr => ?_⟩
    let d : Fin corners.rows → α := fun r => g.getD r 0 - slope corners f p r
    have still : Matrix.vecMul d ((Simplex.edges corners).leading corners.rows) = 0 := by
      funext j
      have rise := gradient.rise (j + 1) (Nat.succ_lt_succ j.isLt |>.trans_eq width.symm)
      rw [dot_sub_col gradient.size, ← slopes.sum_slope_mul p j.isLt, eq_comm, ← sub_eq_zero,
        ← Finset.sum_sub_distrib, Finset.sum_range] at rise
      rw [Pi.zero_apply, ← rise, Matrix.vecMul, dotProduct]
      refine Finset.sum_congr rfl fun r _ => ?_
      rw [leading_edges_apply]
      exact sub_mul _ _ _
    have zero := Matrix.eq_zero_of_vecMul_eq_zero
      (Matrix.det_ne_zero_of_left_inverse slopes.slopes_mul_edges) still
    exact sub_eq_zero.1 (congrFun zero ⟨r, hr⟩)
  · rintro ⟨size, values⟩
    refine ⟨size, fun c hc => ?_⟩
    rw [dot_sub_col size]
    cases c with
    | zero => simp
    | succ j =>
      have hj : j < corners.rows := Nat.lt_of_succ_lt_succ (hc.trans_eq width)
      rw [← slopes.sum_slope_mul p hj]
      exact Finset.sum_congr rfl fun r hr => by rw [values r (Finset.mem_range.1 hr)]

lemma existsUnique_isGradient (simplex : IsSimplex corners) (p : Array α) :
    ∃! g, IsGradient corners p g := by
  let g : Array α := Array.ofFn fun r : Fin corners.rows => slope corners f p r
  refine ⟨g, (slopes.isGradient_iff simplex).2 ⟨Array.size_ofFn, fun r hr => ?_⟩, fun h hh => ?_⟩
  · simp [g, hr]
  · obtain ⟨size, values⟩ := (slopes.isGradient_iff simplex).1 hh
    refine (Coords.eq_iff_getD (size.trans Array.size_ofFn.symm)).2 fun r hr => ?_
    have hr : r < corners.rows := size ▸ hr
    rw [values r hr]
    simp [hr]

end AreSlopes

/-! ### The energy -/

/-- The energy of two affine functions, given by their values at the corners: the volume times the
inner product of their gradients. It does not change when the two change places, no function has a
negative one, and exactly the constants have none with any other function. -/
structure IsEnergy (corners K : Dense α) : Prop where
  rows : K.rows = corners.rows + 1
  cols : K.cols = corners.rows + 1
  form : ∀ p q g h, p.size = corners.cols → q.size = corners.cols →
    IsGradient corners p g → IsGradient corners q h → Coords.dot p (K.mulVec q) =
      |((Simplex.edges corners).leading corners.rows).det| / corners.rows.factorial *
        Coords.dot g h
  symmetric : K.transpose = K
  nonneg : ∀ p, p.size = corners.cols → 0 ≤ Coords.dot p (K.mulVec p)
  kernel : ∀ p, p.size = corners.cols →
    (K.mulVec p = Coords.zeros corners.cols ↔ ∃ c, p = Array.replicate corners.cols c)

/-- The matrix with the energies of the functions of the corners. -/
structure IsEnergyOf (corners : Dense α) (f : ℕ → ℕ → α) (K : Dense α) : Prop where
  rows : K.rows = corners.rows + 1
  cols : K.cols = corners.rows + 1
  entry : ∀ a < corners.rows + 1, ∀ b < corners.rows + 1,
    K.entry a b = volume corners * ∑ r ∈ Finset.range corners.rows, f r a * f r b

namespace IsEnergyOf

variable {K : Dense α} (k : IsEnergyOf corners f K)
include k

lemma getD_mulVec (q : Array α) {a : ℕ} (ha : a < corners.rows + 1) : (K.mulVec q).getD a 0 =
    volume corners * ∑ r ∈ Finset.range corners.rows, f r a * slope corners f q r := by
  have term {b : ℕ} (hb : b ∈ Finset.range (corners.rows + 1)) :
      K.entry a b * q.getD b 0 = volume corners * ∑ r ∈ Finset.range corners.rows,
        f r a * (f r b * q.getD b 0) := by
    rw [k.entry a ha b (Finset.mem_range.1 hb), mul_assoc, Finset.sum_mul]
    simp only [mul_assoc]
  rw [Dense.getD_mulVec _ _ (k.rows.symm ▸ ha), k.cols, Finset.sum_congr rfl fun b hb => term hb,
    ← Finset.mul_sum, Finset.sum_comm]
  simp only [slope, Finset.mul_sum]

lemma dot_mulVec (hp : p.size = corners.rows + 1) (q : Array α) :
    Coords.dot p (K.mulVec q) = volume corners *
      ∑ r ∈ Finset.range corners.rows, slope corners f p r * slope corners f q r := by
  rw [Coords.dot_eq_sum, hp, sum_slope_mul_eq, Finset.mul_sum]
  refine Finset.sum_congr rfl fun a ha => ?_
  rw [k.getD_mulVec q (Finset.mem_range.1 ha), mul_left_comm]

lemma transpose_eq : K.transpose = K := by
  refine Dense.eq_of_entry (k.cols.trans k.rows.symm) (k.rows.trans k.cols.symm)
    fun a ha b hb => ?_
  replace ha : a < K.cols := ha
  replace hb : b < K.rows := hb
  rw [Dense.entry_transpose K ha hb, k.entry b (k.rows ▸ hb) a (k.cols ▸ ha),
    k.entry a (k.cols ▸ ha) b (k.rows ▸ hb)]
  simp only [mul_comm (f _ b)]

lemma mulVec_eq_zeros_iff (slopes : AreSlopes corners f) (simplex : IsSimplex corners)
    (regular : ((Simplex.edges corners).leading corners.rows).det ≠ 0)
    (hp : p.size = corners.cols) :
    K.mulVec p = Coords.zeros corners.cols ↔ ∃ c, p = Array.replicate corners.cols c := by
  have width : corners.cols = corners.rows + 1 := simplex
  rw [← slopes.slope_eq_zero_iff simplex hp]
  constructor
  · intro zero r hr
    have energy := k.dot_mulVec (hp.trans width) p
    rw [zero, Coords.dot_eq_sum] at energy
    simp only [Coords.zeros, Coords.getD_replicate_zero, mul_zero, Finset.sum_const_zero] at energy
    have squares := (mul_eq_zero.1 energy.symm).resolve_left (volume_pos regular).ne'
    exact mul_self_eq_zero.1 ((Finset.sum_eq_zero_iff_of_nonneg fun r _ => mul_self_nonneg _).1
      squares r (Finset.mem_range.2 hr))
  · intro flat
    refine (Coords.eq_iff_getD ((Dense.size_mulVec _ _).trans ?_)).2 fun a ha => ?_
    · exact (k.rows.trans width.symm).trans Array.size_replicate.symm
    · rw [Dense.size_mulVec, k.rows] at ha
      rw [k.getD_mulVec _ ha, Finset.sum_congr rfl fun r hr => by
        rw [flat r (Finset.mem_range.1 hr), mul_zero], Finset.sum_const_zero, mul_zero,
        Coords.zeros, Coords.getD_replicate_zero]

lemma isEnergy (slopes : AreSlopes corners f) (simplex : IsSimplex corners)
    (regular : ((Simplex.edges corners).leading corners.rows).det ≠ 0) : IsEnergy corners K where
  rows := k.rows
  cols := k.cols
  form p q g h hp _ hg hh := by
    obtain ⟨size, first⟩ := (slopes.isGradient_iff simplex).1 hg
    obtain ⟨-, second⟩ := (slopes.isGradient_iff simplex).1 hh
    rw [k.dot_mulVec (hp.trans simplex), volume_eq, Coords.dot_eq_sum, size]
    refine congrArg _ (Finset.sum_congr rfl fun r hr => ?_)
    rw [first r (Finset.mem_range.1 hr), second r (Finset.mem_range.1 hr)]
  symmetric := k.transpose_eq
  nonneg p hp := by
    rw [k.dot_mulVec (hp.trans simplex)]
    exact mul_nonneg (volume_pos regular).le (Finset.sum_nonneg fun r _ => mul_self_nonneg _)
  kernel p hp := k.mulVec_eq_zeros_iff slopes simplex regular hp

end IsEnergyOf

lemma AreSlopes.exists_isEnergyOf (slopes : AreSlopes corners f) (simplex : IsSimplex corners)
    (size : factorial corners.rows < Word.limit) :
    ∃ K, stiffness? corners = .ok K ∧ IsEnergyOf corners f K := by
  obtain ⟨K, computed, entry⟩ := slopes.stiffness?_eq_ok simplex size
  refine ⟨K, computed, ?_, ?_, entry⟩
  all_goals
    obtain ⟨G, gradients, rows, cols, -⟩ := slopes.gradients?_eq_ok simplex
    rw [stiffness?, gradients, volume?_eq_ok simplex size] at computed
    obtain rfl := Except.ok.inj computed
    exact cols

/-! ### Motions -/

/-- A rotation of the space, possibly with a reflection. -/
structure IsOrthogonal (n : ℕ) (Q : Dense α) : Prop where
  rows : Q.rows = n
  cols : Q.cols = n
  transpose_mul : Q.transpose.mul Q = .identity n

/-- The vector `u`, rotated. -/
def rotated (n : ℕ) (Q : Dense α) (u : ℕ → α) (r : ℕ) : α :=
  ∑ s ∈ Finset.range n, Q.entry r s * u s

namespace IsOrthogonal

variable {n : ℕ} {Q : Dense α} (o : IsOrthogonal n Q)
include o

lemma leading_transpose_mul : (Q.leading n).transpose * Q.leading n = 1 := by
  rw [← Dense.leading_transpose o.rows o.cols, ← Dense.leading_mul o.cols o.rows o.cols,
    o.transpose_mul, Dense.leading_identity]

lemma sum_rotated_mul (u v : ℕ → α) :
    ∑ r ∈ Finset.range n, rotated n Q u r * rotated n Q v r = ∑ s ∈ Finset.range n, u s * v s := by
  have product : (Q.leading n).mulVec (fun s => u s) ⬝ᵥ (Q.leading n).mulVec (fun s => v s) =
      (fun s : Fin n => u s) ⬝ᵥ fun s => v s := by
    rw [Matrix.dotProduct_mulVec, Matrix.vecMul_mulVec, o.leading_transpose_mul, Matrix.vecMul_one]
  simp only [rotated, Finset.sum_range]
  exact product

lemma abs_det : |(Q.leading n).det| = 1 := by
  have square := congrArg Matrix.det o.leading_transpose_mul
  rw [Matrix.det_mul, Matrix.det_transpose, Matrix.det_one, ← abs_mul_abs_self] at square
  exact (mul_self_eq_one_iff.1 square).resolve_right fun h => by
    linarith [abs_nonneg (Q.leading n).det]

end IsOrthogonal

section Motions

variable {Q : Dense α} {t : Array α} (o : IsOrthogonal corners.rows Q)
include o

lemma entry_moved {r c : ℕ} (hr : r < corners.rows) (hc : c < corners.cols) :
    (moved Q t corners).entry r c =
      rotated corners.rows Q (fun s => corners.entry s c) r + t.getD r 0 := by
  rw [moved, Dense.entry_ofFn _ hr hc, Dense.entry_mul _ _ (o.rows.symm ▸ hr) hc, o.cols]
  rfl

lemma edge_moved (simplex : IsSimplex corners) {r j : ℕ} (hr : r < corners.rows)
    (hj : j < corners.rows) :
    (moved Q t corners).entry r (j + 1) - (moved Q t corners).entry r 0 =
      rotated corners.rows Q (fun s => corners.entry s (j + 1) - corners.entry s 0) r := by
  have width : corners.cols = corners.rows + 1 := simplex
  rw [entry_moved o hr (width ▸ Nat.add_lt_add_right hj 1), entry_moved o hr
    (width ▸ Nat.succ_pos _), add_sub_add_right_eq_sub, rotated, rotated, ← Finset.sum_sub_distrib]
  exact Finset.sum_congr rfl fun s _ => (mul_sub _ _ _).symm

lemma leading_edges_moved (simplex : IsSimplex corners) :
    (Simplex.edges (moved Q t corners)).leading corners.rows =
      Q.leading corners.rows * (Simplex.edges corners).leading corners.rows := by
  ext r j
  refine (leading_edges_apply (moved Q t corners) r j).trans ?_
  rw [edge_moved o simplex r.isLt j.isLt, rotated, Finset.sum_range, Matrix.mul_apply]
  refine Finset.sum_congr rfl fun s _ => ?_
  rw [leading_edges_apply]
  rfl

lemma volume_moved (simplex : IsSimplex corners) :
    volume (moved Q t corners) = volume corners := by
  have det : |((Simplex.edges (moved Q t corners)).leading corners.rows).det| =
      |((Simplex.edges corners).leading corners.rows).det| := by
    rw [leading_edges_moved o simplex, Matrix.det_mul, abs_mul, o.abs_det, one_mul]
  rw [volume_eq, volume_eq]
  exact congrArg (· / _) det

lemma AreSlopes.moved (slopes : AreSlopes corners f) (simplex : IsSimplex corners) :
    AreSlopes (moved Q t corners) fun r c => rotated corners.rows Q (fun s => f s c) r where
  edge c hc j hj := by
    rw [← slopes.edge c hc j hj, ← o.sum_rotated_mul]
    refine Finset.sum_congr rfl fun r hr => ?_
    rw [edge_moved o simplex (Finset.mem_range.1 hr) hj]
  sum r hr := by
    change ∑ c ∈ Finset.range (corners.rows + 1), rotated corners.rows Q (fun s => f s c) r = 0
    simp only [rotated]
    rw [Finset.sum_comm]
    refine Finset.sum_eq_zero fun s hs => ?_
    rw [← Finset.mul_sum, slopes.sum s (Finset.mem_range.1 hs), mul_zero]

lemma IsEnergyOf.eq_of_moved {K K' : Dense α} (simplex : IsSimplex corners)
    (k : IsEnergyOf corners f K) (k' : IsEnergyOf (Element.moved Q t corners)
      (fun r c => rotated corners.rows Q (fun s => f s c) r) K') : K' = K := by
  refine Dense.eq_of_entry (k'.rows.trans k.rows.symm) (k'.cols.trans k.cols.symm)
    fun a ha b hb => ?_
  rw [k'.rows] at ha
  rw [k'.cols] at hb
  rw [k'.entry a ha b hb, k.entry a ha b hb, volume_moved o simplex, ← o.sum_rotated_mul]
  rfl

end Motions

/-! ### The stiffness matrix -/

/-- **The stiffness matrix is the Dirichlet energy of affine functions.** For every simplex that
spans its space, the values at the corners have one gradient, and the stiffness matrix is the energy
of two such functions, also after any motion of the simplex. The exception are dimensions whose
factorial is no size: there is no stiffness matrix, although there is an energy. -/
theorem stiffness?_energy (simplex : IsSimplex corners)
    (regular : ((Simplex.edges corners).leading corners.rows).det ≠ 0) :
    (∀ p, ∃! g, IsGradient corners p g) ∧
      (corners.rows.factorial < Word.limit → ∃ K, stiffness? corners = .ok K ∧
        IsEnergy corners K ∧ ∀ Q t, IsOrthogonal corners.rows Q →
          stiffness? (moved Q t corners) = .ok K) ∧
      (Word.limit ≤ corners.rows.factorial → stiffness? corners = .error .dimension) := by
  obtain ⟨f, slopes⟩ := exists_areSlopes regular
  refine ⟨slopes.existsUnique_isGradient simplex, fun size => ?_, fun size => ?_⟩
  · rw [← factorial_eq] at size
    obtain ⟨K, computed, k⟩ := slopes.exists_isEnergyOf simplex size
    refine ⟨K, computed, k.isEnergy slopes simplex regular, fun Q t o => ?_⟩
    obtain ⟨K', computed', k'⟩ :=
      (slopes.moved (t := t) o simplex).exists_isEnergyOf simplex size
    rw [computed', k.eq_of_moved o simplex k']
  · obtain ⟨G, gradients, -⟩ := slopes.gradients?_eq_ok simplex
    have none : ¬factorial corners.rows < Word.limit := by
      rwa [factorial_eq, not_lt]
    rw [stiffness?, gradients, volume?_eq_error simplex none]
    rfl

/-- A triangle that is neither symmetric nor along the axes. -/
theorem stiffness?_energy_triangle :
    let corners : Dense ℚ := .ofFn 2 3 fun r c => [[1, 4, 2], [1, 2, 5]].getD r [] |>.getD c 0
    IsSimplex corners ∧ ((Simplex.edges corners).leading corners.rows).det ≠ 0 ∧
      corners.rows.factorial < Word.limit ∧ ∃ K, stiffness? corners = .ok K ∧
        IsEnergy corners K ∧ ∀ Q t, IsOrthogonal 2 Q → stiffness? (moved Q t corners) = .ok K := by
  intro corners
  have simplex : IsSimplex corners := by decide
  have regular : ((Simplex.edges corners).leading corners.rows).det ≠ 0 := by
    refine (Matrix.det_fin_two _).trans_ne ?_
    decide +kernel
  exact ⟨simplex, regular, by decide, (stiffness?_energy simplex regular).2.1 (by decide)⟩

/-- The simplex with edges of length ten from the origin along the axes. -/
def axisSimplex (n : ℕ) : Dense ℚ := .ofFn n (n + 1) fun r c => if c = r + 1 then 10 else 0

lemma det_axisSimplex (n : ℕ) : ((Simplex.edges (axisSimplex n)).leading n).det = 10 ^ n := by
  have edges : (Simplex.edges (axisSimplex n)).leading n = (10 : ℚ) • 1 := by
    ext r j
    have entry {c : ℕ} (hc : c < n + 1) :
        (axisSimplex n).entry r c = if c = r + 1 then 10 else 0 := Dense.entry_ofFn _ r.isLt hc
    calc (Simplex.edges (axisSimplex n)).leading n r j
        = (axisSimplex n).entry r (j + 1) - (axisSimplex n).entry r 0 :=
          leading_edges_apply (axisSimplex n) r j
      _ = if r = j then 10 else 0 := by
          rw [entry (Nat.succ_lt_succ j.isLt), entry (Nat.succ_pos n)]
          simp [Fin.ext_iff, eq_comm]
      _ = ((10 : ℚ) • (1 : Matrix (Fin n) (Fin n) ℚ)) r j := by simp [Matrix.one_apply]
  rw [edges, Matrix.det_smul, Matrix.det_one, Fintype.card_fin, mul_one]

/-- **In twenty-one dimensions a simplex has no stiffness matrix,** although it spans the space and
every two functions on it have an energy. -/
theorem not_stiffness?_energy : IsSimplex (axisSimplex 21) ∧
    ((Simplex.edges (axisSimplex 21)).leading 21).det ≠ 0 ∧
    (∀ p, ∃! g, IsGradient (axisSimplex 21) p g) ∧
    ¬∃ K, stiffness? (axisSimplex 21) = .ok K ∧ IsEnergy (axisSimplex 21) K := by
  have simplex : IsSimplex (axisSimplex 21) := rfl
  have regular : ((Simplex.edges (axisSimplex 21)).leading 21).det ≠ 0 := by
    rw [det_axisSimplex]
    exact pow_ne_zero _ (by norm_num)
  obtain ⟨f, slopes⟩ : ∃ f, AreSlopes (axisSimplex 21) f := exists_areSlopes regular
  obtain ⟨G, gradients, -⟩ := slopes.gradients?_eq_ok simplex
  refine ⟨simplex, regular, slopes.existsUnique_isGradient simplex, fun ⟨K, computed, _⟩ => ?_⟩
  have none : ¬factorial (axisSimplex 21).rows < Word.limit := by
    change ¬factorial 21 < Word.limit
    decide
  rw [stiffness?, gradients, volume?_eq_error simplex none] at computed
  cases computed

end Element

end Eigenmesh
