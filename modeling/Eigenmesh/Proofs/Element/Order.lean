import Mathlib.Algebra.BigOperators.Fin
import Eigenmesh.Proofs.Element.Gradients
import Eigenmesh.Proofs.Mesh.Orientation

/-!
Element matrices and vectors, whatever the order of the corners.

The function that is one at a corner and zero at the others does not depend on the order in which
the corners are listed, and neither does the volume. So an element matrix has one entry for every
two corners, and to list the corners in another order only moves the entries along with them.
-/

namespace Eigenmesh

namespace Element

variable {α : Type} [Scalar.Exact α] {points : Dense α} {cell cell' : List ℕ} {slope : ℕ → ℕ → α}

/-! ### Slopes of the functions of the corners -/

/-- Along every axis the slopes of the functions of the corners: each function rises from zero to
one on the way to its corner, and all functions together are constant. -/
structure HasSlopes (points : Dense α) (cell : List ℕ) (slope : ℕ → ℕ → α) : Prop where
  edge : ∀ v ∈ cell, ∀ u ∈ cell, ∀ u' ∈ cell,
    ∑ r ∈ Finset.range points.rows, slope r v * (points.entry r u - points.entry r u') =
      (if u = v then 1 else 0) - if u' = v then 1 else 0
  sum : ∀ r < points.rows, (cell.map (slope r)).sum = 0

lemma HasSlopes.of_perm (h : HasSlopes points cell slope) (perm : cell'.Perm cell) :
    HasSlopes points cell' slope where
  edge v hv u hu u' hu' :=
    h.edge v (perm.mem_iff.1 hv) u (perm.mem_iff.1 hu) u' (perm.mem_iff.1 hu')
  sum r hr := (perm.map (slope r)).sum_eq.trans (h.sum r hr)

lemma HasSlopes.areSlopes (h : HasSlopes points cell slope) (nodup : cell.Nodup)
    (length : cell.length = points.rows + 1) :
    AreSlopes (points.selectCols cell) fun r c => slope r (cell.getD c 0) := by
  have corner {c : ℕ} (hc : c < points.rows + 1) : cell.getD c 0 ∈ cell := by
    rw [List.getD_eq_getElem _ 0 (length.symm ▸ hc)]
    exact List.getElem_mem _
  have distinct {b c : ℕ} (hb : b < points.rows + 1) (hc : c < points.rows + 1) :
      cell.getD b 0 = cell.getD c 0 ↔ b = c := by
    rw [List.getD_eq_getElem _ 0 (length.symm ▸ hb), List.getD_eq_getElem _ 0 (length.symm ▸ hc)]
    exact nodup.getElem_inj_iff
  have entry {r c : ℕ} (hr : r < points.rows) (hc : c < points.rows + 1) :
      (points.selectCols cell).entry r c = points.entry r (cell.getD c 0) := by
    rw [Dense.entry_selectCols _ _ hr (length.symm ▸ hc),
      List.getD_eq_getElem _ 0 (length.symm ▸ hc)]
  refine ⟨fun c hc j hj => ?_, fun r hr => ?_⟩
  · change c < points.rows at hc
    change j < points.rows at hj
    have first : 0 < points.rows + 1 := Nat.succ_pos _
    have edge := h.edge _ (corner (Nat.succ_lt_succ hc)) _ (corner (Nat.succ_lt_succ hj)) _
      (corner first)
    rw [if_congr (distinct (Nat.succ_lt_succ hj) (Nat.succ_lt_succ hc)) rfl rfl,
      if_neg (mt (distinct first (Nat.succ_lt_succ hc)).1 (Nat.succ_ne_zero c).symm),
      sub_zero] at edge
    refine (Finset.sum_congr rfl fun r hr => ?_).trans
      (edge.trans (if_congr (Nat.succ_inj.trans eq_comm) rfl rfl))
    have hr : r < points.rows := Finset.mem_range.1 hr
    rw [entry hr (Nat.succ_lt_succ hj), entry hr first]
  · change ∑ c ∈ Finset.range (points.rows + 1), slope r (cell.getD c 0) = 0
    rw [← h.sum r hr, ← Fin.sum_univ_fun_getElem, ← length, Finset.sum_range]
    exact Finset.sum_congr rfl fun c _ => by rw [List.getD_eq_getElem _ 0 c.isLt]

section Columns

variable {C : Matrix (Fin (points.rows + 1)) (Fin (points.rows + 1)) α}

/-- The slopes of functions whose constants and slopes are the columns of a matrix, one for each
corner. -/
def slopesOf (C : Matrix (Fin (points.rows + 1)) (Fin (points.rows + 1)) α) (cell : List ℕ)
    (r v : ℕ) : α := (Dense.ofMatrix C).entry (r + 1) (cell.idxOf v)

lemma slopesOf_eq (r : Fin points.rows) {k : Fin (points.rows + 1)} {v : ℕ}
    (place : cell.idxOf v = k) : slopesOf C cell r v = C r.succ k := by
  rw [slopesOf, place]
  exact congrFun₂ (Dense.leading_ofMatrix C) r.succ k

lemma exists_constant (length : cell.length = points.rows + 1)
    (inverse : Simplex.bordered points cell * C = 1) {v : ℕ} (hv : v ∈ cell) :
    ∃ b, ∀ u ∈ cell, b + ∑ r ∈ Finset.range points.rows, slopesOf C cell r v * points.entry r u =
      if u = v then 1 else 0 := by
  have place {u : ℕ} (hu : u ∈ cell) : cell.idxOf u < points.rows + 1 :=
    (List.idxOf_lt_length_of_mem hu).trans_eq length
  refine ⟨C 0 ⟨_, place hv⟩, fun u hu => ?_⟩
  have value := congrFun₂ inverse ⟨_, place hu⟩ ⟨_, place hv⟩
  have same : (⟨_, place hu⟩ : Fin (points.rows + 1)) = ⟨_, place hv⟩ ↔ u = v :=
    Fin.ext_iff.trans (List.idxOf_inj hu)
  rw [Matrix.mul_apply, Fin.sum_univ_succ, Matrix.one_apply, if_congr same rfl rfl,
    Simplex.bordered_zero, one_mul] at value
  rw [← value, Finset.sum_range]
  congr 1
  refine Finset.sum_congr rfl fun r _ => ?_
  rw [Simplex.bordered_succ, Simplex.getD_idxOf hu, slopesOf_eq r (k := ⟨_, place hv⟩) rfl, mul_comm]

lemma sum_slopesOf (length : cell.length = points.rows + 1) (nodup : cell.Nodup)
    (inverse : C * Simplex.bordered points cell = 1) {r : ℕ} (hr : r < points.rows) :
    (cell.map (slopesOf C cell r)).sum = 0 := by
  have total := congrFun₂ inverse (Fin.succ ⟨r, hr⟩) 0
  rw [Matrix.mul_apply, Matrix.one_apply, if_neg (Fin.succ_ne_zero _)] at total
  rw [← total, ← Fin.sum_univ_fun_getElem]
  refine Fintype.sum_equiv (finCongr length) _ _ fun k => ?_
  rw [Simplex.bordered_zero, mul_one]
  exact slopesOf_eq ⟨r, hr⟩ (nodup.idxOf_getElem k k.isLt)

end Columns

/-- **Corners that span a volume have slopes.** The columns of the inverse of the corners behind a
column of ones are the functions. -/
lemma exists_hasSlopes (spans : Simplex.Spans points cell) :
    ∃ slope, HasSlopes points cell slope := by
  have length := spans.length
  have regular := spans.regular
  rw [Simplex.det_eq_bordered length] at regular
  have unit := isUnit_iff_ne_zero.2 regular
  refine ⟨slopesOf (Simplex.bordered points cell)⁻¹ cell, fun v hv u hu u' hu' => ?_, fun r hr =>
    sum_slopesOf length spans.nodup (Matrix.nonsing_inv_mul _ unit) hr⟩
  obtain ⟨b, value⟩ := exists_constant length (Matrix.mul_nonsing_inv _ unit) hv
  rw [← value u hu, ← value u' hu', add_sub_add_left_eq_sub, ← Finset.sum_sub_distrib]
  exact Finset.sum_congr rfl fun r _ => mul_sub _ _ _

/-! ### The mass matrix and the load vector -/

/-- The integral of the product of the functions of two corners. -/
def massEntry {β : Type} [Scalar β] (corners : Dense β) (v w : ℕ) : β :=
  (if v = w then 2.0 else 1) *
    (volume corners / Nat.cast ((corners.rows + 1) * (corners.rows + 2)))

section Integrals

variable {corners : Dense α} {f : Array α → α}

lemma mass?_eq_ok (simplex : IsSimplex corners) (size : factorial corners.rows < Word.limit) :
    mass? corners = .ok (.ofFn (corners.rows + 1) (corners.rows + 1) (massEntry corners)) := by
  rw [mass?, volume?_eq_ok simplex size]
  rfl

lemma load?_eq_ok (simplex : IsSimplex corners) (size : factorial corners.rows < Word.limit) :
    ∃ x, load? f corners = .ok x ∧ x.size = corners.cols ∧ ∀ a < corners.cols, x.getD a 0 =
      ∑ b ∈ Finset.range corners.cols, massEntry corners a b * f (corners.col b) := by
  refine ⟨_, by rw [load?, mass?_eq_ok simplex size]; rfl, ?_, fun a ha => ?_⟩
  · rw [Dense.size_mulVec]
    exact simplex.symm
  · have inside : a < corners.rows + 1 := simplex ▸ ha
    have value {b : ℕ} (hb : b < corners.cols) :
        ((Array.range corners.cols).map fun c => f (corners.col c)).getD b 0 =
          f (corners.col b) := by
      simp [hb]
    rw [Dense.getD_mulVec _ _ (show a < (Dense.ofFn _ _ _).rows from inside)]
    refine Finset.sum_congr (congrArg Finset.range simplex.symm) fun b hb => ?_
    have hb : b < corners.cols := Finset.mem_range.1 hb
    rw [value hb, Dense.entry_ofFn _ inside (simplex ▸ hb)]

end Integrals

/-! ### Corners in another order -/

/-- Whatever the order of the corners, the element matrix has the entry `F v w` for the corners `v`
and `w`. -/
def HasMatrix {E : Type} (points : Dense α) (element : Dense α → Except E (Dense α))
    (cell : List ℕ) (F : ℕ → ℕ → α) : Prop :=
  ∀ cell', cell'.Perm cell → ∃ m, element (points.selectCols cell') = .ok m ∧
    ∀ a b (ha : a < cell'.length) (hb : b < cell'.length), m.entry a b = F cell'[a] cell'[b]

/-- Whatever the order of the corners, the element vector has the entry `F v` for the corner `v`. -/
def HasVector {E : Type} (points : Dense α) (element : Dense α → Except E (Array α))
    (cell : List ℕ) (F : ℕ → α) : Prop :=
  ∀ cell', cell'.Perm cell → ∃ x, element (points.selectCols cell') = .ok x ∧
    x.toList = cell'.map F

section Spanning

variable (spans : Simplex.Spans points cell)
include spans

omit [Scalar.Exact α] spans in
lemma col_selectCols [Zero α] {c : ℕ} (hc : c < cell.length) :
    (points.selectCols cell).col c = points.col cell[c] :=
  congrArg Array.ofFn (funext fun r => Dense.entry_selectCols points cell r.isLt hc)

lemma isSimplex_selectCols : IsSimplex (points.selectCols cell) := spans.length

lemma volume_of_perm (perm : cell'.Perm cell) :
    volume (points.selectCols cell') = volume (points.selectCols cell) := by
  have det := Simplex.abs_det_of_perm spans.length spans.regular perm
  rw [← Scalar.abs_eq, ← Scalar.abs_eq] at det
  exact congrArg (· / _) det

lemma exists_hasMatrix_stiffness (size : factorial points.rows < Word.limit) :
    ∃ F, HasMatrix points stiffness? cell F := by
  obtain ⟨slope, slopes⟩ := exists_hasSlopes spans
  refine ⟨fun v w => volume (points.selectCols cell) *
    ∑ r ∈ Finset.range points.rows, slope r v * slope r w, fun cell' perm => ?_⟩
  have spans' := spans.of_perm perm
  have areSlopes := (slopes.of_perm perm).areSlopes spans'.nodup spans'.length
  obtain ⟨m, computed, entry⟩ := areSlopes.stiffness?_eq_ok (isSimplex_selectCols spans') size
  refine ⟨m, computed, fun a b ha hb => ?_⟩
  rw [entry a (spans'.length ▸ ha) b (spans'.length ▸ hb), volume_of_perm spans perm,
    List.getD_eq_getElem _ 0 ha, List.getD_eq_getElem _ 0 hb]
  rfl

lemma massEntry_of_perm (perm : cell'.Perm cell) {a b : ℕ} (ha : a < cell'.length)
    (hb : b < cell'.length) :
    massEntry (points.selectCols cell') a b =
      massEntry (points.selectCols cell) cell'[a] cell'[b] := by
  have nodup := (spans.of_perm perm).nodup
  rw [massEntry, massEntry, volume_of_perm spans perm, if_congr nodup.getElem_inj_iff rfl rfl]
  rfl

lemma hasMatrix_mass (size : factorial points.rows < Word.limit) :
    HasMatrix points mass? cell (massEntry (points.selectCols cell)) := by
  intro cell' perm
  have spans' := spans.of_perm perm
  refine ⟨_, mass?_eq_ok (isSimplex_selectCols spans') size, fun a b ha hb => ?_⟩
  rw [Dense.entry_ofFn _ (spans'.length ▸ ha) (spans'.length ▸ hb),
    massEntry_of_perm spans perm ha hb]

lemma hasVector_load (f : Array α → α) (size : factorial points.rows < Word.limit) :
    HasVector points (load? f) cell fun v =>
      (cell.map fun w => massEntry (points.selectCols cell) v w * f (points.col w)).sum := by
  intro cell' perm
  have simplex := isSimplex_selectCols (spans.of_perm perm)
  obtain ⟨x, computed, width, entry⟩ := load?_eq_ok (f := f) simplex size
  have cols : (points.selectCols cell').cols = cell'.length := rfl
  rw [cols] at width entry
  refine ⟨x, computed, List.ext_getElem (by simpa using width) fun a ha hb => ?_⟩
  have inside : a < cell'.length := by simpa using hb
  have value : x.toList[a] = x.getD a 0 := by
    have ha : a < x.size := by simpa using ha
    simp [ha]
  rw [value, entry a inside, List.getElem_map, ← (perm.map _).sum_eq, ← Fin.sum_univ_fun_getElem,
    Finset.sum_range]
  refine Finset.sum_congr rfl fun b _ => ?_
  rw [col_selectCols b.isLt, massEntry_of_perm spans perm inside b.isLt]

/-! ### Too many dimensions -/

lemma stiffness?_eq_error (size : ¬factorial points.rows < Word.limit) :
    stiffness? (points.selectCols cell) = .error .dimension := by
  obtain ⟨slope, slopes⟩ := exists_hasSlopes spans
  have areSlopes := slopes.areSlopes spans.nodup spans.length
  obtain ⟨G, gradients, -⟩ := areSlopes.gradients?_eq_ok (isSimplex_selectCols spans)
  rw [stiffness?, gradients, volume?_eq_error (isSimplex_selectCols spans) size]
  rfl

lemma mass?_eq_error (size : ¬factorial points.rows < Word.limit) :
    mass? (points.selectCols cell) = .error .dimension := by
  rw [mass?, volume?_eq_error (isSimplex_selectCols spans) size]
  rfl

lemma load?_eq_error (f : Array α → α) (size : ¬factorial points.rows < Word.limit) :
    load? f (points.selectCols cell) = .error .dimension := by
  rw [load?, mass?_eq_error spans size]
  rfl

end Spanning

end Element

end Eigenmesh
