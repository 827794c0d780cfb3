import Eigenmesh.Proofs.Operator.Forms
import Eigenmesh.Proofs.Scalar.Rational
import Eigenmesh.Proofs.Smoother.Decrease
import Eigenmesh.Program.Poisson

/-!
How a smoother propagates the error.

The residual is the product of the matrix with the error, but for the sign, and the correction is
linear in it. So what a step does to the error at the free unknowns is the operator whose spectrum is
computed. At the other unknowns there is neither an error nor a correction.
-/

namespace Eigenmesh

/-! ### Flags and their indices -/

lemma toList_indicesOfFlags (flags : Array Bool) : (indicesOfFlags flags).toList =
    (List.range flags.size).filter fun i => flags.getD i false := by
  have flagged : ∀ x ∈ flags.toList.zipIdx, (if x.1 then some x.2 else none) =
      if flags.getD x.2 false then some x.2 else none := by
    rintro ⟨flag, i⟩ hx
    have here := List.mk_mem_zipIdx_iff_getElem?.1 hx
    rw [Array.getElem?_toList] at here
    rw [Array.getD_eq_getD_getElem?, here, Option.getD_some]
  have places : flags.toList.zipIdx.map Prod.snd = List.range flags.size := by
    rw [List.zipIdx_map_snd, List.range_eq_range', Array.length_toList]
  rw [indicesOfFlags, Array.toList_filterMap, Array.toList_zipIdx]
  refine (List.filterMap_congr flagged).trans ?_
  rw [← places, List.filter_map, ← List.filterMap_eq_map, List.filterMap_filter]
  rfl

lemma flagsOfIndices?_eq_some {n : ℕ} {listed : List ℕ} {flags : Array Bool}
    (flagged : flagsOfIndices? listed.toArray n = some flags) :
    flags.size = n ∧ ∀ v < n, flags.getD v false = true ↔ v ∈ listed := by
  unfold flagsOfIndices? at flagged
  split at flagged
  case isFalse => cases flagged
  case isTrue =>
    obtain rfl := Option.some.inj flagged
    rw [← Array.foldl_toList]
    refine ⟨?_, fun v hv => Patches.getD_flags hv⟩
    exact List.foldlRecOn (motive := fun f : Array Bool => f.size = n) _ _ Array.size_replicate
      fun f size i _ => Array.size_setIfInBounds.trans size

lemma toList_unlisted {n : ℕ} {listed : List ℕ} {flags : Array Bool}
    (flagged : flagsOfIndices? listed.toArray n = some flags) :
    (indicesOfFlags (flags.map (!·))).toList = (List.range n).filter (· ∉ listed) := by
  obtain ⟨size, set⟩ := flagsOfIndices?_eq_some flagged
  rw [toList_indicesOfFlags, Array.size_map, size]
  refine List.filter_congr fun v hv => ?_
  have inside : v < flags.size := size ▸ List.mem_range.1 hv
  have set := set v (List.mem_range.1 hv)
  rw [Array.getD_eq_getD_getElem?, Array.getElem?_eq_getElem inside, Option.getD_some] at set
  simp [inside, ← set]

namespace Program.Poisson

variable {α : Type} {n i : ℕ} {free : Array ℕ}

section Extension

variable [Scalar α] {S : Smoother α} {e : Array α}

lemma extend_eq (n : ℕ) (free : Array ℕ) (e : Array α) : extend n free e =
    (free.toList.zip e.toList).foldl (fun x (i, v) => x.setIfInBounds i v) (Coords.zeros n) := by
  rw [extend, ← Array.foldl_toList, Array.toList_zip]

@[simp] lemma size_extend (n : ℕ) (free : Array ℕ) (e : Array α) : (extend n free e).size = n := by
  rw [extend_eq, size_write (fun v => v), Coords.zeros, Array.size_replicate]

lemma getD_extend_of_notMem (away : i ∉ free) : (extend n free e).getD i 0 = 0 := by
  have absent : i ∉ (free.toList.zip e.toList).map (·.1) := by
    intro mem
    obtain ⟨x, hx, rfl⟩ := List.mem_map.1 mem
    exact away (Array.mem_toList_iff.1 (List.of_mem_zip hx).1)
  rw [extend_eq, Array.getD_eq_getD_getElem?, write_of_notMem (fun v => v) absent,
    ← Array.getD_eq_getD_getElem?]
  exact Coords.getD_replicate_zero n i

lemma getD_extend (nodup : free.toList.Nodup) (size : e.size = free.size) {a : ℕ}
    (ha : a < free.size) (inside : free[a] < n) :
    (extend n free e).getD free[a] 0 = e.getD a 0 := by
  have single : SingleValued (free.toList.zip e.toList) := by
    refine .of_nodup ?_
    rw [List.map_fst_zip (by simp [size])]
    exact nodup
  have listed : (free[a], e.getD a 0) ∈ free.toList.zip e.toList := by
    refine List.mem_iff_getElem.2 ⟨a, by simp [size, ha], ?_⟩
    simp [size, ha]
  have room : free[a] < (Coords.zeros n : Array α).size := by simpa [Coords.zeros] using inside
  rw [extend_eq, Array.getD_eq_getD_getElem?, write_of_mem (fun v => v) single listed room,
    Option.getD_some]

lemma size_propagate (size : e.size = free.size) : (propagate S free e).size = free.size := by
  simp [propagate, size]

lemma getD_propagate (size : e.size = free.size) {a : ℕ} (ha : a < free.size) :
    (propagate S free e).getD a 0 = e.getD a 0 -
      (S.mult (S.matrix.mulVec (extend S.matrix.rows free e))).getD free[a] 0 := by
  simp [propagate, size, ha]

end Extension

variable [Scalar.Exact α] {S : Smoother α} {essential : List ℕ} {b x solution e : Array α}

lemma getD_sub_add (size : solution.size = n) (v : ℕ) :
    (Coords.sub (Coords.add solution (extend n free e)) solution).getD v 0 =
      (extend n free e).getD v 0 := by
  by_cases hv : v < solution.size
  · rw [Coords.getD_sub _ _ (by simpa using hv), Coords.getD_add _ _ hv]
    exact add_sub_cancel_left _ _
  · simp [hv, size ▸ hv]

/-- All unknowns of the patches are among the free ones, each of which is listed once. -/
structure Frees (S : Smoother α) (free : Array ℕ) : Prop where
  square : S.matrix.cols = S.matrix.rows
  nodup : free.toList.Nodup
  lt : ∀ v ∈ free, v < S.matrix.rows
  inside : ∀ p ∈ S.patches.patches, ∀ v ∈ p.dofs, v ∈ free

namespace Frees

variable (h : Frees S free) (size : solution.size = S.matrix.rows)
  (solves : S.matrix.mulVec solution = b)
include h size solves

lemma residual_add (e : Array α) {j : ℕ} (hj : j < S.matrix.rows) :
    (S.residual b (Coords.add solution (extend S.matrix.rows free e))).getD j 0 =
      -(S.matrix.mulVec (extend S.matrix.rows free e)).getD j 0 := by
  have product : j < (S.matrix.mulVec solution).size := by
    rwa [Csr.mulVec, Array.size_map]
  rw [Smoother.residual, ← solves, Coords.getD_sub _ _ product]
  simp only [Csr.mulVec_getD_eq_sum]
  rw [← Finset.sum_sub_distrib, ← Finset.sum_neg_distrib]
  refine Finset.sum_congr rfl fun k hk => ?_
  have inside : k < solution.size := by rw [size, ← h.square]; exact Finset.mem_range.1 hk
  rw [Coords.getD_add _ _ inside]
  ring

/-- **A step propagates the error.** -/
lemma step_add (size' : e.size = free.size) :
    S.step b (Coords.add solution (extend S.matrix.rows free e)) =
      Coords.add solution (extend S.matrix.rows free (propagate S free e)) := by
  refine (Coords.eq_iff_getD (by simp)).2 fun i hi => ?_
  have hi : i < S.matrix.rows := by simpa [size] using hi
  have here : i < solution.size := size ▸ hi
  have correction : (S.correction S.matrix.rows
      (S.residual b (Coords.add solution (extend S.matrix.rows free e)))).getD i 0 =
        -(S.mult (S.matrix.mulVec (extend S.matrix.rows free e))).getD i 0 := by
    have linear := Smoother.getD_correction_mem_forms
      (fun p hp v hv => h.lt v (h.inside p hp v hv)) hi
    refine form_neg linear ?_ ?_ fun j hj => h.residual_add size solves e hj
    · rw [Smoother.residual, Coords.size_sub, ← solves, Csr.mulVec, Array.size_map, Csr.rows]
    · rw [Csr.mulVec, Array.size_map, Csr.rows]
  rw [Smoother.step, Coords.getD_add _ _ (by simpa using here), Coords.getD_add _ _ here,
    Coords.getD_add _ _ here, Coords.size_add, size, correction]
  by_cases mem : i ∈ free
  · obtain ⟨a, ha, rfl⟩ := Array.mem_iff_getElem.1 mem
    rw [getD_extend h.nodup size' ha hi, getD_extend h.nodup (size_propagate size') ha hi,
      getD_propagate size' ha]
    ring
  · -- no patch holds the unknown, whatever the operator is applied to
    have none : (S.mult (S.matrix.mulVec (extend S.matrix.rows free e))).getD i 0 = 0 :=
      Smoother.getD_correction_of_notMem (fun p hp hv => mem (h.inside p hp i hv)) _
    rw [getD_extend_of_notMem mem, getD_extend_of_notMem mem, none, neg_zero, add_zero]

lemma smooth_add (size' : e.size = free.size) (steps : ℕ) :
    ((propagate S free)^[steps] e).size = free.size ∧
      (S.smooth b steps (Coords.add solution (extend S.matrix.rows free e))).2 =
        Coords.add solution (extend S.matrix.rows free ((propagate S free)^[steps] e)) := by
  induction steps with
  | zero => exact ⟨size', rfl⟩
  | succ steps ih =>
    rw [Function.iterate_succ_apply', Smoother.smooth_succ', ih.2]
    exact ⟨size_propagate ih.1, h.step_add size solves ih.1⟩

end Frees

/-- **The spectrum is that of the error propagation.** Let the patches hold free unknowns only, and
let a vector differ from a solution by `e` at the free unknowns and not at all elsewhere. After any
number of steps there is still no difference elsewhere, and at the free unknowns it is what the
operator whose spectrum is computed makes of `e` when it is applied as many times. -/
theorem smooth_propagates {flags : Array Bool} (square : S.matrix.cols = S.matrix.rows)
    (flagged : flagsOfIndices? essential.toArray S.matrix.rows = some flags)
    (listed : free = indicesOfFlags (flags.map (!·)))
    (inside : ∀ p ∈ S.patches.patches, ∀ v ∈ p.dofs, v ∈ free)
    (size : solution.size = S.matrix.rows) (solves : S.matrix.mulVec solution = b)
    (sizeX : x.size = S.matrix.rows) (sizeE : e.size = free.size)
    (on : ∀ (a : ℕ) (ha : a < free.size), x.getD free[a] 0 = solution.getD free[a] 0 + e.getD a 0)
    (off : ∀ v < S.matrix.rows, v ∉ free → x.getD v 0 = solution.getD v 0) (steps : ℕ) :
    free.toList = (List.range S.matrix.rows).filter (· ∉ essential) ∧
    S.fits b x steps = Word.isArray (steps + 1) 8 ∧
    (∀ v, v ∉ free → (Coords.sub (S.smooth b steps x).2 solution).getD v 0 = 0) ∧
    free.map (fun v => (Coords.sub (S.smooth b steps x).2 solution).getD v 0) =
      (propagation S free).mult^[steps] e := by
  have increasing := toList_unlisted flagged
  rw [← listed] at increasing
  have lt : ∀ v ∈ free, v < S.matrix.rows := by
    intro v hv
    rw [← Array.mem_toList_iff, increasing] at hv
    exact List.mem_range.1 (List.mem_filter.1 hv).1
  have nodup : free.toList.Nodup := increasing ▸ List.nodup_range.filter _
  have h : Frees S free := ⟨square, nodup, lt, inside⟩
  have apart : x = Coords.add solution (extend S.matrix.rows free e) := by
    refine (Coords.eq_iff_getD (by simp [size, sizeX])).2 fun v hv => ?_
    have hv : v < S.matrix.rows := sizeX ▸ hv
    rw [Coords.getD_add _ _ (size ▸ hv)]
    by_cases mem : v ∈ free
    · obtain ⟨a, ha, rfl⟩ := Array.mem_iff_getElem.1 mem
      rw [on a ha, getD_extend nodup sizeE ha hv]
    · rw [off v hv mem, getD_extend_of_notMem mem, add_zero]
  obtain ⟨sizeY, reached⟩ := h.smooth_add size solves sizeE steps
  have takes : S.takes x.size = true :=
    Smoother.takes_iff.2 fun p hp v hv => sizeX ▸ lt v (inside p hp v hv)
  have sizeB : S.matrix.rows = b.size := by
    rw [← solves, Csr.mulVec, Array.size_map, Csr.rows]
  refine ⟨increasing, Smoother.fits_eq_isArray sizeB (square.trans sizeX.symm) takes steps, ?_, ?_⟩
  · intro v away
    rw [apart, reached, getD_sub_add size, getD_extend_of_notMem away]
  · rw [apart, reached]
    have powers : (propagation S free).mult = propagate S free := by
      funext y
      rw [propagation, Operator.mult]
    rw [powers]
    refine Array.ext (by simp [sizeY]) fun a ha ha' => ?_
    have ha : a < free.size := by simpa using ha
    rw [Array.getElem_map, getD_sub_add size,
      getD_extend nodup sizeY ha (lt _ (Array.getElem_mem ha))]
    simp [ha']

/-- Two patches with the unknown in the middle of three, the others essential. -/
def middleTwice : Smoother Rat where
  matrix := ⟨3, #[[(0, 1)], [(0, -1), (1, 4), (2, -1)], [(2, 1)]], by decide⟩
  patches := ⟨3, [⟨0, [1]⟩, ⟨1, [1]⟩]⟩
  factors := [⟨1, 1, #[2], rfl⟩, ⟨1, 1, #[2], rfl⟩]
  theta := 1 / 4

/-- Each step halves the error. -/
theorem smooth_propagates_middle :
    flagsOfIndices? [0, 2].toArray 3 = some #[true, false, true] ∧
    middleTwice.matrix.mulVec #[1, 1, 1] = #[1, 2, 1] ∧
    #[1].map (fun v => (Coords.sub (middleTwice.smooth #[1, 2, 1] 3 #[1, 9, 1]).2
      #[1, 1, 1]).getD v 0) = (propagation middleTwice #[1]).mult^[3] #[8] := by
  have flagged : flagsOfIndices? [0, 2].toArray 3 = some #[true, false, true] := by
    simp [flagsOfIndices?, Word.isArray]
    rfl
  have listed : #[1] = indicesOfFlags (#[true, false, true].map (!·)) := by
    simp [indicesOfFlags, Array.zipIdx]
  have inside : ∀ p ∈ middleTwice.patches.patches, ∀ v ∈ p.dofs, v ∈ #[1] := by
    simp [middleTwice]
  have solves : middleTwice.matrix.mulVec #[1, 1, 1] = #[1, 2, 1] := by
    simp [Csr.mulVec, middleTwice]
    norm_num
  have on : ∀ (a : ℕ) (ha : a < #[1].size), (#[1, 9, 1] : Array Rat).getD #[1][a] 0 =
      (#[1, 1, 1] : Array Rat).getD #[1][a] 0 + (#[8] : Array Rat).getD a 0 := by
    intro a ha
    obtain rfl := Nat.lt_one_iff.1 ha
    norm_num
  have off : ∀ v < 3, v ∉ #[1] →
      (#[1, 9, 1] : Array Rat).getD v 0 = (#[1, 1, 1] : Array Rat).getD v 0 := by
    intro v hv away
    interval_cases v <;> simp at away ⊢
  exact ⟨flagged, solves,
    (smooth_propagates rfl flagged listed inside rfl solves rfl rfl on off 3).2.2.2⟩

end Program.Poisson

end Eigenmesh
