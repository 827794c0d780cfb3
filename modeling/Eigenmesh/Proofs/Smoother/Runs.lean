import Mathlib.Data.List.Range
import Mathlib.Logic.Function.Iterate
import Eigenmesh.Proofs.Scalar.Exact
import Eigenmesh.Smoother

/-!
Runs of a smoother, whatever the arithmetic.

A run of `m + k` steps is one of `m` steps and, from where that ends, one of `k`. Each step makes its
correction anew, so one buffer does for all of them. Outside the patches the correction is zero.
-/

namespace Eigenmesh.Smoother

variable {α : Type} [Scalar α] {S : Smoother α} {theta : α} {z r b x c : Array α} {i : ℕ}

/-! ### Corrections -/

@[simp] lemma size_scatter (dofs : List ℕ) (c : Array α) :
    (scatter theta z dofs c).size = z.size := by
  unfold scatter
  generalize dofs.zip c.toList = l
  induction l generalizing z with
  | nil => rfl
  | cons e l ih => rw [List.foldl_cons, ih, Array.size_modify]

@[simp] lemma size_correction (S : Smoother α) (m : ℕ) (r : Array α) :
    (S.correction m r).size = m := by
  refine List.foldlRecOn (motive := fun z : Array α => z.size = m) _ _ Array.size_replicate ?_
  exact fun z size x _ => (size_scatter _ _).trans size

@[simp] lemma size_mult (S : Smoother α) (r : Array α) : (S.mult r).size = S.matrix.rows :=
  size_correction S _ r

@[simp] lemma size_step : (S.step b x).size = x.size := Array.size_ofFn

lemma getD_scatter_of_notMem {dofs : List ℕ} (away : i ∉ dofs) :
    (scatter theta z dofs c).getD i 0 = z.getD i 0 := by
  refine List.foldlRecOn (motive := fun y : Array α => y.getD i 0 = z.getD i 0) _ _ rfl ?_
  rintro y kept ⟨v, w⟩ listed
  have ne : v ≠ i := fun eq => away (eq ▸ (List.of_mem_zip listed).1)
  rw [← kept, Array.getD_eq_getD_getElem?, Array.getElem?_modify, if_neg ne,
    Array.getD_eq_getD_getElem?]

lemma getD_correction_of_notMem (away : ∀ p ∈ S.patches.patches, i ∉ p.dofs) (m : ℕ) :
    (S.correction m r).getD i 0 = 0 := by
  refine List.foldlRecOn (motive := fun z : Array α => z.getD i 0 = 0) _ _
    (Coords.getD_replicate_zero m i) ?_
  intro z zero x hx
  exact (getD_scatter_of_notMem (away x.1 (List.of_mem_zip hx).1)).trans zero

/-- The correction written into a buffer. -/
def correctInto (S : Smoother α) (r buffer : Array α) : Array α :=
  (S.patches.patches.zip S.factors).foldl (fun z (p, L) =>
    scatter S.theta z p.dofs (L.solveBoth (p.dofs.map fun i => r.getD i 0).toArray))
    (buffer.map fun _ => 0)

lemma correctInto_eq (S : Smoother α) (r buffer : Array α) :
    S.correctInto r buffer = S.correction buffer.size r := by
  rw [correctInto, Array.map_const']
  rfl

omit [Scalar α] in
lemma takes_iff {n : ℕ} : S.takes n = true ↔ ∀ p ∈ S.patches.patches, ∀ v ∈ p.dofs, v < n := by
  simp only [takes, List.all_eq_true, decide_eq_true_eq]

/-! ### Runs -/

lemma smooth_succ (steps : ℕ) (x : Array α) :
    (S.smooth b (steps + 1) x).2 = (S.smooth b steps (S.step b x)).2 := rfl

lemma smooth_succ' (steps : ℕ) (x : Array α) :
    (S.smooth b (steps + 1) x).2 = S.step b (S.smooth b steps x).2 := by
  induction steps generalizing x with
  | zero => rfl
  | succ steps ih => rw [smooth_succ, ih, smooth_succ]

lemma size_smooth (steps : ℕ) (x : Array α) : (S.smooth b steps x).2.size = x.size := by
  induction steps with
  | zero => rfl
  | succ steps ih => rw [smooth_succ', size_step, ih]

lemma norms_succ (steps : ℕ) (x : Array α) : (S.smooth b (steps + 1) x).1 =
    Coords.norm (S.residual b x) :: (S.smooth b steps (S.step b x)).1 := rfl

lemma norms_eq (steps : ℕ) (x : Array α) : (S.smooth b steps x).1 =
    (List.range (steps + 1)).map fun j => Coords.norm (S.residual b (S.smooth b j x).2) := by
  induction steps generalizing x with
  | zero => rfl
  | succ steps ih =>
    rw [norms_succ, ih, List.range_succ_eq_map (n := steps + 1), List.map_cons, List.map_map]
    rfl

lemma vector_add (m k : ℕ) (x : Array α) :
    (S.smooth b (m + k) x).2 = (S.smooth b k (S.smooth b m x).2).2 := by
  induction k with
  | zero => rfl
  | succ k ih => rw [← Nat.add_assoc, smooth_succ', ih, smooth_succ']

lemma norms_add (m k : ℕ) (x : Array α) : (S.smooth b (m + k) x).1 =
    (S.smooth b m x).1.dropLast ++ (S.smooth b k (S.smooth b m x).2).1 := by
  have first : (S.smooth b m x).1.dropLast =
      (List.range m).map fun j => Coords.norm (S.residual b (S.smooth b j x).2) := by
    rw [norms_eq, List.range_succ, List.map_append]
    exact List.dropLast_concat
  rw [first, norms_eq (m + k), norms_eq k, Nat.add_assoc, List.range_add, List.map_append,
    List.map_map]
  congr 1
  exact List.map_congr_left fun j _ => by rw [Function.comp_apply, vector_add]

omit [Scalar α] in
lemma fits_eq_isArray (rows : S.matrix.rows = b.size) (cols : S.matrix.cols = x.size)
    (takes : S.takes x.size = true) (steps : ℕ) :
    S.fits b x steps = Word.isArray (steps + 1) 8 := by
  simp only [fits, rows, cols, takes, decide_true, Bool.true_and, Bool.or_true, Bool.and_true]

lemma fits_add_iff (m k : ℕ) (x : Array α) : S.fits b x (m + k) = true ↔
    S.fits b x m = true ∧ S.fits b (S.smooth b m x).2 k = true ∧
      Word.isArray (m + k + 1) 8 = true := by
  simp only [fits, size_smooth, Word.isArray, Bool.and_eq_true, Bool.or_eq_true, decide_eq_true_eq]
  have room : (m + k + 1) * 8 < Nat.pow 2 63 →
      (m + 1) * 8 < Nat.pow 2 63 ∧ (k + 1) * 8 < Nat.pow 2 63 := by omega
  constructor
  · rintro ⟨⟨sizes, few⟩, none | takes⟩
    · obtain ⟨rfl, rfl⟩ := Nat.add_eq_zero_iff.1 none
      exact ⟨⟨⟨sizes, few⟩, .inl rfl⟩, ⟨⟨sizes, few⟩, .inl rfl⟩, few⟩
    · exact ⟨⟨⟨sizes, (room few).1⟩, .inr takes⟩, ⟨⟨sizes, (room few).2⟩, .inr takes⟩, few⟩
  · rintro ⟨⟨⟨sizes, -⟩, first⟩, ⟨-, second⟩, few⟩
    refine ⟨⟨sizes, few⟩, ?_⟩
    rcases first with none | takes
    · exact second.imp_left fun none' => Nat.add_eq_zero_iff.2 ⟨none, none'⟩
    · exact .inr takes

/-! ### One buffer -/

/-- What a run holds between two steps. -/
structure Course (α : Type) where
  norms : List α
  x : Array α
  /-- The last correction, in the place of the next. -/
  buffer : Array α

/-- A step in place. -/
def advance (S : Smoother α) (b : Array α) (s : Course α) : Course α :=
  let r := S.residual b s.x
  let correction := S.correctInto r s.buffer
  ⟨s.norms ++ [Coords.norm r], Coords.add s.x correction, correction⟩

/-- A run in place, with one buffer for the corrections of all steps. -/
def smoothInto (S : Smoother α) (b : Array α) (steps : ℕ) (x buffer : Array α) :
    List α × Array α :=
  let last := (S.advance b)^[steps] ⟨[], x, buffer⟩
  (last.norms ++ [Coords.norm (S.residual b last.x)], last.x)

lemma advance_eq {s : Course α} (size : s.buffer.size = s.x.size) :
    ∃ buffer, buffer.size = s.x.size ∧ S.advance b s =
      ⟨s.norms ++ [Coords.norm (S.residual b s.x)], S.step b s.x, buffer⟩ := by
  refine ⟨S.correction s.x.size (S.residual b s.x), size_correction S _ _, ?_⟩
  rw [advance, correctInto_eq, size]
  rfl

lemma iterate_advance {s : Course α} (size : s.buffer.size = s.x.size) (steps : ℕ) :
    ∃ buffer, (S.advance b)^[steps] s =
      ⟨s.norms ++ (S.smooth b steps s.x).1.dropLast, (S.smooth b steps s.x).2, buffer⟩ := by
  -- over all courses, since a step leaves its correction in the buffer for the next one
  induction steps generalizing s with
  | zero => exact ⟨s.buffer, congrArg (Course.mk · s.x s.buffer) (List.append_nil s.norms).symm⟩
  | succ steps ih =>
    obtain ⟨next, size', eq⟩ := advance_eq (S := S) (b := b) size
    obtain ⟨buffer, run⟩ := ih (s := S.advance b s) (by rw [eq]; exact size'.trans size_step.symm)
    refine ⟨buffer, ?_⟩
    have nonempty : (S.smooth b steps (S.step b s.x)).1 ≠ [] := by
      rw [norms_eq]
      simp
    rw [Function.iterate_succ_apply, run, eq, norms_succ, smooth_succ,
      List.dropLast_cons_of_ne_nil nonempty, List.append_assoc, List.singleton_append]

/-- **A buffer used again makes no difference**, nor does what it holds at the beginning. -/
lemma smoothInto_eq {buffer : Array α} (size : buffer.size = x.size) (steps : ℕ) :
    S.smoothInto b steps x buffer = S.smooth b steps x := by
  obtain ⟨buffer', run⟩ := iterate_advance (S := S) (b := b) (s := ⟨[], x, buffer⟩) size steps
  have last : (S.smooth b steps x).1 = (S.smooth b steps x).1.dropLast ++
      [Coords.norm (S.residual b (S.smooth b steps x).2)] := norms_add steps 0 x
  rw [smoothInto, run]
  exact Prod.ext last.symm rfl

end Eigenmesh.Smoother
