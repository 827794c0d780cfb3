import Mathlib.Data.Nat.Notation
import Mathlib.Tactic.Common
import Eigenmesh.Proofs.EigenSolver.Run
import Eigenmesh.Proofs.Factor.Sizes
import Eigenmesh.Proofs.Layout
import Eigenmesh.Proofs.Scalar.Rational

/-!
What a solver answers when it is asked for its results.

A solver refuses queries by its own state and its own count of pairs. The package has checks of its
own behind these, and in a coherent solver none of them is ever reached: there is a solution, the
index is in range, and all layouts are those of the attached matrix. What is left to fail is a
buffer of the wrong size, and that is found before anything is written.
-/

namespace Eigenmesh

/-! ### Buffers of the size of a matrix -/

namespace Mat

variable {α : Type}

@[simp] lemma globalSize_rowLayout (M : Mat α) : M.rowLayout.globalSize = M.rows := rfl

@[simp] lemma localSize_rowLayout (M : Mat α) : M.rowLayout.localSize = M.rows := by
  change M.rows / 1 + (if 0 < M.rows % 1 then 1 else 0) = M.rows
  rw [Nat.div_one, Nat.mod_one, if_neg (Nat.lt_irrefl 0), Nat.add_zero]

@[simp] lemma start_rowLayout (M : Mat α) : M.rowLayout.start = 0 := by
  change 0 * (M.rows / 1) + min 0 (M.rows % 1) = 0
  rw [Nat.zero_mul, Nat.zero_min]

end Mat

namespace LocalVector

variable {α : Type} {layout : Layout} {buffer : Array α}

lemma place?_of_size (h : buffer.size = layout.localSize) :
    place? layout buffer = .ok ⟨layout, buffer, true, h⟩ := dif_pos h

lemma place?_of_size_ne (h : buffer.size ≠ layout.localSize) :
    place? layout buffer = .error (.of .argSize
      s!"Array of length {buffer.size} does not match local vector size {layout.localSize}") :=
  dif_neg h

lemma entries_assign {v : LocalVector α} {column : Array α} (start : v.layout.start = 0)
    (size : column.size = v.entries.size) : (v.assign column).entries = column := by
  have stop : v.layout.stop = column.size := by
    rw [size, v.size_eq, Layout.stop, start, Nat.zero_add]
  rw [entries_assign_eq_owned stop.le, Layout.owned, start, stop, Array.extract_size]

end LocalVector

/-! ### What the package writes -/

namespace Handle

variable {α : Type} [Scalar α] {h : Handle α} {i : ℕ} {m : Mode α} {v w : LocalVector α}
  (found : h.mode? i "Eps::eigenvector" = .ok m)

include found

lemma eigenvector_of_unfit {w : Option (LocalVector α)}
    (unfit : v.layout.globalSize ≠ m.vector.size) :
    ∃ e, (h.eigenvector i v w).2 = .error e := by
  unfold eigenvector
  simp only [found]
  rw [if_pos unfit]
  exact ⟨_, rfl⟩

lemma eigenvector_of_fit (fit : v.layout.globalSize = m.vector.size) :
    h.eigenvector i v none = ((v.assign (m.vector.map (·.re)), none), .ok ()) := by
  unfold eigenvector
  simp only [found]
  rw [if_neg (not_not_intro fit)]

lemma eigenvector_of_fit_both (fit : v.layout.globalSize = m.vector.size)
    (same : w.layout = v.layout) : h.eigenvector i v (some w) =
      ((v.assign (m.vector.map (·.re)), some (w.assign (m.vector.map (·.im)))), .ok ()) := by
  unfold eigenvector
  simp only [found]
  rw [if_neg (not_not_intro fit)]
  exact if_neg (not_not_intro same)

end Handle

namespace EigenSolver

variable {α : Type} {s : EigenSolver α} {A : Mat α} {r : Solution α} {m : Mode α} {i : ℕ}
  {e : SolverError} {real imag : Array α}

/-- The solver has a solution of the operator `A`. -/
structure Solved (s : EigenSolver α) (A : Mat α) (r : Solution α) : Prop where
  state : s.state = .solved
  attached : s.handle.A = some A
  stored : s.handle.solution = some r
  counted : r.converged ≤ r.modes.length
  realView : ∀ v, s.realView = some v → v = A.rowLayout
  imagView : ∀ v, s.imagView = some v → v = A.rowLayout

lemma Coherent.exists_solved (c : s.Coherent) (h : s.state = .solved) : ∃ A r, s.Solved A r := by
  obtain ⟨r, stored⟩ := Option.isSome_iff_exists.1 (c.solved h).2
  obtain ⟨A, attached⟩ := Option.isSome_iff_exists.1 (c.consistent.attached r stored)
  have view : ∀ v, s.handle.A.map Mat.rowLayout = some v → v = A.rowLayout := by
    intro v hv
    rw [attached] at hv
    exact (Option.some.inj hv).symm
  exact ⟨A, r, h, attached, stored, c.consistent.counted r stored,
    fun v hv => view v (c.realView v hv), fun v hv => view v (c.imagView v hv)⟩

lemma Solved.exists_mode (v : s.Solved A r) (h : i < r.converged) :
    ∃ m, (r.modes.take r.converged)[i]? = some m := by
  have counted := v.counted
  exact ⟨_, List.getElem?_eq_getElem (by rw [List.length_take]; omega)⟩

lemma Solved.view?_eq (v : s.Solved A r) {slot : Option Layout}
    (h : ∀ x, slot = some x → x = A.rowLayout) : s.view? slot = .ok A.rowLayout := by
  cases slot with
  | some x => rw [h x rfl]; rfl
  | none =>
    unfold view? rowLayout?
    rw [v.attached]

lemma lt_converged (hm : (r.modes.take r.converged)[i]? = some m) : i < r.converged := by
  obtain ⟨h, -⟩ := List.getElem?_eq_some_iff.1 hm
  rw [List.length_take] at h
  omega

variable [Scalar α]

/-! ### Unsolved solvers -/

/-- The answer of a solver to any query as long as it is not solved. -/
def unsolved (s : EigenSolver α) : SolverError :=
  .invalidState s!"solution queried in state {s.state.name}, solve first"

lemma converged?_of_unsolved (h : s.state ≠ .solved) : s.converged? = .error s.unsolved := by
  unfold converged? requireSolved
  rw [if_neg h]
  rfl

lemma requireIndex_of_unsolved (h : s.state ≠ .solved) :
    s.requireIndex i = .error s.unsolved := by
  unfold requireIndex
  rw [converged?_of_unsolved h]
  rfl

/-- A buffer cannot take a vector of another size. -/
def badSize (size n : ℕ) : PackageError :=
  .of .argSize s!"Array of length {size} does not match local vector size {n}"

/-! ### Refused indices -/

lemma eigenvalue?_of_refused (h : s.requireIndex i = .error e) : s.eigenvalue? i = .error e := by
  unfold eigenvalue?
  rw [h]
  rfl

lemma realEigenvalue?_of_refused (h : s.requireIndex i = .error e) :
    s.realEigenvalue? i = .error e := by
  unfold realEigenvalue?
  rw [eigenvalue?_of_refused h]
  rfl

lemma eigenvector_of_refused (h : s.requireIndex i = .error e) :
    s.eigenvector i real = ((s, real), .error e) := by
  unfold eigenvector
  rw [h]
  rfl

lemma eigenvectorComplex_of_refused (h : s.requireIndex i = .error e) :
    s.eigenvectorComplex i real imag = ((s, real, imag), .error e) := by
  unfold eigenvectorComplex
  rw [h]
  rfl

/-! ### Solved solvers -/

namespace Solved

variable (v : s.Solved A r)

include v

lemma converged?_eq : s.converged? = .ok r.converged := by
  unfold converged? requireSolved Handle.converged? Handle.solutionFor?
  rw [if_pos v.state, v.stored]
  rfl

lemma requireIndex_of_le (h : r.converged ≤ i) :
    s.requireIndex i = .error (.indexOutOfRange i r.converged) := by
  unfold requireIndex
  rw [v.converged?_eq]
  exact if_pos h

lemma requireIndex_of_lt (h : i < r.converged) : s.requireIndex i = .ok () := by
  unfold requireIndex
  rw [v.converged?_eq]
  exact if_neg (Nat.not_le.2 h)

variable (hm : (r.modes.take r.converged)[i]? = some m)

include hm

lemma mode?_eq {routine : String} : s.handle.mode? i routine = .ok m := by
  unfold Handle.mode? Handle.solutionFor?
  rw [v.stored]
  simp only [hm]

lemma eigenvalue?_eq : s.eigenvalue? i = .ok m.value := by
  unfold eigenvalue? Handle.eigenvalue?
  rw [v.requireIndex_of_lt (lt_converged hm), v.mode?_eq hm]
  rfl

lemma realEigenvalue?_eq : s.realEigenvalue? i = .ok m.value.re := by
  unfold realEigenvalue?
  rw [v.eigenvalue?_eq hm]
  rfl

lemma eigenvector_of_size_ne (size : real.size ≠ A.rows) : s.eigenvector i real =
    (({ s with realView := some A.rowLayout }, real),
      .error (.package "VectorView::place_array" (badSize real.size A.rows))) := by
  have size : real.size ≠ A.rowLayout.localSize := by rwa [Mat.localSize_rowLayout]
  unfold eigenvector
  rw [v.requireIndex_of_lt (lt_converged hm), v.view?_eq v.realView]
  simp only [bind, Except.bind]
  rw [LocalVector.place?_of_size_ne size, Mat.localSize_rowLayout]
  rfl

lemma eigenvector_of_placed (size : real.size = A.rowLayout.localSize) :
    let written := s.handle.eigenvector i ⟨A.rowLayout, real, true, size⟩ none
    s.eigenvector i real =
      (({ s with realView := some A.rowLayout }, written.1.1.entries),
        checked "Eps::eigenvector" written.2) := by
  unfold eigenvector
  rw [v.requireIndex_of_lt (lt_converged hm), v.view?_eq v.realView]
  simp only [bind, Except.bind]
  rw [LocalVector.place?_of_size size]
  rfl

lemma eigenvector_of_size (size : real.size = A.rows) (fit : m.vector.size = A.rows) :
    s.eigenvector i real =
      (({ s with realView := some A.rowLayout }, m.vector.map (·.re)), .ok ()) := by
  have placed : real.size = A.rowLayout.localSize := by rwa [Mat.localSize_rowLayout]
  have column : (m.vector.map (·.re)).size = real.size := by rw [Array.size_map, fit, size]
  rw [v.eigenvector_of_placed hm placed, Handle.eigenvector_of_fit (v.mode?_eq hm) fit.symm,
    LocalVector.entries_assign A.start_rowLayout column]
  rfl

lemma eigenvector_of_unfit (size : real.size = A.rows) (unfit : m.vector.size ≠ A.rows) :
    ∃ e, (s.eigenvector i real).2 = .error e := by
  have placed : real.size = A.rowLayout.localSize := by rwa [Mat.localSize_rowLayout]
  rw [v.eigenvector_of_placed hm placed]
  obtain ⟨e, he⟩ := Handle.eigenvector_of_unfit (v := ⟨A.rowLayout, real, true, placed⟩)
    (w := none) (v.mode?_eq hm) unfit.symm
  rw [he]
  exact ⟨_, rfl⟩

lemma eigenvectorComplex_of_size_ne {b : Array α}
    (size : [real, imag].find? (·.size ≠ A.rows) = some b) : s.eigenvectorComplex i real imag =
      (({ s with realView := some A.rowLayout, imagView := some A.rowLayout }, real, imag),
        .error (.package "VectorView::place_array" (badSize b.size A.rows))) := by
  unfold eigenvectorComplex
  rw [v.requireIndex_of_lt (lt_converged hm), v.view?_eq v.realView, v.view?_eq v.imagView]
  simp only [bind, Except.bind, pure, Except.pure]
  by_cases hr : real.size = A.rows
  · have placed : real.size = A.rowLayout.localSize := by rwa [Mat.localSize_rowLayout]
    rw [List.find?_cons_of_neg (by simpa using hr)] at size
    obtain ⟨hi, rfl⟩ : imag.size ≠ A.rows ∧ imag = b := by simpa using size
    have hi : imag.size ≠ A.rowLayout.localSize := by rwa [Mat.localSize_rowLayout]
    rw [LocalVector.place?_of_size placed, LocalVector.place?_of_size_ne hi,
      Mat.localSize_rowLayout]
    rfl
  · rw [List.find?_cons_of_pos (by simpa using hr)] at size
    obtain rfl := Option.some.inj size
    have hr : real.size ≠ A.rowLayout.localSize := by rwa [Mat.localSize_rowLayout]
    rw [LocalVector.place?_of_size_ne hr, Mat.localSize_rowLayout]
    rfl

lemma eigenvectorComplex_of_placed (hr : real.size = A.rowLayout.localSize)
    (hi : imag.size = A.rowLayout.localSize) :
    let written := s.handle.eigenvector i ⟨A.rowLayout, real, true, hr⟩
      (some ⟨A.rowLayout, imag, true, hi⟩)
    s.eigenvectorComplex i real imag =
      (({ s with realView := some A.rowLayout, imagView := some A.rowLayout },
        written.1.1.entries, (written.1.2.getD ⟨A.rowLayout, imag, true, hi⟩).entries),
        checked "Eps::eigenvector" written.2) := by
  unfold eigenvectorComplex
  rw [v.requireIndex_of_lt (lt_converged hm), v.view?_eq v.realView, v.view?_eq v.imagView]
  simp only [bind, Except.bind, pure, Except.pure]
  rw [LocalVector.place?_of_size hr, LocalVector.place?_of_size hi]
  rfl

lemma eigenvectorComplex_of_size (sr : real.size = A.rows) (si : imag.size = A.rows)
    (fit : m.vector.size = A.rows) : s.eigenvectorComplex i real imag =
      (({ s with realView := some A.rowLayout, imagView := some A.rowLayout },
        m.vector.map (·.re), m.vector.map (·.im)), .ok ()) := by
  have hr : real.size = A.rowLayout.localSize := by rwa [Mat.localSize_rowLayout]
  have hi : imag.size = A.rowLayout.localSize := by rwa [Mat.localSize_rowLayout]
  have re : (m.vector.map (·.re)).size = real.size := by rw [Array.size_map, fit, sr]
  have im : (m.vector.map (·.im)).size = imag.size := by rw [Array.size_map, fit, si]
  have both := Handle.eigenvector_of_fit_both (v := ⟨A.rowLayout, real, true, hr⟩)
    (w := ⟨A.rowLayout, imag, true, hi⟩) (v.mode?_eq hm) fit.symm rfl
  rw [v.eigenvectorComplex_of_placed hm hr hi, both, Option.getD_some,
    LocalVector.entries_assign A.start_rowLayout re,
    LocalVector.entries_assign A.start_rowLayout im]
  rfl

lemma eigenvectorComplex_of_unfit (sr : real.size = A.rows) (si : imag.size = A.rows)
    (unfit : m.vector.size ≠ A.rows) : ∃ e, (s.eigenvectorComplex i real imag).2 = .error e := by
  have hr : real.size = A.rowLayout.localSize := by rwa [Mat.localSize_rowLayout]
  have hi : imag.size = A.rowLayout.localSize := by rwa [Mat.localSize_rowLayout]
  rw [v.eigenvectorComplex_of_placed hm hr hi]
  obtain ⟨e, he⟩ := Handle.eigenvector_of_unfit (v := ⟨A.rowLayout, real, true, hr⟩)
    (w := some ⟨A.rowLayout, imag, true, hi⟩) (v.mode?_eq hm) unfit.symm
  rw [he]
  exact ⟨_, rfl⟩

end Solved

/-! ### The guards of both layers -/

lemma Coherent.converged?_eq_error (c : s.Coherent) :
    s.converged? = .error e ↔ s.state ≠ .solved ∧ e = s.unsolved := by
  by_cases h : s.state = .solved
  · obtain ⟨A, r, v⟩ := c.exists_solved h
    rw [v.converged?_eq]
    exact ⟨fun e => (nomatch e), fun e => absurd h e.1⟩
  · rw [converged?_of_unsolved h, Except.error.injEq]
    exact ⟨fun e => ⟨h, e.symm⟩, fun e => e.2.symm⟩

/-- Why a pair is refused. -/
inductive Refused (s : EigenSolver α) (i : ℕ) : SolverError → Prop
  | unsolved (state : s.state ≠ .solved) : Refused s i s.unsolved
  | beyond {n : ℕ} (state : s.state = .solved) (count : s.converged? = .ok n) (le : n ≤ i) :
      Refused s i (.indexOutOfRange i n)

/-- Why an eigenvector is refused: the pair is, or the first buffer of the wrong size. -/
inductive Withheld (s : EigenSolver α) (i : ℕ) (buffers : List (Array α)) : SolverError → Prop
  | pair {e : SolverError} (refused : s.Refused i e) : Withheld s i buffers e
  | size {n : ℕ} {A : Mat α} {b : Array α} (state : s.state = .solved)
      (count : s.converged? = .ok n) (lt : i < n) (attached : s.handle.A = some A)
      (first : buffers.find? (·.size ≠ A.rows) = some b) :
      Withheld s i buffers (.package "VectorView::place_array" (badSize b.size A.rows))

lemma Coherent.requireIndex_eq_error (c : s.Coherent) :
    s.requireIndex i = .error e ↔ s.Refused i e := by
  constructor
  · intro h
    by_cases state : s.state = .solved
    · obtain ⟨A, r, v⟩ := c.exists_solved state
      rcases Nat.lt_or_ge i r.converged with lt | le
      · rw [v.requireIndex_of_lt lt] at h
        cases h
      · rw [v.requireIndex_of_le le] at h
        obtain rfl := Except.error.inj h
        exact .beyond state v.converged?_eq le
    · rw [requireIndex_of_unsolved state] at h
      obtain rfl := Except.error.inj h
      exact .unsolved state
  · rintro (state | ⟨state, count, le⟩)
    · exact requireIndex_of_unsolved state
    · obtain ⟨A, r, v⟩ := c.exists_solved state
      obtain rfl := Except.ok.inj (v.converged?_eq.symm.trans count)
      exact v.requireIndex_of_le le

lemma Coherent.exists_mode (c : s.Coherent) (h : s.requireIndex i = .ok ()) :
    ∃ A r m, s.Solved A r ∧ (r.modes.take r.converged)[i]? = some m := by
  by_cases state : s.state = .solved
  · obtain ⟨A, r, v⟩ := c.exists_solved state
    rcases Nat.lt_or_ge i r.converged with lt | le
    · obtain ⟨m, hm⟩ := v.exists_mode lt
      exact ⟨A, r, m, v, hm⟩
    · rw [v.requireIndex_of_le le] at h
      cases h
  · rw [requireIndex_of_unsolved state] at h
    cases h

lemma Coherent.eq_error_iff {β : Type} {x : Except SolverError β} (c : s.Coherent)
    (refused : ∀ e, s.requireIndex i = .error e → x = .error e)
    (found : ∀ A r m, s.Solved A r → (r.modes.take r.converged)[i]? = some m → ∃ y, x = .ok y) :
    x = .error e ↔ s.Refused i e := by
  rw [← c.requireIndex_eq_error]
  cases h : s.requireIndex i with
  | error e' => rw [refused e' h, Except.error.injEq, Except.error.injEq]
  | ok _ =>
    obtain ⟨A, r, m, v, hm⟩ := c.exists_mode h
    obtain ⟨y, rfl⟩ := found A r m v hm
    exact ⟨fun e => (nomatch e), fun e => (nomatch e)⟩

lemma Coherent.withheld_iff (c : s.Coherent) {e' : SolverError} (h : s.requireIndex i = .error e')
    {buffers : List (Array α)} : s.Withheld i buffers e ↔ e' = e := by
  constructor
  · rintro (⟨refused⟩ | ⟨state, count, lt, -, -⟩)
    · rw [← c.requireIndex_eq_error, h] at refused
      exact Except.error.inj refused
    · obtain ⟨A, r, v⟩ := c.exists_solved state
      obtain rfl := Except.ok.inj (v.converged?_eq.symm.trans count)
      rw [v.requireIndex_of_lt lt] at h
      cases h
  · rintro rfl
    exact .pair (c.requireIndex_eq_error.1 h)

lemma Solved.withheld_iff (v : s.Solved A r) (c : s.Coherent) (lt : i < r.converged)
    {buffers : List (Array α)} :
    s.Withheld i buffers e ↔ ∃ b, buffers.find? (·.size ≠ A.rows) = some b ∧
      e = .package "VectorView::place_array" (badSize b.size A.rows) := by
  constructor
  · rintro (⟨refused⟩ | ⟨state, count, -, attached, first⟩)
    · rw [← c.requireIndex_eq_error, v.requireIndex_of_lt lt] at refused
      cases refused
    · obtain rfl := Option.some.inj (v.attached.symm.trans attached)
      exact ⟨_, first, rfl⟩
  · rintro ⟨b, first, rfl⟩
    exact .size v.state v.converged?_eq lt v.attached first

/-- How a solver guards its results. It refuses exactly unsolved states, indices that are out of
range and buffers of the wrong size, with the same buffers left behind; otherwise every buffer is
filled with a stored eigenvector. -/
structure Guarded (s : EigenSolver α) : Prop where
  converged : ∀ e, s.converged? = .error e ↔ s.state ≠ .solved ∧ e = s.unsolved
  eigenvalue : ∀ i e, s.eigenvalue? i = .error e ↔ s.Refused i e
  realEigenvalue : ∀ i e, s.realEigenvalue? i = .error e ↔ s.Refused i e
  eigenvector : ∀ i real e, (s.eigenvector i real).2 = .error e ↔ s.Withheld i [real] e
  eigenvectorComplex : ∀ i real imag e,
    (s.eigenvectorComplex i real imag).2 = .error e ↔ s.Withheld i [real, imag] e
  untouched : ∀ i real e, (s.eigenvector i real).2 = .error e → (s.eigenvector i real).1.2 = real
  untouchedComplex : ∀ i real imag e, (s.eigenvectorComplex i real imag).2 = .error e →
    (s.eigenvectorComplex i real imag).1.2 = (real, imag)
  written : ∀ i real, (s.eigenvector i real).2 = .ok () →
    ∃ r m, s.handle.solution = some r ∧ r.modes[i]? = some m ∧ m.vector.size = real.size ∧
      (s.eigenvector i real).1.2 = m.vector.map (·.re)
  writtenComplex : ∀ i real imag, (s.eigenvectorComplex i real imag).2 = .ok () →
    ∃ r m, s.handle.solution = some r ∧ r.modes[i]? = some m ∧ m.vector.size = real.size ∧
      m.vector.size = imag.size ∧
      (s.eigenvectorComplex i real imag).1.2 = (m.vector.map (·.re), m.vector.map (·.im))
  realView : ∀ v, s.realView = some v → ∃ A, s.handle.A = some A ∧ v = A.rowLayout
  imagView : ∀ v, s.imagView = some v → ∃ A, s.handle.A = some A ∧ v = A.rowLayout

omit [Scalar α] in
lemma outcome {result : Except SolverError Unit} {reason : SolverError → Prop} {kept filled : Prop}
    (h : (∃ e, result = .error e ∧ kept ∧ ∀ e', reason e' ↔ e = e') ∨
      result = .ok () ∧ (∀ e, ¬reason e) ∧ filled) :
    (∀ e, result = .error e ↔ reason e) ∧ (∀ e, result = .error e → kept) ∧
      (result = .ok () → filled) := by
  rcases h with ⟨e, rfl, same, unique⟩ | ⟨rfl, never, done⟩
  · refine ⟨fun e' => ?_, fun _ _ => same, fun ok => nomatch ok⟩
    rw [unique, Except.error.injEq]
  · exact ⟨fun e => ⟨fun refused => (nomatch refused), fun h => absurd h (never e)⟩,
      fun _ refused => (nomatch refused), fun _ => done⟩

variable (c : s.Coherent) (fit : s.handle.VectorsFit)

include c fit

lemma eigenvector_cases (i : ℕ) (real : Array α) :
    (∃ e, (s.eigenvector i real).2 = .error e ∧ (s.eigenvector i real).1.2 = real ∧
      ∀ e', s.Withheld i [real] e' ↔ e = e') ∨
    (s.eigenvector i real).2 = .ok () ∧ (∀ e, ¬s.Withheld i [real] e) ∧
      ∃ r m, s.handle.solution = some r ∧ r.modes[i]? = some m ∧ m.vector.size = real.size ∧
        (s.eigenvector i real).1.2 = m.vector.map (·.re) := by
  cases h : s.requireIndex i with
  | error e =>
    rw [eigenvector_of_refused h]
    exact .inl ⟨e, rfl, rfl, fun e' => c.withheld_iff h⟩
  | ok _ =>
    obtain ⟨A, r, m, v, hm⟩ := c.exists_mode h
    have lt := lt_converged hm
    have stored : r.modes[i]? = some m := by rwa [List.getElem?_take_of_lt lt] at hm
    have size := fit r A v.stored v.attached m (List.mem_of_getElem? stored)
    by_cases hr : real.size = A.rows
    · rw [v.eigenvector_of_size hm hr size]
      refine .inr ⟨rfl, ?_, r, m, v.stored, stored, size.trans hr.symm, rfl⟩
      intro e withheld
      obtain ⟨b, first, -⟩ := (v.withheld_iff c lt).1 withheld
      rw [List.find?_cons_of_neg (by simpa using hr)] at first
      cases first
    · rw [v.eigenvector_of_size_ne hm hr]
      refine .inl ⟨_, rfl, rfl, fun e' => ?_⟩
      rw [v.withheld_iff c lt, List.find?_cons_of_pos (by simpa using hr)]
      exact ⟨fun ⟨b, first, eq⟩ => by rw [eq, Option.some.inj first], fun eq => ⟨real, rfl, eq.symm⟩⟩

lemma eigenvectorComplex_cases (i : ℕ) (real imag : Array α) :
    (∃ e, (s.eigenvectorComplex i real imag).2 = .error e ∧
      (s.eigenvectorComplex i real imag).1.2 = (real, imag) ∧
      ∀ e', s.Withheld i [real, imag] e' ↔ e = e') ∨
    (s.eigenvectorComplex i real imag).2 = .ok () ∧ (∀ e, ¬s.Withheld i [real, imag] e) ∧
      ∃ r m, s.handle.solution = some r ∧ r.modes[i]? = some m ∧ m.vector.size = real.size ∧
        m.vector.size = imag.size ∧
        (s.eigenvectorComplex i real imag).1.2 = (m.vector.map (·.re), m.vector.map (·.im)) := by
  cases h : s.requireIndex i with
  | error e =>
    rw [eigenvectorComplex_of_refused h]
    exact .inl ⟨e, rfl, rfl, fun e' => c.withheld_iff h⟩
  | ok _ =>
    obtain ⟨A, r, m, v, hm⟩ := c.exists_mode h
    have lt := lt_converged hm
    have stored : r.modes[i]? = some m := by rwa [List.getElem?_take_of_lt lt] at hm
    have size := fit r A v.stored v.attached m (List.mem_of_getElem? stored)
    cases first : [real, imag].find? (·.size ≠ A.rows) with
    | none =>
      have sizes := List.find?_eq_none.1 first
      have hr : real.size = A.rows := by simpa using sizes real (by simp)
      have hi : imag.size = A.rows := by simpa using sizes imag (by simp)
      rw [v.eigenvectorComplex_of_size hm hr hi size]
      refine .inr ⟨rfl, ?_, r, m, v.stored, stored, size.trans hr.symm, size.trans hi.symm, rfl⟩
      intro e withheld
      obtain ⟨b, found, -⟩ := (v.withheld_iff c lt).1 withheld
      rw [first] at found
      cases found
    | some b =>
      rw [v.eigenvectorComplex_of_size_ne hm first]
      refine .inl ⟨_, rfl, rfl, fun e' => ?_⟩
      rw [v.withheld_iff c lt, first]
      exact ⟨fun ⟨b, found, eq⟩ => by rw [eq, Option.some.inj found], fun eq => ⟨b, rfl, eq.symm⟩⟩

lemma Coherent.guarded : s.Guarded where
  converged _ := c.converged?_eq_error
  eigenvalue _ _ := c.eq_error_iff (fun _ => eigenvalue?_of_refused)
    fun _ _ _ v hm => ⟨_, v.eigenvalue?_eq hm⟩
  realEigenvalue _ _ := c.eq_error_iff (fun _ => realEigenvalue?_of_refused)
    fun _ _ _ v hm => ⟨_, v.realEigenvalue?_eq hm⟩
  eigenvector i real := (outcome (eigenvector_cases c fit i real)).1
  eigenvectorComplex i real imag := (outcome (eigenvectorComplex_cases c fit i real imag)).1
  untouched i real := (outcome (eigenvector_cases c fit i real)).2.1
  untouchedComplex i real imag := (outcome (eigenvectorComplex_cases c fit i real imag)).2.1
  written i real := (outcome (eigenvector_cases c fit i real)).2.2
  writtenComplex i real imag := (outcome (eigenvectorComplex_cases c fit i real imag)).2.2
  realView v hv := by
    obtain ⟨A, hA, rfl⟩ := Option.map_eq_some_iff.1 (c.realView v hv)
    exact ⟨A, hA, rfl⟩
  imagView v hv := by
    obtain ⟨A, hA, rfl⟩ := Option.map_eq_some_iff.1 (c.imagView v hv)
    exact ⟨A, hA, rfl⟩

omit c fit

/-- **The guards of the solver and of the package agree**: after any calls, as long as the
decompositions return vectors of the size of what they decompose. -/
theorem guarded_run [Kernels α] (fits : Kernels.Fits α) (family : String) (wrap : Bool)
    (events : List (Event (Call α))) : ((fresh family wrap).run events).Guarded :=
  (coherent_run family wrap events).guarded (vectorsFit_run family wrap events fits)

/-- A solved solver in exact arithmetic, and one of doubles. -/
theorem guarded_samples :
    ((fresh "" false).run (Rational.solving [2])).converged? = .ok 1 ∧
    ((fresh "" false).run (Rational.solving [2])).Guarded ∧
    ((fresh "" true : EigenSolver Float).run
      [⟨.empty, .empty, .setOperators (.dense (.identity 2)) none⟩,
        ⟨.empty, .empty, .solve⟩]).Guarded :=
  ⟨by decide +kernel, guarded_run Rational.fits "" false (Rational.solving [2]),
    guarded_run Factor.fits "" true _⟩

end EigenSolver

end Eigenmesh
