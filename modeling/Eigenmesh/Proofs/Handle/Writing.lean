import Mathlib.Data.List.TakeWhile
import Mathlib.Data.Nat.Notation
import Mathlib.Tactic.Common
import Eigenmesh.Proofs.Layout
import Eigenmesh.Proofs.Handle.Stored
import Eigenmesh.Proofs.Handle.Vectors

/-!
What reading an eigenvector leaves in the vectors.

The real part is written as soon as the first vector fits, and the layout of the second vector is
looked at after that. A call that fails before it writes nothing, one that fails there has written
the real part.
-/

namespace Eigenmesh

namespace LocalVector

variable {α : Type} {v : LocalVector α} {column : Array α}

/-- The second vector is the first one after the owned part of a column came into it. -/
structure Receives (v : LocalVector α) (column : Array α) (v' : LocalVector α) : Prop where
  layout : v'.layout = v.layout
  placed : v'.placed = v.placed
  entries : v'.entries = v.layout.owned column

lemma receives_assign (fit : v.layout.globalSize = column.size) :
    v.Receives column (v.assign column) where
  layout := rfl
  placed := rfl
  entries := entries_assign_eq_owned (v.layout.stop_le.trans_eq fit)

lemma assign_eq_self_iff (fit : v.layout.globalSize = column.size) :
    v.assign column = v ↔ v.entries = v.layout.owned column := by
  have written := (receives_assign fit).entries
  constructor
  · intro same
    rw [← written, same]
  · intro there
    obtain ⟨layout, entries, placed, size⟩ := v
    have same := written.trans there.symm
    unfold assign mapIdx at same ⊢
    simp only at same
    simp only [same]

end LocalVector

namespace Handle

variable {α : Type} {h : Handle α} {i : ℕ} {m : Mode α} {real : LocalVector α}
  {imag : Option (LocalVector α)}

/-- The converged mode with the number, if there is one. -/
def stored? (h : Handle α) (i : ℕ) : Option (Mode α) :=
  h.solution.bind fun s => (s.modes.take s.converged)[i]?

/-- The eigenvector with the number is there, and the vectors are such that they can take it. -/
structure Serves (h : Handle α) (i : ℕ) (real : LocalVector α) (imag : Option (LocalVector α))
    (m : Mode α) : Prop where
  stored : h.stored? i = some m
  fits : real.layout.globalSize = m.vector.size
  alike : ∀ v ∈ imag, v.layout = real.layout

variable [Scalar α]

lemma mode?_of_stored (routine : String) (found : h.stored? i = some m) :
    h.mode? i routine = .ok m := by
  obtain ⟨s, solved, listed⟩ := Option.bind_eq_some_iff.1 found
  unfold mode? solutionFor?
  rw [solved]
  simp only [listed]

lemma mode?_of_missing (routine : String) (missing : h.stored? i = none) :
    ∃ e, h.mode? i routine = .error e ∧ e.code ≠ .argIncompatible := by
  unfold mode? solutionFor?
  cases solved : h.solution with
  | none => exact ⟨_, rfl, nofun⟩
  | some s =>
    have absent : (s.modes.take s.converged)[i]? = none := by
      rwa [stored?, solved, Option.bind_some] at missing
    simp only [absent]
    exact ⟨_, rfl, nofun⟩

/-! ### The course of a call -/

lemma eigenvector_of_missing (missing : h.stored? i = none) :
    ∃ e, h.eigenvector i real imag = ((real, imag), .error e) ∧ e.code ≠ .argIncompatible := by
  obtain ⟨e, refused, code⟩ := mode?_of_missing "Eps::eigenvector" missing
  refine ⟨e, ?_, code⟩
  unfold eigenvector
  rw [refused]

section Found

variable (found : h.stored? i = some m)

include found

lemma eigenvector_of_misfit (misfit : real.layout.globalSize ≠ m.vector.size) :
    ∃ e, h.eigenvector i real imag = ((real, imag), .error e) ∧ e.code ≠ .argIncompatible := by
  unfold eigenvector
  simp only [mode?_of_stored _ found]
  rw [if_pos misfit]
  exact ⟨_, rfl, nofun⟩

variable (fits : real.layout.globalSize = m.vector.size)

include fits

lemma eigenvector_of_alike (alike : ∀ v ∈ imag, v.layout = real.layout) :
    h.eigenvector i real imag = ((real.assign (m.vector.map (·.re)),
      imag.map (·.assign (m.vector.map (·.im)))), .ok ()) := by
  unfold eigenvector
  simp only [mode?_of_stored _ found]
  rw [if_neg (not_not_intro fits)]
  cases imag with
  | none => rfl
  | some w => exact if_neg (not_not_intro (alike w rfl))

lemma eigenvector_of_apart {w : LocalVector α} (apart : w.layout ≠ real.layout) :
    ∃ e, h.eigenvector i real (some w) =
      ((real.assign (m.vector.map (·.re)), some w), .error e) ∧ e.code = .argIncompatible := by
  unfold eigenvector
  simp only [mode?_of_stored _ found]
  rw [if_neg (not_not_intro fits), if_pos (show w.layout ≠ (real.assign _).layout from apart)]
  exact ⟨_, rfl, rfl⟩

end Found

lemma eigenvector_courses (h : Handle α) (i : ℕ) (real : LocalVector α)
    (imag : Option (LocalVector α)) :
    ((∀ m, h.stored? i = some m → real.layout.globalSize ≠ m.vector.size) ∧
      ∃ e, h.eigenvector i real imag = ((real, imag), .error e) ∧ e.code ≠ .argIncompatible) ∨
    (∃ m, h.stored? i = some m ∧ real.layout.globalSize = m.vector.size ∧
      (∃ w ∈ imag, w.layout ≠ real.layout) ∧ ∃ e, h.eigenvector i real imag =
        ((real.assign (m.vector.map (·.re)), imag), .error e) ∧ e.code = .argIncompatible) ∨
    ∃ m, h.Serves i real imag m ∧ h.eigenvector i real imag = ((real.assign (m.vector.map (·.re)),
      imag.map (·.assign (m.vector.map (·.im)))), .ok ()) := by
  cases found : h.stored? i with
  | none => exact .inl ⟨nofun, eigenvector_of_missing found⟩
  | some m =>
    by_cases fits : real.layout.globalSize = m.vector.size
    case neg =>
      refine .inl ⟨?_, eigenvector_of_misfit found fits⟩
      rintro _ ⟨⟩
      exact fits
    case pos =>
      by_cases alike : ∀ w ∈ imag, w.layout = real.layout
      case pos =>
        exact .inr (.inr ⟨m, ⟨found, fits, alike⟩, eigenvector_of_alike found fits alike⟩)
      case neg =>
        obtain ⟨w, rfl, apart⟩ : ∃ w, imag = some w ∧ w.layout ≠ real.layout := by
          simpa using alike
        exact .inr (.inl ⟨m, rfl, fits, ⟨w, rfl, apart⟩, eigenvector_of_apart found fits apart⟩)

/-- **What a call writes.** It succeeds exactly if there is the mode and the vectors can take its
vector; then each holds its part. A call that fails leaves the second vector alone, and the first
one too if it fails for another reason than the layouts; else the first one holds the real part. So
it is left alone exactly if there is no mode, or one of another size, or its part was there
before. -/
theorem eigenvector_exactly (h : Handle α) (i : ℕ) (real : LocalVector α)
    (imag : Option (LocalVector α)) :
    ((h.eigenvector i real imag).2 = .ok () ↔ ∃ m, h.Serves i real imag m) ∧
    (∀ m, h.Serves i real imag m →
      real.Receives (m.vector.map (·.re)) (h.eigenvector i real imag).1.1 ∧
      Option.Rel (fun v v' => v.Receives (m.vector.map (·.im)) v') imag
        (h.eigenvector i real imag).1.2) ∧
    ∀ e, (h.eigenvector i real imag).2 = .error e →
      (h.eigenvector i real imag).1.2 = imag ∧
      (e.code ≠ .argIncompatible → (h.eigenvector i real imag).1.1 = real) ∧
      (e.code = .argIncompatible → ∃ m, h.stored? i = some m ∧
        real.Receives (m.vector.map (·.re)) (h.eigenvector i real imag).1.1) ∧
      ((h.eigenvector i real imag).1.1 = real ↔ ∀ m, h.stored? i = some m →
        real.layout.globalSize = m.vector.size →
        real.entries = real.layout.owned (m.vector.map (·.re))) := by
  obtain ⟨none, e, eq, code⟩ | ⟨m, found, fits, ⟨w, hw, apart⟩, e, eq, code⟩ | ⟨m, serves, eq⟩ :=
    h.eigenvector_courses i real imag <;> rw [eq]
  · have no (m : Mode α) : ¬h.Serves i real imag m := fun s => none m s.stored s.fits
    refine ⟨⟨nofun, fun ⟨m, s⟩ => (no m s).elim⟩, fun m s => (no m s).elim, ?_⟩
    rintro _ ⟨⟩
    refine ⟨rfl, fun _ => rfl, fun torn => (code torn).elim, ?_, fun _ => rfl⟩
    exact fun _ m found fits => (none m found fits).elim
  · have no (m : Mode α) : ¬h.Serves i real imag m := fun s => apart (s.alike w hw)
    refine ⟨⟨nofun, fun ⟨m, s⟩ => (no m s).elim⟩, fun m s => (no m s).elim, ?_⟩
    rintro _ ⟨⟩
    have column : real.layout.globalSize = (m.vector.map (·.re)).size := by
      rw [fits, Array.size_map]
    refine ⟨rfl, fun other => (other code).elim,
      fun _ => ⟨m, found, LocalVector.receives_assign column⟩, ?_⟩
    rw [LocalVector.assign_eq_self_iff column]
    constructor
    · intro there m' found' _
      rwa [Option.some.inj (found'.symm.trans found)]
    · exact fun all => all m found fits
  · refine ⟨⟨fun _ => ⟨m, serves⟩, fun _ => rfl⟩, fun m' serves' => ?_, nofun⟩
    obtain rfl := Option.some.inj (serves'.stored.symm.trans serves.stored)
    have fits (f : Cplx α → α) : real.layout.globalSize = (m'.vector.map f).size := by
      rw [serves.fits, Array.size_map]
    refine ⟨LocalVector.receives_assign (fits _), ?_⟩
    cases imag with
    | none => exact .none
    | some w =>
      exact .some (LocalVector.receives_assign ((serves.alike w rfl) ▸ fits _))

lemma kept_of_ordered {P : Pencil α} {hermitian : Bool} {pairs : List (EigenPair α)}
    (ordered : pairs.Pairwise fun p q => h.ahead p q = true)
    (accurate : ∀ p ∈ pairs.take h.wanted,
      (Solution.ofPair P.A.toCplx (P.B.map Dense.toCplx) hermitian p).error ≤
        h.toleranceInForce) :
    h.kept P (hermitian, some pairs) =
      ⟨(pairs.take h.wanted).map (Solution.ofPair P.A.toCplx (P.B.map Dense.toCplx) hermitian),
        (pairs.take h.wanted).length⟩ := by
  have sorted : Solution.sorted h.which (h.target.getD 0) pairs = pairs :=
    List.mergeSort_of_pairwise ordered
  unfold kept Solution.ofSpectrum
  simp only [sorted]
  rw [List.takeWhile_eq_self_iff.2, List.length_map]
  intro m hm
  obtain ⟨p, hp, rfl⟩ := List.mem_map.1 hm
  exact decide_eq_true (accurate p hp)

/-- The calls that attach a diagonal matrix of two entries and solve. -/
def solving : List (Event (Handle.Call ℚ)) :=
  [Rational.plainly (.setOperators (.dense 0 (Rational.diagonal [3, 1])) none),
    Rational.plainly .solve]

lemma stored?_solving : ∃ m, (fresh.run solving).stored? 0 = some m ∧
    m.vector.map (·.re) = #[1, 0] := by
  let A : Mat ℚ := .dense 0 (Rational.diagonal [3, 1])
  let attached : Handle ℚ := fresh.run [Rational.plainly (.setOperators A none)]
  let first : EigenPair ℚ := ⟨3, #[1, 0]⟩
  let second : EigenPair ℚ := ⟨1, #[0, 1]⟩
  have ready : attached.ready? = .ok (A, none) := rfl
  obtain ⟨_, found, rfl⟩ : ∃ found, attached.spectrum? A none = .ok found ∧
      found = (true, some [first, second]) := exists_of_toOption (f := id) (by decide +kernel)
  have kept : attached.kept (pencil A none) (true, some [first, second]) =
      ⟨[Solution.ofPair (pencil A none).A.toCplx none true first], 1⟩ :=
    kept_of_ordered (by decide +kernel) (by decide +kernel)
  have solved := solve_of_ok ready (solution?_of_spectrum? found)
  have run : fresh.run solving = attached.solve.1 := rfl
  rw [run, solved, kept]
  exact ⟨_, rfl, by decide +kernel⟩

/-- Vectors with one layout take both parts of the eigenvector, whatever they held. -/
theorem eigenvector_exactly_solving :
    let zeros : LocalVector ℚ := .zeros (.serial 2)
    ∃ m, (fresh.run solving).Serves 0 zeros (some zeros) m ∧
      ((fresh.run solving).eigenvector 0 zeros (some zeros)).2 = .ok () ∧
      ((fresh.run solving).eigenvector 0 zeros (some zeros)).1.1.entries = #[1, 0] := by
  intro zeros
  obtain ⟨m, found, vector⟩ := stored?_solving
  have fits : zeros.layout.globalSize = m.vector.size :=
    (congrArg Array.size vector).symm.trans Array.size_map
  have serves : (fresh.run solving).Serves 0 zeros (some zeros) m := by
    refine ⟨found, fits, ?_⟩
    rintro _ ⟨⟩
    rfl
  obtain ⟨served, received, -⟩ := eigenvector_exactly (fresh.run solving) 0 zeros (some zeros)
  refine ⟨m, serves, served.2 ⟨m, serves⟩, ?_⟩
  rw [(received m serves).1.entries, vector]
  decide +kernel

/-- **A failing call that writes.** The vectors have different layouts, which the call refuses, and
the first one is no longer zero after it. -/
theorem eigenvector_torn :
    letI real : LocalVector ℚ := .zeros (.serial 2)
    letI imag : LocalVector ℚ := .zeros ⟨2, 1, 0, by decide⟩
    (fresh.run solving).Reachable ∧ real.entries = #[0, 0] ∧
      ∃ e written, (fresh.run solving).eigenvector 0 real (some imag) =
        ((written, some imag), .error e) ∧ e.code = .argIncompatible ∧
        written.entries = #[1, 0] := by
  obtain ⟨m, found, vector⟩ := stored?_solving
  let real : LocalVector ℚ := .zeros (.serial 2)
  let imag : LocalVector ℚ := .zeros ⟨2, 1, 0, by decide⟩
  have fits : real.layout.globalSize = m.vector.size :=
    (congrArg Array.size vector).symm.trans Array.size_map
  have apart : imag.layout ≠ real.layout := by decide
  obtain ⟨e, torn, code⟩ := eigenvector_of_apart found fits apart
  refine ⟨reachable_run solving, rfl, e, _, torn, code, ?_⟩
  rw [vector]
  decide +kernel

end Handle

end Eigenmesh
