import Mathlib.Algebra.Order.Field.Basic
import Mathlib.Tactic.Common
import Eigenmesh.Proofs.Patches.Covering
import Eigenmesh.Proofs.Sparse.Fixing
import Eigenmesh.Proofs.Sparse.Operations
import Eigenmesh.Proofs.Sparse.Principal

/-!
The matrix of a patch.

A matrix is cut down to the unknowns of a patch in two ways. Compressed rows already hold one value
a position, whose column is looked up by halving; triplets are renumbered, and their values summed
later. Halving needs the list to be increasing and renumbering needs every number once, so an
increasing list serves both.
-/

namespace Eigenmesh

/-- The listed unknowns are some of so many, in increasing order. -/
structure Selects (n : ℕ) (dofs : List ℕ) : Prop where
  increasing : dofs.Pairwise (· < ·)
  inside : ∀ i ∈ dofs, i < n

namespace Selects

variable {n : ℕ} {dofs : List ℕ}

lemma nodup (s : Selects n dofs) : dofs.Nodup := s.increasing.imp fun h => h.ne

instance (n : ℕ) (dofs : List ℕ) : Decidable (Selects n dofs) :=
  decidable_of_iff (dofs.Pairwise (· < ·) ∧ ∀ i ∈ dofs, i < n)
    ⟨fun ⟨increasing, inside⟩ => ⟨increasing, inside⟩, fun s => ⟨s.increasing, s.inside⟩⟩

end Selects

namespace Triplets

variable {α : Type} [Scalar.Exact α] {M R : Triplets α} {dofs : List ℕ}

/-- The entries of a matrix at the positions of listed rows and columns. -/
def minor (M : Triplets α) (dofs : List ℕ) : Dense α :=
  .ofFn dofs.length dofs.length fun a b => M.entry (dofs.getD a 0) (dofs.getD b 0)

lemma principal_toCsr (increasing : dofs.Pairwise (· < ·)) :
    M.toCsr.principal dofs = M.minor dofs := by
  refine Dense.eq_of_entry rfl rfl fun a ha b hb => ?_
  replace ha : a < dofs.length := ha
  replace hb : b < dofs.length := hb
  rw [Csr.entry_principal increasing ha hb, entry_toCsr, minor, Dense.entry_ofFn _ ha hb,
    List.getD_eq_getElem _ _ ha, List.getD_eq_getElem _ _ hb]

lemma toDense_restrict? (nodup : dofs.Nodup)
    (cut : M.restrict? dofs.toArray dofs.toArray = some R) : R.toDense = M.minor dofs := by
  obtain ⟨-, -, -, -, rows, cols, -⟩ := restrict?_eq_some cut
  rw [toDense_eq, rows, cols]
  refine Dense.ofFn_congr fun a ha b hb => ?_
  replace ha : a < dofs.length := ha
  replace hb : b < dofs.length := hb
  rw [List.getD_eq_getElem _ _ ha, List.getD_eq_getElem _ _ hb]
  exact entry_restrict? cut nodup nodup (by simp [ha]) (by simp [hb])

omit [Scalar.Exact α] in
lemma exists_restrict?_iff (square : M.rows = M.cols) (inside : ∀ i ∈ dofs, i < M.rows) :
    (∃ R, M.restrict? dofs.toArray dofs.toArray = some R) ↔ Word.isArray M.rows 16 := by
  have inside' : ∀ i ∈ dofs.toArray, i < M.rows := fun i hi => inside i (by simpa using hi)
  constructor
  · rintro ⟨R, cut⟩
    obtain ⟨places, -, found, -⟩ := restrict?_eq_some cut
    exact (Renumbering.exists_of?_iff inside').1 ⟨places, found⟩
  · intro room
    exact exists_restrict? room (square ▸ room) inside' (square ▸ inside')

end Triplets

namespace Patches

variable {coarse : Grid} {k : ℕ} {essential : List ℕ} {P : Patches} {p : Patch}

lemma selects_of_mem (made : of? coarse k essential = .ok P) (hp : p ∈ P.patches) :
    Selects P.dofCount p.dofs := by
  obtain ⟨covers, -⟩ := covers_of_eq_ok made
  obtain ⟨-, -, increasing, mem⟩ := covers.dofs p hp
  exact ⟨increasing, fun v hv => covers.dofCount ▸ ((mem v).1 hv).1⟩

end Patches

/-- **Both ways to cut out the matrix of a patch give its entries.** For an increasing list of
unknowns that exist, the one by compressed rows and the one by renumbering come to one matrix, and
the second one comes to a matrix exactly if there is room for the numbers. The unknowns of a patch
are such a list. -/
theorem cut_alike {α : Type} [Scalar.Exact α] (M : Triplets α) (square : M.rows = M.cols) :
    (∀ dofs, Selects M.rows dofs →
      M.toCsr.principal dofs = M.minor dofs ∧
      ((∃ R, M.restrict? dofs.toArray dofs.toArray = some R) ↔ Word.isArray M.rows 16) ∧
      ∀ R, M.restrict? dofs.toArray dofs.toArray = some R → R.toDense = M.minor dofs) ∧
    ∀ coarse k essential P, Patches.of? coarse k essential = .ok P →
      ∀ p ∈ P.patches, Selects P.dofCount p.dofs := by
  refine ⟨fun dofs selects => ⟨?_, ?_, fun R cut => ?_⟩, fun coarse k essential P made p hp => ?_⟩
  · exact Triplets.principal_toCsr selects.increasing
  · exact Triplets.exists_restrict?_iff square selects.inside
  · exact Triplets.toDense_restrict? selects.nodup cut
  · exact Patches.selects_of_mem made hp

/-- The last of the two patches of an interval with a vertex in the middle and its first end fixed,
and the matrix of second differences. -/
theorem cut_alike_interval :
    letI M := Triplets.secondDifferences
    letI coarse : Grid := ⟨1, 1, by decide, by decide, by decide⟩
    M.rows = M.cols ∧ Selects M.rows [1, 2] ∧ M.toCsr.principal [1, 2] = M.minor [1, 2] ∧
      (∃ R, M.restrict? #[1, 2] #[1, 2] = some R ∧ R.toDense = M.minor [1, 2]) ∧
      ∃ P, Patches.of? coarse 1 [0] = .ok P ∧ P.patches.map (·.dofs) = [[1], [1, 2]] ∧
        ∀ p ∈ P.patches, Selects P.dofCount p.dofs := by
  obtain ⟨matrices, patches⟩ := cut_alike Triplets.secondDifferences rfl
  have selects : Selects Triplets.secondDifferences.rows [1, 2] := by decide
  obtain ⟨principal, room, restricted⟩ := matrices [1, 2] selects
  obtain ⟨R, cut⟩ := room.2 (by decide)
  let coarse : Grid := ⟨1, 1, by decide, by decide, by decide⟩
  obtain ⟨P, made, dofs⟩ : ∃ P, Patches.of? coarse 1 [0] = .ok P ∧
      P.patches.map (·.dofs) = [[1], [1, 2]] :=
    exists_of_toOption (f := fun P : Patches => P.patches.map (·.dofs)) (by decide +kernel)
  exact ⟨rfl, selects, principal, ⟨R, cut, restricted R cut⟩, P, made, dofs,
    patches _ _ _ P made⟩

end Eigenmesh
