import Eigenmesh.Space
import Eigenmesh.Sparse.Triplets

/-!
Matrices and vectors of a space, summed up from those of its cells, and the linear system with
given values at some of the unknowns.
-/

namespace Eigenmesh.LinearSpace

variable {α E : Type} [Scalar α]

/-- The entries of a cell's matrix that are not zero, at the places of its unknowns. -/
def cellTriplets (dofs : List Nat) (m : Dense α) : List (Nat × Nat × α) :=
  dofs.zipIdx.flatMap fun (i, a) =>
    dofs.zipIdx.filterMap fun (j, b) =>
      let v := m.entry a b
      if v == 0 then none else some (i, j, v)

theorem of_mem_cellTriplets {dofs : List Nat} {m : Dense α} {t : Nat × Nat × α}
    (h : t ∈ cellTriplets dofs m) : t.1 ∈ dofs ∧ t.2.1 ∈ dofs := by
  obtain ⟨⟨i, a⟩, hi, h⟩ := List.mem_flatMap.1 h
  obtain ⟨⟨j, b⟩, hj, h⟩ := List.mem_filterMap.1 h
  simp only [Option.ite_none_left_eq_some, Option.some.injEq] at h
  obtain ⟨_, rfl⟩ := h
  exact ⟨List.fst_mem_of_mem_zipIdx hi, List.fst_mem_of_mem_zipIdx hj⟩

/-- Cells and their matrices put together. -/
def ofCells (V : LinearSpace α) (locals : List (Dense α)) : Triplets α where
  rows := V.dofCount
  cols := V.dofCount
  entries := ((V.mesh.cells.zip locals).flatMap fun (dofs, m) => cellTriplets dofs m).toArray
  inside := fun t ht => by
    obtain ⟨⟨dofs, m⟩, hmem, h⟩ := List.mem_flatMap.1 (List.mem_toArray.1 ht)
    have hcell := (V.mesh.hasCell dofs (List.of_mem_zip hmem).1).2
    obtain ⟨hi, hj⟩ := of_mem_cellTriplets h
    exact ⟨hcell _ hi, hcell _ hj⟩

/-- The matrix whose cell matrices are given by `element`. -/
def assembleMatrix (V : LinearSpace α) (element : Dense α → Except E (Dense α)) :
    Except E (Triplets α) := do
  return V.ofCells (← V.mesh.cells.mapM fun c => element (V.mesh.cellPoints c))

/-- The vector whose cell vectors are given by `element`. -/
def assembleVector (V : LinearSpace α) (element : Dense α → Except E (Array α)) :
    Except E (Array α) := do
  let locals ← V.mesh.cells.mapM fun c => element (V.mesh.cellPoints c)
  let entries := (V.mesh.cells.zip locals).flatMap fun (dofs, v) => dofs.zip v.toList
  return entries.foldl (fun s (i, v) => if v == 0 then s else s.modify i (· + v))
    (Coords.zeros V.dofCount)

/-- The value that each essential unknown takes, zero without given values. -/
def essentialValues? (essential : List Nat) (values : Option (Array α)) :
    Option (List (Nat × α)) :=
  essential.mapM fun i =>
    match values with
    | some u => u[i]?.map (i, ·)
    | none => some (i, 0)

/-- The matrix and right-hand side of `A u = b` with the essential unknowns at their values;
there is none if the sizes do not fit or an unknown has no value. -/
def linearSystem? (A : Triplets α) (b : Array α) (essential : List Nat)
    (values : Option (Array α)) : Option (Csr α × Array α) := do
  let (A, b) ← A.fixDofs (← essentialValues? essential values) b
  return (A.toCsr, b)

end Eigenmesh.LinearSpace
