/-!
The forest of dependences between the columns of a matrix under elimination with row exchanges:
the parent of a column is the first later one that its elimination can change. It depends only on
the places of the stored entries. In postorder each column follows all that lead to it.
-/

namespace Eigenmesh.FillIn

structure Forest where
  parent : Array (Option Nat)
  /-- The latest column that has been reached from each column. -/
  reached : Array (Option Nat)

namespace Forest

def empty (size : Nat) : Forest := ⟨Array.replicate size none, Array.replicate size none⟩

/-- Puts column `j` above the tree that holds column `i`. -/
def climb (j : Nat) : (fuel : Nat) → (i : Nat) → Forest → Forest
  | 0, _, F => F
  | fuel + 1, i, F =>
    if i = j then F
    else
      let above := F.reached.getD i none
      let F := { F with reached := F.reached.setIfInBounds i (some j) }
      match above with
      | some k => climb j fuel k F
      | none => { F with parent := F.parent.setIfInBounds i (some j) }

/-- The forest of a matrix with so many rows, given the rows stored in each column. Columns that
share a row depend on each other, so each row leads from the column before it was last met. -/
def ofColumns (rows : Nat) (columns : Array (List Nat)) : Forest :=
  let grown := columns.zipIdx.foldl (fun (s : Forest × Array (Option Nat)) (column, j) =>
    column.foldl (fun (F, last) r =>
      let F := match last.getD r none with
        | some i => climb j columns.size i F
        | none => F
      (F, last.setIfInBounds r (some j))) s) (empty columns.size, Array.replicate rows none)
  grown.1

/-- The columns with each after its descendants, provided that parents come after their children
in number. -/
def postorder (F : Forest) : Array Nat :=
  let step (s : Array (Array Nat) × Array Nat) (j : Nat) : Array (Array Nat) × Array Nat :=
    let branch := (s.1.getD j #[]).push j
    match F.parent.getD j none with
    | some p => (s.1.modify p (· ++ branch), s.2)
    | none => (s.1, s.2 ++ branch)
  ((List.range F.parent.size).foldl step (Array.replicate F.parent.size #[], #[])).2

end Forest

end Eigenmesh.FillIn
