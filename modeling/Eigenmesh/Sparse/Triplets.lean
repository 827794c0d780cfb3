import Eigenmesh.Sparse.Csr
import Eigenmesh.Word

/-!
Sparse matrices as lists of row, column and value, the form in which they are assembled.
Entries at the same position add up when the matrix is read (`Triplets.toCsr`,
`Triplets.toDense`); the list keeps them apart. A matrix is only read where there is room for it
(`Triplets.toCsr?`, `Triplets.toDense?`).

`Triplets.fixDofs` imposes values on unknowns of a linear system: known columns move to the
right-hand side, and known rows and columns become those of the identity.
-/

namespace Eigenmesh

structure Triplets (α : Type) where
  rows : Nat
  cols : Nat
  entries : Array (Nat × Nat × α)
  inside : ∀ t ∈ entries, t.1 < rows ∧ t.2.1 < cols

/-- Renumbering of kept indices: `none` for an index that is dropped. -/
abbrev Renumbering := Array (Option Nat)

namespace Renumbering

/-- The renumbering of `0 … n - 1` that sends each kept index to its place in the list, the
last one if it is listed twice; there is none if an index is out of range, or `n` too large for
an array of as many places. -/
def of? (n : Nat) (kept : Array Nat) : Option Renumbering :=
  if Word.isArray n 16 && kept.all (· < n) then
    some (kept.zipIdx.foldl (fun m (i, place) => m.setIfInBounds i (some place))
      (Array.replicate n none))
  else none

end Renumbering

namespace Triplets

variable {α : Type}

def zeros (rows cols : Nat) : Triplets α := ⟨rows, cols, #[], by simp⟩

/-- The matrix with the given entries, provided all of them lie inside. -/
def of? (rows cols : Nat) (entries : Array (Nat × Nat × α)) : Option (Triplets α) :=
  if h : ∀ t ∈ entries, t.1 < rows ∧ t.2.1 < cols then some ⟨rows, cols, entries, h⟩ else none

/-- What is said of an entry outside. -/
def outsideText (rows cols : Nat) : String := s!"triplet out of bounds for {rows}x{cols} matrix"

/-- Appends an entry, unless its value is zero; nothing results if it lies outside. -/
def push? [Zero α] [BEq α] (A : Triplets α) (i j : Nat) (v : α) : Option (Triplets α) :=
  if h : i < A.rows ∧ j < A.cols then
    if v == 0 then some A
    else some
      { A with
        entries := A.entries.push (i, j, v)
        inside := fun t ht => by
          rcases Array.mem_push.1 ht with ht | rfl
          · exact A.inside t ht
          · exact h }
  else none

/-- Appends entries in turn up to the first one that lies outside; the flag tells whether all
were taken. -/
def extend [Zero α] [BEq α] (A : Triplets α) : List (Nat × Nat × α) → Triplets α × Bool
  | [] => (A, true)
  | (i, j, v) :: rest =>
    match A.push? i j v with
    | some A => A.extend rest
    | none => (A, false)

/-- Drops the entries at the positions that satisfy `p`. -/
def clear (A : Triplets α) (p : Nat → Nat → Bool) : Triplets α :=
  { A with
    entries := A.entries.filter fun t => !p t.1 t.2.1
    inside := fun t ht => A.inside t (Array.mem_filter.1 ht).1 }

def transpose (A : Triplets α) : Triplets α where
  rows := A.cols
  cols := A.rows
  entries := A.entries.map fun t => (t.2.1, t.1, t.2.2)
  inside := fun t ht => by
    obtain ⟨s, hs, rfl⟩ := Array.mem_map.1 ht
    exact (A.inside s hs).symm

/-- The submatrix of the given rows and columns, numbered by their places in the lists. -/
def restrict? (A : Triplets α) (rows cols : Array Nat) : Option (Triplets α) := do
  let rowMap ← Renumbering.of? A.rows rows
  let colMap ← Renumbering.of? A.cols cols
  of? rows.size cols.size <| A.entries.filterMap fun (i, j, v) => do
    let i ← rowMap.getD i none
    let j ← colMap.getD j none
    return (i, j, v)

def toCsr [Add α] (A : Triplets α) : Csr α := .ofTriplets A.rows A.cols A.entries

def toDense [Zero α] [Add α] (A : Triplets α) : Dense α :=
  A.entries.foldl (fun D (i, j, v) => D.set i j (D.entry i j + v)) (Dense.zeros A.rows A.cols)

/-- The matrix by stored rows, if there is room for their offsets. -/
def toCsr? [Add α] (A : Triplets α) : Option (Csr α) :=
  if Word.isArray (A.rows + 1) 8 then some A.toCsr else none

/-- The dense matrix, if there is room for all entries. -/
def toDense? [Zero α] [Add α] (A : Triplets α) : Option (Dense α) :=
  if Word.isArray (A.rows * A.cols) 8 then some A.toDense else none

variable [Scalar α]

/-- The last value given for each of `n` unknowns; nothing if one of them is out of range. -/
def givenValues? (n : Nat) (given : List (Nat × α)) : Option (Array (Option α)) :=
  if given.all (·.1 < n) then
    some (given.foldl (fun m (i, v) => m.setIfInBounds i (some v)) (Array.replicate n none))
  else none

/-- Appends a unit diagonal entry for every listed unknown. -/
def pushUnits (A : Triplets α) : List Nat → Triplets α
  | [] => A
  | i :: rest => ((A.push? i i 1).getD A).pushUnits rest

/-- The matrix and right-hand side of `A u = b` after the listed unknowns are given their
values: the rest of the right-hand side loses the known columns, the listed rows and columns
are cleared, and each mention of an unknown adds one to its diagonal. Nothing results if the
sizes do not fit or an unknown is out of range. -/
def fixDofs (A : Triplets α) (given : List (Nat × α)) (b : Array α) :
    Option (Triplets α × Array α) :=
  if A.rows = A.cols ∧ b.size = A.rows then do
    let fixed ← givenValues? A.rows given
    let gamma := fixed.map (·.getD 0)
    let b := Coords.sub b (A.toCsr.mulVec gamma)
    let b := given.foldl (fun b (i, v) => b.setIfInBounds i v) b
    let isFixed (i : Nat) : Bool := (fixed.getD i none).isSome
    let A := A.clear fun i j => isFixed i || isFixed j
    return (A.pushUnits (given.map (·.1)), b)
  else none

end Triplets

/-- Flags of `0 … len - 1` that are set at the listed indices; nothing if one is out of
range or there are too many for an array. -/
def flagsOfIndices? (indices : Array Nat) (len : Nat) : Option (Array Bool) :=
  if Word.isArray len 1 && indices.all (· < len) then
    some (indices.foldl (fun f i => f.setIfInBounds i true) (Array.replicate len false))
  else none

/-- The indices at which a flag is set, increasing. -/
def indicesOfFlags (flags : Array Bool) : Array Nat :=
  flags.zipIdx.filterMap fun (flag, i) => if flag then some i else none

end Eigenmesh
