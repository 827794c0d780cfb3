import Eigenmesh.Layout
import Eigenmesh.Package.Error

/-!
The part of a vector that one rank owns. A view knows only which part that is; it becomes a
vector when a buffer of that many entries is bound to it.
-/

namespace Eigenmesh

structure LocalVector (α : Type) where
  layout : Layout
  entries : Array α
  /-- Whether the entries are a caller's buffer. -/
  placed : Bool
  size_eq : entries.size = layout.localSize

namespace LocalVector

variable {α : Type}

def zeros [Zero α] (layout : Layout) : LocalVector α where
  layout := layout
  entries := Array.replicate layout.localSize 0
  placed := false
  size_eq := Array.size_replicate

/-- The vector of zeros, if there is room for the owned entries. -/
def zeros? [Zero α] (layout : Layout) : Option (LocalVector α) :=
  if Word.isArray layout.localSize 8 then some (zeros layout) else none

/-- Binds a caller's buffer to the view of a layout. -/
def place? (layout : Layout) (buffer : Array α) : Except PackageError (LocalVector α) :=
  if h : buffer.size = layout.localSize then .ok ⟨layout, buffer, true, h⟩
  else .error (.of .argSize
    s!"Array of length {buffer.size} does not match local vector size {layout.localSize}")

/-- Every entry replaced by a function of its place and itself. -/
def mapIdx (v : LocalVector α) (f : Nat → α → α) : LocalVector α :=
  { v with
    entries := v.entries.mapIdx f
    size_eq := by rw [Array.size_mapIdx]; exact v.size_eq }

/-- Takes over the owned part of a column of all rows, as far as that column reaches. -/
def assign (v : LocalVector α) (column : Array α) : LocalVector α :=
  v.mapIdx fun k x => column.getD (v.layout.start + k) x

end LocalVector

end Eigenmesh
