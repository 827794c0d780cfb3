import Eigenmesh.Mesh.Grid
import Eigenmesh.Mesh.Simplicial

/-!
Every box of a grid cut into simplices, one for each order of the axes: start at the lowest
corner of the box and take one step along each axis in that order. All of them share the
diagonal of the box.
-/

namespace Eigenmesh.Grid

/-- The ways to draw `n` of the axes one after another, in lexicographic order. -/
def axisOrders : Nat → List Nat → List (List Nat)
  | 0, _ => [[]]
  | n + 1, axes => axes.flatMap fun a => (axisOrders n (axes.erase a)).map (a :: ·)

/-- The points met on the way from `cart` along the given axes. -/
def walk (cart : List Nat) : List Nat → List (List Nat)
  | [] => [cart]
  | axis :: rest => cart :: walk (cart.modify axis (· + 1)) rest

/-- The simplices of all boxes, box by box. -/
def kuhnCells (g : Grid) : List (List Nat) :=
  (List.range g.boxCount).flatMap fun b =>
    (axisOrders g.dim (List.range g.dim)).map fun axes =>
      (walk (g.boxCoords b) axes).map g.vertexNumber

theorem of_mem_axisOrders {n : Nat} {axes order : List Nat} (hn : n ≤ axes.length)
    (hd : axes.Nodup) (h : order ∈ axisOrders n axes) :
    order.length = n ∧ order.Nodup ∧ ∀ a ∈ order, a ∈ axes := by
  induction n generalizing axes order with
  | zero =>
    obtain rfl : order = [] := by simpa [axisOrders] using h
    simp
  | succ n ih =>
    obtain ⟨a, ha, h⟩ := List.mem_flatMap.1 h
    obtain ⟨rest, hrest, rfl⟩ := List.mem_map.1 h
    have hlen : n ≤ (axes.erase a).length := by rw [List.length_erase_of_mem ha]; omega
    obtain ⟨h1, h2, h3⟩ := ih hlen (hd.erase a) hrest
    refine ⟨by simp [h1], List.nodup_cons.2 ⟨fun hmem => ?_, h2⟩, fun b hb => ?_⟩
    · exact (hd.mem_erase_iff.1 (h3 a hmem)).1 rfl
    · rcases List.mem_cons.1 hb with rfl | hb
      · exact ha
      · exact List.mem_of_mem_erase (h3 b hb)

theorem length_walk {cart axes : List Nat} : (walk cart axes).length = axes.length + 1 := by
  induction axes generalizing cart with
  | nil => rfl
  | cons a axes ih => simp [walk, ih]

/-- Each axis is walked along at most once, so a walk from a corner below the upper end stays
within the grid. -/
theorem le_of_mem_walk {n : Nat} {cart axes p : List Nat} (hd : axes.Nodup)
    (hle : ∀ (i : Nat) (h : i < cart.length), cart[i] ≤ n)
    (hlt : ∀ (i : Nat) (h : i < cart.length), i ∈ axes → cart[i] < n)
    (hp : p ∈ walk cart axes) :
    p.length = cart.length ∧ ∀ (i : Nat) (h : i < p.length), p[i] ≤ n := by
  induction axes generalizing cart with
  | nil =>
    obtain rfl : p = cart := by simpa [walk] using hp
    exact ⟨rfl, hle⟩
  | cons a axes ih =>
    rcases List.mem_cons.1 hp with rfl | hp
    · exact ⟨rfl, hle⟩
    · obtain ⟨ha, hd⟩ := List.nodup_cons.1 hd
      have hstep := @ih (cart.modify a (· + 1)) hd ?_ ?_ hp
      · exact ⟨by rw [hstep.1, List.length_modify], hstep.2⟩
      · intro i hi
        rw [List.length_modify] at hi
        rw [List.getElem_modify]
        split
        · rename_i he
          subst he
          have := hlt a hi List.mem_cons_self
          omega
        · exact hle i hi
      · intro i hi hmem
        rw [List.length_modify] at hi
        rw [List.getElem_modify, if_neg]
        · exact hlt i hi (List.mem_cons_of_mem _ hmem)
        · rintro rfl
          exact ha hmem

theorem of_mem_kuhnCells {g : Grid} {cell : List Nat} (h : cell ∈ g.kuhnCells) :
    cell.length = g.dim + 1 ∧ ∀ v ∈ cell, v < g.vertexCount := by
  obtain ⟨b, _, h⟩ := List.mem_flatMap.1 h
  obtain ⟨axes, haxes, rfl⟩ := List.mem_map.1 h
  obtain ⟨hlen, hd, _⟩ := of_mem_axisOrders (by simp) List.nodup_range haxes
  refine ⟨by simp [length_walk, hlen], fun v hv => ?_⟩
  obtain ⟨p, hp, rfl⟩ := List.mem_map.1 hv
  have hlt : ∀ (i : Nat) (h : i < (g.boxCoords b).length), (g.boxCoords b)[i] < g.boxes :=
    fun i h => Index.lt_of_mem_coords g.boxes_pos (List.getElem_mem h)
  obtain ⟨hplen, hple⟩ :=
    le_of_mem_walk hd (fun i h => Nat.le_of_lt (hlt i h)) (fun i h _ => hlt i h) hp
  have hnum : Index.number g.verticesPerAxis p < Nat.pow g.verticesPerAxis p.length :=
    Index.number_lt fun c hc => by
      obtain ⟨i, hi, rfl⟩ := List.mem_iff_getElem.1 hc
      exact Nat.lt_succ_of_le (hple i hi)
  rw [hplen, boxCoords, Index.length_coords] at hnum
  exact hnum

variable {α : Type} [Scalar α]

/-- The vertices of the grid, one a column. -/
def points (g : Grid) : Dense α :=
  .ofCols g.dim <| ((List.range g.vertexCount).map fun v => (g.position v).toArray).toArray

theorem hasCell_points {g : Grid} {cell : List Nat} (h : cell ∈ g.kuhnCells) :
    (g.points : Dense α).HasCell cell := by
  have := of_mem_kuhnCells h
  simpa [Dense.HasCell, points, Dense.ofCols, Dense.ofFn] using this

/-- The face of the unit cube that all given points lie on, if there is one: `2 * axis` where
the coordinate is zero and `2 * axis + 1` where it is one. -/
def cubeFace (points : Dense α) : Option Nat :=
  let near (axis : Nat) (value : α) : Bool :=
    (List.range points.cols).all fun c =>
      decide (Scalar.abs (points.entry axis c - value) < (1e-12 : α))
  (List.range points.rows).findSome? fun axis =>
    if near axis 0 then some (2 * axis)
    else if near axis 1 then some (2 * axis + 1)
    else none

/-- The mesh of the simplices of all boxes. -/
def simplicial (g : Grid) : SimplicialMesh α :=
  .ofCells g.points g.kuhnCells cubeFace fun _ h => hasCell_points h

/-- The mesh, if its vertices can be listed with their positions. -/
def simplicial? (g : Grid) : Except Fault (SimplicialMesh α) := do return (← g.listed).simplicial

end Eigenmesh.Grid
