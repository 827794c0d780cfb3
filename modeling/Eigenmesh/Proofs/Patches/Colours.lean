import Mathlib.Tactic.Linarith
import Mathlib.Tactic.Positivity
import Mathlib.Tactic.Zify
import Eigenmesh.Proofs.Mesh.Volumes
import Eigenmesh.Proofs.Patches.Covering

/-!
Colours of the patches.

Coarse vertices have the same colour if along each axis both indices are even or both are odd. Two
of one colour are at least two coarse boxes apart along some axis, so no fine box has an unknown of
the patch around the one and an unknown of the patch around the other.
-/

namespace Eigenmesh

namespace Grid

/-- The point is a corner of the box. -/
def InBox (g : Grid) (box v : ℕ) : Prop :=
  ∀ axis < g.dim, (g.boxCoords box).getD axis 0 ≤ (g.vertexCoords v).getD axis 0 ∧
    (g.vertexCoords v).getD axis 0 ≤ (g.boxCoords box).getD axis 0 + 1

/-- Some box has both points. -/
def ShareBox (g : Grid) (v w : ℕ) : Prop := ∃ box < g.boxCount, g.InBox box v ∧ g.InBox box w

variable {g : Grid} {box v w : ℕ}

instance : Decidable (g.InBox box v) := inferInstanceAs (Decidable (∀ axis < g.dim, _ ∧ _))

instance : Decidable (g.ShareBox v w) :=
  inferInstanceAs (Decidable (∃ box, box < g.boxCount ∧ g.InBox box v ∧ g.InBox box w))

lemma exists_box_of_mem_cells {α : Type} [Scalar.Exact α] {cell : List ℕ}
    (hcell : cell ∈ (g.simplicial : SimplicialMesh α).cells) :
    ∃ box < g.boxCount, ∀ v ∈ cell, g.InBox box v := by
  obtain ⟨t, ht, rfl⟩ := mem_cells_simplicial.1 hcell
  obtain ⟨box, hbox, origin⟩ := List.mem_map.1 (mem_origins.2 ⟨ht.length, ht.lt⟩)
  refine ⟨box, List.mem_range.1 hbox, fun v hv axis haxis => ?_⟩
  obtain ⟨p, hp, rfl⟩ := List.mem_map.1 (meshCell_perm.subset hv)
  rw [(ht.isPoint_of_mem_walk hp).coords_number, origin]
  obtain ⟨l, hl, rfl⟩ := mem_walk.1 hp
  rw [getD_advance (ht.length.symm ▸ haxis)]
  have once := List.nodup_iff_count_le_one.1 (hl.sublist.nodup ht.nodup_axes) axis
  omega

lemma ShareBox.le_succ (h : g.ShareBox v w) {axis : ℕ} (haxis : axis < g.dim) :
    (g.vertexCoords v).getD axis 0 ≤ (g.vertexCoords w).getD axis 0 + 1 := by
  obtain ⟨box, -, hv, hw⟩ := h
  have := (hv axis haxis).2
  have := (hw axis haxis).1
  omega

lemma ShareBox.symm (h : g.ShareBox v w) : g.ShareBox w v :=
  let ⟨box, hbox, hv, hw⟩ := h
  ⟨box, hbox, hw, hv⟩

end Grid

namespace Patches

variable {coarse : Grid} {k v w vertex vertex' : ℕ}

/-- Along each axis, whether the index of a coarse vertex is even. -/
def colour (coarse : Grid) (vertex : ℕ) (axis : Fin coarse.dim) : Bool :=
  (coarse.vertexCoords vertex).getD axis 0 % 2 = 0

lemma exists_apart (hv : vertex < coarse.vertexCount) (hv' : vertex' < coarse.vertexCount)
    (ne : vertex ≠ vertex') (same : colour coarse vertex = colour coarse vertex') :
    ∃ axis < coarse.dim, 2 ≤ |((coarse.vertexCoords vertex).getD axis 0 : ℤ) -
      (coarse.vertexCoords vertex').getD axis 0| := by
  by_contra near
  push Not at near
  refine ne (Grid.eq_of_vertexCoords hv hv' (Grid.eq_of_getD ?_ fun axis haxis => ?_))
  · exact Index.length_coords.trans Index.length_coords.symm
  · have haxis : axis < coarse.dim := haxis.trans_eq Index.length_coords
    have parity := congrFun same ⟨axis, haxis⟩
    simp only [colour, decide_eq_decide] at parity
    have := abs_lt.1 (near axis haxis)
    omega

/-- **Patches of one colour are not coupled.** -/
lemma not_shareBox (hv : vertex < coarse.vertexCount) (hv' : vertex' < coarse.vertexCount)
    (ne : vertex ≠ vertex') (same : colour coarse vertex = colour coarse vertex')
    (close : Close coarse k v vertex) (close' : Close coarse k w vertex') :
    ¬(coarse.refined k).ShareBox v w := by
  intro share
  obtain ⟨axis, haxis, apart⟩ := exists_apart hv hv' ne same
  have near := abs_lt.1 (close axis haxis)
  have near' := abs_lt.1 (close' axis haxis)
  have touch := share.le_succ haxis
  have touch' := share.symm.le_succ haxis
  have width : (0 : ℤ) < 2 ^ k := by positivity
  generalize (coarse.vertexCoords vertex).getD axis 0 = c at apart near
  generalize (coarse.vertexCoords vertex').getD axis 0 = c' at apart near'
  zify at touch touch'
  rcases le_abs.1 apart with above | below
  · have := mul_le_mul_of_nonneg_left above width.le
    linarith
  · have := mul_le_mul_of_nonneg_left below width.le
    linarith

end Patches

end Eigenmesh
