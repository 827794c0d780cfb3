import Eigenmesh.Proofs.Assembly.Sums
import Eigenmesh.Proofs.Element.Order
import Eigenmesh.Proofs.Scalar.Rational

/-!
Meshes that are written down in another way.

What is assembled is a list of contributions, each to a place, that are added up. To list the cells
in another order changes the order of the contributions. So does to list the corners of a cell in
another order, whether the mesh does so to give the cell positive orientation or the mesh is made of
such cells: two corners have the same entry in the matrix of their cell wherever they stand.
-/

namespace Eigenmesh

variable {α : Type} [Scalar.Exact α]

/-! ### Cells in another order -/

/-- The same cells in another order, and the corners of every cell in another order. -/
def Rearranged (cells cells' : List (List ℕ)) : Prop :=
  ∃ listed, cells.Perm listed ∧ List.Forall₂ List.Perm listed cells'

namespace Rearranged

variable {cells cells' : List (List ℕ)} (h : Rearranged cells cells')
include h

lemma orient (points : Dense α) : Rearranged (cells.map (SimplicialMesh.orient points))
    (cells'.map (SimplicialMesh.orient points)) := by
  obtain ⟨listed, order, corners⟩ := h
  refine ⟨listed.map (SimplicialMesh.orient points), order.map _, ?_⟩
  rw [List.forall₂_map_left_iff, List.forall₂_map_right_iff]
  exact corners.imp fun c c' perm => (SimplicialMesh.orient_perm points c).trans
    (perm.trans (SimplicialMesh.orient_perm points c').symm)

lemma exists_perm {c' : List ℕ} (hc : c' ∈ cells') : ∃ c ∈ cells, c'.Perm c := by
  obtain ⟨listed, order, corners⟩ := h
  obtain ⟨i, hi, rfl⟩ := List.mem_iff_getElem.1 hc
  obtain ⟨length, same⟩ := List.forall₂_iff_get.1 corners
  have inside : i < listed.length := length ▸ hi
  exact ⟨listed[i], order.mem_iff.2 (List.getElem_mem inside), (same i inside hi).symm⟩

lemma ne_nil (ne : cells ≠ []) : cells' ≠ [] := by
  obtain ⟨listed, order, corners⟩ := h
  rintro rfl
  obtain rfl := List.forall₂_nil_right_iff.1 corners
  exact ne order.eq_nil

lemma exists_contributions {E β γ : Type} (result : List ℕ → Except E β)
    (spread : List ℕ → β → List γ)
    (given : ∀ c ∈ cells, ∃ ts, ∀ c', c'.Perm c → ∃ y, result c' = .ok y ∧ (spread c' y).Perm ts) :
    ∃ ys ys', cells.mapM result = .ok ys ∧ cells'.mapM result = .ok ys' ∧
      ((cells.zip ys).flatMap fun x => spread x.1 x.2).Perm
        ((cells'.zip ys').flatMap fun x => spread x.1 x.2) := by
  choose! ts contributed using given
  have run {l l' : List (List ℕ)} (corners : List.Forall₂ List.Perm l l')
      (inside : ∀ c ∈ l, c ∈ cells) : ∃ ys, l'.mapM result = .ok ys ∧
        ((l'.zip ys).flatMap fun x => spread x.1 x.2).Perm (l.flatMap ts) := by
    induction corners with
    | nil => exact ⟨[], rfl, .refl _⟩
    | cons perm _ ih =>
      obtain ⟨y, hy, first⟩ := contributed _ (inside _ List.mem_cons_self) _ perm.symm
      obtain ⟨ys, hys, rest⟩ := ih fun c hc => inside c (List.mem_cons_of_mem _ hc)
      refine ⟨y :: ys, ?_, first.append rest⟩
      rw [List.mapM_cons, hy, hys]
      rfl
  obtain ⟨listed, order, corners⟩ := h
  obtain ⟨ys, computed, here⟩ := run (List.forall₂_same.2 fun c _ => .refl c) fun _ hc => hc
  obtain ⟨ys', computed', there⟩ := run corners fun c hc => order.mem_iff.2 hc
  exact ⟨ys, ys', computed, computed', here.trans ((order.flatMap_right ts).trans there.symm)⟩

end Rearranged

namespace LinearSpace

variable {V V' : LinearSpace α} {points : Dense α}

/-! ### Assembling the same contributions -/

/-- Matrices of one size with the same entries. -/
structure SameEntries (K K' : Triplets α) : Prop where
  rows : K.rows = K'.rows
  cols : K.cols = K'.cols
  entry : ∀ i j, K.toCsr.entry i j = K'.toCsr.entry i j

lemma sameEntries_of_perm {K K' : Triplets α} (rows : K.rows = K'.rows) (cols : K.cols = K'.cols)
    (entries : K.entries.toList.Perm K'.entries.toList) : SameEntries K K' where
  rows := rows
  cols := cols
  entry i j := by
    rw [Triplets.entry_toCsr, Triplets.entry_toCsr, Triplets.entry_eq_sum, Triplets.entry_eq_sum]
    exact (entries.map _).sum_eq

/-- Over both spaces there is a matrix, it is the same, and its entries are sums over the cells. -/
def AssemblesAlike {E : Type} (V V' : LinearSpace α) (element : Dense α → Except E (Dense α)) :
    Prop :=
  ∃ K K', V.assembleMatrix element = .ok K ∧ V'.assembleMatrix element = .ok K' ∧
    SameEntries K K' ∧ V.IsSum element K ∧ V'.IsSum element K'

lemma exists_cellTriplets {E : Type} {element : Dense α → Except E (Dense α)} {c : List ℕ}
    {F : ℕ → ℕ → α} (matrix : Element.HasMatrix points element c F) :
    ∃ ts, ∀ c', c'.Perm c →
      ∃ m, element (points.selectCols c') = .ok m ∧ (cellTriplets c' m).Perm ts := by
  refine ⟨c.flatMap fun i => c.filterMap fun j =>
    if F i j == 0 then none else some (i, j, F i j), fun c' perm => ?_⟩
  obtain ⟨m, computed, entry⟩ := matrix c' perm
  refine ⟨m, computed, ?_⟩
  rw [cellTriplets_eq entry]
  exact (perm.flatMap_right _).trans (.flatMap_left _ fun i _ => perm.filterMap _)

/-- **Matrices are assembled alike**, if those of the cells do not depend on the order of their
corners. -/
lemma assemblesAlike {E : Type} {element : Dense α → Except E (Dense α)}
    (here : V.mesh.points = points) (there : V'.mesh.points = points)
    (rearranged : Rearranged V.mesh.cells V'.mesh.cells)
    (given : ∀ c ∈ V.mesh.cells, ∃ F, Element.HasMatrix points element c F) :
    AssemblesAlike V V' element := by
  obtain ⟨locals, locals', computed, computed', contributions⟩ :=
    rearranged.exists_contributions (fun c => element (points.selectCols c)) cellTriplets
      fun c hc => (given c hc).elim fun _ => exists_cellTriplets
  have sizes : V.dofCount = V'.dofCount := by rw [dofCount, dofCount, here, there]
  have assembled : V.assembleMatrix element = .ok (V.ofCells locals) := by
    simp only [assembleMatrix, SimplicialMesh.cellPoints, here, computed]
    rfl
  have assembled' : V'.assembleMatrix element = .ok (V'.ofCells locals') := by
    simp only [assembleMatrix, SimplicialMesh.cellPoints, there, computed']
    rfl
  exact ⟨_, _, assembled, assembled', sameEntries_of_perm sizes sizes contributions,
    isSum_of_assembleMatrix assembled, isSum_of_assembleMatrix assembled'⟩

/-- Adds a value at a place, unless it is zero. -/
def accumulate (s : Array α) (e : ℕ × α) : Array α :=
  if e.2 == 0 then s else s.modify e.1 (· + e.2)

lemma getElem?_accumulate (s : Array α) (e : ℕ × α) (i : ℕ) :
    (accumulate s e)[i]? = s[i]?.map fun v => if e.1 = i then v + e.2 else v := by
  unfold accumulate
  split
  case isTrue zero => simp [Scalar.beq_zero_iff.1 zero]
  case isFalse =>
    rw [Array.getElem?_modify]
    split <;> simp

lemma accumulate_comm (s : Array α) (e e' : ℕ × α) :
    accumulate (accumulate s e) e' = accumulate (accumulate s e') e := by
  refine Array.ext_getElem? fun i => ?_
  simp only [getElem?_accumulate, Option.map_map]
  congr 1
  funext v
  dsimp only [Function.comp]
  split_ifs
  · exact add_right_comm _ _ _
  all_goals rfl

lemma exists_zip {E : Type} {element : Dense α → Except E (Array α)} {c : List ℕ} {F : ℕ → α}
    (vector : Element.HasVector points element c F) :
    ∃ es : List (ℕ × α), ∀ c', c'.Perm c →
      ∃ x, element (points.selectCols c') = .ok x ∧ (c'.zip x.toList).Perm es := by
  refine ⟨c.map fun i => (i, F i), fun c' perm => ?_⟩
  obtain ⟨x, computed, entries⟩ := vector c' perm
  refine ⟨x, computed, ?_⟩
  rw [entries, ← List.map_prod_left_eq_zip]
  exact perm.map _

lemma exists_vector {E : Type} {element : Dense α → Except E (Array α)}
    (here : V.mesh.points = points) (there : V'.mesh.points = points)
    (rearranged : Rearranged V.mesh.cells V'.mesh.cells)
    (given : ∀ c ∈ V.mesh.cells, ∃ F, Element.HasVector points element c F) :
    ∃ b, V.assembleVector element = .ok b ∧ V'.assembleVector element = .ok b := by
  obtain ⟨locals, locals', computed, computed', contributions⟩ :=
    rearranged.exists_contributions (fun c => element (points.selectCols c))
      (fun c x => c.zip x.toList) fun c hc => (given c hc).elim fun _ => exists_zip
  have sizes : V.dofCount = V'.dofCount := by rw [dofCount, dofCount, here, there]
  have sum := contributions.foldl_eq' (fun e _ e' _ s => accumulate_comm s e e')
    (Coords.zeros V.dofCount)
  refine ⟨_, .trans ?_ (congrArg Except.ok sum), ?_⟩
  · simp only [assembleVector, SimplicialMesh.cellPoints, here, computed]
    rfl
  · simp only [assembleVector, SimplicialMesh.cellPoints, there, computed', ← sizes]
    rfl

/-! ### Too many dimensions -/

lemma assembleMatrix_eq_error {E : Type} {element : Dense α → Except E (Dense α)} {e : E}
    (ne : V.mesh.cells ≠ [])
    (failed : ∀ c ∈ V.mesh.cells, element (V.mesh.cellPoints c) = .error e) :
    V.assembleMatrix element = .error e := by
  rw [assembleMatrix, mapM_eq_error ne failed]
  rfl

lemma assembleVector_eq_error {E : Type} {element : Dense α → Except E (Array α)} {e : E}
    (ne : V.mesh.cells ≠ [])
    (failed : ∀ c ∈ V.mesh.cells, element (V.mesh.cellPoints c) = .error e) :
    V.assembleVector element = .error e := by
  rw [assembleVector, mapM_eq_error ne failed]
  rfl

lemma assemble_eq_dimension (f : Array α → α) (ne : V.mesh.cells ≠ [])
    (spans : ∀ c ∈ V.mesh.cells, Simplex.Spans V.mesh.points c)
    (size : ¬Element.factorial V.mesh.points.rows < Word.limit) :
    V.assembleMatrix Element.stiffness? = .error .dimension ∧
      V.assembleMatrix Element.mass? = .error .dimension ∧
      V.assembleVector (Element.load? f) = .error .dimension :=
  ⟨assembleMatrix_eq_error ne fun c hc => Element.stiffness?_eq_error (spans c hc) size,
    assembleMatrix_eq_error ne fun c hc => Element.mass?_eq_error (spans c hc) size,
    assembleVector_eq_error ne fun c hc => Element.load?_eq_error (spans c hc) f size⟩

/-! ### Meshes of the same cells -/

/-- **What is assembled does not depend on how a mesh is written down.** Cells that span a volume
may be listed in any order, and the corners of each in any order. The stiffness matrix and the mass
matrix keep their entries, which are sums over the cells, and the load vector is the same. With so
many dimensions that their factorial is no size, nothing is assembled either way. -/
theorem assembled_rearranged {points : Dense α} {cells cells' : List (List ℕ)}
    (spans : ∀ c ∈ cells, Simplex.Spans points c) (rearranged : Rearranged cells cells')
    (faceOf : Dense α → Option ℕ) (f : Array α → α) :
    ∃ mesh mesh', SimplicialMesh.of? points cells faceOf = some mesh ∧
      SimplicialMesh.of? points cells' faceOf = some mesh' ∧
      let V : LinearSpace α := ⟨mesh⟩
      let V' : LinearSpace α := ⟨mesh'⟩
      (cells = [] ∨ Element.factorial points.rows < Word.limit →
        AssemblesAlike V V' Element.stiffness? ∧ AssemblesAlike V V' Element.mass? ∧
          ∃ b, V.assembleVector (Element.load? f) = .ok b ∧
            V'.assembleVector (Element.load? f) = .ok b) ∧
      (cells ≠ [] → ¬Element.factorial points.rows < Word.limit → ∀ W ∈ [V, V'],
        W.assembleMatrix Element.stiffness? = .error .dimension ∧
          W.assembleMatrix Element.mass? = .error .dimension ∧
          W.assembleVector (Element.load? f) = .error .dimension) := by
  have spans' : ∀ c ∈ cells', Simplex.Spans points c := fun c' hc' => by
    obtain ⟨c, hc, perm⟩ := rearranged.exists_perm hc'
    exact (spans c hc).of_perm perm
  have oriented {cells : List (List ℕ)} (spans : ∀ c ∈ cells, Simplex.Spans points c) :
      ∀ c ∈ cells.map (SimplicialMesh.orient points), Simplex.Spans points c := fun c hc => by
    obtain ⟨d, hd, rfl⟩ := List.mem_map.1 hc
    exact (spans d hd).of_perm (SimplicialMesh.orient_perm points d)
  refine ⟨.ofCells points cells faceOf fun c hc => (spans c hc).hasCell,
    .ofCells points cells' faceOf fun c hc => (spans' c hc).hasCell,
    dif_pos fun c hc => (spans c hc).hasCell, dif_pos fun c hc => (spans' c hc).hasCell,
    fun size => ?_, fun ne size W hW => ?_⟩
  · have small : ∀ c ∈ cells.map (SimplicialMesh.orient points),
        Element.factorial points.rows < Word.limit := fun c hc =>
      size.resolve_left fun none => by simp [none] at hc
    have order := rearranged.orient points
    exact ⟨assemblesAlike rfl rfl order fun c hc =>
        Element.exists_hasMatrix_stiffness (oriented spans c hc) (small c hc),
      assemblesAlike rfl rfl order fun c hc =>
        ⟨_, Element.hasMatrix_mass (oriented spans c hc) (small c hc)⟩,
      exists_vector rfl rfl order fun c hc =>
        ⟨_, Element.hasVector_load (oriented spans c hc) f (small c hc)⟩⟩
  · rcases List.mem_cons.1 hW with rfl | hW
    · exact assemble_eq_dimension f (mt List.map_eq_nil_iff.1 ne) (oriented spans) size
    · obtain rfl := List.mem_singleton.1 hW
      exact assemble_eq_dimension f (mt List.map_eq_nil_iff.1 (rearranged.ne_nil ne))
        (oriented spans') size

/-- The corners of the unit square. -/
def unitSquare : Dense ℚ :=
  .ofFn 2 4 fun axis v => if axis = 0 then Nat.cast (v % 2) else Nat.cast (v / 2)

/-- Two triangles, and the same two with the second one first and its corners turned round, and with
two corners of the other exchanged. -/
theorem assembled_rearranged_square :
    (∀ c ∈ [[0, 1, 2], [1, 3, 2]], Simplex.Spans unitSquare c) ∧
      Rearranged [[0, 1, 2], [1, 3, 2]] [[3, 2, 1], [1, 0, 2]] ∧
      ∃ mesh mesh', SimplicialMesh.of? unitSquare [[0, 1, 2], [1, 3, 2]] (fun _ => some 0) =
          some mesh ∧
        SimplicialMesh.of? unitSquare [[3, 2, 1], [1, 0, 2]] (fun _ => some 0) = some mesh' ∧
        let V : LinearSpace ℚ := ⟨mesh⟩
        let V' : LinearSpace ℚ := ⟨mesh'⟩
        AssemblesAlike V V' Element.stiffness? ∧ AssemblesAlike V V' Element.mass? ∧
          ∃ b, V.assembleVector (Element.load? fun x => x.getD 0 0) = .ok b ∧
            V'.assembleVector (Element.load? fun x => x.getD 0 0) = .ok b := by
  have spans : ∀ c ∈ [[0, 1, 2], [1, 3, 2]], Simplex.Spans unitSquare c := by decide +kernel
  have rearranged : Rearranged [[0, 1, 2], [1, 3, 2]] [[3, 2, 1], [1, 0, 2]] :=
    ⟨[[1, 3, 2], [0, 1, 2]], by decide, .cons (by decide) (.cons (by decide) .nil)⟩
  obtain ⟨mesh, mesh', made, made', alike, -⟩ :=
    assembled_rearranged spans rearranged (fun _ => some 0) fun x => x.getD 0 0
  exact ⟨spans, rearranged, mesh, mesh', made, made', alike (.inr (by decide))⟩

end LinearSpace

end Eigenmesh
