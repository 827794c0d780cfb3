import Eigenmesh.Sparse.Quicksort

/-!
A stored row of a sparse matrix: a list of columns with their values. A row is ordered when
its columns strictly increase and lie within the matrix, and adding a value at a column
keeps it so.
-/

namespace Eigenmesh.Row

variable {α : Type}

/-- The columns strictly increase and are below `cols`. -/
def Ordered (cols : Nat) (row : List (Nat × α)) : Prop :=
  row.Pairwise (fun a b => a.1 < b.1) ∧ ∀ e ∈ row, e.1 < cols

instance (cols : Nat) (row : List (Nat × α)) : Decidable (Ordered cols row) :=
  inferInstanceAs (Decidable (_ ∧ _))

/-- Adds `v` to the value stored at column `j`, storing it if there is none. -/
def addAt [Add α] (j : Nat) (v : α) : List (Nat × α) → List (Nat × α)
  | [] => [(j, v)]
  | (k, w) :: r =>
    if j < k then (j, v) :: (k, w) :: r
    else if j = k then (k, w + v) :: r
    else (k, w) :: addAt j v r

theorem ordered_nil {cols : Nat} : Ordered cols ([] : List (Nat × α)) :=
  ⟨List.Pairwise.nil, by simp⟩

theorem Ordered.tail {cols : Nat} {e : Nat × α} {r : List (Nat × α)}
    (h : Ordered cols (e :: r)) : Ordered cols r :=
  ⟨(List.pairwise_cons.1 h.1).2, fun x hx => h.2 x (List.mem_cons_of_mem _ hx)⟩

theorem col_of_mem_addAt [Add α] {j : Nat} {v : α} {r : List (Nat × α)} {e : Nat × α}
    (h : e ∈ addAt j v r) : e.1 = j ∨ ∃ e' ∈ r, e'.1 = e.1 := by
  induction r with
  | nil => simp only [addAt, List.mem_singleton] at h; exact .inl (h ▸ rfl)
  | cons head r ih =>
    obtain ⟨k, w⟩ := head
    simp only [addAt] at h
    split at h
    · rcases List.mem_cons.1 h with rfl | h
      · exact .inl rfl
      · exact .inr ⟨e, h, rfl⟩
    · split at h
      · rcases List.mem_cons.1 h with rfl | h
        · exact .inr ⟨(k, w), List.mem_cons_self, rfl⟩
        · exact .inr ⟨e, List.mem_cons_of_mem _ h, rfl⟩
      · rcases List.mem_cons.1 h with rfl | h
        · exact .inr ⟨(k, w), List.mem_cons_self, rfl⟩
        · rcases ih h with h | ⟨e', he', h⟩
          · exact .inl h
          · exact .inr ⟨e', List.mem_cons_of_mem _ he', h⟩

theorem Ordered.addAt [Add α] {cols j : Nat} {v : α} {r : List (Nat × α)}
    (hj : j < cols) (h : Ordered cols r) : Ordered cols (addAt j v r) := by
  refine ⟨?_, fun e he => ?_⟩
  · induction r with
    | nil => simp [Row.addAt]
    | cons head r ih =>
      obtain ⟨k, w⟩ := head
      have hp := List.pairwise_cons.1 h.1
      simp only [Row.addAt]
      split
      · rename_i hlt
        refine List.pairwise_cons.2 ⟨fun e he => ?_, h.1⟩
        rcases List.mem_cons.1 he with rfl | he
        · exact hlt
        · exact Nat.lt_trans hlt (hp.1 e he)
      · split
        · exact List.pairwise_cons.2 ⟨hp.1, hp.2⟩
        · refine List.pairwise_cons.2 ⟨fun e he => ?_, ih h.tail⟩
          rcases col_of_mem_addAt he with he | ⟨e', he', heq⟩
          · simp only [he]; omega
          · rw [← heq]; exact hp.1 e' he'
  · rcases col_of_mem_addAt he with he | ⟨e', he', heq⟩
    · omega
    · rw [← heq]; exact h.2 e' he'

/-- The row of the given entries, values at one column summed in the order in which sorting by
columns leaves them. A column outside the matrix is passed over. -/
def ofEntries [Add α] (cols : Nat) (es : Array (Nat × α)) : List (Nat × α) :=
  (Quicksort.sort (fun a b => a.1 < b.1) es).foldl
    (fun row (j, v) => if j < cols then addAt j v row else row) []

theorem ordered_ofEntries [Add α] {cols : Nat} (es : Array (Nat × α)) :
    Ordered cols (ofEntries cols es) := by
  refine Array.foldl_induction (fun _ row => Ordered cols row) ordered_nil ?_
  intro i row h
  dsimp only
  split
  · exact h.addAt ‹_›
  · exact h

theorem ordered_filterMap_range (n : Nat) (f : Nat → Option α) :
    Ordered n ((List.range n).filterMap fun j => (f j).map (j, ·)) := by
  refine ⟨?_, fun e he => ?_⟩
  · refine List.Pairwise.filterMap _ ?_ List.pairwise_lt_range
    intro a b hab x hx y hy
    obtain ⟨_, _, rfl⟩ := Option.map_eq_some_iff.1 hx
    obtain ⟨_, _, rfl⟩ := Option.map_eq_some_iff.1 hy
    exact hab
  · obtain ⟨j, hj, he⟩ := List.mem_filterMap.1 he
    obtain ⟨_, _, rfl⟩ := Option.map_eq_some_iff.1 he
    exact List.mem_range.1 hj

/-- Cuts a list into consecutive rows of the given lengths. -/
def cut {γ : Type} : List Nat → List γ → List (List γ)
  | [], _ => []
  | n :: ns, r => r.take n :: cut ns (r.drop n)

end Eigenmesh.Row
