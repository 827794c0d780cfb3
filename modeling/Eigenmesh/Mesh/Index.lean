import Eigenmesh.Word

/-!
Numbering of the points of a regular grid: a point is a list of coordinates, each below
`len`, and its number has these as digits to the base `len`, the first coordinate being the
lowest digit.
-/

namespace Eigenmesh.Index

/-- The `dim` lowest digits of a number, lowest first. -/
def coords (len : Nat) : Nat → Nat → List Nat
  | 0, _ => []
  | dim + 1, i => i % len :: coords len dim (i / len)

/-- The number with the given digits, lowest first. -/
def number (len : Nat) : List Nat → Nat
  | [] => 0
  | c :: cs => number len cs * len + c

/-- The digits of a number; there are none to the base zero, unless none are asked for. -/
def coords? (len dim i : Nat) : Option (List Nat) :=
  if len = 0 ∧ dim ≠ 0 then none else some (coords len dim i)

/-- The number with the given digits, if it and every step on the way to it is a size. -/
def number? (len : Nat) : List Nat → Option Nat
  | [] => some 0
  | c :: cs => do
    let n ← number? len cs
    Word.add? (← Word.mul? n len) c

@[simp] theorem length_coords {len dim i : Nat} : (coords len dim i).length = dim := by
  induction dim generalizing i with
  | zero => rfl
  | succ dim ih => simp [coords, ih]

theorem lt_of_mem_coords {len dim i c : Nat} (hlen : 0 < len) (h : c ∈ coords len dim i) :
    c < len := by
  induction dim generalizing i with
  | zero => simp [coords] at h
  | succ dim ih =>
    rcases List.mem_cons.1 h with rfl | h
    · exact Nat.mod_lt _ hlen
    · exact ih h

theorem number_lt {len : Nat} {cart : List Nat} (h : ∀ c ∈ cart, c < len) :
    number len cart < Nat.pow len cart.length := by
  induction cart with
  | nil => simp [number]
  | cons c cs ih =>
    have hc := h c List.mem_cons_self
    have hcs := ih fun d hd => h d (List.mem_cons_of_mem _ hd)
    have hmul : (number len cs + 1) * len ≤ Nat.pow len cs.length * len := Nat.mul_le_mul_right _ hcs
    rw [Nat.add_mul, Nat.one_mul] at hmul
    rw [number, List.length_cons]
    change _ < Nat.pow len cs.length * len
    omega

end Eigenmesh.Index
