import Mathlib.Algebra.Order.Field.Rat
import Mathlib.Tactic.Common
import Eigenmesh.Decimal.Reading
import Eigenmesh.Proofs.Handle.Run
import Eigenmesh.Proofs.Scalar.Exact
import Eigenmesh.Proofs.Sorting

/-!
Rational numbers as scalars.

What a solver does in the course of a program can be followed step by step in exact arithmetic, where
a diagonal matrix is its own decomposition.
-/

namespace Eigenmesh

namespace Rational

/-- The root of a number that is a square of rationals. -/
def root (x : Rat) : Rat := mkRat x.num.toNat.sqrt x.den.sqrt

def read? (s : String) : Option Rat :=
  let (negative, body) := Decimal.splitSign s.toList
  (Decimal.decimal? body).map fun (m, _, e) =>
    let x := if 0 ≤ e then (m * 10 ^ e.toNat : Rat) else m / 10 ^ (-e).toNat
    if negative then -x else x

instance : Scalar Rat where
  zero := 0
  one := 1
  beq a b := decide (a = b)
  lt := (· < ·)
  le := (· ≤ ·)
  decidableLT := inferInstance
  decidableLE := inferInstance
  abs x := if x < 0 then -x else x
  sqrt := root
  hypot x y := root (x * x + y * y)
  isFinite _ := true
  ranks a b := decide (a ≤ b)
  text := toString
  read? := read?

instance : Scalar.Ranked Rat where
  total a b := by
    change (decide (a ≤ b) || decide (b ≤ a)) = true
    rw [Bool.or_eq_true, decide_eq_true_eq, decide_eq_true_eq]
    exact Rat.le_total
  trans a b c := by
    change decide (a ≤ b) = true → decide (b ≤ c) = true → decide (a ≤ c) = true
    simp only [decide_eq_true_eq]
    exact Rat.le_trans

lemma ofScientific_eq (m : ℕ) (s : Bool) (e : ℕ) :
    (OfScientific.ofScientific m s e : Rat) =
      if s then (m : Rat) / 10 ^ e else m * 10 ^ e := by
  change Rat.ofScientific m s e = _
  rw [Rat.ofScientific_def]
  split
  · rw [Rat.mkRat_eq_div]
    push_cast
    rfl
  · push_cast
    rfl

instance : Scalar.Exact Rat :=
  { (inferInstance : Field Rat), (inferInstance : LinearOrder Rat),
    (inferInstance : IsStrictOrderedRing Rat), (inferInstance : Scalar Rat) with
    beq_iff_eq := fun _ _ => decide_eq_true_iff
    abs_eq_abs := fun x => by
      change (if x < 0 then -x else x) = |x|
      split
      · exact (abs_of_neg ‹_›).symm
      · exact (abs_of_nonneg (not_lt.1 ‹_›)).symm
    ofScientific_eq := ofScientific_eq }

lemma isExact : Scalar.IsExact Rat := ⟨inferInstance, rfl⟩

/-- The diagonal of a matrix that has nothing beside it. -/
def diagonal? (A : Dense Rat) : Option (Array Rat) :=
  if (List.range A.rows).all fun i => (List.range A.cols).all fun j => i = j || A.entry i j == 0
  then some (Array.ofFn fun i : Fin A.rows => A.entry i i)
  else none

/-- The unit vectors are the eigenvectors of a diagonal matrix. No budget is enough for any other
matrix. -/
def symmetricEigen? (A : Dense Rat) : Option (Array Rat × Dense Rat) :=
  (diagonal? A).map fun values => (values, .identity A.rows)

instance : Kernels Rat where
  lu _ := ⟨#[0], fun _ => none⟩
  complexLu _ := ⟨#[0], fun _ => none⟩
  cholesky? _ := none
  sparseLu _ := .deficient
  sparseCholesky? _ := none
  symmetricEigen? _ := symmetricEigen?
  eigenvalues? _ A := (diagonal? A).map fun values => values.toList.map .ofReal
  lanczos? _ _ := none

lemma fits : Kernels.Fits Rat where
  cholesky _ _ h := nomatch h
  complexLu _ _ _ h := nomatch h
  symmetricEigen _ A values vectors h := by
    obtain ⟨_, -, h⟩ := Option.map_eq_some_iff.1 h
    obtain ⟨-, rfl⟩ := Prod.mk.inj h
    rfl
  lanczos _ _ _ h := nomatch h

/-- The diagonal matrix with the given entries. -/
def diagonal (values : List Rat) : Dense Rat :=
  .ofFn values.length values.length fun i j => if i = j then values.getD i 0 else 0

/-- A call without runtime options. -/
def plainly {γ : Type} (call : γ) : Event γ := ⟨.empty, .empty, call⟩

/-- The calls that attach a diagonal matrix and solve. -/
def solving (values : List Rat) : List (Event (EigenSolver.Call Rat)) :=
  [plainly (.setOperators (.dense (diagonal values)) none), plainly .solve]

end Rational

end Eigenmesh
