import Eigenmesh.Factor.Store

/-!
Eigenvalues and eigenvectors of a symmetric matrix. Reflections bring the matrix, scaled to
entries of at most one, into tridiagonal form; rotations with the shift of Wilkinson then drive
the entries beside the diagonal to zero, from the lower end upwards. An entry beside the
diagonal counts as zero when it is below the rounding of its two diagonal neighbours.
-/

namespace Eigenmesh.Factor

/-- A symmetric tridiagonal matrix and the orthogonal one, by columns, that made it so. -/
structure Tridiagonal where
  size : Nat
  diagonal : FloatArray
  beside : FloatArray
  vectors : FloatArray

namespace Tridiagonal

/-- `2 S u` for the part `S` of a symmetric matrix that starts at place `i`, of which only the lower
triangle is read. What the rows left of the diagonal give comes before the rest. -/
def twice (n i : Nat) (u d : FloatArray) : FloatArray :=
  let entry (a b : Nat) : Float := read d (i + a + (i + b) * n)
  let after (a first : Nat) : Float :=
    2.0 * sumByEight (u.size - first) fun t => entry (first + t) a * read u (first + t)
  let before (a : Nat) : Float := (a - 1).fold (fun t _ s =>
    s + 2.0 * read u (t + 1) * entry a (t + 1)) (2.0 * read u 0 * entry a 0)
  u.size.fold (fun a _ (p : FloatArray) =>
    p.push (before a + if a = 0 then after 0 1 else after a a)) (.emptyWithCapacity u.size)

/-- Subtracts `2 (u vᵀ + v uᵀ)` from the lower triangle of the part `S` that starts at place `i`,
where `v` is `S u - (uᵀ S u) u`. -/
def reflectBoth (n i : Nat) (u : FloatArray) (d : FloatArray) : FloatArray :=
  let m := u.size
  let p := twice n i u d
  let dot := sumByEight m fun a => read u a * read p a
  m.fold (fun b _ d => (m - b).fold (fun t _ d =>
    let a := b + t
    let k := i + a + (i + b) * n
    write d k (read d k - read p a * read u b - read u a * read p b
      + 2.0 * dot * read u b * read u a)) d) d

/-- One reflection for each column but the last. -/
def ofStore (n : Nat) (d : FloatArray) : Tridiagonal :=
  let ⟨d, beside, axes⟩ := (n - 1).fold
    (fun j _ (s : FloatArray × FloatArray × Array (Option FloatArray)) =>
      let ⟨d, beside, axes⟩ := s
      let (axis, reached) := reflection (column n j (j + 1) d)
      let d := match axis with
        | some u => reflectBoth n (j + 1) u d
        | none => d
      (d, beside.push reached, axes.push axis)) (d, .emptyWithCapacity n, #[])
  let vectors := (n - 1).fold (fun t _ q =>
    let j := n - 2 - t
    match axes.getD j none with
    | some u => n.fold (fun c _ q => reflectColumn n c (j + 1) u q) q
    | none => q) (unit n)
  let diagonal := n.fold (fun i _ (x : FloatArray) => x.push (read d (i + i * n)))
    (.emptyWithCapacity n)
  ⟨n, diagonal, beside, vectors⟩

/-- Whether the connection of place `m` to the one after it is no more than rounding. -/
def negligible (T : Tridiagonal) (m : Nat) : Bool :=
  isRounding (read T.beside m) (read T.diagonal m) (read T.diagonal (m + 1))

/-- The last place from `m` down whose connection to the place before it counts. One that is not
a number does not. -/
def lastActive (T : Tridiagonal) : Nat → Nat
  | 0 => 0
  | m + 1 =>
    if Scalar.epsilon * ((read T.diagonal (m + 1)).abs + (read T.diagonal m).abs) <
        (read T.beside m).abs then m + 1
    else T.lastActive m

/-- The first place of the block that ends above place `m`, cut off from what is before it. -/
def firstActive (T : Tridiagonal) : Nat → Tridiagonal × Nat
  | 0 => (T, 0)
  | m + 1 =>
    if read T.beside m == 0.0 || T.negligible m then
      ({ T with beside := write T.beside m 0.0 }, m + 1)
    else T.firstActive m

/-- The block that is worked on next; nothing when all is diagonal. -/
def active (T : Tridiagonal) (last : Nat) : Tridiagonal × Option (Nat × Nat) :=
  match T.lastActive last with
  | 0 => (T, none)
  | m + 1 =>
    let (T, first) := T.firstActive m
    (T, some (first, m + 1))

/-- The eigenvalue of the two-by-two matrix at the lower end that is nearer to its last
diagonal entry. -/
def wilkinsonShift (tmm tnn tmn : Float) : Float :=
  let square := tmn * tmn
  if square == 0.0 then tnn
  else
    let d := (tmm - tnn) * 0.5
    let root := (d * d + square).sqrt
    tnn - square / (d + if 0.0 ≤ d then root else -root)

/-- Rotations of places `i` and `i + 1`, `i + 1` and `i + 2`, and so on up to `last`, each
chosen to turn `(x, y)` onto its first axis. -/
def chase (first last : Nat) : Nat → Nat → Float → Float → Tridiagonal → Tridiagonal
  | 0, _, _, _, T => T
  | k + 1, i, x, y, T =>
    if y == 0.0 then T
    else
      let length := (x.abs * x.abs + y * y).sqrt
      let signed := if 0.0 ≤ x then length else -length
      let c := x.abs / length
      let s := -y / signed
      let beside := if first < i then write T.beside (i - 1) signed else T.beside
      let mii := read T.diagonal i
      let mjj := read T.diagonal (i + 1)
      let mij := read beside i
      let cc := c * c
      let ss := s * s
      let cs := c * s
      let b := cs * 2.0 * mij
      let diagonal := write (write T.diagonal i (cc * mii + ss * mjj - b))
        (i + 1) (ss * mii + cc * mjj + b)
      let x := cs * (mii - mjj) + mij * (cc - ss)
      let y := -s * read beside (i + 1)
      let beside := write beside i x
      let beside := if i + 1 < last then write beside (i + 1) (read beside (i + 1) * c) else beside
      let vectors := turnColumns T.size T.size i (i + 1) c (-s) T.vectors
      chase first last k (i + 1) x y ⟨T.size, diagonal, beside, vectors⟩

/-- Diagonalises the two-by-two block that starts at `i`. -/
def settle (i : Nat) (T : Tridiagonal) : Tridiagonal :=
  let d0 := read T.diagonal i
  let d1 := read T.diagonal (i + 1)
  let off := read T.beside i
  let half := (d0 - d1) * 0.5
  let root := (off * off + half * half).sqrt
  let mean := (d0 + d1) * 0.5
  let diagonal := write (write T.diagonal i (mean + root)) (i + 1) (mean - root)
  let vectors := match turnOnto? Scalar.epsilon (mean + root - d1) off with
    | some (c, s) => turnColumns T.size T.size i (i + 1) c s T.vectors
    | none => T.vectors
  { T with diagonal, vectors }

/-- One round on the block from `first` to `last`, and the last place still worked on. -/
def round (first last : Nat) (T : Tridiagonal) : Tridiagonal × Nat :=
  if first + 1 < last then
    let m := last - 1
    let shift := wilkinsonShift (read T.diagonal m) (read T.diagonal last) (read T.beside m)
    let T := chase first last (last - first) first (read T.diagonal first - shift)
      (read T.beside first) T
    (T, if T.negligible m then m else last)
  else (settle first T, last - 1)

/-- Rounds until all is diagonal. Reaching the budget fails, even with the round that would have
been the last. -/
def iterate (budget : Nat) : Nat → Nat → Nat → Tridiagonal → Option Tridiagonal
  | 0, _, _, _ => none
  | fuel + 1, done, last, T =>
    match T.active last with
    | (T, none) => some T
    | (T, some (first, last)) =>
      let (T, last) := T.round first last
      if done + 1 = budget then none else iterate budget fuel (done + 1) last T

end Tridiagonal

/-- More rounds than any matrix of this size needs. -/
def patience (n : Nat) : Nat := 1000 * (n + 10)

/-- Eigenvalues, and their vectors as columns. -/
def symmetricEigen? (budget : Nat) (A : Dense Float) : Option (Array Float × Dense Float) := do
  let n := A.rows
  let d := store A
  let size := largest d
  let d := if size == 0.0 then d else unscale d size
  let T ← (Tridiagonal.ofStore n d).iterate budget (patience n) 0 (n - 1)
  return ((scale T.diagonal size).data, load n n T.vectors)

end Eigenmesh.Factor
