import Eigenmesh.Factor.SymmetricEigen

/-!
Eigenvalues of a real matrix. Reflections bring the matrix, scaled to entries of at most one,
into Hessenberg form, where only one entry stands below each diagonal entry; double steps with
the two eigenvalues at the lower end as shifts then drive these entries to zero, until what is
left are single entries and blocks of two on the diagonal.
-/

namespace Eigenmesh.Factor.Schur

/-- The matrix with the part of each column below the entry under the diagonal reflected
away. -/
def hessenberg (n : Nat) (d : FloatArray) : FloatArray :=
  (n - 1).fold (fun j _ d =>
    match reflection (column n j (j + 1) d) with
    | (none, reached) => write d (j + 1 + j * n) reached
    | (some u, reached) =>
      let d := n.fold (fun i _ d => reflectRow n i (j + 1) u d) d
      let d := (n - (j + 1)).fold (fun t _ d => reflectColumn n (j + 1 + t) (j + 1) u d) d
      let d := (n - (j + 1)).fold (fun t _ d => write d (j + 1 + t + j * n) 0.0) d
      write d (j + 1 + j * n) reached) d

/-- Whether the connection of place `m` to the one after it is no more than rounding. -/
def negligible (n m : Nat) (t : FloatArray) : Bool :=
  isRounding (read t (m + 1 + m * n)) (read t (m + 1 + (m + 1) * n)) (read t (m + m * n))

/-- The last place from `m` down whose connection to the place before it counts; the
connections passed over are cut. -/
def lastActive (n : Nat) (t : FloatArray) : Nat → FloatArray × Nat
  | 0 => (t, 0)
  | m + 1 =>
    if negligible n m t then lastActive n (write t (m + 1 + m * n) 0.0) m else (t, m + 1)

/-- The first place of the block that ends above place `m`, cut off from what is before it. -/
def firstActive (n : Nat) (t : FloatArray) : Nat → FloatArray × Nat
  | 0 => (t, 0)
  | m + 1 =>
    if read t (m + 1 + m * n) == 0.0 || negligible n m t then
      (write t (m + 1 + m * n) 0.0, m + 1)
    else firstActive n t m

/-- The block that is worked on next; nothing when no connection counts. -/
def active (n : Nat) (t : FloatArray) (last : Nat) : FloatArray × Option (Nat × Nat) :=
  match lastActive n t last with
  | (t, 0) => (t, none)
  | (t, m + 1) =>
    let (t, first) := firstActive n t m
    (t, some (first, m + 1))

def triple (x y z : Float) : FloatArray := ⟨#[x, y, z]⟩

/-- Reflects three rows and columns from `k` on so that `axis` falls onto its first
coordinate. -/
def reflectThree (n first last k : Nat) (axis : FloatArray) (t : FloatArray) : FloatArray :=
  match reflection axis with
  | (none, _) => t
  | (some u, reached) =>
    let t := if first < k then
        write (write (write t (k + (k - 1) * n) reached) (k + 1 + (k - 1) * n) 0.0)
          (k + 2 + (k - 1) * n) 0.0
      else t
    let t := (n - k).fold (fun c _ t => reflectColumn n (k + c) k u t) t
    (min (k + 4) (last + 1)).fold (fun i _ t => reflectRow n i k u t) t

/-- Moves the bulge that `axis` makes at place `k` down to the lower end. -/
def chase (n first last : Nat) : Nat → Nat → FloatArray → FloatArray → FloatArray × FloatArray
  | 0, _, axis, t => (axis, t)
  | steps + 1, k, axis, t =>
    let t := reflectThree n first last k axis t
    let z := if k + 2 < last then read t (k + 3 + k * n) else read axis 2
    chase n first last steps (k + 1) (triple (read t (k + 1 + k * n)) (read t (k + 2 + k * n)) z) t

/-- One double step on a block of three places or more. -/
def doubleStep (n first last : Nat) (t : FloatArray) : FloatArray :=
  let at_ (i j : Nat) : Float := read t (i + j * n)
  let m := last - 1
  let h11 := at_ first first
  let h21 := at_ (first + 1) first
  let trace := at_ last last + at_ m m
  let det := at_ last last * at_ m m - at_ last m * at_ m last
  let axis := triple (h11 * h11 + at_ first (first + 1) * h21 - trace * h11 + det)
    (h21 * (h11 + at_ (first + 1) (first + 1) - trace)) (h21 * at_ (first + 2) (first + 1))
  let (axis, t) := chase n first last (last - 1 - first) first axis t
  match reflection ⟨#[read axis 0, read axis 1]⟩ with
  | (none, _) => t
  | (some u, reached) =>
    let t := write (write t (m + (m - 1) * n) reached) (last + (m - 1) * n) 0.0
    let t := (n - m).fold (fun c _ t => reflectColumn n (m + c) m u t) t
    (last + 1).fold (fun i _ t => reflectRow n i m u t) t

/-- Splits the block of two at `i` if its eigenvalues are real. A block too small for the length
of its axis is left unturned. -/
def split (n i last : Nat) (t : FloatArray) : FloatArray :=
  let h00 := read t (i + i * n)
  let h10 := read t (i + 1 + i * n)
  let h01 := read t (i + (i + 1) * n)
  let h11 := read t (i + 1 + (i + 1) * n)
  let half := (h00 - h11) * 0.5
  let discriminant := h10 * h01 + half * half
  if h10 == 0.0 || !(0.0 ≤ discriminant) then t
  else
    let root := discriminant.sqrt
    let mean := (h00 + h11) * 0.5
    let x1 := mean + root - h11
    let x2 := mean - root - h11
    let x := if x2.abs < x1.abs then x1 else x2
    let (c, s) := (turnOnto? 0.0 x h10).getD (1.0, 0.0)
    let t := turnRows n i i (i + 1) c s t
    let t := turnColumns n (last + 1) i (i + 1) c s t
    write t (i + 1 + i * n) 0.0

/-- Rounds until no block of more than two places is left. Reaching the budget fails, even with
the round that would have been the last. -/
def iterate (n budget : Nat) : Nat → Nat → Nat → FloatArray → Option FloatArray
  | 0, _, _, _ => none
  | fuel + 1, done, last, t =>
    match active n t last with
    | (t, none) => some t
    | (t, some (first, last)) =>
      if first + 1 < last then
        let t := doubleStep n first last t
        if done + 1 = budget then none else iterate n budget fuel (done + 1) last t
      else
        let t := split n first last t
        if last ≤ 2 then some t
        else if done + 1 = budget then none
        else iterate n budget fuel (done + 1) (last - 2) t

/-- The eigenvalues of the blocks on the diagonal from place `m` on. -/
def blockValues (n : Nat) (t : FloatArray) : Nat → Nat → List (Cplx Float)
  | 0, _ => []
  | fuel + 1, m =>
    let hmm := read t (m + m * n)
    if m + 1 < n && !(read t (m + 1 + m * n) == 0.0) then
      let hnn := read t (m + 1 + (m + 1) * n)
      let half := (hmm - hnn) * 0.5
      let root := (-(read t (m + 1 + m * n) * read t (m + (m + 1) * n) + half * half)).sqrt
      let mean := (hnn + hmm) * 0.5
      ⟨mean, root⟩ :: ⟨mean, 0.0 - root⟩ :: blockValues n t fuel (m + 2)
    else if m < n then ⟨hmm, 0.0⟩ :: blockValues n t fuel (m + 1)
    else []

/-- The matrix with the same eigenvalues that has blocks of one and two places on the
diagonal. -/
def form? (budget : Nat) : Nat → FloatArray → Option FloatArray
  | 0, d => some d
  | 1, d => some d
  | 2, d => some (split 2 0 1 d)
  | n, d =>
    let size := largest d
    (iterate n budget (patience n) 0 (n - 1) (hessenberg n (unscale d size))).map (scale · size)

end Schur

/-- The eigenvalues in the order in which they stand on the diagonal. -/
def eigenvalues? (budget : Nat) (A : Dense Float) : Option (List (Cplx Float)) := do
  let n := A.rows
  let t ← Schur.form? budget n (store A)
  return Schur.blockValues n t n 0

end Eigenmesh.Factor
