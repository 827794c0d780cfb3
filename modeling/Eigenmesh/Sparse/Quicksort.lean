/-!
Sorting within an array, by exchanges only. Entries that compare equal may change their order; up
to twenty of them keep it. Which order results is fixed: few entries are inserted one by one, more
go through comparator networks, and long stretches are partitioned around a median of medians.
When partitions stay lopsided, a heap finishes the stretch.

A stretch is given by its first place `lo` and its length.
-/

namespace Eigenmesh.Quicksort

variable {α : Type} (less : α → α → Bool)

/-- Whether the entry at `i` is less than the one at `j`. -/
def lessAt (a : Array α) (i j : Nat) : Bool :=
  match a[i]?, a[j]? with
  | some x, some y => less x y
  | _, _ => false

/-- Exchanges the entries at `i` and `j` if that at `j` is less. -/
def compareExchange (i j : Nat) (a : Array α) : Array α :=
  if lessAt less a j i then a.swapIfInBounds i j else a

/-- Moves the entry that is `k` places after `lo` down past greater ones. -/
def sink (lo : Nat) : Nat → Array α → Array α
  | 0, a => a
  | k + 1, a =>
    if lessAt less a (lo + k + 1) (lo + k) then sink lo k (a.swapIfInBounds (lo + k + 1) (lo + k))
    else a

/-- Sorts a stretch of which the first `sorted` entries are sorted. -/
def insertFrom (lo sorted len : Nat) (a : Array α) : Array α :=
  (len - sorted).fold (fun t _ a => sink less lo (sorted + t) a) a

/-- A network that sorts nine entries. -/
def nineNetwork : List (Nat × Nat) :=
  [(0, 3), (1, 7), (2, 5), (4, 8), (0, 7), (2, 4), (3, 8), (5, 6), (0, 2), (1, 3), (4, 5), (7, 8),
    (1, 4), (3, 6), (5, 7), (0, 1), (2, 4), (3, 5), (6, 8), (2, 3), (4, 5), (6, 7), (1, 2), (3, 4),
    (5, 6)]

/-- A network that sorts thirteen entries. -/
def thirteenNetwork : List (Nat × Nat) :=
  [(0, 12), (1, 10), (2, 9), (3, 7), (5, 11), (6, 8), (1, 6), (2, 3), (4, 11), (7, 9), (8, 10),
    (0, 4), (1, 2), (3, 6), (7, 8), (9, 10), (11, 12), (4, 6), (5, 9), (8, 11), (10, 12), (0, 5),
    (3, 8), (4, 7), (6, 11), (9, 10), (0, 1), (2, 5), (6, 9), (7, 8), (10, 11), (1, 3), (2, 4),
    (5, 6), (9, 10), (1, 2), (3, 4), (5, 7), (6, 8), (2, 3), (4, 5), (6, 7), (8, 9), (3, 4), (5, 6)]

def runNetwork (network : List (Nat × Nat)) (lo : Nat) (a : Array α) : Array α :=
  network.foldl (fun a (i, j) => compareExchange less (lo + i) (lo + j) a) a

/-- Sorts by a network as far as one reaches, and inserts the rest. -/
def sortRegion (lo len : Nat) (a : Array α) : Array α :=
  if 13 ≤ len then insertFrom less lo 13 len (runNetwork less thirteenNetwork lo a)
  else if 9 ≤ len then insertFrom less lo 9 len (runNetwork less nineNetwork lo a)
  else insertFrom less lo 1 len a

/-- Sorts a stretch of up to 32 entries, from 18 on by halves, the second half being inserted
into the first. -/
def sortSmall (lo len : Nat) (a : Array α) : Array α :=
  if len < 18 then sortRegion less lo len a
  else
    let half := len / 2
    insertFrom less lo half len
      (sortRegion less (lo + half) (len - half) (sortRegion less lo half a))

/-- Moves an entry down the heap of the given size to where no child is greater; the fuel is the
size. -/
def siftDown (lo size : Nat) : (fuel : Nat) → (node : Nat) → Array α → Array α
  | 0, _, a => a
  | fuel + 1, node, a =>
    let child := 2 * node + 1
    if size ≤ child then a
    else
      let child :=
        if child + 1 < size && lessAt less a (lo + child) (lo + child + 1) then child + 1 else child
      if lessAt less a (lo + node) (lo + child) then
        siftDown lo size fuel child (a.swapIfInBounds (lo + node) (lo + child))
      else a

/-- Sorts a stretch by way of a heap. -/
def heapSort (lo len : Nat) (a : Array α) : Array α :=
  let heap := (len / 2).fold (fun t _ a => siftDown less lo len len (len / 2 - 1 - t) a) a
  len.fold (fun t _ a =>
    let last := len - 1 - t
    siftDown less lo last len 0 (a.swapIfInBounds lo (lo + last))) heap

/-- The place of the median of the entries at three places. -/
def median (a : Array α) (i j k : Nat) : Nat :=
  let below := lessAt less a i j
  if below == lessAt less a i k then
    if (lessAt less a j k) != below then k else j
  else i

/-- The median of the medians of three parts of `n` entries each, down to small parts. -/
def medianOfParts (a : Array α) (i j k n : Nat) : Nat :=
  if n < 8 then median less a i j k
  else
    let m := n / 8
    let part (i : Nat) : Nat := medianOfParts a i (i + 4 * m) (i + 7 * m) m
    median less a (part i) (part j) (part k)
termination_by n

def choosePivot (a : Array α) (lo len : Nat) : Nat :=
  let n := len / 8
  medianOfParts less a lo (lo + 4 * n) (lo + 7 * n) n

/-- Brings the entry at `pivot` between those that belong to its left and the others, and counts
the former. `isLeft` compares the entry at a place with the pivot, which is held at `lo`. -/
def partition (isLeft : Array α → Nat → Bool) (lo len pivot : Nat) (a : Array α) :
    Array α × Nat :=
  let (a, left) := (len - 2).fold (fun t _ (s : Array α × Nat) =>
    let (a, left) := s
    let r := lo + 2 + t
    let a' := (a.swapIfInBounds (lo + 1 + left) (r - 1)).swapIfInBounds (lo + 1 + left) r
    (a', if isLeft a r then left + 1 else left)) (a.swapIfInBounds lo pivot, 0)
  let last := lo + len - 1
  let a' := a.swapIfInBounds (lo + 1 + left) last
  let left := if isLeft a last then left + 1 else left
  (a'.swapIfInBounds lo (lo + left), left)

/-- Sorts a stretch with at most `limit` partitions in a row. If `hasAncestor`, the entry before
the stretch is a pivot that no entry of it is less than; a pivot equal to that is partitioned
off with all its equals. -/
def sortStretch : (limit : Nat) → (hasAncestor : Bool) → (lo len : Nat) → Array α → Array α
  | 0, _, lo, len, a => if len ≤ 32 then sortSmall less lo len a else heapSort less lo len a
  | limit + 1, hasAncestor, lo, len, a =>
    if len ≤ 32 then sortSmall less lo len a
    else
      let pivot := choosePivot less a lo len
      if hasAncestor && !lessAt less a (lo - 1) pivot then
        let (a, left) := partition (fun a r => !lessAt less a lo r) lo len pivot a
        sortStretch limit false (lo + left + 1) (len - left - 1) a
      else
        let (a, left) := partition (fun a r => lessAt less a r lo) lo len pivot a
        sortStretch limit true (lo + left + 1) (len - left - 1)
          (sortStretch limit hasAncestor lo left a)

/-- How many entries from the first on are in order, or in strictly falling order if `falling`. -/
def runLength (falling : Bool) (a : Array α) : Nat :=
  1 + ((List.range (a.size - 1)).takeWhile fun i => lessAt less a (i + 1) i == falling).length

/-- The entries in order. -/
def sort (a : Array α) : Array α :=
  let n := a.size
  if n ≤ 20 then insertFrom less 0 1 n a
  else if runLength less false a = n then a
  else if runLength less true a = n then a.reverse
  else sortStretch less (2 * Nat.log2 n) false 0 n a

end Eigenmesh.Quicksort
