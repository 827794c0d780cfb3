import Eigenmesh.FillIn.Forest
import Eigenmesh.FillIn.Queue

/-!
The order in which the columns of a sparse matrix are eliminated. Only the places of stored
entries count. Eliminating a column joins the rows that meet it into one; the column chosen next
is one whose joined row is estimated to be shortest. Columns with the same rows are eliminated
together, rows that add nothing to a joined row are dropped, and empty columns come last.
-/

namespace Eigenmesh.FillIn

/-- A row of what is left: the columns it meets, among them perhaps some that are gone, and how
many columns those that are left stand for. -/
structure Line where
  columns : List Nat
  weight : Nat

structure Column where
  rows : List Nat
  /-- The columns it stands for beside itself. -/
  members : List Nat
  /-- An upper bound of the weight of the row its elimination would leave. -/
  score : Nat

def Column.weight (c : Column) : Nat := c.members.length + 1

/-- What is left of a matrix, and the columns eliminated so far. -/
structure Remainder where
  lines : Array (Option Line)
  columns : Array (Option Column)
  queue : Queue
  order : Array Nat

namespace Remainder

/-- How many columns the matrix has. -/
def width (s : Remainder) : Nat := s.columns.size

def column? (s : Remainder) (c : Nat) : Option Column := s.columns.getD c none

/-- A degree above which a row or column of a matrix counts as full. -/
def fullDegree (n : Nat) : Nat := max 16 (n.sqrt / 2)

/-- Puts column `c` and those it stands for next in the order. -/
def retire (s : Remainder) (c : Nat) (column : Column) : Remainder :=
  { s with
    columns := s.columns.setIfInBounds c none
    order := s.order ++ (column.members.mergeSort (· ≤ ·)).toArray.push c }

/-- The columns that the rows of a column meet, without the column. -/
def front (s : Remainder) (c : Nat) (column : Column) : List Nat :=
  let meet (t : Array Bool × Array Nat) (d : Nat) : Array Bool × Array Nat :=
    if t.1.getD d true then t else (t.1.setIfInBounds d true, t.2.push d)
  let gone := s.columns.map (·.isNone)
  (column.rows.foldl (fun t r =>
    match s.lines.getD r none with
    | some line => line.columns.foldl meet t
    | none => t) (gone.setIfInBounds c true, #[])).2.toList

/-- How many columns the given ones stand for. -/
def weight (s : Remainder) (cs : List Nat) : Nat :=
  cs.foldl (fun n c => n + ((s.column? c).elim 0 Column.weight)) 0

def dropLines (s : Remainder) (rs : List Nat) : Remainder :=
  { s with lines := rs.foldl (fun lines r => lines.setIfInBounds r none) s.lines }

/-- Takes the given columns out of the queue. -/
def dequeue (s : Remainder) (cs : List Nat) : Remainder :=
  { s with queue := cs.foldl (fun q c =>
      match s.column? c with
      | some column => q.erase column.score c
      | none => q) s.queue }

/-- Drops the rows that meet no columns but the given ones. For the others that meet some of them:
the weight of the columns that they meet beside these. -/
def trim (s : Remainder) (cs : List Nat) : Remainder × Array Nat :=
  let (lines, beside) := cs.foldl (fun t c =>
    match s.column? c with
    | none => t
    | some column => column.rows.foldl (fun (lines, beside) r =>
        match lines.getD r none with
        | none => (lines, beside)
        | some line =>
          let known := beside.getD r 0
          let left := (if known = 0 then line.weight else known) - column.weight
          if left = 0 then (lines.setIfInBounds r none, beside)
          else (lines, beside.setIfInBounds r left)) t)
    (s.lines, Array.replicate s.lines.size 0)
  ({ s with lines }, beside)

/-- Forgets the dropped rows of a column and scores it by the others. A column without any is put
next in the order. -/
def rescore (beside : Array Nat) (s : Remainder) (c : Nat) : Remainder :=
  match s.column? c with
  | none => s
  | some column =>
    let rows := column.rows.filter fun r => (s.lines.getD r none).isSome
    if rows.isEmpty then s.retire c column
    else
      let score := rows.foldl (fun n r => min s.width (n + beside.getD r 0)) 0
      { s with columns := s.columns.setIfInBounds c (some { column with rows, score }) }

/-- Lets the first of the given columns stand for those that have the same rows, and so on. -/
def merge (columns : Array (Option Column)) : List Nat → Array (Option Column)
  | [] => columns
  | c :: cs =>
    match columns.getD c none with
    | none => merge columns cs
    | some column =>
      let (column, columns) := cs.foldl (fun (column, columns) d =>
        match columns.getD d none with
        | none => (column, columns)
        | some (other : Column) =>
          if other.score = column.score ∧ other.rows = column.rows then
            ({ column with members := d :: other.members ++ column.members },
              columns.setIfInBounds d none)
          else (column, columns)) (column, columns.setIfInBounds c none)
      merge (columns.setIfInBounds c (some column)) cs

/-- Adds row `r`, of the given weight, to a column and puts it back into the queue. -/
def requeue (r weight : Nat) (s : Remainder) (c : Nat) : Remainder :=
  match s.column? c with
  | none => s
  | some column =>
    let score := min (column.score + weight - column.weight)
      (s.width - s.order.size - column.weight)
    { s with
      columns := s.columns.setIfInBounds c
        (some { column with rows := column.rows ++ [r], score })
      queue := s.queue.insert score c }

/-- Eliminates the column that is next in the queue. -/
def step (s : Remainder) : Remainder :=
  match s.queue.first? with
  | none => s
  | some c =>
    match s.column? c with
    | none => s
    | some column =>
      let s := { s with queue := s.queue.erase column.score c }
      let met := s.front c column
      let s := ((s.retire c column).dropLines column.rows).dequeue met
      let (s, beside) := s.trim met
      let s := met.foldl (rescore beside) s
      let left := met.filter fun d => (s.column? d).isSome
      let weight := s.weight left
      let s := { s with columns := merge s.columns left.reverse }
      let left := left.filter fun d => (s.column? d).isSome
      match column.rows with
      | [] => s
      | r :: _ =>
        let s := left.foldl (requeue r weight) s
        if weight = 0 then s
        else { s with lines := s.lines.setIfInBounds r (some ⟨left, weight⟩) }

/-- The rows met by columns that are not full, and those columns themselves with the rows in which
they are not alone among them. -/
def start (rows : Nat) (places : Array (List Nat)) : Remainder :=
  let width := places.size
  let isFull (c : Nat) : Bool := fullDegree (min rows width) < (places.getD c []).length
  let columnsOf := places.zipIdx.foldl (fun (a : Array (Array Nat)) (column, c) =>
    column.foldl (fun a r => a.modify r (·.push c)) a) (Array.replicate rows #[])
  let lines := columnsOf.map fun cs =>
    let weight := (cs.filter fun c => !isFull c).size
    if weight = 0 ∨ fullDegree width < weight then none else some ⟨cs.toList, weight⟩
  let weightOf (r : Nat) : Nat := ((lines.getD r none).elim 0 Line.weight) - 1
  let columns := places.zipIdx.map fun (column, c) =>
    let rows := column.filter fun r => (lines.getD r none).isSome
    if isFull c ∨ rows.isEmpty then none
    else some ⟨rows, [], rows.foldl (fun n r => min width (n + weightOf r)) 0⟩
  let queue := width.fold (fun k _ (q : Queue) =>
    let c := width - 1 - k
    match columns.getD c none with
    | some column => q.insert column.score c
    | none => q) (.empty (width + 1))
  { lines, columns, queue, order := #[] }

/-- The columns that elimination leaves to the end: those of full rows only, the full ones, and
the empty ones. -/
def last (rows : Nat) (places : Array (List Nat)) (s : Remainder) : List Nat :=
  let none? := (List.range places.size).filter fun c => (s.column? c).isNone
  let degree (c : Nat) : Nat := (places.getD c []).length
  let isFull (c : Nat) : Bool := fullDegree (min rows places.size) < degree c
  none?.filter (fun c => degree c ≠ 0 ∧ !isFull c) ++
    none?.filter (fun c => degree c ≠ 0 ∧ isFull c) ++ none?.filter (degree · = 0)

end Remainder

/-- The order of elimination of the columns of a matrix with so many rows, given the rows stored
in each: by scores, and then by the forest of dependences. -/
def columnOrder (rows : Nat) (places : Array (List Nat)) : Array Nat :=
  let start := Remainder.start rows places
  let s := places.size.fold (fun _ _ s => Remainder.step s) start
  let order := s.order ++ (start.last rows places).toArray
  let F := Forest.ofColumns rows (order.map fun c => places.getD c [])
  F.postorder.map fun k => order.getD k 0

end Eigenmesh.FillIn
