import Eigenmesh.FillIn.Queue

/-!
The order in which the unknowns of a system with symmetric matrix are eliminated. Only the places
of stored entries count. Eliminating an unknown couples all its neighbours with each other; they
form its clique, which stands for all these couplings. The unknown chosen next is one with an
estimated least number of neighbours. Unknowns with the same neighbours are eliminated together,
and a clique that is part of another one is absorbed by it.

The order is by the forest of absorbed cliques: what leads to a clique comes before it, the
largest branch last.
-/

namespace Eigenmesh.FillIn

/-- An unknown that is left: the cliques it is in and the unknowns it is coupled with beside those,
among both perhaps some that are gone. -/
structure Unknown where
  cliques : List Nat
  neighbours : List Nat
  /-- The unknowns it stands for beside itself. -/
  members : List Nat
  /-- An upper bound of the number of unknowns it is coupled with. -/
  degree : Nat

def Unknown.weight (u : Unknown) : Nat := u.members.length + 1

/-- What an eliminated unknown has left: the unknowns that are coupled by it, and how many these
stand for. -/
structure Clique where
  front : List Nat
  weight : Nat
  /-- How many unknowns it coupled, itself and those eliminated with it among them. -/
  size : Nat
  /-- All unknowns that have led to it, in order. -/
  order : List Nat

/-- Each number is that of an unknown or of the clique it has left. -/
structure Graph where
  unknowns : Array (Option Unknown)
  cliques : Array (Option Clique)
  queue : Queue
  /-- How many unknowns are not eliminated. -/
  left : Nat

namespace Graph

def unknown? (G : Graph) (i : Nat) : Option Unknown := G.unknowns.getD i none

def clique? (G : Graph) (e : Nat) : Option Clique := G.cliques.getD e none

/-- The unknowns coupled with unknown `i`, without it. -/
def front (G : Graph) (i : Nat) (u : Unknown) : List Nat :=
  let meet (t : Array Bool × Array Nat) (j : Nat) : Array Bool × Array Nat :=
    if t.1.getD j true then t else (t.1.setIfInBounds j true, t.2.push j)
  let gone := (G.unknowns.map (·.isNone)).setIfInBounds i true
  let t := u.cliques.foldl (fun t e => ((G.clique? e).elim [] Clique.front).foldl meet t) (gone, #[])
  (u.neighbours.foldl meet t).2.toList

/-- How many unknowns the given ones stand for. -/
def weight (G : Graph) (is : List Nat) : Nat :=
  is.foldl (fun n i => n + ((G.unknown? i).elim 0 Unknown.weight)) 0

/-- Takes unknown `i` out of the graph. -/
def forget (G : Graph) (i : Nat) : Graph := { G with unknowns := G.unknowns.setIfInBounds i none }

def clear (es : List Nat) (cliques : Array (Option Clique)) : Array (Option Clique) :=
  es.foldl (fun cs e => cs.setIfInBounds e none) cliques

def dequeue (G : Graph) (is : List Nat) : Graph :=
  { G with queue := is.foldl (fun q i =>
      match G.unknown? i with
      | some u => q.erase u.degree i
      | none => q) G.queue }

/-- For each clique with some of the given unknowns: the weight of what it has beside them. -/
def beside (G : Graph) (is : List Nat) : Array (Option Nat) :=
  is.foldl (fun a i =>
    match G.unknown? i with
    | none => a
    | some u => u.cliques.foldl (fun a e =>
        match G.clique? e with
        | none => a
        | some c => a.setIfInBounds e (some ((a.getD e none).getD c.weight - u.weight))) a)
    (Array.replicate G.cliques.size none)

/-- The first entry put last. -/
def turned : List Nat → List Nat
  | [] => []
  | x :: xs => xs ++ [x]

/-- An unknown in the clique being formed at `e`, without what this clique covers; nothing if it is
coupled with nothing else. -/
def thin? (G : Graph) (isFront : Array Bool) (beside : Array (Option Nat)) (e : Nat) (u : Unknown) :
    Option Unknown :=
  let cliques := u.cliques.filter fun d => (beside.getD d none).any (0 < ·)
  let neighbours := u.neighbours.filter fun j => (G.unknown? j).isSome ∧ !isFront.getD j false
  if cliques.isEmpty ∧ neighbours.isEmpty then none
  else
    let degree := cliques.foldl (fun n d => n + (beside.getD d none).getD 0) (G.weight neighbours)
    some { u with
      cliques := e :: turned cliques
      neighbours := turned neighbours
      degree := min u.degree degree }

/-- Whether two unknowns have the same cliques and neighbours. Neither names one twice. -/
def isTwin (u v : Unknown) : Bool :=
  u.cliques.length = v.cliques.length ∧ u.neighbours.length = v.neighbours.length ∧
    u.cliques.all (v.cliques.contains ·) ∧ u.neighbours.all (v.neighbours.contains ·)

/-- Lets the first of the given unknowns stand for its twins, and so on. -/
def merge (unknowns : Array (Option Unknown)) : List Nat → Array (Option Unknown)
  | [] => unknowns
  | i :: is =>
    match unknowns.getD i none with
    | none => merge unknowns is
    | some u =>
      let (u, unknowns) := is.foldl (fun (u, unknowns) j =>
        match unknowns.getD j none with
        | none => (u, unknowns)
        | some v =>
          if isTwin u v then
            ({ u with members := j :: v.members ++ u.members }, unknowns.setIfInBounds j none)
          else (u, unknowns)) (u, unknowns.setIfInBounds i none)
      merge (unknowns.setIfInBounds i (some u)) is

/-- Puts an unknown in a clique of the given weight back into the queue. -/
def requeue (weight : Nat) (G : Graph) (i : Nat) : Graph :=
  match G.unknown? i with
  | none => G
  | some u =>
    let degree := min (u.degree + weight - u.weight) (G.left - u.weight)
    { G with
      unknowns := G.unknowns.setIfInBounds i (some { u with degree })
      queue := G.queue.insert degree i }

/-- The branches that end in the given cliques, the last of the largest ones after the others. -/
def branches (G : Graph) (es : List Nat) : List Nat :=
  let cliques := (es.mergeSort (· ≤ ·)).filterMap G.clique?
  let largest := cliques.zipIdx.foldl (fun (best : Nat × Nat) (c, k) =>
    if best.1 ≤ c.size then (c.size, k) else best) (0, 0)
  (cliques.eraseIdx largest.2).flatMap Clique.order ++
    (cliques[largest.2]?).elim [] Clique.order

/-- Eliminates unknown `e`. -/
def eliminate (G : Graph) (e : Nat) (pivot : Unknown) : Graph :=
  let front := G.front e pivot
  let size := pivot.weight + G.weight front
  let G := (G.dequeue front).forget e
  let covered := pivot.cliques.filter fun d => (G.clique? d).isSome
  let beside := ({ G with cliques := clear covered G.cliques } : Graph).beside front
  let contained := (List.range beside.size).filter fun d => beside.getD d none = some 0
  let isFront := front.foldl (fun a j => a.setIfInBounds j true)
    (Array.replicate G.unknowns.size false)
  let thinned := front.map fun i => (i, (G.unknown? i).bind (G.thin? isFront beside e))
  let members := thinned.foldl (fun ms (i, u) =>
    if u.isNone then i :: ((G.unknown? i).elim [] Unknown.members) ++ ms else ms) pivot.members
  let order := G.branches (covered ++ contained) ++ members.mergeSort (· ≤ ·) ++ [e]
  let left := thinned.filterMap fun (i, u) => u.map fun _ => i
  let weight := G.weight left
  let unknowns := merge
    (thinned.foldl (fun us (i, u) => us.setIfInBounds i u) G.unknowns) left.reverse
  let left := left.filter fun i => (unknowns.getD i none).isSome
  let cliques := (clear (covered ++ contained) G.cliques).setIfInBounds e
    (some { front := left, weight, size, order })
  left.foldl (requeue weight) { G with unknowns, cliques, left := G.left - members.length - 1 }

/-- Eliminates the unknown that is next in the queue. -/
def step (G : Graph) : Graph :=
  match G.queue.first? with
  | none => G
  | some e =>
    match G.unknown? e with
    | none => G
    | some pivot => ({ G with queue := G.queue.erase pivot.degree e } : Graph).eliminate e pivot

/-- The unknowns coupled with each, given the rows stored in each column. An entry above the
diagonal counts when its column is met, one that only stands below it when a column past its row
is, or at the end. -/
def neighbours (columns : Array (List Nat)) : Array (Array Nat) :=
  let couple (a : Array (Array Nat)) (i j : Nat) : Array (Array Nat) :=
    (a.modify i (·.push j)).modify j (·.push i)
  let below := columns.zipIdx.map fun (column, k) => column.filter (k < ·)
  let (met, below) := columns.zipIdx.foldl (fun s (column, k) =>
    (column.filter (· < k)).foldl (fun (met, below) j =>
      let rest := below.getD j []
      ((rest.takeWhile (· < k)).foldl (fun met i => couple met i j) (couple met j k),
        below.setIfInBounds j (rest.dropWhile (· ≤ k)))) s)
    (Array.replicate columns.size #[], below)
  below.zipIdx.foldl (fun met (rest, j) => rest.foldl (fun met i => couple met i j) met) met

/-- Nothing is eliminated but the unknowns without neighbours. -/
def start (columns : Array (List Nat)) : Graph :=
  let met := neighbours columns
  { unknowns := met.map fun js =>
      if js.isEmpty then none else some ⟨[], js.toList, [], js.size⟩
    cliques := met.zipIdx.map fun (js, i) => if js.isEmpty then some ⟨[], 0, 1, [i]⟩ else none
    queue := met.zipIdx.foldl (fun q (js, i) => if js.isEmpty then q else q.insert js.size i)
      (.empty met.size)
    left := (met.filter (!·.isEmpty)).size }

end Graph

/-- The order of elimination, given the rows stored in each column. -/
def symmetricOrder (columns : Array (List Nat)) : Array Nat :=
  let G := columns.size.fold (fun _ _ G => Graph.step G) (Graph.start columns)
  (G.cliques.toList.flatMap fun c => c.elim [] Clique.order).toArray

end Eigenmesh.FillIn
