/-!
Numbers that wait in lines, one line for each priority. Of those with the least priority the one
that came last is served first, so which of several equals is chosen is fixed.
-/

namespace Eigenmesh.FillIn

structure Queue where
  lines : Array (List Nat)

namespace Queue

/-- No one waits; priorities are below `bound`. -/
def empty (bound : Nat) : Queue := ⟨Array.replicate bound []⟩

def insert (q : Queue) (priority i : Nat) : Queue := ⟨q.lines.modify priority (i :: ·)⟩

def erase (q : Queue) (priority i : Nat) : Queue := ⟨q.lines.modify priority (·.erase i)⟩

/-- The latest with the least priority. -/
def first? (q : Queue) : Option Nat := q.lines.findSome? List.head?

end Queue

end Eigenmesh.FillIn
