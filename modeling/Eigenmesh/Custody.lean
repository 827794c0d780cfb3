import Eigenmesh.Workspace

/-!
A program together with the handles that it holds itself.

The program makes native matrices, shares them and gives them up, and passes them to solvers, which
hold them besides. Only a matrix that somebody holds can be shared or passed on; a call with any
other cannot be made.
-/

namespace Eigenmesh

/-- The native matrices that a call passes on. -/
def Workspace.Call.natives {α : Type} : Workspace.Call α → List (Mat α)
  | .solver _ (.setOperators A B) => A.native?.toList ++ (B.bind Operator.native?).toList
  | .handle _ (.setOperators A B) => A :: B.toList
  | _ => []

structure Custody (α : Type) where
  workspace : Workspace α
  /-- One entry for every handle that the program holds. -/
  held : List (Mat α)

namespace Custody

inductive Call (α : Type)
  | aij (A : Csr α)
  | dense (A : Dense α)
  | shell (op : Operator α)
  /-- An assembled copy of an operator. -/
  | assembled (op : Operator α)
  /-- One more handle on a matrix. -/
  | share (M : Mat α)
  /-- Gives up the handle in that place. -/
  | giveUp (i : Nat)
  | workspace (call : Workspace.Call α)

/-- The native matrices that a call shares or passes on. -/
def Call.natives {α : Type} : Call α → List (Mat α)
  | .share M => [M]
  | .workspace call => call.natives
  | _ => []

variable {α : Type}

def fresh : Custody α := ⟨.fresh, []⟩

def ledger (c : Custody α) : Ledger := c.workspace.ledger

def withLedger (c : Custody α) (ledger : Ledger) : Custody α :=
  { c with workspace := { c.workspace with ledger } }

/-- The matrices that the call needs are there. -/
def allows (c : Custody α) (call : Call α) : Bool :=
  call.natives.all fun M => 0 < c.ledger.count M.number

/-- Takes in the handle on a new matrix. -/
def keep (c : Custody α) (made : Mat α × Ledger) : Custody α :=
  { c.withLedger made.2 with held := made.1 :: c.held }

variable [Scalar α] [Kernels α]

/-- The state after a call that can be made. -/
def after (c : Custody α) : Call α → Custody α
  | .aij A => c.keep (c.ledger.aij A)
  | .dense A => c.keep (c.ledger.dense A)
  | .shell op => c.keep (c.ledger.shell op)
  | .assembled op => c.keep (c.ledger.aij op.toCsr)
  | .share M => { c.withLedger (c.ledger.retain M.number) with held := M :: c.held }
  | .giveUp i =>
    match c.held[i]? with
    | some M => { c.withLedger (c.ledger.release M.number) with held := c.held.eraseIdx i }
    | none => c
  | .workspace call => { c with workspace := (c.workspace.step call).1 }

/-- Nothing happens where a call cannot be made. -/
def step (c : Custody α) (call : Call α) : Custody α := if c.allows call then c.after call else c

/-- The state after some calls. -/
def run (c : Custody α) (calls : List (Call α)) : Custody α := calls.foldl step c

end Custody

end Eigenmesh
