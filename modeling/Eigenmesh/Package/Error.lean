/-!
Errors of the eigensolver package: a code, what happened, and the routines that the error passed
through, innermost first.
-/

namespace Eigenmesh

inductive ErrorCode
  | unsupported
  | order
  | argSize
  | argWrong
  | argOutOfRange
  | fileOpen
  | fileRead
  | fileWrite
  | zeroPivot
  | argWrongState
  | argIncompatible
  | lib
  | notConverged
  deriving DecidableEq

namespace ErrorCode

def all : List ErrorCode :=
  [.unsupported, .order, .argSize, .argWrong, .argOutOfRange, .fileOpen, .fileRead, .fileWrite,
    .zeroPivot, .argWrongState, .argIncompatible, .lib, .notConverged]

def name : ErrorCode → String
  | .unsupported => "Unsupported"
  | .order => "Order"
  | .argSize => "ArgSize"
  | .argWrong => "ArgWrong"
  | .argOutOfRange => "ArgOutOfRange"
  | .fileOpen => "FileOpen"
  | .fileRead => "FileRead"
  | .fileWrite => "FileWrite"
  | .zeroPivot => "ZeroPivot"
  | .argWrongState => "ArgWrongState"
  | .argIncompatible => "ArgIncompatible"
  | .lib => "Lib"
  | .notConverged => "NotConverged"

def code : ErrorCode → Nat
  | .unsupported => 56
  | .order => 58
  | .argSize => 60
  | .argWrong => 62
  | .argOutOfRange => 63
  | .fileOpen => 65
  | .fileRead => 66
  | .fileWrite => 67
  | .zeroPivot => 71
  | .argWrongState => 73
  | .argIncompatible => 75
  | .lib => 76
  | .notConverged => 91

def description : ErrorCode → String
  | .unsupported => "No support for this operation for this object type"
  | .order => "Operation done in wrong order"
  | .argSize => "Nonconforming object sizes"
  | .argWrong => "Invalid argument"
  | .argOutOfRange => "Argument out of range"
  | .fileOpen => "Unable to open file"
  | .fileRead => "Read from file failed"
  | .fileWrite => "Write to file failed"
  | .zeroPivot => "Zero pivot in LU factorization"
  | .argWrongState => "Object is in wrong state"
  | .argIncompatible => "Arguments are incompatible"
  | .lib => "Error in external library"
  | .notConverged => "Iterative method did not converge"

def text (c : ErrorCode) : String := s!"{c.description} (code {c.code})"

end ErrorCode

structure PackageError where
  code : ErrorCode
  message : String
  trace : List String
  deriving DecidableEq

namespace PackageError

/-- An error that has not passed through a routine yet. -/
def of (code : ErrorCode) (message : String) : PackageError := ⟨code, message, []⟩

/-- The error after it has passed through one more routine. -/
def via (e : PackageError) (routine : String) : PackageError :=
  { e with trace := e.trace ++ [routine] }

def text (e : PackageError) : String := s!"{e.code.text}: {e.message}"

/-- The code, the message and a numbered line for each routine. -/
def stackTrace (e : PackageError) : String :=
  let routines := e.trace.zipIdx.map fun (routine, i) => s!"#{i} {routine}()\n"
  s!"--------------------- Error Message ------------------------------\n{e.code.text}\n{e.message}\n"
    ++ String.join routines

end PackageError

/-- How a computation fails: with an error that is passed on, or by a breakdown of its arithmetic,
which leaves nothing to report. -/
inductive SolveFailure (E : Type)
  | error (e : E)
  | breakdown

/-- The failure with another error. -/
def SolveFailure.map {E F : Type} (f : E → F) : SolveFailure E → SolveFailure F
  | .error e => .error (f e)
  | .breakdown => .breakdown

end Eigenmesh
