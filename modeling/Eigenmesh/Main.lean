import Eigenmesh.Format.Binary
import Eigenmesh.Program.Laplacian

/-!
The command line: the first argument names the program to run, `poisson` or `laplacian`, and
the others are passed on to it.
-/

namespace Eigenmesh.Program

def fileBytes (content : FileContent) : List UInt8 :=
  let encoded := match content with
    | .matrix A => Binary.encodeMatrix (A.map Float.toBits)
    | .vector v => Binary.encodeVector (v.toList.map Float.toBits)
  encoded.toOption.getD []

/-- Prints the lines, writes the files to the directory and gives the exit code. -/
def Outcome.perform (o : Outcome) (directory : Option String) : IO UInt32 := do
  for line in o.echo ++ o.report do
    IO.println line
  if let some dir := directory then
    IO.FS.createDirAll dir
    for file in o.files do
      IO.FS.writeBinFile s!"{dir}/{file.name}" ⟨(fileBytes file.content).toArray⟩
  match o.ending with
  | .exited code => return code.toUInt32
  | .aborted message =>
    IO.eprintln s!"fatal: {message}"
    return 134
  | .outOfMemory => return 134

end Eigenmesh.Program

def main (args : List String) : IO UInt32 :=
  match args with
  | "poisson" :: rest => (Eigenmesh.Program.Poisson.outcome rest).perform none
  | "laplacian" :: rest =>
    (Eigenmesh.Program.Laplacian.outcome rest).perform
      (Eigenmesh.Program.Laplacian.directory? rest)
  | _ => do
    IO.eprintln "usage: poisson [arguments] or laplacian [arguments]"
    return 2
