/-!
Numbers as bytes, the most significant byte first, and 32-bit integers in two's complement.
-/

namespace Eigenmesh.BigEndian

/-- The number as so many bytes; higher digits are lost. -/
def encode : Nat → Nat → List UInt8
  | 0, _ => []
  | width + 1, n => UInt8.ofNat (n / Nat.pow 256 width) :: encode width n

def decode (bytes : List UInt8) : Nat := bytes.foldl (fun n b => 256 * n + b.toNat) 0

/-- The integer that 32 bits stand for. -/
def signed (n : Nat) : Int := if n < Nat.pow 2 31 then n else (n : Int) - Nat.pow 2 32

end Eigenmesh.BigEndian
