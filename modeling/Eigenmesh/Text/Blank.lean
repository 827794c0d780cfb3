/-!
White space in the sense of Unicode, and texts cut at it.
-/

namespace Eigenmesh.Text

/-- The ranges of code points with the property `White_Space`. -/
def blankRanges : List (Nat × Nat) :=
  [(0x09, 0x0D), (0x20, 0x20), (0x85, 0x85), (0xA0, 0xA0), (0x1680, 0x1680), (0x2000, 0x200A),
    (0x2028, 0x2029), (0x202F, 0x202F), (0x205F, 0x205F), (0x3000, 0x3000)]

def isBlank (c : Char) : Bool := blankRanges.any fun (low, high) => low ≤ c.toNat && c.toNat ≤ high

/-- Without the blanks at both ends. -/
def trim (s : List Char) : List Char :=
  ((s.dropWhile isBlank).reverse.dropWhile isBlank).reverse

/-- The words of a text after `word`, which is the start of the first one, in reverse. -/
def wordsAfter (word : List Char) : List Char → List (List Char)
  | [] => if word.isEmpty then [] else [word.reverse]
  | c :: rest =>
    if isBlank c then
      if word.isEmpty then wordsAfter [] rest else word.reverse :: wordsAfter [] rest
    else wordsAfter (c :: word) rest

/-- The longest parts without a blank. -/
def words (s : List Char) : List (List Char) := wordsAfter [] s

/-- The part before the first blank, and what follows that blank if there is one. -/
def firstWord (s : List Char) : List Char × Option (List Char) :=
  let word := s.takeWhile fun c => !isBlank c
  match s.dropWhile fun c => !isBlank c with
  | [] => (word, none)
  | _ :: rest => (word, some rest)

/-- The parts between line feeds. -/
def lines : List Char → List (List Char)
  | [] => [[]]
  | c :: rest =>
    if c = '\n' then [] :: lines rest
    else match lines rest with
      | line :: more => (c :: line) :: more
      | [] => [[c]]

end Eigenmesh.Text
