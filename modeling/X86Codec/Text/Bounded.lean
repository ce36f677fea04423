/-!
Writing text pieces one after another into a buffer of fixed length.

Each piece is copied up to its first NUL while more than one place is left, and a NUL then
closes the text without taking a place, so the next piece starts on it. A buffer of no places
is left as it was. What the buffer then holds, read up to its first NUL, is the text; a
buffer that starts cleared holds the empty text when nothing fits.

The same writing is also given on memory (`write`): the buffer is `len` places of memory from
place `base`, each piece is copied from the place the last one stopped at, and the places it
writes are those the copy reaches.
-/

namespace X86Codec.Text

/-- the characters of a piece that are copied: those before its first NUL -/
def pieceChars (s : String) : List Char := s.toList.takeWhile (· ≠ '\x00')

/-- copy characters while more than `room` is one: the characters copied and the room left -/
def copyChars : Nat → List Char → List Char × Nat
  | room, [] => ([], room)
  | room, c :: cs =>
    if room > 1 then
      let (out, left) := copyChars (room - 1) cs
      (c :: out, left)
    else ([], room)

/-- copy pieces one after another with `room` places left -/
def copyPieces : Nat → List String → List Char
  | _, [] => []
  | room, p :: ps =>
    let (out, left) := copyChars room (pieceChars p)
    out ++ copyPieces left ps

/-- the text that pieces leave in a cleared buffer of `len` places -/
def fill (len : Nat) (pieces : List String) : String := String.ofList (copyPieces len pieces)

/-- memory with place `pos` set to `c` -/
def put (mem : Nat → Char) (pos : Nat) (c : Char) : Nat → Char :=
  fun a => if a = pos then c else mem a

/-- memory with a NUL at place `pos` when `room` leaves a place for it -/
def endAt (mem : Nat → Char) (pos room : Nat) : Nat → Char :=
  if room = 0 then mem else put mem pos '\x00'

/-- copy characters into memory from place `pos` while more than one of `room` places is left,
then put a NUL where the copy stopped if a place is left: the memory and the place reached -/
def copyInto : (Nat → Char) → Nat → Nat → List Char → (Nat → Char) × Nat
  | mem, pos, room, [] => (endAt mem pos room, pos)
  | mem, pos, room, c :: cs =>
    if room > 1 then copyInto (put mem pos c) (pos + 1) (room - 1) cs
    else (endAt mem pos room, pos)

/-- write pieces one after another into memory from place `pos`, the buffer ending before
place `stop` -/
def writePieces (stop : Nat) : (Nat → Char) → Nat → List String → Nat → Char
  | mem, _, [] => mem
  | mem, pos, p :: ps =>
    let (mem, pos) := copyInto mem pos (stop - pos) (pieceChars p)
    writePieces stop mem pos ps

/-- memory after pieces are written into the buffer of its `len` places from `base` -/
def write (mem : Nat → Char) (base len : Nat) (ps : List String) : Nat → Char :=
  writePieces (base + len) mem base ps

example : fill 0 ["abc"] = "" := by cbv
example : fill 3 ["ab", "cd"] = "ab" := by cbv
example : fill 10 ["ab", "cd"] = "abcd" := by cbv

end X86Codec.Text
