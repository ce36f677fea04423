import X86Codec.Word
/-!
The set of size codes of a descriptor's operands, in the order the layout lists it.

The codes are gathered in a scatter table of eight slots and listed slot by slot. A code's
home slot is its hash modulo eight; the hash of an integer is the integer itself, except that
`-1` shares the hash of `-2`. When the slot is taken by another code, the code moves on:
a probe word starts as the hash read as a 64-bit word, and before each move it is shifted
right by five bits and the next slot is `5 i + 1 + probe` modulo eight. A code already
present is not added again. A descriptor has at most four operands, so fewer than eight
slots are ever taken and every code finds a slot within `probeFuel` moves: the probe word is
zero after thirteen shifts, and then the moves visit all eight slots.

Main statement: gathering keeps each slot's code once it is placed (`place_keeps`).
-/

namespace X86Codec.SizeSet

/-- the hash of an integer code -/
def codeHash (k : Int) : Int := if k = -1 then -2 else k

/-- the slot a probe moves to from slot `i` with probe word `probe` (already shifted) -/
def nextSlot (i probe : Nat) : Nat := (5 * i + 1 + probe) % 8

/-- the moves a code may make before it is dropped; never reached with at most four codes -/
def probeFuel : Nat := 32

/-- place `k` in the slots, looking at slot `i` with probe word `probe` first -/
def place (k : Int) : Nat → Nat → Nat → List (Option Int) → List (Option Int)
  | 0, _, _, slots => slots
  | fuel + 1, i, probe, slots =>
    match slots.getD i none with
    | none => slots.set i (some k)
    | some k' =>
      if k' = k then slots
      else place k fuel (nextSlot i (probe >>> 5)) (probe >>> 5) slots

/-- add a code to the slots -/
def insert (slots : List (Option Int)) (k : Int) : List (Option Int) :=
  let h := codeHash k
  place k probeFuel (Word.ofSigned h % 8) (Word.ofSigned h) slots

/-- the eight empty slots -/
def empty : List (Option Int) := List.replicate 8 none

/-- the distinct codes of a list in slot order -/
def ofList (codes : List Int) : List Int :=
  (codes.foldl insert empty).filterMap id

/-- a slot that holds a code keeps it while another code is placed -/
theorem place_keeps (k : Int) (fuel i probe : Nat) (slots : List (Option Int)) (j : Nat)
    (c : Int) (hj : slots.getD j none = some c) :
    (place k fuel i probe slots).getD j none = some c := by
  induction fuel generalizing i probe with
  | zero => simpa [place] using hj
  | succ fuel ih =>
    unfold place
    split
    · rename_i h
      by_cases hij : i = j
      · subst hij; rw [hj] at h; cases h
      · simp only [List.getD_eq_getElem?_getD] at hj ⊢
        rw [List.getElem?_set_ne hij]
        exact hj
    · split
      · exact hj
      · exact ih _ _

example : ofList [3, -2, 6, 7] = [3, 7, -2, 6] := by decide
example : ofList [5, -3, 1, 2] = [-3, 2, 5, 1] := by decide
example : ofList [1, 1, 3] = [1, 3] := by decide

end X86Codec.SizeSet
