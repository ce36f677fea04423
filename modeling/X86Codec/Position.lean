/-!
Operand positions. An instruction has at most four operands, and the descriptors of the
decoder and of the encoder name them by position, from 0 to 3.
-/

namespace X86Codec

/-- a position among an instruction's four operands -/
abbrev Position := Fin 4

namespace Position

/-- the first operand -/
def first : Position := 0
/-- the second operand -/
def second : Position := 1
/-- the third operand -/
def third : Position := 2
/-- the fourth operand -/
def fourth : Position := 3

/-- every position, in order -/
def all : List Position := [first, second, third, fourth]

/-- four values with the one at a position changed -/
def update {α : Type} (xs : Vector α 4) (p : Position) (f : α → α) : Vector α 4 :=
  xs.set p.val (f (xs.get p)) p.isLt

end Position

end X86Codec
