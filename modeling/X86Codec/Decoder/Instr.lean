import X86Codec.Word
import X86Codec.Position
/-!
Decoded instructions.

An instruction has a type (the number of its mnemonic), the prefixes that change its meaning
(repeat, repeat-while-not-zero, lock), whether it was decoded in 64-bit mode, the segment
override (`noReg` for none), the address size and, for instructions whose width is not given
by an operand, the operand size, all in bytes; its length; up to four operands; and the
displacement, immediate and address that its operands share.

An operand has a kind, a size in bytes, a register number and one more byte: for a register
operand the register type, for a memory operand the scale in the two high bits and the index
register in the six low bits.
-/

namespace X86Codec.Decoder

/-- the modes an instruction can be decoded in -/
inductive Mode where
  | bits32
  | bits64
  deriving DecidableEq, Repr

/-- the mode a mode number names: 32 or 64 -/
def Mode.ofInt? : Int → Option Mode
  | 32 => some .bits32
  | 64 => some .bits64
  | _ => none

/-- the kinds of operand -/
inductive OperandType where
  | none
  | reg
  | imm
  | mem
  | off
  deriving DecidableEq, Repr

/-- the number of an operand kind -/
def OperandType.code : OperandType → Nat
  | .none => 0 | .reg => 1 | .imm => 2 | .mem => 3 | .off => 4

/-- the register number that means no register -/
def noReg : Nat := 0x3f

/-- the register number of the instruction pointer, as a memory base -/
def ipReg : Nat := 0x10

/-! Register types. -/

namespace RegType

/-- the type whose registers the mnemonic implies -/
def implied : Nat := 0
/-- low general purpose registers -/
def gpl : Nat := 1
/-- high byte registers -/
def gph : Nat := 2
/-- segment registers -/
def seg : Nat := 3
/-- x87 stack registers -/
def fpu : Nat := 4
/-- MMX registers -/
def mmx : Nat := 5
/-- vector registers -/
def vec : Nat := 6
/-- mask registers -/
def mask : Nat := 7
/-- bound registers -/
def bnd : Nat := 8
/-- control registers -/
def cr : Nat := 9
/-- debug registers -/
def dr : Nat := 10
/-- no register: the operand must be in memory -/
def mem : Nat := 15

end RegType

/-- one operand -/
structure Operand where
  type : OperandType := .none
  size : Nat := 0
  reg : Nat := 0
  misc : Nat := 0
  deriving DecidableEq, Repr

/-- the index register of a memory operand -/
def Operand.index (o : Operand) : Nat := o.misc % 64

/-- the scale of a memory operand, as a shift -/
def Operand.scale (o : Operand) : Nat := o.misc / 64

/-- a decoded instruction -/
structure Instr where
  type : Nat := 0
  rep : Bool := false
  repnz : Bool := false
  lock : Bool := false
  long : Bool := false
  segment : Nat := 0
  addrsz : Nat := 0
  operandsz : Nat := 0
  size : Nat := 0
  operands : Vector Operand 4 := Vector.replicate 4 {}
  disp : UInt64 := 0
  imm : UInt64 := 0
  address : UInt64 := 0
  deriving DecidableEq, Repr

/-- the instruction with every field zero -/
def Instr.zero : Instr := {}

/-- the operands before the first one of kind `none` -/
def Instr.shown (i : Instr) : List Operand :=
  i.operands.toList.takeWhile (·.type ≠ .none)

/-- a 64-bit word read as a signed number -/
def signed64 (v : UInt64) : Int := Word.toSigned v.toNat

end X86Codec.Decoder
