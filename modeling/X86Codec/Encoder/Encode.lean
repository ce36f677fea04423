import X86Codec.Word
import X86Codec.Position
import X86Codec.Encoder.Tables
/-!
Encoding one instruction for 64-bit mode.

A request is a mnemonic number, possibly with a segment override (three bits from bit 16),
a 32-bit address size (bit 19) or the long form of a relative jump (bit 20), and four operands
of 64 bits. An operand is a register (`0x100` plus the number for general purpose registers,
`0x110` the instruction pointer, `0x204` to `0x207` the high byte registers, `0x300` segment,
`0x400` x87, `0x500` MMX and `0x600` vector registers), a memory operand (the top bit set,
base and index registers in twelve bits each from bits 32 and 44, the scale in four bits from
bit 56 and a 32-bit offset), or a number.

The encoder tries the descriptors of the mnemonic's chain in order. A descriptor is skipped
when an operand does not have the class it needs, the fixed register it names differs, the
immediate does not fit, or a long jump is asked for and a longer form follows. The first one
that is not skipped writes the instruction, or fails the request when its operands cannot be
encoded. An opcode word holds the opcode bytes, the escape, the prefixes, the REX and VEX bits
and, from bit 31, the segment and, from bit 34, the VEX operand.
-/

namespace X86Codec.Encoder

/-! Opcode word bits. -/

namespace Opc
/-- the escape bits -/
def escapeMask : Nat := 3 <<< 16
/-- the 0F escape -/
def esc0f : Nat := 1 <<< 16
/-- the 0F 38 escape -/
def esc0f38 : Nat := 2 <<< 16
/-- the 0F 3A escape -/
def esc0f3a : Nat := 3 <<< 16
/-- a vector index -/
def vsib : Nat := 1 <<< 18
/-- a 66 prefix -/
def p66 : Nat := 1 <<< 19
/-- an F2 prefix -/
def f2 : Nat := 1 <<< 20
/-- an F3 prefix -/
def f3 : Nat := 1 <<< 21
/-- REX.W -/
def rexW : Nat := 1 <<< 22
/-- a lock prefix -/
def lock : Nat := 1 <<< 23
/-- a VEX prefix -/
def vex : Nat := 1 <<< 24
/-- VEX.L -/
def vexL : Nat := 1 <<< 25
/-- REX.B -/
def rexB : Nat := 1 <<< 26
/-- REX.X -/
def rexX : Nat := 1 <<< 27
/-- REX.R -/
def rexR : Nat := 1 <<< 28
/-- a REX prefix without bits -/
def rex : Nat := 1 <<< 29
/-- a 67 prefix -/
def p67 : Nat := 1 <<< 30
/-- where the segment starts -/
def segShift : Nat := 31
/-- where the VEX operand starts -/
def vexopShift : Nat := 34
/-- any REX bit -/
def anyRex : Nat := rex ||| rexW ||| rexR ||| rexX ||| rexB
end Opc

/-- whether a word has any of some bits -/
def has (v bits : Nat) : Bool := v &&& bits ≠ 0

/-! Request flags. -/

/-- the segment override bits -/
def segMask : Nat := 0x70000
/-- the 32-bit address size -/
def addr32 : Nat := 0x80000
/-- the long form of a relative jump -/
def jumpLong : Nat := 0x100000

/-! Operands. -/

namespace Operand

/-- whether an operand is in memory -/
def isMem (op : Nat) : Bool := op ≥ Word.signBit
/-- whether an operand is no memory operand -/
def isReg (op : Nat) : Bool := op < Word.signBit
/-- a general purpose register -/
def isGpl (op : Nat) : Bool := 0x100 ≤ op ∧ op < 0x110
/-- a high byte register -/
def isGph (op : Nat) : Bool := 0x204 ≤ op ∧ op < 0x208
/-- a segment register -/
def isSeg (op : Nat) : Bool := 0x300 ≤ op ∧ op < 0x306
/-- an x87 register -/
def isFpu (op : Nat) : Bool := 0x400 ≤ op ∧ op < 0x408
/-- an MMX register -/
def isMmx (op : Nat) : Bool := 0x500 ≤ op ∧ op < 0x508
/-- a vector register -/
def isXmm (op : Nat) : Bool := 0x600 ≤ op ∧ op < 0x610
/-- the register number -/
def regIdx (op : Nat) : Nat := op % 256
/-- the base register of a memory operand -/
def base (op : Nat) : Nat := (op >>> 32) % 4096
/-- the index register of a memory operand -/
def index (op : Nat) : Nat := (op >>> 44) % 4096
/-- the scale of a memory operand -/
def scale (op : Nat) : Nat := (op >>> 56) % 16
/-- the offset of a memory operand -/
def offset (op : Nat) : Int := Word.signed 32 op

end Operand

/-- the registers by name: general purpose registers and the instruction pointer from
`0x100`, high byte registers from `0x204`, segment registers from `0x300`, x87 registers from
`0x400`, MMX registers from `0x500` and vector registers from `0x600` -/
def registerNames : List (String × Nat) :=
  (["ax", "cx", "dx", "bx", "sp", "bp", "si", "di", "r8", "r9", "r10", "r11", "r12", "r13",
    "r14", "r15", "ip"].zipIdx.map fun (n, i) => (n, 0x100 + i)) ++
  (["ah", "ch", "dh", "bh"].zipIdx.map fun (n, i) => (n, 0x204 + i)) ++
  (["es", "cs", "ss", "ds", "fs", "gs"].zipIdx.map fun (n, i) => (n, 0x300 + i)) ++
  ((List.range 8).map fun i => ("st" ++ toString i, 0x400 + i)) ++
  ((List.range 8).map fun i => ("mm" ++ toString i, 0x500 + i)) ++
  ((List.range 16).map fun i => ("xmm" ++ toString i, 0x600 + i))

/-- the number of a register name -/
def registerNumber? (name : String) : Option Nat := registerNames.lookup name

/-- a memory operand of a base, a scale, an index and an offset; each part is cut to its
field -/
def memOperand (base scale index off : Nat) : Nat :=
  Word.signBit ||| (base % 4096) <<< 32 ||| (index % 4096) <<< 44 ||| (scale % 16) <<< 56 |||
    Word.low 32 off

/-- the request flag of a segment override by register -/
def segmentFlag (reg : Nat) : Nat := (reg % 8 + 1) <<< 16

/-- the general purpose register `ax` -/
def regAx : Nat := 0x100
/-- the general purpose register `sp` -/
def regSp : Nat := 0x104
/-- the instruction pointer -/
def regIp : Nat := 0x110

/-- whether a number fits an immediate of a width: none for width 0, signed for 1, 2 and 4,
unsigned for 3, anything for 8, and nothing for other widths -/
def fits (imm : Int) : Nat → Bool
  | 0 => imm = 0
  | 1 => -0x80 ≤ imm ∧ imm < 0x80
  | 2 => -0x8000 ≤ imm ∧ imm < 0x8000
  | 3 => 0 ≤ imm ∧ imm < 0x1000000
  | 4 => -0x80000000 ≤ imm ∧ imm < 0x80000000
  | 8 => true
  | _ => false

/-- the `n` low bytes of a number, lowest first -/
def leBytes (v : Nat) : Nat → List UInt8
  | 0 => []
  | n + 1 => UInt8.ofNat v :: leBytes (v / 256) n

/-! Opcode words. -/

/-- whether the VEX prefix needs three bytes -/
def vex3 (opc : Nat) : Bool := opc &&& (Opc.rexW ||| Opc.rexX ||| Opc.rexB ||| Opc.escapeMask) ≠ Opc.esc0f

/-- the segment of an opcode word: 0 for none, else one more than the segment register -/
def segOf (opc : Nat) : Nat := (opc >>> Opc.segShift) % 8

/-- whether the opcode has a second byte -/
def twoByte (opc : Nat) : Bool := opc &&& 0xc000 = 0xc000

/-- the number of bytes an opcode word is written as -/
def opcSize (opc : Nat) : Nat :=
  let esc := opc &&& Opc.escapeMask
  let body :=
    if has opc Opc.vex then if vex3 opc then 4 else 3
    else 1 + (if has opc Opc.lock then 1 else 0) + (if has opc Opc.p66 then 1 else 0) +
      (if has opc Opc.f2 then 1 else 0) + (if has opc Opc.f3 then 1 else 0) +
      (if has opc Opc.anyRex then 1 else 0) + (if esc ≠ 0 then 1 else 0) +
      (if esc = Opc.esc0f38 ∨ esc = Opc.esc0f3a then 1 else 0)
  body + (if segOf opc ≠ 0 then 1 else 0) + (if has opc Opc.p67 then 1 else 0) +
    (if twoByte opc then 1 else 0)

/-- the segment override byte of a segment number -/
def segByte (s : Nat) : UInt8 := UInt8.ofNat ((0x65643e362e2600 >>> (8 * s)) % 256)

/-- the VEX prefix of an opcode word -/
def vexBytes (opc : Nat) : List UInt8 :=
  let pp := if has opc Opc.f2 then 3 else if has opc Opc.f3 then 2 else if has opc Opc.p66 then 1 else 0
  let b2 := pp ||| (if has opc Opc.vexL then 0x04 else 0) |||
    ((((opc >>> Opc.vexopShift) % 16) ^^^ 0xf) <<< 3)
  if vex3 opc then
    let b1 := ((opc &&& Opc.escapeMask) >>> 16) ||| (if has opc Opc.rexR then 0 else 0x80) |||
      (if has opc Opc.rexX then 0 else 0x40) ||| (if has opc Opc.rexB then 0 else 0x20)
    [0xc4, UInt8.ofNat b1, UInt8.ofNat (b2 ||| (if has opc Opc.rexW then 0x80 else 0))]
  else [0xc5, UInt8.ofNat (b2 ||| (if has opc Opc.rexR then 0 else 0x80))]

/-- a byte when a condition holds -/
def byteIf (c : Bool) (b : UInt8) : List UInt8 := if c then [b] else []

/-- the legacy prefixes, REX and escape bytes of an opcode word -/
def legacyBytes (opc : Nat) : List UInt8 :=
  let esc := opc &&& Opc.escapeMask
  let rexByte := 0x40 ||| (if has opc Opc.rexW then 8 else 0) ||| (if has opc Opc.rexR then 4 else 0) |||
    (if has opc Opc.rexX then 2 else 0) ||| (if has opc Opc.rexB then 1 else 0)
  byteIf (has opc Opc.lock) 0xf0 ++ byteIf (has opc Opc.p66) 0x66 ++
  byteIf (has opc Opc.f2) 0xf2 ++ byteIf (has opc Opc.f3) 0xf3 ++
  byteIf (has opc Opc.anyRex) (UInt8.ofNat rexByte) ++
  byteIf (esc ≠ 0) 0x0f ++ byteIf (esc = Opc.esc0f38) 0x38 ++ byteIf (esc = Opc.esc0f3a) 0x3a

/-- the bytes of an opcode word: segment, 67, VEX or the legacy prefixes, the opcode byte
and a second opcode byte -/
def opcBytes (opc : Nat) : List UInt8 :=
  byteIf (segOf opc ≠ 0) (segByte (segOf opc)) ++ byteIf (has opc Opc.p67) 0x67 ++
  (if has opc Opc.vex then vexBytes opc else legacyBytes opc) ++
  [UInt8.ofNat opc] ++ byteIf (twoByte opc) (UInt8.ofNat (opc >>> 8))

/-! Writing into a buffer. -/

/-- the memory an instruction is written into, and the write position: the address `*buf` -/
structure Buffer where
  mem : Nat → UInt8
  pos : Nat

namespace Buffer

/-- a buffer at address zero holding zeros -/
def empty : Buffer := { mem := fun _ => 0, pos := 0 }

/-- write a byte at the position and step past it -/
def write (buf : Buffer) (b : UInt8) : Buffer :=
  { mem := fun i => if i = buf.pos then b else buf.mem i, pos := buf.pos + 1 }

/-- the bytes from address `start` up to the position -/
def written (buf : Buffer) (start : Nat) : List UInt8 :=
  (List.range' start (buf.pos - start)).map buf.mem

end Buffer

/-- writing an instruction into a buffer; a failure carries nothing, as the caller only
sees -1 -/
abbrev EncM := EStateM Unit Buffer

/-- write bytes one after another -/
def emit (bs : List UInt8) : EncM Unit := bs.forM fun b => modify (·.write b)

/-- write an opcode word -/
def emitOpcode (opc : Nat) : EncM Unit := emit (opcBytes opc)

/-- write an immediate in its `size` low bytes, when it fits that width -/
def emitImm (imm : Int) (size : Nat) : EncM Unit :=
  if fits imm size then emit (leBytes (Word.ofSigned imm) size) else throw ()

/-- write an opcode word whose register goes in the low three bits of its last byte, which is
rewritten once written -/
def emitInOpcode (opc op0 : Nat) : EncM Unit := do
  let opc := if has (Operand.regIdx op0) 0x8 then opc ||| Opc.rexB else opc
  if has opc Opc.anyRex ∧ Operand.isGph op0 then throw ()
  emitOpcode opc
  modify fun buf => { buf with mem := (fun i =>
    if i + 1 = buf.pos then (buf.mem i &&& 0xf8) ||| UInt8.ofNat (Operand.regIdx op0 % 8)
    else buf.mem i) }

/-- the ModRM form chosen for an operand: mode, rm, SIB fields, displacement and its width -/
structure ModrmForm where
  md : Nat
  rm : Nat
  scale : Nat := 0
  index : Nat := 4
  base : Nat := 0
  disp : Int := 0
  dispSize : Nat := 0

/-- the scaled index of a memory operand: none without index, else the SIB scale and index
bits; a vector index needs a vector register, another a general purpose register other than
the stack pointer, and the scale must be 1, 2, 4 or 8 -/
def indexForm (opc op0 : Nat) : Option (Option (Nat × Nat)) :=
  let idx := Operand.index op0
  let sc := Operand.scale op0
  if (idx ≠ 0) ≠ (sc ≠ 0) then none
  else if idx = 0 then if has opc Opc.vsib then none else some none
  else if has opc Opc.vsib ∧ !Operand.isXmm idx then none
  else if !has opc Opc.vsib ∧ (!Operand.isGpl idx ∨ Operand.regIdx idx = 4) then none
  else if sc &&& (sc - 1) ≠ 0 then none
  else some (some ((if has sc 0xa then 1 else 0) ||| (if has sc 0xc then 2 else 0), idx % 8))

/-- the ModRM form of a memory operand. Without a base the offset follows a SIB byte; with
the instruction pointer as base the offset is taken from the end of the instruction, whose
length is the opcode's, the ModRM byte, four offset bytes and the immediate's; a base whose
low bits are 5 needs an offset byte; otherwise the offset takes one byte when it fits and
four when not. -/
def memForm (opc op0 opcsz immsz : Nat) : Option ModrmForm := do
  let sib ← indexForm opc op0
  let (scale, index) := sib.getD (0, 4)
  let withSib := sib.isSome
  let off := Operand.offset op0
  let b := Operand.base op0
  let (rm, md, off, mod0off, withSib) ←
    if b = 0 then some (5, 0, off, true, true)
    else if b = regIp then
      if withSib then none
      else some (5, 0, Word.signed 32 (Word.ofSigned (off - (opcsz + 5 + immsz))), true, withSib)
    else if !Operand.isGpl b then none
    else
      let rm := Operand.regIdx b % 8
      some (rm, if rm = 5 then 1 else 0, off, false, withSib)
  let md :=
    if off ≠ 0 ∧ fits off 1 ∧ !mod0off then 1
    else if off ≠ 0 ∧ !mod0off then 2
    else md
  let (rm, base) := if withSib ∨ rm = 4 then (4, rm) else (rm, 0)
  let dispSize := if md = 1 then 1 else if md = 2 ∨ mod0off then 4 else 0
  return { md, rm, scale, index, base, disp := off, dispSize }

/-- write an instruction with a ModRM byte: the rm operand is a register or memory, the reg
operand a register or a constant. Every check comes before the first byte is written; the
displacement is written last. -/
def emitModrm (opc op0 op1 immsz : Nat) : EncM Unit := do
  let opc := if Operand.isReg op0 ∧ has (Operand.regIdx op0) 0x8 then opc ||| Opc.rexB else opc
  let opc := if Operand.isMem op0 ∧ has (Operand.base op0) 0x8 then opc ||| Opc.rexB else opc
  let opc := if Operand.isMem op0 ∧ has (Operand.index op0) 0x8 then opc ||| Opc.rexX else opc
  let opc := if Operand.isReg op1 ∧ has (Operand.regIdx op1) 0x8 then opc ||| Opc.rexR else opc
  if has opc Opc.anyRex ∧ (Operand.isGph op0 ∨ Operand.isGph op1) then throw ()
  let opcsz := opcSize opc
  let some f := (if Operand.isReg op0 then some { md := 3, rm := Operand.regIdx op0 % 8 }
    else memForm opc op0 opcsz immsz) | throw ()
  let withSib := f.md ≠ 3 ∧ f.rm = 4
  if opcsz + 1 + (if withSib then 1 else 0) + f.dispSize + immsz > 15 then throw ()
  emitOpcode opc
  emit [UInt8.ofNat (f.md * 64 + (op1 % 8) * 8 + f.rm)]
  if withSib then emit [UInt8.ofNat (f.scale * 64 + f.index * 8 + f.base)]
  emitImm f.disp f.dispSize

/-- where an encoding's operands go: the ModRM rm and reg operands, the VEX operand, the
immediate and how it is read (as in the decoder's descriptors), and a fixed register -/
structure EncodingInfo where
  modrm : Option Position := none
  modreg : Option Position := none
  vexreg : Option Position := none
  immIdx : Position := .first
  immCtl : Nat := 0
  zreg : Option Position := none
  zregVal : Nat := 0

/-- where the operands of an encoding go -/
def encodingInfo : Encoding → EncodingInfo
  | .np => {}
  | .m => { modrm := some .first }
  | .m1 => { modrm := some .first, immCtl := 1, immIdx := .second }
  | .mi => { modrm := some .first, immCtl := 4, immIdx := .second }
  | .mc => { modrm := some .first, zreg := some .second, zregVal := 1 }
  | .mr => { modrm := some .first, modreg := some .second }
  | .rm => { modrm := some .second, modreg := some .first }
  | .rma => { modrm := some .second, modreg := some .first, zreg := some .third }
  | .mri => { modrm := some .first, modreg := some .second, immCtl := 4, immIdx := .third }
  | .rmi => { modrm := some .second, modreg := some .first, immCtl := 4, immIdx := .third }
  | .mrc => { modrm := some .first, modreg := some .second, zreg := some .third, zregVal := 1 }
  | .am => { modrm := some .second, zreg := some .first }
  | .ma => { modrm := some .first, zreg := some .second }
  | .i => { immCtl := 4, immIdx := .first }
  | .ia => { zreg := some .first, immCtl := 4, immIdx := .second }
  | .o => { modreg := some .first }
  | .oi => { modreg := some .first, immCtl := 4, immIdx := .second }
  | .oa => { modreg := some .first, zreg := some .second }
  | .s => {}
  | .a => { zreg := some .first }
  | .d => { immCtl := 6, immIdx := .first }
  | .fd => { zreg := some .first, immCtl := 2, immIdx := .second }
  | .td => { zreg := some .second, immCtl := 2, immIdx := .first }
  | .rvm => { modrm := some .third, modreg := some .first, vexreg := some .second }
  | .rvmi => { modrm := some .third, modreg := some .first, vexreg := some .second, immCtl := 4, immIdx := .fourth }
  | .rvmr => { modrm := some .third, modreg := some .first, vexreg := some .second, immCtl := 3, immIdx := .fourth }
  | .rmv => { modrm := some .second, modreg := some .first, vexreg := some .third }
  | .vm => { modrm := some .second, vexreg := some .first }
  | .vmi => { modrm := some .second, vexreg := some .first, immCtl := 4, immIdx := .third }
  | .mvr => { modrm := some .first, modreg := some .second, vexreg := some .second }

/-- whether an operand has the class a four-bit class code needs: 0 anything, 1 a general
purpose register, 2 one or a high byte register, 3 segment, 4 x87, 5 MMX and 6 vector
registers, 15 memory; the other classes are never met -/
def classOk (ty op : Nat) : Bool :=
  match ty with
  | 0 => true
  | 1 => Operand.isGpl op
  | 2 => Operand.isGpl op || Operand.isGph op
  | 3 => Operand.isSeg op
  | 4 => Operand.isFpu op
  | 5 => Operand.isMmx op
  | 6 => Operand.isXmm op
  | 15 => Operand.isMem op
  | _ => false

/-- whether every operand has the class its code needs -/
def classesOk (tys : Nat) (ops : Vector Nat 4) : Bool :=
  Position.all.all fun i => classOk ((tys >>> (4 * i.val)) % 16) (ops.get i)

/-- whether some operand that may be a high byte register is a general purpose register
that needs REX to be named (from `sp` on) -/
def needsRex (tys : Nat) (ops : Vector Nat 4) : Bool :=
  Position.all.any fun i =>
    (tys >>> (4 * i.val)) % 16 = 2 ∧ Operand.isGpl (ops.get i) ∧ ops.get i ≥ regSp

/-- the immediate of a descriptor and its width, or none to skip: an address of the address
size, a register in the high four bits, an offset from the end of the instruction at `origin`,
the constant one, or a number -/
def immediateOf (d : EncDesc) (info : EncodingInfo) (mnem opc : Nat) (ops : Vector Nat 4)
    (origin : Nat) : Option (Int × Nat) := do
  if info.immCtl = 0 then return (0xcc, d.immsz)
  let raw := ops.get info.immIdx
  let (imm, size) : Int × Nat :=
    match info.immCtl with
    | 2 => if has mnem addr32 then (Word.signed 32 raw, 4) else (Word.toSigned raw, 8)
    | 3 => ((Operand.regIdx raw * 16 : Nat), d.immsz)
    | _ => (Word.toSigned raw, d.immsz)
  let imm ←
    if info.immCtl = 6 then
      if has mnem jumpLong ∧ d.alt ≠ 0 then none
      else some (Word.toSigned (Word.ofSigned (imm - origin - opcSize opc - size)))
    else some imm
  if info.immCtl = 1 ∧ imm ≠ 1 then none
  if info.immCtl ≥ 2 ∧ !fits imm size then none
  return (imm, size)

/-- the checks of one descriptor for a request written at address `origin`: none to go on to
the next descriptor, or the opcode word, the immediate and its width to write -/
def prepare (d : EncDesc) (e : Encoding) (mnem : Nat) (ops : Vector Nat 4) (origin : Nat) :
    Option (Nat × Int × Nat) := Id.run do
  let info := encodingInfo e
  if let some z := info.zreg then
    if Operand.regIdx (ops.get z) ≠ info.zregVal then return none
  if !classesOk d.tys ops then return none
  let opc := if needsRex d.tys ops then d.opc ||| Opc.rex else d.opc
  let opc := if has mnem addr32 then opc ||| Opc.p67 else opc
  let opc := opc ||| ((mnem &&& segMask) <<< (Opc.segShift - 16))
  let op0 := ops.get Position.first
  let opc ←
    if e = .s then
      if (Operand.regIdx op0 <<< 3) &&& 0x20 ≠ opc &&& 0x20 then return none
      pure (opc ||| (Operand.regIdx op0 <<< 3))
    else pure opc
  let some (imm, immsz) := immediateOf d info mnem opc ops origin | return none
  if d.opc / 8 = 0x90 / 8 ∧ op0 = regAx then return none
  let opc := match info.vexreg with
    | some v => opc ||| (Operand.regIdx (ops.get v) <<< Opc.vexopShift)
    | none => opc
  return some (opc, imm, immsz)

/-- write the instruction a descriptor's checks chose: the opcode word with a ModRM byte or a
register in its last byte, then the immediate -/
def emitDesc (info : EncodingInfo) (opc : Nat) (ops : Vector Nat 4) (imm : Int) (immsz : Nat) :
    EncM Unit := do
  match info.modrm, info.modreg with
  | some m, some r => emitModrm opc (ops.get m) (ops.get r) immsz
  | some m, none => emitModrm opc (ops.get m) ((opc &&& 0xff00) >>> 8) immsz
  | none, some r => emitInOpcode opc (ops.get r)
  | none, none => emitOpcode opc
  if info.immCtl ≥ 2 then emitImm imm immsz

/-- try the descriptors of a chain from a place, with at most `fuel` of them: the first whose
checks pass is written -/
def tryChain (t : Tables) (mnem : Nat) (ops : Vector Nat 4) : Nat → Nat → EncM Unit
  | 0, _ => throw ()
  | fuel + 1, i => do
    let d := t.desc i
    let some e := d.encoding | throw ()
    match prepare d e mnem ops (← get).pos with
    | some (opc, imm, immsz) => emitDesc (encodingInfo e) opc ops imm immsz
    | none => if d.alt = 0 then throw () else tryChain t mnem ops fuel d.alt

/-- encode a request at the buffer's position. On success the position is past the bytes
written; on failure it is put back where it was. -/
def encodeInto (t : Tables) (mnem : Nat) (ops : Vector Nat 4) : EncM Unit := do
  let start := (← get).pos
  tryCatch
    (if mnem % 65536 ≥ t.count then throw ()
     else tryChain t mnem ops (t.descs.size + 1) (mnem % 65536))
    fun _ => do
      modify fun buf => { buf with pos := start }
      throw ()

/-- encode a request into an empty buffer at address zero: the bytes, or none when the request
cannot be encoded -/
def encode (t : Tables) (mnem : Nat) (ops : Vector Nat 4) : Option (List UInt8) :=
  match (encodeInto t mnem ops).run Buffer.empty with
  | .ok () buf => some (buf.written 0)
  | .error () _ => none

end X86Codec.Encoder
