import X86Codec.Decoder.Tables
/-!
Decoding one instruction from at most fifteen bytes.

The decoder reads the prefixes of the mode (in 32-bit mode segment overrides, in 64-bit mode
only FS and GS overrides and REX, which counts only right before the opcode), then an escape
or a VEX prefix, and walks the tables: the opcode map, the opcode byte, the mandatory prefix,
the ModRM reg field and register form, the ModRM rm field, and VEX.W and VEX.L. The entry it
ends on names a descriptor, which says where the operands come from. It then reads the ModRM
byte, the SIB byte, the displacement, the VEX operand and the immediate, and finishes: a
register exchange of the accumulator with itself is a no-op, 3DNow! suffixes must be known,
a lock prefix needs a lockable instruction with a memory destination, operand sizes follow
the descriptor, and byte registers 4 to 7 without REX are the high byte registers.

Every read is at a position below the window's length, and a read that would go past it
ends decoding as a truncated instruction. The displacement and the immediate are written only
when an operand needs them; otherwise they keep what the instruction held before.
-/

namespace X86Codec.Decoder

/-- why decoding fails: an undefined encoding, a mode the tables lack, or too few bytes -/
inductive DecodeError where
  | undefined
  | internal
  | truncated
  deriving DecidableEq, Repr

/-- the number a failure is reported as -/
def DecodeError.code : DecodeError → Int
  | .undefined => -1
  | .internal => -2
  | .truncated => -3

/-- the bytes the decoder may read, the first fifteen at most, and the memory that follows
them, counted from the first byte past the window -/
structure Window where
  bytes : Array UInt8
  past : Nat → UInt8 := fun _ => 0

namespace Window

/-- the window of a byte string; nothing is known of the memory after it -/
def of (bytes : List UInt8) : Window := { bytes := (bytes.take 15).toArray }

/-- how many bytes may be read -/
def len (w : Window) : Nat := w.bytes.size

/-- the byte at a position, which past the window's end lies in the memory after it -/
def byte (w : Window) (i : Nat) : Nat := (w.bytes[i]?.getD (w.past (i - w.bytes.size))).toNat

/-- the little-endian number in `n` bytes from a position -/
def load (w : Window) (off : Nat) : Nat → Nat
  | 0 => 0
  | n + 1 => w.byte off + 256 * w.load (off + 1) n

/-- read the little-endian number in `n` bytes from a position; reading past the window's
end means the instruction is truncated -/
def read (w : Window) (off n : Nat) : Except DecodeError Nat :=
  if off + n > w.len then .error .truncated else .ok (w.load off n)

end Window

/-- a number of `bits` bits sign-extended to 64 bits -/
def signExtend (bits v : Nat) : UInt64 := UInt64.ofNat (Word.ofSigned (Word.signed bits v))

/-- whether a bit is set -/
def hasBit (v bit : Nat) : Bool := v &&& bit ≠ 0

/-! The REX bits, also set by VEX, and VEX.L. -/

namespace Rex
/-- extends ModRM rm or the SIB base -/
def b : Nat := 0x01
/-- extends the SIB index -/
def x : Nat := 0x02
/-- extends ModRM reg -/
def r : Nat := 0x04
/-- 64-bit operand size -/
def w : Nat := 0x08
/-- VEX.L -/
def vexL : Nat := 0x10
/-- a REX byte is present -/
def present : Nat := 0x40
end Rex

/-! The kinds of table entry, by the three low bits of a word. -/

namespace WordKind
/-- an empty entry -/
def empty : Nat := 0
/-- an instruction -/
def instr : Nat := 1
/-- a table indexed by the opcode byte -/
def byte : Nat := 2
/-- a table indexed by the ModRM reg field and register form -/
def modrm : Nat := 3
/-- a table indexed by the ModRM rm field -/
def modrmLow : Nat := 4
/-- a table indexed by the mandatory prefix -/
def mandatory : Nat := 5
/-- a table indexed by VEX.W and VEX.L -/
def vex : Nat := 6
end WordKind

/-- what is known before the opcode byte -/
structure Prefixes where
  segment : Nat := noReg
  p66 : Bool := false
  p67 : Bool := false
  lock : Bool := false
  rep : Nat := 0
  rex : Nat := 0
  rexAt : Option Nat := none
  escape : Nat := 0
  vexOperand : Nat := 0
  deriving DecidableEq, Repr

namespace Prefixes

/-- the prefixes with the byte at `off` read, or none when it is no prefix of the mode; the
last of the repeat prefixes and of the segment overrides counts -/
def add (mode : Mode) (p : Prefixes) (off b : Nat) : Option Prefixes :=
  match b with
  | 0x66 => some { p with p66 := true }
  | 0x67 => some { p with p67 := true }
  | 0xf0 => some { p with lock := true }
  | 0xf3 => some { p with rep := 2 }
  | 0xf2 => some { p with rep := 3 }
  | 0x64 => some { p with segment := 4 }
  | 0x65 => some { p with segment := 5 }
  | _ =>
    match mode with
    | .bits32 =>
      match b with
      | 0x26 => some { p with segment := 0 }
      | 0x2e => some { p with segment := 1 }
      | 0x36 => some { p with segment := 2 }
      | 0x3e => some { p with segment := 3 }
      | _ => none
    | .bits64 =>
      if b = 0x26 ∨ b = 0x2e ∨ b = 0x36 ∨ b = 0x3e then some p
      else if 0x40 ≤ b ∧ b < 0x50 then some { p with rex := b, rexAt := some off }
      else none

/-- read prefixes from a position: the prefixes and the position of the first other byte -/
def scan (mode : Mode) : List Nat → Nat → Prefixes → Prefixes × Nat
  | [], off, p => (p, off)
  | b :: bs, off, p =>
    match p.add mode off b with
    | some q => scan mode bs (off + 1) q
    | none => (p, off)

/-- the VEX fields of its last byte: VEX.L, the implied prefix and the extra operand -/
def vexTail (p : Prefixes) (b : Nat) : Prefixes :=
  { p with
    rex := p.rex ||| (if hasBit b 0x04 then Rex.vexL else 0)
    rep := if hasBit b 0x02 then b &&& 3 else 0
    p66 := b &&& 3 = 1
    vexOperand := ((b &&& 0x78) >>> 3) ^^^ 0xf }

end Prefixes

/-- the prefixes of a window and where the opcode starts; a REX byte counts only when it is
the last prefix -/
def readPrefixes (mode : Mode) (w : Window) : Prefixes × Nat :=
  let (p, off) := Prefixes.scan mode (w.bytes.toList.map (·.toNat)) 0 {}
  if p.rexAt.map (· + 1) = some off then (p, off) else ({ p with rex := 0 }, off)

/-- the rest of a VEX prefix whose first byte `b0` (C4 or C5) is at `off` and whose second
byte is `b1`: REX.R, and for the three-byte form REX.X, REX.B, the opcode map and a third byte
with REX.W; the last byte gives VEX.L, the implied prefix and the extra operand -/
def readVex (mode : Mode) (w : Window) (p : Prefixes) (off b0 b1 : Nat) :
    Except DecodeError (Prefixes × Nat) := do
  let rex := p.rex ||| (if hasBit b1 0x80 then 0 else Rex.r)
  if b0 = 0xc4 then
    let rex := rex ||| (if hasBit b1 0x40 then 0 else Rex.x)
    let rex := rex ||| (if mode = .bits64 ∧ !hasBit b1 0x20 then Rex.b else 0)
    if hasBit b1 0x1c then throw .undefined
    else
      let b2 ← w.read (off + 2) 1
      let rex := rex ||| (if hasBit b2 0x80 then Rex.w else 0)
      return (Prefixes.vexTail { p with rex, escape := (b1 &&& 3) ||| 4 } b2, off + 3)
  else
    return (Prefixes.vexTail { p with rex, escape := 5 } b1, off + 2)

/-- read an escape or a VEX prefix at the opcode's start; in 32-bit mode C4 and C5 are VEX
only when the next byte has both high bits set -/
def readOpening (mode : Mode) (w : Window) (p : Prefixes) (off : Nat) :
    Except DecodeError (Prefixes × Nat) := do
  let b0 ← w.read off 1
  if b0 = 0x0f then
    let b1 ← w.read (off + 1) 1
    if b1 = 0x38 then return ({ p with escape := 2 }, off + 2)
    else if b1 = 0x3a then return ({ p with escape := 3 }, off + 2)
    else return ({ p with escape := 1 }, off + 1)
  else if b0 = 0xc4 ∨ b0 = 0xc5 then
    let b1 ← w.read (off + 1) 1
    if mode = .bits32 ∧ b1 / 64 ≠ 3 then return (p, off)
    else if p.p66 || p.rep ≠ 0 || p.rex ≠ 0 then throw .undefined
    else readVex mode w p off b0 b1
  else return (p, off)

/-- the index of the mandatory prefix: a repeat prefix, else 66, else none -/
def Prefixes.mandatory (p : Prefixes) : Nat :=
  if p.rep ≠ 0 then p.rep else if p.p66 then 1 else 0

/-- the index of VEX.W and VEX.L -/
def Prefixes.vexIndex (p : Prefixes) : Nat :=
  (if hasBit p.rex Rex.w then 1 else 0) + (if hasBit p.rex Rex.vexL then 2 else 0)

/-- the entry the ModRM tables at `i` lead to for a ModRM byte: by the reg field and the
register form, then by the rm field when that entry is a table of it -/
def Tables.modrmEntry (t : Tables) (i m : Nat) : Nat × Nat :=
  let (k', i') := t.step i ((m >>> 3) % 8 + (if m / 64 = 3 then 8 else 0))
  if k' = WordKind.modrmLow then t.step i' (m % 8) else (k', i')

/-- the entry a VEX table leads to for a VEX.W and VEX.L index; any other entry stays -/
def Tables.vexEntry (t : Tables) (e : Nat × Nat) (v : Nat) : Nat × Nat :=
  if e.1 = WordKind.vex then t.step e.2 v else e

/-- the entry the walk ends on from an entry after the opcode byte: the mandatory prefix, the
ModRM byte at `off` (looked at, not read) and VEX.W and VEX.L -/
def walkEntry (t : Tables) (w : Window) (p : Prefixes) (e : Nat × Nat) (off : Nat) : Nat × Nat :=
  let e := if e.1 = WordKind.mandatory then t.step e.2 p.mandatory else e
  let e := if e.1 = WordKind.modrm ∧ off < w.len then t.modrmEntry e.2 (w.byte off) else e
  t.vexEntry e p.vexIndex

/-- the descriptor of an instruction entry; an entry that is not an instruction is undefined
when empty and otherwise needs more bytes -/
def Tables.instrAt (t : Tables) (e : Nat × Nat) : Except DecodeError DescWords :=
  if e.1 ≠ WordKind.instr then .error (if e.1 = WordKind.empty then .undefined else .truncated)
  else .ok (t.descs.getD (e.2 / 4) {})

/-- walk the tables from a root to an instruction's descriptor; the opcode byte is read when
there is one, and the ModRM byte is looked at but not read -/
def walk (t : Tables) (root : Nat) (w : Window) (p : Prefixes) (off : Nat) :
    Except DecodeError (DescWords × Nat) :=
  let e := t.step root p.escape
  if e.1 = WordKind.byte ∧ off < w.len then
    (·, off + 1) <$> t.instrAt (walkEntry t w p (t.step e.2 (w.byte off)) (off + 1))
  else (·, off) <$> t.instrAt (walkEntry t w p e off)

/-- what stays fixed while the operands are read -/
structure Context where
  tables : Tables
  mode : Mode
  window : Window
  prefixes : Prefixes
  desc : DescWords
  opSize : Nat
  vecSize : Nat
  addrSize : Nat
  address : UInt64

namespace Context

/-- whether a REX bit is set -/
def rex (c : Context) (bit : Nat) : Bool := hasBit c.prefixes.rex bit

/-- eight when a REX bit is set -/
def rexPlus (c : Context) (bit : Nat) : Nat := if c.rex bit then 8 else 0

/-- whether the instruction has the mnemonic -/
def is (c : Context) (m : String) : Bool := c.tables.isType c.desc.type m

end Context

/-- the operand size: one byte, or in 64-bit mode eight with REX.W or when fixed, two with a
66 prefix that counts, eight when it is the default and else four; in 32-bit mode two with a
66 prefix that counts and else four -/
def operandSize (mode : Mode) (d : DescWords) (p : Prefixes) : Nat :=
  if d.opsize = 1 then 1
  else match mode with
    | .bits64 =>
      if hasBit p.rex Rex.w || d.opsize = 3 then 8
      else if p.p66 && !d.ign66 then 2
      else if d.opsize ≠ 0 then 8 else 4
    | .bits32 => if p.p66 && !d.ign66 then 2 else 4

/-- the address size: eight in 64-bit mode, four in 32-bit mode, halved by a 67 prefix -/
def addressSize (mode : Mode) (p : Prefixes) : Nat :=
  let full := match mode with | .bits64 => 8 | .bits32 => 4
  if p.p67 then full / 2 else full

/-- the operands being read, the position reached, and the displacement and immediate -/
structure Progress where
  ops : Vector Operand 4
  off : Nat
  disp : UInt64
  imm : UInt64

/-- the progress with one operand changed -/
def Progress.setOp (s : Progress) (i : Position) (f : Operand → Operand) : Progress :=
  { s with ops := Position.update s.ops i f }

/-- the operands before any is read: no kind, and the first three with the register type
their field names -/
def initialOperands (d : DescWords) : Vector Operand 4 :=
  Vector.ofFn fun i => if i.val < 3 then { misc := regTypeOfField (d.regTypeField i.val) } else {}

/-- the registers of a move to or from a control or debug register: ModRM reg names the
special register (control registers 0, 2, 3, 4 and 8 exist; REX.R has no debug register) and
ModRM rm a general purpose register, whatever the mode field says -/
def specialRegisters (c : Context) (opByte : Nat) (control : Bool) (s : Progress) :
    Except DecodeError Progress := do
  let reg := (opByte >>> 3) % 8 ||| c.rexPlus Rex.r
  let s := s.setOp c.desc.modregIdx fun o =>
    { o with type := .reg, reg, misc := if control then RegType.cr else RegType.dr }
  if control ∧ (0x011d >>> reg) % 2 = 0 then throw .undefined
  if !control ∧ c.rex Rex.r then throw .undefined
  return s.setOp c.desc.modrmIdx fun o =>
    { o with type := .reg, reg := opByte % 8 ||| c.rexPlus Rex.b, misc := RegType.gpl }

/-- the implied register operand -/
def implicitOperand (c : Context) (s : Progress) : Progress :=
  if c.desc.hasImplicit then
    s.setOp c.desc.implicitIdx fun o => { o with type := .reg, reg := c.desc.implicitVal }
  else s

/-- the ModRM reg operand; REX.R does not extend MMX and segment registers -/
def modregOperand (c : Context) (opByte : Nat) (s : Progress) : Progress :=
  if c.desc.hasModreg then
    s.setOp c.desc.modregIdx fun o =>
      let extra := if o.misc = RegType.mmx ∨ o.misc = RegType.seg then 0 else c.rexPlus Rex.r
      { o with type := .reg, reg := (opByte &&& 0x38) / 8 + extra }
  else s

/-- the SIB byte: base, scale and index (no index is `noReg` unless the index is a vector),
or without one the ModRM rm field as base; a vector index needs a SIB byte -/
def readSib (c : Context) (rm : Nat) (s : Progress) : Except DecodeError (Nat × Nat × Nat) := do
  if rm = 4 then
    let sib ← c.window.read s.off 1
    let idx := (sib >>> 3) % 8 + c.rexPlus Rex.x
    let idx := if !c.desc.vsib ∧ idx = 4 then noReg else idx
    return (sib % 8, (sib >>> 6) * 64 + idx, s.off + 1)
  else
    if c.desc.vsib then throw .undefined
    return (rm, noReg, s.off)

/-- the ModRM operand: a register in the register form, else memory with a SIB byte when rm
is 4, the instruction pointer as base for mode 0 and rm 5 in 64-bit mode, no base for mode 0
and base 5, and a displacement of one byte for mode 1 and four for mode 2 or no base -/
def modrmOperand (c : Context) (opByte : Nat) (s : Progress) : Except DecodeError Progress := do
  if !c.desc.hasModrm then return s
  let i := c.desc.modrmIdx
  let md := (opByte >>> 6) % 4
  let rm := opByte % 8
  if md = 3 then
    return s.setOp i fun o =>
      let extra := if o.misc = RegType.gpl ∨ o.misc = RegType.vec then c.rexPlus Rex.b else 0
      { o with type := .reg, reg := rm + extra }
  let (base, misc, off) ← readSib c rm s
  let reg :=
    if md = 0 ∧ rm = 5 ∧ c.mode = .bits64 then ipReg
    else if md = 0 ∧ base = 5 then noReg
    else base + c.rexPlus Rex.b
  let s := { s.setOp i fun o => { o with type := .mem, reg, misc } with off }
  if md = 1 then
    let disp ← c.window.read off 1
    return { s with disp := signExtend 8 disp, off := off + 1 }
  else if md = 2 ∨ (md = 0 ∧ base = 5) then
    let disp ← c.window.read off 4
    return { s with disp := signExtend 32 disp, off := off + 4 }
  else return { s with disp := 0 }

/-- the VEX operand; without one, VEX.vvvv must be clear -/
def vexOperand (c : Context) (s : Progress) : Except DecodeError Progress := do
  let v := c.prefixes.vexOperand
  if c.desc.hasVexreg then
    let reg := match c.mode with | .bits32 => v % 8 | .bits64 => v
    return s.setOp c.desc.vexregIdx fun o => { o with type := .reg, reg }
  else if v ≠ 0 then throw .undefined
  else return s

/-- the width of a number immediate: one byte for the byte forms; two for returns and the
bit field extracts and inserts; the operand size plus a selector for far jumps and calls;
three for `ENTER`; the operand size for `MOVABS`; else two with a 16-bit operand size and
four otherwise -/
def immSize (c : Context) (control : Nat) : Nat :=
  if control % 2 = 1 then 1
  else if c.is "RET" || c.is "RETF" || c.is "SSE_EXTRQ" || c.is "SSE_INSERTQ" then 2
  else if c.is "JMPF" || c.is "CALLF" then c.opSize + 2
  else if c.is "ENTER" then 3
  else if c.is "MOVABS" then c.opSize
  else if c.opSize = 2 then 2 else 4

/-- the immediate of a width, extended as it is stored; widths without a rule leave the
immediate as it was -/
def immValue (size raw : Nat) : Option UInt64 :=
  match size with
  | 1 => some (signExtend 8 raw)
  | 2 => some (signExtend 16 raw)
  | 3 => some (UInt64.ofNat raw)
  | 4 => some (signExtend 32 raw)
  | 6 => some (UInt64.ofNat raw)
  | 8 => some (UInt64.ofNat raw)
  | _ => none

/-- the immediate operand. A relative offset becomes an absolute immediate when the
instruction's address is known, and an offset operand otherwise. -/
def immediate (c : Context) (s : Progress) : Except DecodeError Progress := do
  let i := c.desc.immIdx
  match c.desc.immControl with
  | 0 => return s
  | 1 => return { s.setOp i fun o => { o with type := .imm } with imm := 1 }
  | 2 =>
    let s := s.setOp i fun o => { o with type := .mem, reg := noReg, misc := noReg }
    let disp ← c.window.read s.off c.addrSize
    return { s with disp := UInt64.ofNat disp, off := s.off + c.addrSize }
  | 3 =>
    let s := s.setOp i fun o => { o with type := .reg, misc := RegType.vec }
    let b ← c.window.read s.off 1
    let b := match c.mode with | .bits32 => b % 128 | .bits64 => b
    return { s.setOp i fun o => { o with reg := b / 16 } with off := s.off + 1 }
  | control =>
    let s := s.setOp i fun o => { o with type := .imm }
    let size := immSize c control
    let raw ← c.window.read s.off size
    let off := s.off + size
    let s := { s with off, imm := (immValue size raw).getD s.imm }
    if hasBit control 2 then
      if c.address ≠ 0 then return { s with imm := s.imm + c.address + UInt64.ofNat off }
      else return s.setOp i fun o => { o with type := .off }
    else return s

/-- whether a 3DNow! suffix byte names an instruction -/
def knownSuffix (v : Nat) : Bool :=
  let mask := if hasBit v 0x80 then 0x88d144d144d14400 else 0x30003000
  !hasBit v 0x40 && (mask >>> (v % 64)) % 2 = 1

/-- set operand sizes in order up to the first operand of no kind -/
def sizeFrom (d : DescWords) (sizes : Nat → Nat) : List Position → Vector Operand 4 →
    Vector Operand 4
  | [], ops => ops
  | i :: is, ops =>
    if (ops.get i).type = .none then ops
    else sizeFrom d sizes is (Position.update ops i fun o => { o with size := sizes (d.sizeChoice i.val) })

/-- mark byte registers 4 to 7 of the first two operands as high byte registers, up to the
first operand of no kind -/
def highBytes : List Position → Vector Operand 4 → Vector Operand 4
  | [], ops => ops
  | i :: is, ops =>
    let o := ops.get i
    if o.type = .none then ops
    else if o.type = .reg ∧ o.misc = RegType.gpl ∧ o.size = 1 ∧ o.reg ≥ 4 then
      highBytes is (Position.update ops i fun o => { o with misc := RegType.gph })
    else highBytes is ops

/-- the operand sizes a size choice selects: the first fixed size, the second fixed size,
the operand size and the vector size -/
def sizeTable (c : Context) (choice : Nat) : Nat :=
  match choice with
  | 0 => (1 <<< c.desc.sizeFix1) >>> 1
  | 1 => 1 <<< c.desc.sizeFix2
  | 2 => c.opSize
  | _ => c.vecSize

/-- the instruction from its operands: the no-op and exchange split, the 3DNow! and lock
checks, the operand sizes and the high byte registers -/
def finish (c : Context) (s : Progress) : Except DecodeError Instr := do
  let t := c.tables
  let (type, ops) :=
    if c.is "XCHG_NOP" then
      if (s.ops.get Position.first).reg = 0 ∧ (s.ops.get Position.second).reg = 0 then
        let ops := Position.update s.ops Position.first fun o => { o with type := .none }
        (t.typeOf "NOP", Position.update ops Position.second fun o => { o with type := .none })
      else (t.typeOf "XCHG", s.ops)
    else (c.desc.type, s.ops)
  if t.isType type "3DNOW" ∧ !knownSuffix (Word.low 32 s.imm.toNat) then throw .undefined
  if c.prefixes.lock ∧ (!c.desc.lockable ∨ (ops.get Position.first).type ≠ .mem) then throw .undefined
  let ops := sizeFrom c.desc (sizeTable c) Position.all ops
  let ops :=
    if (c.opSize = 1 || t.isType type "MOVSX" || t.isType type "MOVZX") &&
        !hasBit c.prefixes.rex Rex.present then highBytes [Position.first, Position.second] ops
    else ops
  return { type
           rep := c.prefixes.rep = 2
           repnz := c.prefixes.rep = 3
           lock := c.prefixes.lock
           long := c.mode = .bits64
           segment := c.prefixes.segment
           addrsz := c.addrSize
           operandsz := if c.desc.instrWidth then c.opSize else 0
           size := s.off
           operands := ops
           disp := s.disp
           imm := s.imm
           address := c.address }

/-- the prefixes, the escape or VEX prefix, and the position of the opcode byte -/
def opening (mode : Mode) (w : Window) : Except DecodeError (Prefixes × Nat) :=
  let (p, off) := readPrefixes mode w
  readOpening mode w p off

/-- the byte the ModRM operands come from, and the position after it: the ModRM byte when the
instruction has one, else the opcode byte in the register form -/
def modrmByte (w : Window) (d : DescWords) (off : Nat) : Except DecodeError (Nat × Nat) := do
  if d.modrm then
    let m ← w.read off 1
    return (m, off + 1)
  else return (w.byte (off - 1) ||| 0xc0, off)

/-- the operands: the special registers of a move to or from one, or else the implied, ModRM
reg and ModRM operands; then the VEX operand and the immediate -/
def readOperands (c : Context) (opByte : Nat) (s : Progress) : Except DecodeError Progress := do
  let s ←
    if c.is "MOV_CR" then specialRegisters c opByte true s
    else if c.is "MOV_DR" then specialRegisters c opByte false s
    else modrmOperand c opByte (modregOperand c opByte (implicitOperand c s))
  let s ← vexOperand c s
  immediate c s

/-- decode one instruction from a window in a mode (32 or 64), at an address (0 when
unknown), over an instruction that held `prior` -/
def decodeWindow (t : Tables) (prior : Instr) (w : Window) (modeNum : Int) (address : UInt64) :
    Except DecodeError Instr := do
  let some mode := Mode.ofInt? modeNum | throw .internal
  let some root := t.root? modeNum | throw .internal
  let (p, off) ← opening mode w
  let (d, off) ← walk t root w p off
  let c : Context :=
    { tables := t, mode, window := w, prefixes := p, desc := d,
      opSize := operandSize mode d p,
      vecSize := if hasBit p.rex Rex.vexL then 32 else 16,
      addrSize := addressSize mode p, address }
  let (opByte, off) ← modrmByte w d off
  let s ← readOperands c opByte
    { ops := initialOperands d, off, disp := prior.disp, imm := prior.imm }
  finish c s

/-- decode one instruction from the start of a byte string in a mode (32 or 64), at an
address (0 when unknown), over an instruction that held `prior`; at most the first fifteen
bytes are read -/
def decodeInto (t : Tables) (prior : Instr) (bytes : List UInt8) (modeNum : Int)
    (address : UInt64) : Except DecodeError Instr :=
  decodeWindow t prior (Window.of bytes) modeNum address

/-- decode one instruction into a cleared instruction -/
def decode (t : Tables) (bytes : List UInt8) (modeNum : Int) (address : UInt64) :
    Except DecodeError Instr :=
  decodeInto t Instr.zero bytes modeNum address

end X86Codec.Decoder
