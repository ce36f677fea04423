import X86Codec.Decoder.Tables
import X86Codec.Text.Bounded
/-!
Printing decoded instructions in Intel syntax.

The text is the prefixes the instruction shows (`xrelease`/`xacquire` for lockable and
exchange forms, `rep`/`repnz` for string instructions, `lock`, an address size override and
a segment for string instructions), the mnemonic with a size suffix where the width is the
instruction's own, and the operands, the first after a blank and the others after a comma.
Registers are named by type, number and size; memory operands by size, segment, base, scaled
index and displacement; immediates in hexadecimal, masked to their size, with offsets made
absolute from a given address.

The text is written as pieces into a buffer of given length (`Text.fill`), or into the
places of memory that make the buffer (`Text.write`).
-/

namespace X86Codec.Decoder

/-- a name from a table, or `(inv-idx)` past its end -/
def pick (names : List String) (i : Nat) : String := names.getD i "(inv-idx)"

/-- the general purpose register names of a size -/
def gplNames : Nat → Option (List String)
  | 1 => some ["al", "cl", "dl", "bl", "spl", "bpl", "sil", "dil",
               "r8b", "r9b", "r10b", "r11b", "r12b", "r13b", "r14b", "r15b"]
  | 2 => some ["ax", "cx", "dx", "bx", "sp", "bp", "si", "di",
               "r8w", "r9w", "r10w", "r11w", "r12w", "r13w", "r14w", "r15w", "ip"]
  | 4 => some ["eax", "ecx", "edx", "ebx", "esp", "ebp", "esi", "edi",
               "r8d", "r9d", "r10d", "r11d", "r12d", "r13d", "r14d", "r15d", "eip"]
  | 8 => some ["rax", "rcx", "rdx", "rbx", "rsp", "rbp", "rsi", "rdi",
               "r8", "r9", "r10", "r11", "r12", "r13", "r14", "r15", "rip"]
  | _ => none

/-- the vector register names of a size: `xmm` up to sixteen bytes, `ymm` for 32 -/
def vecNames : Nat → Option (List String)
  | 1 | 2 | 4 | 8 | 16 => some ((List.range 16).map fun i => "xmm" ++ toString i)
  | 32 => some ((List.range 16).map fun i => "ymm" ++ toString i)
  | _ => none

/-- the names of the register types that do not depend on the size -/
def fixedNames (rt : Nat) : Option (List String) :=
  if rt = RegType.gph then some ["(inv)", "(inv)", "(inv)", "(inv)", "ah", "ch", "dh", "bh"]
  else if rt = RegType.seg then some ["es", "cs", "ss", "ds", "fs", "gs"]
  else if rt = RegType.fpu then some ((List.range 8).map fun i => "st(" ++ toString i ++ ")")
  else if rt = RegType.mmx then some ((List.range 8).map fun i => "mm" ++ toString i)
  else if rt = RegType.cr then
    some ["cr0", "(inv)", "cr2", "cr3", "cr4", "(inv)", "(inv)", "(inv)", "cr8"]
  else if rt = RegType.dr then some ((List.range 8).map fun i => "dr" ++ toString i)
  else if rt = RegType.bnd then some ((List.range 4).map fun i => "bnd" ++ toString i)
  else none

/-- the name of a register of a type, number and size -/
def regName (rt ri size : Nat) : String :=
  if rt = RegType.gpl then
    match gplNames size with
    | some names => pick names ri
    | none => "(inv-sz)"
  else if rt = RegType.vec then
    match vecNames size with
    | some names => pick names ri
    | none => "(inv-sz)"
  else match fixedNames rt with
    | some names => pick names ri
    | none => "(inv-ty)"

/-- a number in lower case hexadecimal after `0x` -/
def hex (v : Nat) : String := "0x" ++ String.ofList (Nat.toDigits 16 v)

/-- the low bytes of a number that fit a size of one, two or four bytes; other sizes keep it -/
def maskTo (size v : Nat) : Nat :=
  match size with
  | 1 => Word.low 8 v
  | 2 => Word.low 16 v
  | 4 => Word.low 32 v
  | _ => v

/-- the size suffix of an instruction width -/
def widthSuffix : Nat → String
  | 1 => "b" | 2 => "w" | 4 => "d" | 8 => "q" | _ => ""

/-- the mnemonic text and suffix, and which prefixes are shown -/
structure Heading where
  mnemonic : String
  suffix : String
  lockForm : Bool := false
  stringForm : Bool := false
  segmentShown : Bool := false

/-- the heading of an instruction: special spellings by width or address size, suffixes of
pushes, pops and saves, no suffix for returns, enters and leaves of the mode's width, and the
prefixes of exchanges, stores and string instructions -/
def heading (t : Tables) (i : Instr) : Heading :=
  let op0 := i.operands.get Position.first
  let op1 := i.operands.get Position.second
  let suffix := if op0.type = .off ∧ op0.size = 2 then "w" else widthSuffix i.operandsz
  let h : Heading := { mnemonic := t.name i.type, suffix }
  let byWidth (names : Nat → Option String) : Heading :=
    { h with mnemonic := (names i.operandsz).getD h.mnemonic, suffix := "" }
  let segWord := op0.size = 2 ∧ op0.type = .reg ∧ op0.misc = RegType.seg
  match t.mnemonic? i.type with
  | some "C_SEP" => byWidth fun | 2 => some "cwd" | 4 => some "cdq" | 8 => some "cqo" | _ => none
  | some "C_EX" => byWidth fun | 2 => some "cbw" | 4 => some "cwde" | 8 => some "cdqe" | _ => none
  | some "CMPXCHGD" => byWidth fun | 4 => some "cmpxchg8b" | 8 => some "cmpxchg16b" | _ => none
  | some "JCXZ" =>
    match i.addrsz with
    | 4 => { h with mnemonic := "jecxz" }
    | 8 => { h with mnemonic := "jrcxz" }
    | _ => h
  | some "PUSH" =>
    let h := if op0.size = 2 ∧ op0.type = .imm then { h with suffix := "w" } else h
    if segWord then { h with suffix := "w" } else h
  | some "POP" => if segWord then { h with suffix := "w" } else h
  | some "XCHG" => if op0.type = .mem then { h with lockForm := true } else h
  | some "MOV" =>
    if i.rep ∧ op0.type = .mem ∧ op1.type = .imm then { h with lockForm := true } else h
  | some "FXSAVE" | some "FXRSTOR" | some "XSAVE" | some "XSAVEC" | some "XSAVEOPT"
  | some "XSAVES" | some "XRSTOR" | some "XRSTORS" =>
    { h with suffix := if i.operandsz = 8 then "64" else "" }
  | some "RET" | some "ENTER" | some "LEAVE" =>
    if i.operandsz = (if i.long then 8 else 4) then { h with suffix := "" } else h
  | some "LODS" | some "MOVS" | some "CMPS" | some "OUTS" =>
    { h with stringForm := true, segmentShown := true }
  | some "STOS" | some "SCAS" | some "INS" => { h with stringForm := true }
  | _ => h

/-- the prefix pieces and the mnemonic -/
def headPieces (i : Instr) (h : Heading) : List String :=
  (if h.lockForm || i.lock then
      (if i.rep then ["xrelease "] else []) ++ (if i.repnz then ["xacquire "] else [])
    else if h.stringForm then
      (if i.rep then ["rep "] else []) ++ (if i.repnz then ["repnz "] else [])
    else []) ++
  (if i.lock then ["lock "] else []) ++
  (if h.stringForm then
      if i.long ∧ i.addrsz = 4 then ["addr32 "]
      else if !i.long ∧ i.addrsz = 2 then ["addr16 "]
      else []
    else []) ++
  (if h.segmentShown ∧ i.segment ≠ noReg then [regName RegType.seg i.segment 2, " "] else []) ++
  [h.mnemonic, h.suffix]

/-- the name of a memory operand's size -/
def ptrName : Nat → Option String
  | 1 => some "byte" | 2 => some "word" | 4 => some "dword" | 6 => some "fword"
  | 8 => some "qword" | 10 => some "tbyte" | 16 => some "xmmword" | 32 => some "ymmword"
  | 64 => some "zmmword" | _ => none

/-- the size a memory operand is shown with, and the register type and size of its index:
compare-exchanges of two words, bounds of two sizes, far pointers with a selector, x87 loads
and stores of ten bytes, and gathers with vector indices -/
def memShape (t : Tables) (i : Instr) (size : Nat) : Nat × Nat × Nat :=
  let first := (i.operands.get Position.first).size
  let plain := (size, RegType.gpl, i.addrsz)
  match t.mnemonic? i.type with
  | some "CMPXCHGD" => (2 * i.operandsz, RegType.gpl, i.addrsz)
  | some "BOUND" => (2 * size, RegType.gpl, i.addrsz)
  | some "JMPF" | some "CALLF" | some "LDS" | some "LES" | some "LFS" | some "LGS"
  | some "LSS" => (size + 2, RegType.gpl, i.addrsz)
  | some "FLD" | some "FSTP" | some "FBLD" | some "FBSTP" =>
    (if size ≠ 0 then size else 10, RegType.gpl, i.addrsz)
  | some "VPGATHERQD" | some "VGATHERQPS" => (size, RegType.vec, first * 2)
  | some "VPGATHERDQ" | some "VGATHERDPD" => (size, RegType.vec, first / 2)
  | some "VPGATHERDD" | some "VPGATHERQQ" | some "VGATHERDPS" | some "VGATHERQPD" =>
    (size, RegType.vec, first)
  | _ => plain

/-- the displacement pieces of a memory operand: with a base or index a sign and the
magnitude when nonzero, without either the plain number, masked to the address size -/
def dispPieces (addrsz : Nat) (disp : UInt64) (hasBase hasIdx : Bool) : List String :=
  let d := disp.toNat
  let negative := d ≥ Word.signBit
  let (sign, d) :=
    if d ≠ 0 ∧ (hasBase || hasIdx) then
      if negative then (["-"], Word.modulus - d) else (["+"], d)
    else ([], d)
  let d := match addrsz with | 2 => Word.low 16 d | 4 => Word.low 32 d | _ => d
  sign ++ (if d ≠ 0 ∨ (!hasBase && !hasIdx) then [hex d] else [])

/-- the pieces of a memory operand -/
def memPieces (t : Tables) (i : Instr) (o : Operand) : List String :=
  let (size, idxType, idxSize) := memShape t i o.size
  let hasBase := o.reg ≠ noReg
  let hasIdx := o.index ≠ noReg
  (match ptrName size with | some p => [p, " ptr "] | none => []) ++
  (if i.segment ≠ noReg then [regName RegType.seg i.segment 2, ":"] else []) ++
  ["["] ++
  (if hasBase then [regName RegType.gpl o.reg i.addrsz] else []) ++
  (if hasIdx then
      (if hasBase then ["+"] else []) ++
      [["1*", "2*", "4*", "8*"].getD o.scale "", regName idxType o.index idxSize]
    else []) ++
  dispPieces i.addrsz i.disp hasBase hasIdx ++ ["]"]

/-- the pieces of an immediate or offset operand: two immediates in one for the bit field
extracts and inserts, `ENTER`, and far jumps and calls (selector and offset); an offset is
made absolute from the address and the instruction's size -/
def immPieces (t : Tables) (i : Instr) (o : Operand) (addr : UInt64) : List String :=
  let v := i.imm.toNat
  let (head, v) : List String × Nat :=
    match t.mnemonic? i.type with
    | some "SSE_EXTRQ" | some "SSE_INSERTQ" => ([hex (v % 256), ", "], (v >>> 8) % 256)
    | some "ENTER" => ([hex (v % 65536), ", "], (v >>> 16) % 256)
    | some "JMPF" | some "CALLF" => ([hex ((v >>> ((8 * o.size) % 64)) % 65536), ":"], v)
    | _ => ([], v)
  let v := if o.type = .off then (v + addr.toNat + i.size) % Word.modulus else v
  head ++ [hex (maskTo o.size v)]

/-- the pieces of one operand -/
def operandPieces (t : Tables) (i : Instr) (addr : UInt64) (o : Operand) : List String :=
  match o.type with
  | .reg => [regName o.misc o.reg o.size]
  | .mem => memPieces t i o
  | .imm | .off => immPieces t i o addr
  | .none => []

/-- the pieces of an instruction's text, with offsets made absolute from `addr` -/
def pieces (t : Tables) (i : Instr) (addr : UInt64) : List String :=
  headPieces i (heading t i) ++
  (i.shown.zipIdx.flatMap fun (o, k) =>
    (if k = 0 then " " else ", ") :: operandPieces t i addr o)

/-- the text of an instruction in a buffer of `len` places, offsets absolute from `addr` -/
def formatAbs (t : Tables) (i : Instr) (addr : UInt64) (len : Nat) : String :=
  Text.fill len (pieces t i addr)

/-- memory after the text of an instruction is written into the buffer of its `len` places from
`base`, offsets absolute from `addr` -/
def formatAbsInto (t : Tables) (i : Instr) (addr : UInt64) (mem : Nat → Char) (base len : Nat) :
    Nat → Char :=
  Text.write mem base len (pieces t i addr)

/-- the text of an instruction in a buffer of `len` places, offsets from address zero -/
def format (t : Tables) (i : Instr) (len : Nat) : String := formatAbs t i 0 len

end X86Codec.Decoder
