import X86Codec.Word
import X86Codec.Text.Blank
import X86Codec.Listing.Operand
import X86Codec.Listing.Layout
import X86Codec.Listing.SizeSet
/-!
Instruction descriptors: the columns of a listing line after the opcode pattern.

The columns are the encoding, four operand columns (`-` for none), the mnemonic and any
number of flags. From a descriptor the library computes the width of its immediate, the role
letter of each operand, the encoder's register class codes, and the packed layout the decoder
reads.

Size codes: a fixed size of 1, 2, 4, 8, 16, 32 or 64 bytes has code 1 to 7, sizes 0 and 10
have code 0, the operand size code -2 and the vector size code -3. A layout has two slots for
fixed sizes; sizes outside 1..4 bytes must come first, so at most one of them fits.
-/

namespace X86Codec

/-- a parsed descriptor -/
structure Descriptor where
  mnemonic : String
  encoding : String
  operands : List OperandKind
  /-- the flags, sorted and without repeats -/
  flags : List String
  deriving Repr

/-- the position of the first element equal to `a` -/
def firstIndex [BEq α] (xs : List α) (a : α) : Nat :=
  match xs with
  | [] => 0
  | x :: rest => if x == a then 0 else firstIndex rest a + 1

/-- the distinct elements of a list of strings, sorted -/
def sortedDistinct (xs : List String) : List String :=
  (xs.mergeSort fun a b => decide (a ≤ b)).eraseDups

namespace Descriptor

/-- read the descriptor columns of a listing line -/
def parse (s : String) : Except Failure Descriptor := do
  let ws := Text.words s
  let operands ← (((ws.drop 1).take 4).filter (· ≠ "-")).mapM OperandKind.parse
  match ws[5]?, ws[0]? with
  | some mnemonic, some encoding =>
    pure { mnemonic, encoding, operands, flags := sortedDistinct (ws.drop 6) }
  | _, _ => throw (.pastEnd .list)

/-- whether a flag is set -/
def has (d : Descriptor) (flag : String) : Bool := d.flags.contains flag

/-- the width of the immediate in bytes, for an instruction of operand size `opSize` -/
def immWidth (d : Descriptor) (opSize : Option Int) : Except Failure Int := do
  let r := (← Encoding.lookup d.encoding).roles
  if r.immControl < 3 then return 0
  if r.immControl = 3 then return 1
  if d.mnemonic = "ENTER" then return 3
  if d.has "IMM_8" then return 1
  let most : Int := if d.mnemonic ≠ "MOVABS" then 4 else 8
  match d.operands[r.immIdx ^^^ 3]? with
  | none => throw (.pastEnd .tuple)
  | some k => return min most (← k.absSize opSize none)

/-- the role letter of each operand, as the encoding gives them -/
def operandRoles (d : Descriptor) : Except Failure String := do
  return (← Encoding.lookup d.encoding).roleLetters

/-- the encoder's register class code of an operand class that is not general-purpose -/
def classCode : OperandClass → Option Nat
  | .seg => some 3 | .fpu => some 4 | .mmx => some 5 | .xmm => some 6 | .bnd => some 8
  | .cr => some 9 | .dr => some 10 | _ => none

/-- the encoder's operand class code for a role letter and an operand -/
def operandCode (d : Descriptor) (opSize : Option Int) (role : Char) (k : OperandKind) :
    Except Failure Nat := do
  if role = 'm' then return 0xf
  if role = 'i' || role = 'o' || role = 'a' then return 0
  if k.cls = .gp then
    if d.mnemonic = "MOVSX" || d.mnemonic = "MOVZX" || opSize == some 1 then
      return if (← k.absSize opSize none) = 1 then 2 else 1
    return 1
  match classCode k.cls with
  | some c => return c
  | none => throw (.noRegisterClass k.cls.name)

/-- the encoder's operand class codes, four bits per operand, for the given role letters -/
def registerClasses (d : Descriptor) (roles : String) (opSize : Option Int) :
    Except Failure Nat := do
  let codes ← (roles.toList.zip d.operands).mapM fun (r, k) => d.operandCode opSize r k
  return codes.zipIdx.foldr (fun (c, i) total => (c <<< (4 * i)) + total) 0

/-- the size code of an operand size -/
def sizeCode : Int → Option Int
  | 0 => some 0 | 1 => some 1 | 2 => some 2 | 4 => some 3 | 8 => some 4 | 16 => some 5
  | 32 => some 6 | 64 => some 7 | 10 => some 0 | -1 => some (-2) | -2 => some (-3)
  | _ => none

/-- the size code of an operand -/
def operandSizeCode (k : OperandKind) : Except Failure Int :=
  match sizeCode k.size.code with
  | some c => .ok c
  | none => .error (.noSizeCode k.size.code)

/-- a fixed size code that the second size slot can hold -/
def narrow (c : Int) : Bool := 1 ≤ c && c ≤ 4

/-- the fixed size codes in the order they take the two size slots: codes the second slot
cannot hold first, each group in the slot order of the size set -/
def fixedSizes (codes : List Int) : List Int :=
  let fixed := (SizeSet.ofList codes).filter (0 ≤ ·)
  fixed.filter (! narrow ·) ++ fixed.filter narrow

/-- the decoder's register class of an operand -/
def decodeClass : OperandClass → Nat
  | .gp => 0 | .fpu => 1 | .xmm => 2 | .mask => 3 | .mmx => 4 | .bnd => 5 | .seg => 6
  | _ => 7

/-- the size choice and register class of each operand, with its position; the size choice
is the position of the operand's size code in `sizes`, and a fourth operand has no register
class field, so it must be a vector register or not a register -/
def operandFields (sizes : List Int) : List (OperandKind × Nat) → Layout → Except Failure Layout
  | [], l => .ok l
  | (k, i) :: rest, l => do
    let code ← operandSizeCode k
    let l := l.set (Field.opSize i) (firstIndex sizes code)
    if i < 3 then
      operandFields sizes rest (l.set (Field.opRegty i) (decodeClass k.cls))
    else if decodeClass k.cls ≠ 7 && decodeClass k.cls ≠ 2 then
      throw .badFourthOperand
    else operandFields sizes rest l

/-- the fields the flags set: the operand size rule (the last of `SIZE_8`, `DEF64` and
`FORCE64` wins), the instruction's own width, lock, vector index, ModRM and the ignored 66
prefix -/
def flagFields (d : Descriptor) (ign66 modrm : Bool) (l : Layout) : Layout :=
  let l := if d.has "SIZE_8" then l.set .opsize 1 else l
  let l := if d.has "DEF64" then l.set .opsize 2 else l
  let l := if d.has "FORCE64" then l.set .opsize 3 else l
  let l := if d.has "INSTR_WIDTH" then l.set .instrWidth 1 else l
  let l := if d.has "LOCK" then l.set .lock 1 else l
  let l := if d.has "VSIB" then l.set .vsib 1 else l
  let l := if modrm then l.set .modrm 1 else l
  if !d.has "USE66" && (ign66 || d.has "IGN66") then l.set .ign66 1 else l

/-- the packed layout the decoder reads; `ign66` says the opcode's mandatory prefix makes a
66 prefix meaningless, `modrm` that the opcode carries a ModRM byte -/
def layout (d : Descriptor) (ign66 modrm : Bool) : Except Failure Layout := do
  let enc ← Encoding.lookup d.encoding
  let codes ← d.operands.mapM operandSizeCode
  let fixed := fixedSizes codes
  if fixed.length > 2 || (fixed.length = 2 && !narrow (fixed.getD 1 0)) then
    throw (.badFixedSizes fixed)
  let sizes := (fixed ++ [1, 1]).take 2 ++ [-2, -3]
  let l := enc.layout |>.set .sizeFix1 (sizes.getD 0 0) |>.set .sizeFix2 (sizes.getD 1 0 - 1)
  let l ← operandFields sizes d.operands.zipIdx l
  let l := d.flagFields ign66 modrm l
  if (← d.immWidth (some (if d.has "SIZE_8" then 1 else 8))) = 1 then
    return l.set .immControl (enc.roles.immControl ||| 1 : Nat)
  return l

/-- the three 16-bit words of the packed layout, lowest first -/
def words (d : Descriptor) (ign66 modrm : Bool) : Except Failure (Nat × Nat × Nat) := do
  let v := (← d.layout ign66 modrm).pack
  return (Word.low 16 v, Word.low 16 (v >>> 16), Word.low 16 (v >>> 32))

end Descriptor

end X86Codec
