import Std.Data.HashMap
import X86Codec.DecodeTable.Build
import X86Codec.Decoder.Instr
/-!
The tables the decoder reads: the table words, the packed descriptors with their mnemonic
numbers, the root table of each mode, and the name table.

A table word holds an entry kind in its three low bits and, above them, half the offset of
the table it leads to or twice the number of a descriptor: `(w / 8) * 4` is the offset, or
four times the descriptor number.

A packed descriptor is three 16-bit words. The first holds where the operands come from:
two bits each for the ModRM operand, the ModRM reg operand, the VEX operand and the implied
register operand, each 0 for none and otherwise 3 minus the operand's position; the same for
the immediate operand; the implied register's number; whether a lock prefix is allowed; how
the immediate is read; and whether the memory operand has a vector index. The second holds
two bits per operand choosing its size among the two fixed sizes, the operand size and the
vector size; the operand size rule; the two fixed sizes; and whether the instruction's width
is its own. The third holds three bits per register operand naming its register type, whether
the instruction has a ModRM byte and whether a 66 prefix is meaningless for it.
-/

namespace X86Codec.Decoder

/-- a packed descriptor as the decoder reads it -/
structure DescWords where
  type : Nat := 0
  indices : Nat := 0
  sizes : Nat := 0
  regTypes : Nat := 0
  deriving DecidableEq, Repr

namespace DescWords

/-- a two-bit position field at a shift: 0 for none, otherwise 3 minus the position -/
def slotField (w shift : Nat) : Nat := (w >>> shift) % 4

/-- the position a two-bit field names (3 minus the field, which for two bits is the field
with both bits flipped) -/
def slotAt (w shift : Nat) : Position := ⟨3 - slotField w shift, by omega⟩

/-- whether there is a ModRM operand -/
def hasModrm (d : DescWords) : Bool := slotField d.indices 0 ≠ 0
/-- the position of the ModRM operand -/
def modrmIdx (d : DescWords) : Position := slotAt d.indices 0
/-- whether there is a ModRM reg operand -/
def hasModreg (d : DescWords) : Bool := slotField d.indices 2 ≠ 0
/-- the position of the ModRM reg operand -/
def modregIdx (d : DescWords) : Position := slotAt d.indices 2
/-- whether there is a VEX operand -/
def hasVexreg (d : DescWords) : Bool := slotField d.indices 4 ≠ 0
/-- the position of the VEX operand -/
def vexregIdx (d : DescWords) : Position := slotAt d.indices 4
/-- whether there is an implied register operand -/
def hasImplicit (d : DescWords) : Bool := slotField d.indices 6 ≠ 0
/-- the position of the implied register operand -/
def implicitIdx (d : DescWords) : Position := slotAt d.indices 6
/-- the position of the immediate operand -/
def immIdx (d : DescWords) : Position := slotAt d.indices 8
/-- the number of the implied register -/
def implicitVal (d : DescWords) : Nat := (d.indices >>> 10) % 2
/-- whether a lock prefix is allowed -/
def lockable (d : DescWords) : Bool := (d.indices >>> 11) % 2 = 1
/-- how the immediate is read: 0 none, 1 the constant one, 2 an address-sized memory
offset, 3 a register in the high four bits of a byte, 4 to 7 a number (odd: one byte;
6 and 7: relative to the next instruction) -/
def immControl (d : DescWords) : Nat := (d.indices >>> 12) % 8
/-- whether the memory operand has a vector index -/
def vsib (d : DescWords) : Bool := (d.indices >>> 15) % 2 = 1
/-- the operand size rule: 0 the default, 1 one byte, 2 eight bytes by default in 64-bit
mode, 3 always eight bytes in 64-bit mode -/
def opsize (d : DescWords) : Nat := (d.sizes >>> 8) % 4
/-- the first fixed size, as a shift of one half -/
def sizeFix1 (d : DescWords) : Nat := (d.sizes >>> 10) % 8
/-- the second fixed size, as a shift of one -/
def sizeFix2 (d : DescWords) : Nat := (d.sizes >>> 13) % 4
/-- whether the instruction's width is its own rather than an operand's -/
def instrWidth (d : DescWords) : Bool := (d.sizes >>> 15) % 2 = 1
/-- the size choice of an operand -/
def sizeChoice (d : DescWords) (i : Nat) : Nat := (d.sizes >>> (2 * i)) % 4
/-- the register type field of an operand -/
def regTypeField (d : DescWords) (i : Nat) : Nat := (d.regTypes >>> (3 * i)) % 8
/-- whether the instruction has a ModRM byte -/
def modrm (d : DescWords) : Bool := (d.regTypes >>> 14) % 2 = 1
/-- whether a 66 prefix is meaningless -/
def ign66 (d : DescWords) : Bool := (d.regTypes >>> 15) % 2 = 1

end DescWords

/-- the register type a register type field names: general purpose, x87, vector, mask, MMX,
bound, segment, none -/
def regTypeOfField (f : Nat) : Nat := (0xf3857641 >>> (4 * f)) % 16

/-- the decoder's tables -/
structure Tables where
  words : Array Nat
  descs : Array DescWords
  roots : List (Int × Nat)
  mnemonics : Array String
  numbers : Std.HashMap String Nat
  nameText : Array Char
  nameOffsets : Array Nat

namespace Tables

/-- the mnemonic numbers -/
def numbering (mnemonics : List String) : Std.HashMap String Nat :=
  mnemonics.zipIdx.foldl (fun m (s, i) => m.insert s i) {}

/-- the tables the decoder reads, from the built tables -/
def ofBuilt (t : DecodeTables) : Tables :=
  let numbers := numbering t.mnemonics
  let names := t.printedNames
  { words := t.image.words.map fun w => (w % 65536).toNat
    descs := t.descs.map fun d =>
      let (w0, w1, w2) := d.words
      { type := numbers.getD d.mnemonic 0, indices := w0, sizes := w1, regTypes := w2 }
    roots := (t.modes.zip t.image.roots).filterMap fun (m, o) => o.map (m, ·)
    mnemonics := t.mnemonics.toArray
    numbers
    nameText := (NameTable.merged names).toList.toArray
    nameOffsets := (NameTable.offsets names).toArray }

/-- the tables of no instructions -/
def empty : Tables :=
  { words := #[], descs := #[], roots := [], mnemonics := #[], numbers := {},
    nameText := #[], nameOffsets := #[] }

/-- the offset of a mode's root table -/
def root? (t : Tables) (mode : Int) : Option Nat := (t.roots.find? (·.1 == mode)).map (·.2)

/-- one step of the walk: the kind of the entry at a position of a table, and the offset
it leads to or four times its descriptor number -/
def step (t : Tables) (table idx : Nat) : Nat × Nat :=
  let w := t.words.getD (table + idx) 0
  (w % 8, w / 8 * 4)

/-- the mnemonic of an instruction type -/
def mnemonic? (t : Tables) (ty : Nat) : Option String := t.mnemonics[ty]?

/-- whether an instruction type has the mnemonic -/
def isType (t : Tables) (ty : Nat) (m : String) : Bool := t.mnemonic? ty == some m

/-- the number of a mnemonic; a mnemonic the tables lack gets the first number past them -/
def typeOf (t : Tables) (m : String) : Nat := t.numbers.getD m t.mnemonics.size

/-- the characters of the name table from a position up to the next NUL -/
def nameFrom (text : Array Char) (start : Nat) : String :=
  String.ofList ((text.toList.drop start).takeWhile (· ≠ '\x00'))

/-- the name of an instruction type, or `(invalid)` past the last mnemonic -/
def name (t : Tables) (ty : Nat) : String :=
  match t.nameOffsets[ty]? with
  | some off => nameFrom t.nameText off
  | none => "(invalid)"

end Tables

/-- the decoder's tables for the listing, for modes 32 and 64 -/
def standardTables : Tables :=
  match Entry.ofLines Listing.lines false >>= (DecodeTables.build · [32, 64]) with
  | .ok t => Tables.ofBuilt t
  | .error _ => Tables.empty

end X86Codec.Decoder
