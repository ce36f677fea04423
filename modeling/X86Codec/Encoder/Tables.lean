import Std.Data.HashMap
import X86Codec.Word
import X86Codec.EncodeTable.Build
/-!
The tables the encoder reads.

Encoder mnemonics are numbered in sorted order; their count is the first number past them.
Each name's first descriptor sits at its number and the descriptors it falls back to at the
places after all names, each holding the place of the next (0 for none). A descriptor holds
the opcode word, the encoding, the immediate width and four bits per operand naming the
register class it needs, each cut to the width of its field: 26 bits for the opcode word,
4 for the immediate width, 13 for the alternative and 16 for the classes. Places no line
names hold a descriptor without encoding.
-/

namespace X86Codec.Encoder

/-- one encoder descriptor -/
structure EncDesc where
  opc : Nat := 0
  encoding : Option Encoding := none
  immsz : Nat := 0
  alt : Nat := 0
  tys : Nat := 0
  deriving DecidableEq, Repr

/-- the encoder's tables -/
structure Tables where
  names : Array String
  numbers : Std.HashMap String Nat
  descs : Array EncDesc

namespace Tables

/-- the first number past the mnemonics -/
def count (t : Tables) : Nat := t.names.size

/-- the place of a descriptor slot -/
def place (numbers : Std.HashMap String Nat) (count : Nat) : EncodeTable.DescSlot → Nat
  | .named n => numbers.getD n 0
  | .extra k => count + k

/-- the descriptor a line writes -/
def descOf (numbers : Std.HashMap String Nat) (count : Nat) (l : EncodeTable.Line) : EncDesc :=
  { opc := Word.low 26 l.variant.opc.value
    encoding := Encoding.ofName? l.variant.encoding
    immsz := (l.variant.immWidth % 16).toNat
    alt := Word.low 13 ((l.alt.map (place numbers count)).getD 0)
    tys := Word.low 16 l.variant.classes }

/-- the tables of a variant map -/
def ofMap (m : VariantMap) : Tables :=
  let names := (EncodeTable.sortedNames m).toArray
  let numbers := names.toList.zipIdx.foldl (fun h (n, i) => h.insert n i) ({} : Std.HashMap String Nat)
  let count := names.size
  let placed := (EncodeTable.lines m).map fun l => (place numbers count l.slot, descOf numbers count l)
  let size := placed.foldl (fun s (p, _) => max s (p + 1)) 0
  let descs := placed.foldl (fun a (p, d) => a.setIfInBounds p d) (Array.replicate size {})
  { names, numbers, descs }

/-- the tables of no mnemonics -/
def empty : Tables := { names := #[], numbers := {}, descs := #[] }

/-- the number of a mnemonic -/
def number? (t : Tables) (name : String) : Option Nat := t.numbers[name]?

/-- the descriptor at a place; places past the end hold none -/
def desc (t : Tables) (i : Nat) : EncDesc := t.descs.getD i {}

end Tables

/-- the encoder's tables for the listing -/
def standardTables : Tables :=
  match Entry.ofLines Listing.lines false >>= EncodeTable.variantMap with
  | .ok m => Tables.ofMap m
  | .error _ => Tables.empty

end X86Codec.Encoder
