import X86Codec.Listing.Entry
import X86Codec.DecodeTable.Trie
import X86Codec.DecodeTable.Names
import X86Codec.Text.Case
/-!
The decoder's tables built from listing entries, and their text.

Mnemonics are numbered in sorted order. Each entry's descriptor is packed (a mandatory prefix
other than `NFx` makes a 66 prefix meaningless; a ModRM form or fixed ModRM byte sets the
ModRM flag), equal packed descriptors share one number, and the entry's path is added under
the root slot of each mode unless the entry is flagged `ONLY` for the other mode (`ONLY64`
for mode 32, `ONLY32` for mode 64; in general `ONLY` and 96 minus the mode). The trie is then
merged and laid out.

Printed names are the mnemonics in lower case with the vector set markers `SSE_`, `MMX_`,
`RESERVED_`, `_S2G`, `_G2S`, `_CR`, `_DR` removed, `MOVABS` printed as `mov`, far jumps and
calls as `jmp far`, `call far`, and `REP_` as `rep `.
-/

namespace X86Codec

/-- a packed descriptor: its mnemonic and three 16-bit words -/
structure PackedDesc where
  mnemonic : String
  words : Nat × Nat × Nat
  deriving DecidableEq, Repr, Hashable

/-- the decoder's tables before they are printed -/
structure DecodeTables where
  modes : List Int
  mnemonics : List String
  descs : Array PackedDesc
  image : Trie.Image

namespace DecodeTables

/-- the sorted distinct mnemonics of the entries -/
def mnemonicsOf (entries : List Entry) : List String :=
  sortedDistinct (entries.map (·.desc.mnemonic))

/-- whether the entry's mandatory prefix makes a 66 prefix meaningless -/
def ignores66 (o : Opcode) : Bool :=
  match o.mandatory with
  | some .nfx | none => false
  | some _ => true

/-- whether the entry's pattern fixes a ModRM byte -/
def hasModrm (o : Opcode) : Bool := o.modrm.isSome || o.fixedModrm.isSome

/-- the flag that keeps an entry out of a mode's tables -/
def excludeFlag (mode : Int) : String := "ONLY" ++ toString (96 - mode)

/-- the packed descriptor of an entry -/
def packedDesc (e : Entry) : Except Failure PackedDesc := do
  let words ← e.desc.words (ignores66 e.opcode) (hasModrm e.opcode)
  pure { mnemonic := e.desc.mnemonic, words }

/-- add an entry's path for descriptor `idx` under the root slot of each mode (paired with
its slot number) that the entry is not kept out of -/
def addToModes (e : Entry) (idx : Nat) : List (Int × Nat) → TrieM Unit
  | [] => pure ()
  | (mode, i) :: rest => do
    if !e.desc.has (excludeFlag mode) then Trie.add e.opcode.path idx i e.weak
    addToModes e idx rest

/-- add the entries to the trie, numbering packed descriptors in order of first use -/
def addEntries (modes : List Int) :
    List Entry → Array PackedDesc → Std.HashMap PackedDesc Nat →
      EStateM Failure Trie (Array PackedDesc)
  | [], descs, _ => pure descs
  | e :: rest, descs, seen => do
    let pd ← match packedDesc e with
      | .ok pd => pure pd
      | .error err => throw err
    let (idx, descs, seen) := match seen[pd]? with
      | some i => (i, descs, seen)
      | none => (descs.size, descs.push pd, seen.insert pd descs.size)
    addToModes e idx modes.zipIdx
    addEntries modes rest descs seen

/-- build the decoder's tables for the given modes -/
def build (entries : List Entry) (modes : List Int) : Except Failure DecodeTables :=
  let run : EStateM Failure Trie (Array PackedDesc × Trie.Image) := do
    let descs ← addEntries modes entries #[] {}
    Trie.merge
    let image ← Trie.layout
    pure (descs, image)
  match run.run (Trie.empty modes.length) with
  | .ok (descs, image) _ => .ok { modes, mnemonics := mnemonicsOf entries, descs, image }
  | .error e _ => .error e

/-- the printed name of a mnemonic -/
def printedName (m : String) : String :=
  let m := m.replace "SSE_" "" |>.replace "MMX_" "" |>.replace "MOVABS" "MOV"
    |>.replace "RESERVED_" "" |>.replace "JMPF" "JMP FAR" |>.replace "CALLF" "CALL FAR"
    |>.replace "_S2G" "" |>.replace "_G2S" "" |>.replace "_CR" "" |>.replace "_DR" ""
    |>.replace "REP_" "REP "
  Text.lower m

/-- the printed names of the mnemonics, in mnemonic order -/
def printedNames (t : DecodeTables) : List String := t.mnemonics.map printedName

/-- the root table offset of each mode; a root that merging removed has none -/
def rootOffsets (t : DecodeTables) : Except Failure (List (Int × Nat)) :=
  (t.modes.zip t.image.roots).mapM fun (mode, off) =>
    match off with
    | some o => .ok (mode, o)
    | none => .error .removedRoot

/-- the mnemonic list text: one `FD_MNEMONIC(name,number)` line per mnemonic -/
def mnemonicText (t : DecodeTables) : String :=
  String.join (t.mnemonics.zipIdx.map fun (m, i) =>
    "FD_MNEMONIC(" ++ m ++ "," ++ toString i ++ ")\n")

/-- a word as `0x` and at least four hex digits -/
def hexWord (w : Int) : String :=
  let digits := String.ofList (Nat.toDigits 16 w.natAbs)
  let body := "".pushn '0' (4 - digits.length) ++ digits
  (if w < 0 then "-0x" ++ "".pushn '0' (3 - digits.length) ++ digits else "0x" ++ body)

/-- the table text: words, descriptors, name table and root offsets; `depth` is the nesting
level of the text builder, whose name table nests one level deeper -/
def tableText (t : DecodeTables) (depth : Nat) : Except Failure String := do
  let roots ← t.rootOffsets
  let words := String.join (t.image.words.toList.map fun w => hexWord w ++ ",")
  let descs := "\n".intercalate (t.descs.toList.map fun d =>
    let (w0, w1, w2) := d.words
    "\x7bFDI_" ++ d.mnemonic ++ "," ++ toString w0 ++ "," ++ toString w1 ++ "," ++
      toString w2 ++ "\x7d,")
  let (nameText, offsetText) ← NameTable.render (depth + 1) t.printedNames
  let defines := "\n".intercalate (roots.map fun (mode, off) =>
    "#define FD_TABLE_OFFSET_" ++ toString mode ++ " " ++ toString off)
  return "// Auto-generated file -- do not modify!\n" ++
    "#if defined(FD_DECODE_TABLE_DATA)\n" ++ words ++ "\n" ++
    "#elif defined(FD_DECODE_TABLE_DESCS)\n" ++ descs ++ "\n" ++
    "#elif defined(FD_DECODE_TABLE_STRTAB1)\n" ++ nameText ++ "\n" ++
    "#elif defined(FD_DECODE_TABLE_STRTAB2)\n" ++ offsetText ++ "\n" ++
    "#elif defined(FD_DECODE_TABLE_DEFINES)\n" ++ defines ++ "\n" ++
    "#else\n#error \"unspecified decode table\"\n#endif\n"

end DecodeTables

end X86Codec
