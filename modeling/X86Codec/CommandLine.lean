import X86Codec.DecodeTable.Build
import X86Codec.EncodeTable.Build
/-!
The table generator's command line.

Usage: `[--32] [--64] [--with-undoc] [-h] LISTING DECODE_MNEMS DECODE_TABLE ENCODE_MNEMS
ENCODE_TABLE`. `--32` and `--64` add a decoder mode each, in the order given; without either
the generator has no mode list and fails. A long option may be shortened to any prefix that
names only one option; `--` ends the options; `-` and words that read as negative numbers
are operands. Operands fill the five file slots in order as they appear; the listing must be
readable when its slot is filled.

Reading stops at the first usage error with status 2 and at `-h` with status 0; an unknown
option or a sixth operand is reported with status 2 once all words are read.

The generator reads the listing, builds the decoder's tables for the modes and the encoder's
tables, and writes four texts: decoder mnemonics, decoder tables, encoder mnemonics, encoder
descriptors. Its report line goes to the standard output.
-/

namespace X86Codec.CommandLine

/-- the options a command line sets -/
inductive Flag where
  | mode32 | mode64 | undoc | help
  deriving DecidableEq, Repr

/-- the long option words -/
def longOptions : List (String × Flag) :=
  [("--32", .mode32), ("--64", .mode64), ("--with-undoc", .undoc), ("--help", .help)]

/-- what a command line asks for -/
structure Options where
  modes : Option (List Int) := none
  withUndoc : Bool := false
  files : List String := []
  unknown : Bool := false
  deriving Repr

/-- a word that reads as a negative number: a minus, then digits with at most one point
followed by digits -/
def negativeNumber (w : String) : Bool :=
  match w.toList with
  | '-' :: rest =>
    let (whole, frac) := rest.span Char.isDigit
    (!whole.isEmpty && frac.isEmpty) ||
      (match frac with
        | '.' :: ds => !ds.isEmpty && ds.all Char.isDigit
        | _ => false)
  | _ => false

/-- the options with one flag applied -/
def Options.apply (o : Options) : Flag → Except Failure Options
  | .mode32 => .ok { o with modes := some (o.modes.getD [] ++ [32]) }
  | .mode64 => .ok { o with modes := some (o.modes.getD [] ++ [64]) }
  | .undoc => .ok { o with withUndoc := true }
  | .help => .error (.usage 0)

/-- the options with an operand placed in the next file slot; `readable` says whether the
listing can be read from a path -/
def Options.operand (readable : String → Bool) (o : Options) (w : String) :
    Except Failure Options :=
  if o.files.isEmpty && !readable w then .error (.usage 2)
  else .ok { o with files := o.files ++ [w] }

/-- the options with a long option word applied -/
def Options.long (o : Options) (w : String) : Except Failure Options :=
  let (name, explicit) := match w.splitOn "=" with
    | [n] => (n, false)
    | n :: _ => (n, true)
    | [] => (w, false)
  match longOptions.find? (·.1 == name) with
  | some (_, f) => if explicit then .error (.usage 2) else o.apply f
  | none =>
    match longOptions.filter (·.1.startsWith name) with
    | [(_, f)] => if explicit then .error (.usage 2) else o.apply f
    | [] => .ok { o with unknown := true }
    | _ => .error (.usage 2)

/-- the options after reading the words; `operands` is set after `--` -/
def readWords (readable : String → Bool) : Options → Bool → List String → Except Failure Options
  | o, _, [] => .ok o
  | o, true, w :: ws => do readWords readable (← o.operand readable w) true ws
  | o, false, w :: ws =>
    if w = "--" then readWords readable o true ws
    else if w = "-" || !w.startsWith "-" || negativeNumber w then do
      readWords readable (← o.operand readable w) false ws
    else if w.startsWith "--" then do
      readWords readable (← o.long w) false ws
    else if w.startsWith "-h" then
      -- a cluster of short options: only `-h` exists
      if (w.toList.drop 2).all (· = 'h') then .error (.usage 0) else .error (.usage 2)
    else readWords readable { o with unknown := true } false ws

/-- read a command line -/
def parse (readable : String → Bool) (words : List String) : Except Failure Options := do
  let o ← readWords readable {} false words
  if o.unknown || o.files.length ≠ 5 then throw (.usage 2)
  return o

/-- what a run writes: the four texts and the report line -/
structure Outcome where
  decodeMnemonics : String
  decodeTable : String
  encodeMnemonics : String
  encodeTable : String
  report : String

/-- the nesting level at which the command line builds the decoder table text: the script
runs five levels below the level of a direct call -/
def tableDepth : Nat := NameTable.ownDepth + 5

/-- generate the tables from the listing text -/
def generate (o : Options) (listing : String) : Except Failure Outcome := do
  let entries ← Entry.ofLines (Text.lines listing) o.withUndoc
  let some modes := o.modes | throw .noModes
  let t ← DecodeTables.build entries modes
  let table ← t.tableText tableDepth
  let m ← EncodeTable.variantMap entries
  return { decodeMnemonics := t.mnemonicText, decodeTable := table,
           encodeMnemonics := EncodeTable.mnemonicText m, encodeTable := EncodeTable.descText m,
           report := t.image.report }

/-- the size of the chunk a text file writer holds back before writing -/
def writeChunk : Nat := 8192

/-- what a reader sees of an output file while its writer is still open: the writer holds a
text shorter than one chunk back, so such a text reads back empty -/
def seenWhileOpen (text : String) : String :=
  if text.utf8ByteSize ≥ writeChunk then text else ""

end X86Codec.CommandLine
