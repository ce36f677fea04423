import X86Codec.Proofs.ReadBack
/-!
The promise that pairs an encoder descriptor with the decoder's tables.

The encoder and the decoder read two tables made apart from the same listing. For the bytes one
descriptor of the encoder writes to be decoded as what it was asked for, the decoder's walk must
end, for every opcode byte and ModRM byte the descriptor can write (`opcodeBytes`, `modrmBytes`),
on an instruction whose descriptor reads the operands where the encoder put them (`Agrees`), or on
an empty entry, which refuses the bytes (`PairedAt`). That is a finite matter of the two tables,
decided for any pair of them. Three more kinds of descriptor are read otherwise: the encoder's
no-op, which the decoder reads as the exchange that may be a no-op and finishes as NOP
(`NopAt`); the fences LFENCE, MFENCE and SFENCE, written without the ModRM byte the decoder wants
(`WaitsAt`); and the encodings that put one operand both in ModRM reg and in VEX.vvvv. A
descriptor of one of the four kinds, or one the encoder cannot write, is covered (`Covered`); on
the standard tables every descriptor on a chain is, but the two of the 3DNow! instructions.

Main statements:
- `Agrees`, `WalksTo`, `PairedAt`, `NopAt`, `WaitsAt`, `Covered`: the promise, with its decision
  procedures;
- `walk_byte`, `walkEntry_mem_endings`: after an opcode byte a walk ends on one of the endings
  the promise looks at.
-/
namespace X86Codec

open Encoder Decoder

namespace Encoder

/-- the class code a descriptor needs of the operand at a position -/
def EncDesc.classAt (d : EncDesc) (i : Position) : Nat := (d.tys >>> (4 * i.val)) % 16

/-- the position the decoder reads from ModRM rm, or from the opcode byte's low bits in the
register form: the ModRM operand, else a register in the opcode byte -/
def EncodingInfo.rmSlot (info : EncodingInfo) : Option Position := info.modrm.or info.modreg

/-- the position the decoder reads from ModRM reg: the reg operand beside a ModRM operand, and the
segment register an S encoding puts in the opcode byte -/
def regSlot (e : Encoding) : Option Position :=
  if (encodingInfo e).modrm.isSome then (encodingInfo e).modreg
  else if e = .s then some Position.first else none

/-- the position of the immediate, when the encoding has one -/
def EncodingInfo.immSlot (info : EncodingInfo) : Option Position :=
  if info.immCtl = 0 then none else some info.immIdx

/-- every position the decoder writes an operand to for an encoding -/
def slots (e : Encoding) : List Position :=
  (encodingInfo e).rmSlot.toList ++ (regSlot e).toList ++ (encodingInfo e).vexreg.toList ++
    (encodingInfo e).zreg.toList ++ (encodingInfo e).immSlot.toList

/-- the positions an encoding reads a register from: the rm slot unless it is memory, the reg
slot, the VEX operand and the fixed register -/
def registerRoles (d : EncDesc) (e : Encoding) : List Position :=
  ((encodingInfo e).rmSlot.filter (d.classAt · ≠ 15)).toList ++ (regSlot e).toList ++
    (encodingInfo e).vexreg.toList ++ (encodingInfo e).zreg.toList

/-- the reg fields a ModRM byte of the descriptor can hold: a register's low bits (six segment
registers), or the digit of the opcode word -/
def regFields (d : EncDesc) (e : Encoding) : List Nat :=
  match (encodingInfo e).modreg with
  | some r => if d.classAt r = 3 then List.range 6 else List.range 8
  | none => [((d.opc &&& 0xff00) >>> 8) % 8]

/-- the mode fields of a ModRM byte: the memory forms for a memory operand, else the register
form -/
def modFields (d : EncDesc) (e : Encoding) : List Nat :=
  match (encodingInfo e).modrm with
  | some m => if d.classAt m = 15 then [0, 1, 2] else [3]
  | none => []

/-- the bytes the encoder can write after the opcode byte that the decoder reads as a ModRM
byte: the fixed one of a two-byte opcode, or every byte of the operand's form -/
def modrmBytes (d : EncDesc) (e : Encoding) : List Nat :=
  if twoByte d.opc then [(d.opc >>> 8) % 256]
  else (modFields d e).flatMap fun md => (regFields d e).flatMap fun r =>
    (List.range 8).map fun rm => md * 64 + r * 8 + rm

/-- the opcode bytes the encoder can write for a descriptor: with a register in the low three
bits, with a segment register in bits 3 to 5 (bit 5 as the opcode has it), or the opcode's own -/
def opcodeBytes (d : EncDesc) (e : Encoding) : List Nat :=
  if (encodingInfo e).modrm = none ∧ (encodingInfo e).modreg.isSome then
    (List.range 8).map fun r => d.opc % 256 &&& 0xf8 ||| r
  else if e = .s then
    ((List.range 6).filter fun r => (r <<< 3) &&& 0x20 = d.opc &&& 0x20).map fun r => (d.opc ||| r <<< 3) % 256
  else [d.opc % 256]

/-- the mnemonic an encoder name spells a decoder mnemonic with: `MOVABS` as `MOV`, and the
exchange that may be a no-op as `XCHG` -/
def spelledAs (m : String) : String :=
  if m = "MOVABS" then "MOV" else if m = "XCHG_NOP" then "XCHG" else m

/-- whether an encoder name spells a decoder mnemonic: `FE_`, a lock or repeat prefix, the
mnemonic, and then only sizes and operand letters -/
def spells (name m : String) : Bool :=
  ["", "LOCK_", "REP_", "REPZ_", "REPNZ_"].any fun pfx =>
    let head := ("FE_" ++ pfx ++ spelledAs m).toList
    head.isPrefixOf name.toList && (name.toList.drop head.length).all fun ch => !ch.isUpper

end Encoder

namespace Decoder

/-- the entries a walk can end on from the entry after an opcode byte, for the words of a
descriptor: the mandatory prefix of its word, each ModRM byte it can write when the entry is a
table of them, and its VEX.W and VEX.L -/
def Tables.endings (t : Tables) (d : EncDesc) (e : Encoding) (x : Nat × Nat) : List (Nat × Nat) :=
  let q := Prefixes.ofWord d.opc
  let x := if x.1 = WordKind.mandatory then t.step x.2 q.mandatory else x
  let ys := if x.1 = WordKind.modrm ∧ modrmBytes d e ≠ [] then (modrmBytes d e).map (t.modrmEntry x.2)
    else [x]
  ys.map (t.vexEntry · q.vexIndex)

/-- a decoder slot agrees with a role: it is there exactly when the role is, at its position -/
def Slot (present : Bool) (idx : Position) (want : Option Position) : Prop :=
  present = want.isSome ∧ ∀ i ∈ want, idx = i

instance (present : Bool) (idx : Position) (want : Option Position) :
    Decidable (Slot present idx want) :=
  inferInstanceAs (Decidable (_ ∧ _))

/-- the context a descriptor is read in after the prefixes of an opcode word, in 64-bit mode;
the sizes it gives depend on the tables, the descriptor and the prefixes alone -/
def wordContext (t : Tables) (D : DescWords) (opc : Nat) : Context :=
  let q := Prefixes.ofWord opc
  { tables := t, mode := .bits64, window := { bytes := #[] }, prefixes := q, desc := D,
    opSize := operandSize .bits64 D q, vecSize := if hasBit q.rex Rex.vexL then 32 else 16,
    addrSize := addressSize .bits64 q, address := 0 }

/-- whether the decoder turns byte registers 4 to 7 into high byte registers -/
def Context.rewritesBytes (c : Context) : Bool := c.opSize = 1 || c.is "MOVSX" || c.is "MOVZX"

/-- the immediate the decoder reads agrees with the one the encoder writes: at the same
position, read the same way, of the same width; a descriptor that writes no immediate bytes
has no width, which would count in an offset from the instruction pointer -/
def ImmAgrees (c : Context) (d : EncDesc) (info : EncodingInfo) : Prop :=
  if info.immCtl = 0 then c.desc.immControl = 0 ∧ d.immsz = 0
  else c.desc.immIdx = info.immIdx ∧
    if info.immCtl = 1 then c.desc.immControl = 1 ∧ d.immsz = 0
    else if info.immCtl = 2 then c.desc.immControl = 2
    else if info.immCtl = 3 then c.desc.immControl = 3 ∧ d.immsz = 1 ∧ d.classAt info.immIdx = 6
    else c.desc.immControl = info.immCtl + (if d.immsz = 1 then 1 else 0) ∧
      immSize c c.desc.immControl = d.immsz

instance (c : Context) (d : EncDesc) (info : EncodingInfo) : Decidable (ImmAgrees c d info) := by
  unfold ImmAgrees
  infer_instance

instance (opc op : Nat) : Decidable (OpensAt opc op) := by
  unfold OpensAt
  infer_instance

/-- the register type a register of an encoder class is read with: general purpose for classes
1 and 2, else the class's own number (segment 3, x87 4, MMX 5, vector 6) -/
def classType (cls : Nat) : Nat := if cls ≤ 2 then RegType.gpl else cls

/-- **A decoder descriptor agrees with an encoder descriptor** written with an encoding under a
name: it is read as no special move and no 3DNow! instruction; it reads a ModRM byte exactly when
one is written; its operand slots are the encoding's, with the fixed register's number and the
immediate read as written; its memory operand has a vector index when the word says so; a lock
prefix the word has is allowed, on a memory destination; every register role has a class from 1
to 6 and the descriptor declares its type; a high byte register can only be the first or second
operand of a byte instruction without VEX, and no general purpose class is made one; the slots
are distinct and fill the first positions; its mnemonic is the one the name spells, and the
exchange that may be a no-op is paired with registers, named mnemonics and no lock prefix; and the word
holds only the descriptor's 26 bits, with a fixed ModRM byte only when there is no operand in
it, no bits 3 and 4 where a segment register of the segment class goes, and a VEX prefix for a
VEX operand. -/
structure Agrees (t : Tables) (d : EncDesc) (e : Encoding) (name : String) (D : DescWords) : Prop where
  plain : t.movesSpecial D = false ∧ t.isType D.type "3DNOW" = false
  readsModrm : D.modrm = ((encodingInfo e).modrm.isSome || twoByte d.opc)
  rm : Slot D.hasModrm D.modrmIdx (encodingInfo e).rmSlot
  reg : Slot D.hasModreg D.modregIdx (regSlot e)
  vexreg : Slot D.hasVexreg D.vexregIdx (encodingInfo e).vexreg
  implicit : Slot D.hasImplicit D.implicitIdx (encodingInfo e).zreg ∧
    ((encodingInfo e).zreg.isSome → D.implicitVal = (encodingInfo e).zregVal)
  imm : ImmAgrees (wordContext t D d.opc) d (encodingInfo e)
  vsib : D.vsib = has d.opc Opc.vsib
  lock : has d.opc Opc.lock = true → D.lockable = true ∧ (encodingInfo e).modrm = some Position.first ∧
    d.classAt Position.first = 15
  types : ∀ i ∈ registerRoles d e, 1 ≤ d.classAt i ∧ d.classAt i ≤ 6 ∧
    D.declaredType i = classType (d.classAt i)
  highBytes : ∀ i ∈ registerRoles d e, d.classAt i = 2 → i.val < 2 ∧
    (wordContext t D d.opc).rewritesBytes = true ∧ sizeTable (wordContext t D d.opc) (D.sizeChoice i.val) = 1 ∧
    has d.opc Opc.vex = false
  lowBytes : ∀ i ∈ registerRoles d e, d.classAt i = 1 → i.val < 2 →
    (wordContext t D d.opc).rewritesBytes = false ∨ sizeTable (wordContext t D d.opc) (D.sizeChoice i.val) ≠ 1
  distinct : (slots e).Nodup
  contiguous : ∀ i j : Position, i ≤ j → j ∈ slots e → i ∈ slots e
  named : (t.mnemonic? D.type).any (spells name) = true
  exchange : t.isType D.type "XCHG_NOP" = true → t.mnemonic? (t.typeOf "XCHG") = some "XCHG" ∧
    t.mnemonic? (t.typeOf "NOP") = some "NOP" ∧ Position.first ∈ registerRoles d e ∧
    Position.second ∈ registerRoles d e ∧ has d.opc Opc.lock = false
  word : d.opc < 1 <<< 26 ∧
    (twoByte d.opc = true → (encodingInfo e).modrm = none ∧ (encodingInfo e).modreg = none ∧ e ≠ .s) ∧
    (e = .s → d.opc &&& 0x18 = 0 ∧ d.classAt Position.first = 3) ∧ ((encodingInfo e).vexreg.isSome → has d.opc Opc.vex = true)

set_option synthInstance.maxSize 400 in
instance (t : Tables) (d : EncDesc) (e : Encoding) (name : String) (D : DescWords) :
    Decidable (Agrees t d e name D) :=
  decidable_of_iff (_ ∧ _ ∧ _ ∧ _ ∧ _ ∧ _ ∧ _ ∧ _ ∧ _ ∧ _ ∧ _ ∧ _ ∧ _ ∧ _ ∧ _ ∧ _ ∧ _ ∧ _)
    ⟨fun ⟨a, b, c, d, e, f, g, h, i, j, k, l, m, n, o, p, q, r⟩ => ⟨a, b, c, d, e, f, g, h, i, j, k, l, m, n, o, p, q, r⟩,
     fun ⟨a, b, c, d, e, f, g, h, i, j, k, l, m, n, o, p, q, r⟩ => ⟨a, b, c, d, e, f, g, h, i, j, k, l, m, n, o, p, q, r⟩⟩

/-! ## The walk -/

theorem instrAt_instr {t : Tables} {y : Nat × Nat} (h : y.1 = WordKind.instr) :
    t.instrAt y = .ok (t.descs.getD (y.2 / 4) {}) := by
  simp [Tables.instrAt, h]

/-- from a table of opcode bytes the walk reads the opcode byte and goes on after it -/
theorem walk_byte {t : Tables} {root : Nat} {w : Window} {p : Prefixes} {A C : List UInt8} {op : UInt8}
    (hroot : (t.step root p.escape).1 = WordKind.byte) (hw : w.bytes.toList = A ++ op :: C) :
    walk t root w p A.length = (·, A.length + 1) <$>
      t.instrAt (walkEntry t w p (t.step (t.step root p.escape).2 op.toNat) (A.length + 1)) := by
  have hlen := Window.len_of_toList hw
  simp only [List.length_append, List.length_cons] at hlen
  unfold walk
  rw [if_pos ⟨hroot, by omega⟩, Window.byte_at hw]

/-- **The walk ends among the endings.** After an opcode byte, with the mandatory prefix and VEX
index of a descriptor's word, and a ModRM byte the descriptor can write where the decoder looks
for one, the walk ends on one of the descriptor's endings, as long as none of them is a table of
ModRM bytes while a byte follows. -/
theorem walkEntry_mem_endings {t : Tables} {d : EncDesc} {e : Encoding} {w : Window} {p : Prefixes}
    {x : Nat × Nat} {off : Nat} (hmand : p.mandatory = (Prefixes.ofWord d.opc).mandatory)
    (hvex : p.vexIndex = (Prefixes.ofWord d.opc).vexIndex)
    (hbyte : modrmBytes d e ≠ [] → off < w.len ∧ w.byte off ∈ modrmBytes d e)
    (hstop : off < w.len → ∀ y ∈ t.endings d e x, y.1 ≠ WordKind.modrm) :
    walkEntry t w p x off ∈ t.endings d e x := by
  unfold walkEntry
  unfold Tables.endings at hstop ⊢
  dsimp only at hstop ⊢
  rw [hmand, hvex]
  generalize (if x.1 = WordKind.mandatory then t.step x.2 (Prefixes.ofWord d.opc).mandatory else x) = x' at hstop ⊢
  by_cases hm : x'.1 = WordKind.modrm ∧ modrmBytes d e ≠ []
  · obtain ⟨hoff, hmem⟩ := hbyte hm.2
    rw [if_pos hm, if_pos ⟨hm.1, hoff⟩]
    exact List.mem_map_of_mem (List.mem_map_of_mem hmem)
  · rw [if_neg hm] at hstop ⊢
    by_cases hx : x'.1 = WordKind.modrm ∧ off < w.len
    · -- without a ModRM byte to write, a byte that follows would be read as one
      have hend := hstop hx.2 _ (List.mem_map_of_mem (List.mem_singleton_self x'))
      simp [Tables.vexEntry, hx.1, WordKind.modrm, WordKind.vex] at hend
    · rw [if_neg hx]
      exact List.mem_map_of_mem (List.mem_singleton_self x')

/-- the entries the walk can end on for a descriptor from a root, after one of its opcode bytes -/
def Tables.endingsAt (t : Tables) (d : EncDesc) (e : Encoding) (root op : Nat) : List (Nat × Nat) :=
  t.endings d e (t.step (t.step root (Prefixes.ofWord d.opc).escape).2 op)

/-- **The walk for a descriptor's bytes**, from a root: its word's opcode map leads to a table of
opcode bytes, and every opcode byte the descriptor can write ends the opening and ends the walk
only on entries with the property. -/
def WalksTo (t : Tables) (d : EncDesc) (e : Encoding) (root : Nat) (P : Nat × Nat → Prop) : Prop :=
  (t.step root (Prefixes.ofWord d.opc).escape).1 = WordKind.byte ∧
  ∀ op ∈ opcodeBytes d e, OpensAt d.opc op ∧ ∀ x ∈ t.endingsAt d e root op, P x

instance (t : Tables) (d : EncDesc) (e : Encoding) (root : Nat) (P : Nat × Nat → Prop) [DecidablePred P] :
    Decidable (WalksTo t d e root P) := by
  unfold WalksTo
  infer_instance

/-- an entry that is an instruction whose descriptor agrees with an encoder descriptor -/
def Tables.AgreesAt (t : Tables) (d : EncDesc) (e : Encoding) (name : String) (x : Nat × Nat) : Prop :=
  x.1 = WordKind.instr ∧ Agrees t d e name (t.descs.getD (x.2 / 4) {})

instance (t : Tables) (d : EncDesc) (e : Encoding) (name : String) (x : Nat × Nat) :
    Decidable (t.AgreesAt d e name x) :=
  inferInstanceAs (Decidable (_ ∧ _))

/-- **An encoder descriptor is paired with the decoder's tables** under a name, from a root: the
walk for every opcode byte it can write ends on instructions that agree with it or on empty
entries, which the decoder refuses, and on one that agrees at least. A move to a segment register
is so paired: the decoder has no move to CS. -/
def PairedAt (t : Tables) (d : EncDesc) (e : Encoding) (name : String) (root : Nat) : Prop :=
  WalksTo t d e root (fun x => x.1 = WordKind.empty ∨ t.AgreesAt d e name x) ∧
  ∃ op ∈ opcodeBytes d e, ∃ x ∈ t.endingsAt d e root op, t.AgreesAt d e name x

instance (t : Tables) (d : EncDesc) (e : Encoding) (name : String) (root : Nat) :
    Decidable (PairedAt t d e name root) := by
  unfold PairedAt
  infer_instance

/-- a decoder descriptor read as the exchange that may be a no-op: the register in the opcode byte
first, the accumulator second, nothing else; the mnemonic NOP is in the tables -/
structure ExchangeNop (t : Tables) (D : DescWords) : Prop where
  exchange : t.isType D.type "XCHG_NOP" = true
  nop : t.mnemonic? (t.typeOf "NOP") = some "NOP"
  inOpcode : D.modrm = false ∧ D.hasModrm = true ∧ D.modrmIdx = Position.first
  accumulator : D.hasImplicit = true ∧ D.implicitIdx = Position.second ∧ D.implicitVal = 0
  alone : D.hasModreg = false ∧ D.hasVexreg = false ∧ D.immControl = 0

instance (t : Tables) (D : DescWords) : Decidable (ExchangeNop t D) :=
  decidable_of_iff (_ ∧ _ ∧ _ ∧ _ ∧ _)
    ⟨fun ⟨a, b, c, d, e⟩ => ⟨a, b, c, d, e⟩, fun ⟨a, b, c, d, e⟩ => ⟨a, b, c, d, e⟩⟩

/-- **The encoder's no-op** under a name that spells NOP: written as the byte 90 alone, which the
walk from a root ends on the exchange that may be a no-op. -/
def NopAt (t : Tables) (d : EncDesc) (e : Encoding) (name : String) (root : Nat) : Prop :=
  e = .np ∧ d.opc = 0x90 ∧ spells name "NOP" = true ∧
  WalksTo t d e root (fun x => x.1 = WordKind.instr ∧ ExchangeNop t (t.descs.getD (x.2 / 4) {}))

instance (t : Tables) (d : EncDesc) (e : Encoding) (name : String) (root : Nat) :
    Decidable (NopAt t d e name root) := by
  unfold NopAt
  infer_instance

/-- **A descriptor the decoder waits on**: written as its 26-bit word alone, which the walk from a
root ends on tables of ModRM bytes, wanting a byte the descriptor does not write. The fences
LFENCE, MFENCE and SFENCE are so written. -/
def WaitsAt (t : Tables) (d : EncDesc) (e : Encoding) (root : Nat) : Prop :=
  e = .np ∧ d.opc < 1 <<< 26 ∧ twoByte d.opc = false ∧ WalksTo t d e root (fun x => x.1 = WordKind.modrm)

instance (t : Tables) (d : EncDesc) (e : Encoding) (root : Nat) : Decidable (WaitsAt t d e root) := by
  unfold WaitsAt
  infer_instance

end Decoder

namespace Encoder

/-- whether the encoder can write a descriptor: every class code is one it checks, no class of
control, debug or bound registers -/
def EncDesc.Writable (d : EncDesc) : Prop := ∀ k : Position, d.classAt k ≤ 6 ∨ d.classAt k = 15

instance (d : EncDesc) : Decidable d.Writable := by
  unfold EncDesc.Writable
  infer_instance

end Encoder

/-- **An encoder descriptor covered by the decoder's tables**, written under a name: one the
encoder never writes, one that puts the same vector register in ModRM reg and VEX.vvvv (its third
operand a vector register), or one from whose 64-bit root the decoder is paired with it, reads it
as its no-op or waits on a ModRM byte it does not write. A descriptor without encoding is never
written. -/
def Covered (te : Encoder.Tables) (td : Decoder.Tables) (name : String) (j : Nat) : Prop :=
  match (te.desc j).encoding, td.root? 64 with
  | some e, some root => (te.desc j).Writable → (e = .mvr ∧ (te.desc j).classAt Position.third = 6) ∨
      PairedAt td (te.desc j) e name root ∨ NopAt td (te.desc j) e name root ∨ WaitsAt td (te.desc j) e root
  | some e, none => (te.desc j).Writable → e = .mvr ∧ (te.desc j).classAt Position.third = 6
  | none, _ => True

instance (te : Encoder.Tables) (td : Decoder.Tables) (name : String) (j : Nat) :
    Decidable (Covered te td name j) := by
  unfold Covered
  split <;> infer_instance

end X86Codec
