import X86Codec.Proofs.ReadStages
/-!
The bytes of a paired descriptor, decoded.

The encoder writes a request as the word of a descriptor on its mnemonic's chain, then the
ModRM byte of its rm operand, a register in the opcode byte or nothing, and last the immediate.
When the descriptor is paired with the decoder's tables, the decoder walks from that word's
opcode byte either to an empty entry, which refuses the bytes, or to a descriptor that agrees with
the encoder's, whose stages then read, from the bytes after the opcode byte, what the encoder put
there. The proof follows the decoder: the word (`decode_word`), the stages up to the ModRM
operand for each way of writing the instruction (its front), the VEX operand and the immediate
(its tail), and the finishing.

Main statements:
- `writtenWord`: the word an instruction is written with, and what the decoder reads of it;
- `decode_word`: the bytes of a descriptor's word are decoded by an ending of the walk for it;
- `OperandsRead`, `finish_decoded`: the operands read before finishing, and what finishing
  makes of them;
- `ReadAs`, `decode_assembled`: what the decoder makes of a paired descriptor's bytes.
-/
namespace X86Codec

open Encoder Decoder

/-! ## The operands a request passes -/

namespace Encoder

theorem classOk_at {d : EncDesc} {ops : Vector Nat 4} (h : classesOk d.tys ops = true) (k : Position) :
    classOk (d.classAt k) (ops.get k) = true := by
  exact List.all_eq_true.mp h k (Position.mem_all k)

/-- a register of a class from 1 to 6 is no memory operand and has a number below 16; a segment,
x87 or MMX register one below 8, and a segment register one below 6 -/
theorem classOk_register {cls op : Nat} (h : classOk cls op = true) (h1 : 1 ≤ cls) (h6 : cls ≤ 6) :
    Operand.isReg op = true ∧ Operand.regIdx op < 16 ∧ (3 ≤ cls → cls ≤ 5 → Operand.regIdx op < 8) ∧
      (cls = 3 → Operand.regIdx op < 6) := by
  unfold Operand.isReg Operand.regIdx Word.signBit
  interval_cases cls <;>
    simp [classOk, Operand.isGpl, Operand.isGph, Operand.isSeg, Operand.isFpu, Operand.isMmx,
      Operand.isXmm] at h ⊢ <;> omega

/-- a high byte register is one of the numbers 4 to 7 -/
theorem isGph_regIdx {op : Nat} (h : Operand.isGph op = true) :
    4 ≤ Operand.regIdx op ∧ Operand.regIdx op < 8 := by
  simp only [Operand.isGph, Bool.decide_and, Bool.and_eq_true, decide_eq_true_eq] at h
  unfold Operand.regIdx
  omega

theorem low_add_bit3 : ∀ n < 16, n % 8 + (if has n 8 then 8 else 0) = n := by decide

theorem has_eight_of_lt : ∀ n < 8, has n 8 = false := by decide

theorem has_regIdx (op : Nat) : has (Operand.regIdx op) 8 = has op 8 := by
  rw [Operand.regIdx, show (8 : Nat) = 2 ^ 3 from rfl, has_two_pow, has_two_pow,
    show (256 : Nat) = 2 ^ 8 from rfl, Nat.testBit_mod_two_pow]
  rfl

/-- a register of a class from 1 to 6 is read back from its low three bits and the REX bit that
extends them, which the decoder adds for the classes that have registers from 8 on: in ModRM rm
for general purpose and vector registers, in ModRM reg for all but MMX and segment registers -/
theorem register_fields {cls op : Nat} (h : classOk cls op = true) (h1 : 1 ≤ cls) (h6 : cls ≤ 6) :
    (Operand.regIdx op % 8 + if classType cls = RegType.gpl ∨ classType cls = RegType.vec then
        (if has (Operand.regIdx op) 8 then 8 else 0) else 0) = Operand.regIdx op ∧
    (Operand.regIdx op % 8 + if classType cls = RegType.mmx ∨ classType cls = RegType.seg then 0 else
        (if has (Operand.regIdx op) 8 then 8 else 0)) = Operand.regIdx op := by
  obtain ⟨-, h16, h8, -⟩ := classOk_register h h1 h6
  have hsplit := low_add_bit3 _ h16
  rcases (show cls = 1 ∨ cls = 2 ∨ cls = 6 ∨ (3 ≤ cls ∧ cls ≤ 5) by omega) with hc | hc | hc | hc
  · subst hc
    simp [classType, RegType.gpl, RegType.vec, RegType.mmx, RegType.seg, hsplit]
  · subst hc
    simp [classType, RegType.gpl, RegType.vec, RegType.mmx, RegType.seg, hsplit]
  · subst hc
    simp [classType, RegType.gpl, RegType.vec, RegType.mmx, RegType.seg, hsplit]
  · -- segment, x87 and MMX registers have no REX bit to add
    have hlt := h8 hc.1 hc.2
    simp [has_eight_of_lt _ hlt, Nat.mod_eq_of_lt hlt]

/-- the REX.B and REX.X bits a memory operand is written with -/
theorem memory_rex {op : Nat} (h : Operand.isMem op = true) :
    decide ((Operand.isReg op = true ∧ has (Operand.regIdx op) 0x8 = true) ∨
      (Operand.isMem op = true ∧ has (Operand.base op) 0x8 = true)) = has (Operand.base op) 8 ∧
    decide (Operand.isMem op = true ∧ has (Operand.index op) 0x8 = true) = has (Operand.index op) 8 := by
  have hreg : Operand.isReg op = false := by
    simp only [Operand.isMem, decide_eq_true_eq] at h
    simp only [Operand.isReg, decide_eq_false_iff_not, not_lt]
    exact h
  simp [hreg, h]

/-- a general purpose or vector register is its low three bits with bit 3 on top -/
theorem regIdx_mod_eight (op : Nat) : Operand.regIdx op % 8 = op % 8 :=
  Nat.mod_mod_of_dvd op (by decide)

theorem regIdx_split {op : Nat} (h : Operand.isGpl op = true ∨ Operand.isXmm op = true) :
    op % 8 + (if has op 8 then 8 else 0) = Operand.regIdx op := by
  have hlt : Operand.regIdx op < 16 := by
    simp only [Operand.isGpl, Operand.isXmm, Bool.decide_and, Bool.and_eq_true, decide_eq_true_eq] at h
    unfold Operand.regIdx
    omega
  rw [← regIdx_mod_eight, ← has_regIdx]
  exact low_add_bit3 _ hlt

/-- **A memory operand read back.** The base and the scaled index the decoder makes of a memory
form, with REX.B and REX.X as the encoder sets them, are the operand's. -/
theorem memForm_decoded {opc op0 opcsz immsz : Nat} {f : ModrmForm} (h : memForm opc op0 opcsz immsz = some f) :
    f.decodedBase (has (Operand.base op0) 8) = memBase op0 ∧
      f.decodedIndex (has (Operand.index op0) 8) (has opc Opc.vsib) = memIndex op0 := by
  obtain ⟨-, -, -, -, -, -, -, hip, hnone, hgpl, hsib, hplain, -⟩ := memForm_some h
  constructor
  · unfold ModrmForm.decodedBase memBase
    by_cases h0 : Operand.base op0 = 0
    · obtain ⟨hmd, hrm, hbase⟩ := hnone h0
      simp [h0, hmd, hrm, hbase, ModrmForm.baseField]
    by_cases h1 : Operand.base op0 = regIp
    · obtain ⟨hmd, hrm⟩ := hip h1
      simp [h1, hmd, hrm, show regIp ≠ 0 by decide]
    · obtain ⟨hg, hfield, h5⟩ := hgpl h0 h1
      -- mode 0 with rm 5 would be base field 5
      have h5' : ¬(f.md = 0 ∧ f.rm = 5) := fun h => h5 ⟨h.1, by simp [ModrmForm.baseField, h.2]⟩
      rw [if_neg h5', if_neg h5, if_neg h0, if_neg h1, hfield, regIdx_mod_eight, regIdx_split (.inl hg)]
  · unfold ModrmForm.decodedIndex memIndex
    by_cases h4 : f.rm = 4
    · obtain ⟨hscale, hidx0, hidx⟩ := hsib h4
      rw [if_pos h4]
      by_cases hi : Operand.index op0 = 0
      · obtain ⟨hf4, hsc, hv⟩ := hidx0 hi
        simp [hi, hf4, hsc, hv, hscale, noReg, show has 0 8 = false by decide]
      · obtain ⟨hf, hvalid⟩ := hidx hi
        rw [if_neg hi, hscale, hf]
        unfold IndexValid at hvalid
        split at hvalid
        · rename_i hv
          simp [hv, regIdx_split (.inr hvalid)]
        · rename_i hv
          obtain ⟨hg, h4'⟩ := hvalid
          simp [hv, regIdx_split (.inl hg), h4']
    · obtain ⟨hi, -⟩ := hplain h4
      simp [h4, hi]

/-- the displacement of a memory form is the operand's offset, taken from the end of the
instruction for the instruction pointer, as the decoder sign-extends it -/
theorem memForm_disp {opc op0 opcsz immsz : Nat} {f : ModrmForm} (h : memForm opc op0 opcsz immsz = some f) :
    UInt64.ofNat (Word.ofSigned f.disp) = signExtend 32 (Word.ofSigned (Operand.offset op0 -
      if Operand.base op0 = regIp then ((opcsz + 5 + immsz : Nat) : Int) else 0)) := by
  obtain ⟨-, -, -, -, -, -, -, -, -, -, -, -, hdisp⟩ := memForm_some h
  rw [hdisp]
  split
  · push_cast
    rfl
  · rw [sub_zero, Operand.offset, signExtend, Word.signed_ofSigned_signed]

/-! ## The written word -/

/-- the word a descriptor is written with for a request: its 26 bits, with an S encoding's
segment register in the opcode byte, and from bit 26 on REX.B, REX.X and REX.R as the operands
need them, REX for a byte register from `spl` on, 67 for a 32-bit address size, the segment and
the VEX operand -/
def writtenWord (d : EncDesc) (e : Encoding) (mnem : Nat) (ops : Vector Nat 4) (b x r : Bool) : Nat :=
  (d.opc ||| if e = .s then Operand.regIdx (ops.get Position.first) <<< 3 else 0) |||
    requestHigh b x r (needsRex d.tys ops) (has mnem addr32) ((mnem >>> 16) % 8)
      ((encodingInfo e).vexreg.elim 0 fun v => Operand.regIdx (ops.get v))

variable {d : EncDesc} {e : Encoding} {mnem : Nat} {ops : Vector Nat 4}

/-- the checks of a descriptor make its written word without REX.B, REX.X and REX.R -/
theorem prepare_word {origin opc : Nat} {imm : Int} {sz : Nat}
    (h : prepare d e mnem ops origin = some (opc, imm, sz)) :
    opc = writtenWord d e mnem ops false false false := by
  obtain ⟨-, -, -, -, -, hopc⟩ := prepare_spec h
  rw [hopc, preparedWord_eq, vexWord_eq]
  rfl

theorem modrmWord_written (op0 op1 : Nat) :
    modrmWord (writtenWord d e mnem ops false false false) op0 op1 = writtenWord d e mnem ops
      (decide ((Operand.isReg op0 ∧ has (Operand.regIdx op0) 0x8) ∨
        (Operand.isMem op0 ∧ has (Operand.base op0) 0x8)))
      (decide (Operand.isMem op0 ∧ has (Operand.index op0) 0x8))
      (decide (Operand.isReg op1 ∧ has (Operand.regIdx op1) 0x8)) :=
  modrmWord_eq _ _ _ _ _ _ _

theorem inOpcodeWord_written (op0 : Nat) :
    inOpcodeWord (writtenWord d e mnem ops false false false) op0 =
      writtenWord d e mnem ops (has (Operand.regIdx op0) 0x8) false false :=
  inOpcodeWord_eq _ _ _ _ _ _

/-- a segment register in the opcode byte stays below its top bit -/
theorem segmentBits_lt (hs : e = .s → Operand.regIdx (ops.get Position.first) < 8) :
    (if e = .s then Operand.regIdx (ops.get Position.first) <<< 3 else 0) < 256 := by
  split
  · rename_i he
    have := hs he
    rw [Nat.shiftLeft_eq]
    omega
  · decide

section Written

variable (b x r : Bool) (hopc : d.opc < 2 ^ 26) (hs : e = .s → Operand.regIdx (ops.get Position.first) < 8)
include hopc hs

theorem writtenWord_keyBits : writtenWord d e mnem ops b x r &&& keyBits = d.opc &&& keyBits :=
  written_keyBits hopc (segmentBits_lt hs) b x r _ _ _ _

theorem writtenWord_segOf : segOf (writtenWord d e mnem ops b x r) = (mnem >>> 16) % 8 := by
  rw [writtenWord, segOf_or_requestHigh (written_lt hopc (segmentBits_lt hs)), Nat.mod_mod]

theorem writtenWord_flags :
    has (writtenWord d e mnem ops b x r) Opc.rexB = b ∧ has (writtenWord d e mnem ops b x r) Opc.rexX = x ∧
      has (writtenWord d e mnem ops b x r) Opc.rexR = r ∧
      has (writtenWord d e mnem ops b x r) Opc.rex = needsRex d.tys ops ∧
      has (writtenWord d e mnem ops b x r) Opc.p67 = has mnem addr32 :=
  or_requestHigh_flags (written_lt hopc (segmentBits_lt hs)) b x r _ _ _ _

theorem writtenWord_vexop : (writtenWord d e mnem ops b x r >>> Opc.vexopShift) % 16 =
    ((encodingInfo e).vexreg.elim 0 fun v => Operand.regIdx (ops.get v)) % 16 :=
  vexopOf_or_requestHigh (written_lt hopc (segmentBits_lt hs)) b x r _ _ _ _

/-- the opcode byte of the word, the byte after it and whether it is a second opcode byte -/
theorem writtenWord_bytes :
    writtenWord d e mnem ops b x r % 256 =
        (d.opc ||| if e = .s then Operand.regIdx (ops.get Position.first) <<< 3 else 0) % 256 ∧
      (writtenWord d e mnem ops b x r >>> 8) % 256 = (d.opc >>> 8) % 256 ∧
      twoByte (writtenWord d e mnem ops b x r) = twoByte d.opc :=
  ⟨(or_requestHigh_bytes (written_lt hopc (segmentBits_lt hs)) b x r _ _ _ _).1,
    written_second hopc (segmentBits_lt hs) b x r _ _ _ _,
    written_twoByte hopc (segmentBits_lt hs) b x r _ _ _ _⟩

theorem writtenWord_vsib : has (writtenWord d e mnem ops b x r) Opc.vsib = has d.opc Opc.vsib := by
  have hlt := segmentBits_lt hs
  have hsmall : has (if e = .s then Operand.regIdx (ops.get Position.first) <<< 3 else 0) Opc.vsib = false := by
    rw [show Opc.vsib = 2 ^ 18 from rfl, has_two_pow]
    exact Nat.testBit_lt_two_pow (lt_of_lt_of_le hlt (by decide))
  rw [writtenWord, has_or_requestHigh (written_lt hopc hlt) b x r _ _ _ _ (by decide), has_or, hsmall,
    Bool.or_false]

end Written

end Encoder

/-! ## The walk to a paired descriptor -/

namespace Decoder

/-- the context a descriptor is read in after a word's bytes in a window, in 64-bit mode at an
unknown address -/
def readContext (t : Tables) (D : DescWords) (W : Nat) (w : Window) : Context :=
  { wordContext t D W with window := w }

/-- what the decoder does once its walk ends on a descriptor: the ModRM byte or the opcode
byte's register, the operands and the finishing -/
def readAfter (c : Context) (off : Nat) : Except DecodeError Instr :=
  modrmByte c.window c.desc off >>= fun x =>
    readOperands c x.1 { ops := initialOperands c.desc, off := x.2, disp := 0, imm := 0 } >>= finish c

/-- **The walk for a word's bytes.** The bytes of a word that agrees with a descriptor's on the
bits the walk reads, one of the descriptor's opcode bytes and, where the decoder looks for one, one
of its ModRM bytes, end the walk on one of the descriptor's endings; the decoder goes on from the
byte after the opcode byte with the descriptor of that entry, or refuses the bytes when it is no
instruction. A table of ModRM bytes is no ending here while a byte follows. -/
theorem decode_word {t : Tables} {root : Nat} (hroot : t.root? 64 = some root) {d : EncDesc}
    {e : Encoding} {P : Nat × Nat → Prop} (hwalks : WalksTo t d e root P) {W : Nat}
    (hkey : W &&& keyBits = d.opc &&& keyBits) (hseg : segOf W ≠ 7) {op : UInt8} {rest : List UInt8}
    (hlen : (leadBytes W ++ op :: rest).length ≤ 15) (hop : op.toNat ∈ opcodeBytes d e)
    (hmodrm : modrmBytes d e ≠ [] → ∃ x rest', rest = x :: rest' ∧ x.toNat ∈ modrmBytes d e)
    (hstop : rest ≠ [] → ∀ x, P x → x.1 ≠ WordKind.modrm) :
    ∃ x ∈ t.endingsAt d e root op.toNat, P x ∧ decode t (leadBytes W ++ op :: rest) 64 0 =
      (t.instrAt x >>= fun D =>
        readAfter (readContext t D W (Window.of (leadBytes W ++ op :: rest))) ((leadBytes W).length + 1)) := by
  obtain ⟨hbyte, hops⟩ := hwalks
  obtain ⟨hopens, hends⟩ := hops _ hop
  obtain ⟨hesc, hmand, hvexi, -, -, -, hvex⟩ := ofWord_keyed hkey
  have hw := Window.of_toList hlen
  -- the word opens where the descriptor's does
  have hopensW : OpensAt W op.toNat := by
    unfold OpensAt at hopens ⊢
    rw [hvex, wordEscape_keyed hkey]
    exact hopens
  rw [decode_lead hroot hlen hseg hopensW]
  have hwalk := walk_byte (t := t) (p := Prefixes.ofWord W) (by rw [hesc]; exact hbyte) hw
  rw [hesc] at hwalk
  -- the ModRM byte, where the decoder reads one, is one the descriptor can write
  have hmodrm' : modrmBytes d e ≠ [] → (leadBytes W).length + 1 < (Window.of (leadBytes W ++ op :: rest)).len ∧
      (Window.of (leadBytes W ++ op :: rest)).byte ((leadBytes W).length + 1) ∈ modrmBytes d e := by
    intro hne
    obtain ⟨x, rest', rfl, hx⟩ := hmodrm hne
    have hw' : (Window.of (leadBytes W ++ op :: x :: rest')).bytes.toList = (leadBytes W ++ [op]) ++ x :: rest' := by
      rw [hw]
      simp
    have hlen' := Window.len_of_toList hw'
    have hbyte' := Window.byte_at hw'
    simp only [List.length_append, List.length_cons] at hlen' hbyte'
    exact ⟨by omega, hbyte' ▸ hx⟩
  -- a byte after the opcode byte is one the walk could read as a ModRM byte
  have hrest : (leadBytes W).length + 1 < (Window.of (leadBytes W ++ op :: rest)).len → rest ≠ [] := by
    rintro hlt rfl
    rw [Window.len_of_toList hw] at hlt
    simp at hlt
  have hmem := walkEntry_mem_endings hmand hvexi hmodrm' fun hlt y hy => hstop (hrest hlt) y (hends y hy)
  refine ⟨_, hmem, hends _ hmem, ?_⟩
  unfold decodeAfter
  rw [hwalk]
  cases t.instrAt (walkEntry t (Window.of (leadBytes W ++ op :: rest)) (Prefixes.ofWord W)
    (t.step (t.step root (Prefixes.ofWord d.opc).escape).2 op.toNat) ((leadBytes W).length + 1)) <;> rfl

theorem mod_two_pow_and {y m n : Nat} (hm : m < 2 ^ n) : y % 2 ^ n &&& m = (y &&& m) % 2 ^ n := by
  rw [Nat.and_mod_two_pow, Nat.mod_eq_of_lt hm]

/-- a paired descriptor has a decoder descriptor that agrees with it -/
theorem PairedAt.agrees {t : Tables} {d : EncDesc} {e : Encoding} {name : String} {root : Nat}
    (hpair : PairedAt t d e name root) : ∃ D, Agrees t d e name D := by
  obtain ⟨-, _, -, _, -, -, hagree⟩ := hpair
  exact ⟨_, hagree⟩

end Decoder

/-! ## The slots of an encoding -/

namespace Encoder

theorem mem_slots {e : Encoding} {k : Position} :
    k ∈ slots e ↔ (encodingInfo e).rmSlot = some k ∨ regSlot e = some k ∨ (encodingInfo e).vexreg = some k ∨
      (encodingInfo e).zreg = some k ∨ (encodingInfo e).immSlot = some k := by
  simp only [slots, List.mem_append, Option.mem_toList, or_assoc]

/-- the slots of an encoding whose list has no repeats are apart: a position is the slot of one
role at most -/
theorem slots_apart {e : Encoding} (h : (slots e).Nodup) (k : Position) :
    ((encodingInfo e).rmSlot = some k → regSlot e ≠ some k ∧ (encodingInfo e).vexreg ≠ some k ∧
      (encodingInfo e).zreg ≠ some k ∧ (encodingInfo e).immSlot ≠ some k) ∧
    (regSlot e = some k → (encodingInfo e).vexreg ≠ some k ∧ (encodingInfo e).zreg ≠ some k ∧
      (encodingInfo e).immSlot ≠ some k) ∧
    ((encodingInfo e).vexreg = some k → (encodingInfo e).zreg ≠ some k ∧ (encodingInfo e).immSlot ≠ some k) ∧
    ((encodingInfo e).zreg = some k → (encodingInfo e).immSlot ≠ some k) := by
  revert h k
  cases e <;> decide

theorem immSlot_some {info : EncodingInfo} {k : Position} (h : info.immSlot = some k) :
    info.immCtl ≠ 0 ∧ info.immIdx = k := by
  unfold EncodingInfo.immSlot at h
  split at h
  · cases h
  · cases h
    exact ⟨‹_›, rfl⟩

/-- a register role is no immediate's slot -/
theorem registerRoles_not_imm {d : EncDesc} {e : Encoding} (h : (slots e).Nodup) {k : Position}
    (hk : k ∈ registerRoles d e) : (encodingInfo e).immSlot ≠ some k := by
  obtain ⟨hrm, hreg, hvex, hz⟩ := slots_apart h k
  simp only [registerRoles, List.mem_append, Option.mem_toList] at hk
  rcases hk with ((h | h) | h) | h
  · exact (hrm (Option.eq_some_of_filter_eq_some h)).2.2.2
  · exact (hreg h).2.2
  · exact (hvex h).2
  · exact hz h

end Encoder

/-! ## Finishing -/

namespace Decoder

/-- **The operands read** of a request before finishing: every register role as the register
passed, with the type its class declares; the memory operand with its displacement, for an
instruction of the length read; the immediate by its kind; an operand at every slot and none
elsewhere -/
structure OperandsRead (d : EncDesc) (e : Encoding) (ops : Vector Nat 4) (addrsz : Nat) (s : Progress) :
    Prop where
  registers : ∀ k ∈ registerRoles d e,
    s.ops.get k = { type := .reg, reg := Encoder.Operand.regIdx (ops.get k), misc := classType (d.classAt k) }
  memory : ∀ m, (encodingInfo e).modrm = some m → d.classAt m = 15 →
    MemoryRead (ops.get m) s.disp s.off (s.ops.get m)
  immediate : (encodingInfo e).immCtl ≠ 0 →
    ImmRead (encodingInfo e).immCtl (ops.get (encodingInfo e).immIdx) s.imm s.disp s.off addrsz
      (s.ops.get (encodingInfo e).immIdx)
  filled : ∀ k ∈ slots e, (s.ops.get k).type ≠ .none
  absent : ∀ k, k ∉ slots e → (s.ops.get k).type = .none

/-- what the bytes of a request written by a descriptor under a name decode to: the exchange of
the accumulator with itself as a no-op without operands, or an instruction of the mnemonic the
name spells that reads every operand back -/
def DecodedAs (t : Tables) (name : String) (d : EncDesc) (e : Encoding) (ops : Vector Nat 4) (i : Instr) :
    Prop :=
  (t.mnemonic? i.type = some "NOP" ∧ spells name "XCHG" = true ∧
      (i.operands.get Position.first).type = .none ∧ (i.operands.get Position.second).type = .none ∧
      Encoder.Operand.regIdx (ops.get Position.first) = 0 ∧
      Encoder.Operand.regIdx (ops.get Position.second) = 0) ∨
    ((t.mnemonic? i.type).any (spells name) = true ∧ ReadsBack d e ops i)

/-- **What decoding the bytes of a request may give**, written by a descriptor under a name: the
request read back (`DecodedAs`) at the length of the bytes, or a refusal the decoder's tables
account for from the root: undefined only where an ending of the descriptor is empty, and wanting
more bytes only where the descriptor is written as a word the decoder waits on -/
def ReadAs (t : Tables) (root : Nat) (name : String) (d : EncDesc) (e : Encoding) (ops : Vector Nat 4)
    (len : Nat) : Except DecodeError Instr → Prop
  | .ok i => i.size = len ∧ DecodedAs t name d e ops i
  | .error .undefined => ∃ op ∈ opcodeBytes d e, ∃ x ∈ t.endingsAt d e root op, x.1 = WordKind.empty
  | .error .truncated => WaitsAt t d e root
  | .error .internal => False

theorem mnemonic_of_isType {t : Tables} {ty : Nat} {m : String} (h : t.isType ty m = true) :
    t.mnemonic? ty = some m := by
  simpa [Tables.isType] using h

theorem isType_of_mnemonic {t : Tables} {ty : Nat} {m : String} (h : t.mnemonic? ty = some m) (m' : String) :
    t.isType ty m' = decide (m = m') := by
  by_cases hm : m = m' <;> simp [Tables.isType, h, hm]

/-- a name spells the exchange that may be a no-op as it spells the exchange -/
theorem spells_xchgNop (name : String) : spells name "XCHG_NOP" = spells name "XCHG" := by
  simp [spells, spelledAs]

theorem readContext_keyed {t : Tables} {D : DescWords} {W opc : Nat} {w : Window}
    (hkey : W &&& keyBits = opc &&& keyBits) :
    (readContext t D W w).opSize = (wordContext t D opc).opSize ∧
      (readContext t D W w).vecSize = (wordContext t D opc).vecSize :=
  wordContext_keyed hkey t D

/-- finishing rewrites byte registers as the descriptor does, also when it turns the exchange that
may be a no-op into the exchange -/
theorem finish_rewrite {c : Context} (hx : c.is "XCHG_NOP" = true → c.tables.mnemonic? (c.tables.typeOf "XCHG") = some "XCHG") :
    (c.opSize = 1 || c.tables.isType (if c.is "XCHG_NOP" then c.tables.typeOf "XCHG" else c.desc.type) "MOVSX" ||
      c.tables.isType (if c.is "XCHG_NOP" then c.tables.typeOf "XCHG" else c.desc.type) "MOVZX") = c.rewritesBytes := by
  unfold Context.rewritesBytes
  by_cases h : c.is "XCHG_NOP" = true
  · have hm := mnemonic_of_isType h
    rw [if_pos h, isType_of_mnemonic (hx h), isType_of_mnemonic (hx h)]
    simp [Context.is, isType_of_mnemonic hm]
  · rw [if_neg h]
    rfl

/-- a general purpose byte register from `spl` on needs a REX prefix -/
theorem needsRex_of_register {d : EncDesc} {ops : Vector Nat 4} {k : Position} (hc : d.classAt k = 2)
    (hgpl : Operand.isGpl (ops.get k) = true) (h4 : 4 ≤ Operand.regIdx (ops.get k)) : needsRex d.tys ops = true := by
  refine List.any_eq_true.mpr ⟨k, Position.mem_all k, ?_⟩
  simp only [Operand.isGpl, Bool.decide_and, Bool.and_eq_true, decide_eq_true_eq] at hgpl
  unfold Operand.regIdx at h4
  have hc' : (d.tys >>> (4 * k.val)) % 16 = 2 := hc
  simp only [hc', regSp, true_and, decide_eq_true_eq, Operand.isGpl, hgpl.1, hgpl.2]
  omega

/-- **High byte registers.** Finishing makes a register role's register a high byte register
exactly when its class takes one and the register is AH to BH: a byte register from `spl` on
brings a REX prefix, which stops the rewriting, and AH to BH never meet one. -/
theorem madeHigh_iff {t : Tables} {d : EncDesc} {e : Encoding} {name : String} {D : DescWords}
    {ops : Vector Nat 4} {W : Nat} {w : Window} (hagree : Agrees t d e name D)
    (hkey : W &&& keyBits = d.opc &&& keyBits) (hcls : classesOk d.tys ops = true)
    (hneeds : needsRex d.tys ops = true → has W Opc.rex = true)
    (hgph : ∀ k ∈ registerRoles d e, d.classAt k = 2 → Operand.isGph (ops.get k) = true →
      has W Opc.anyRex = false)
    {k : Position} (hk : k ∈ registerRoles d e) :
    (((readContext t D W w).rewritesBytes && !hasBit (Prefixes.ofWord W).rex Rex.present) = true ∧
        k.val < 2 ∧ MadeHigh
          { type := .reg, reg := Operand.regIdx (ops.get k), misc := classType (d.classAt k)
            size := sizeTable (readContext t D W w) (D.sizeChoice k.val) }) ↔
      (d.classAt k = 2 ∧ Operand.isGph (ops.get k) = true) := by
  obtain ⟨hopw, hvecw⟩ := readContext_keyed (t := t) (D := D) (w := w) hkey
  have hrw : (readContext t D W w).rewritesBytes = (wordContext t D d.opc).rewritesBytes :=
    rewritesBytes_congr (show (readContext t D W w).tables = (wordContext t D d.opc).tables from rfl) rfl hopw
  have hsize : sizeTable (readContext t D W w) (D.sizeChoice k.val) =
      sizeTable (wordContext t D d.opc) (D.sizeChoice k.val) :=
    sizeTable_congr (show (readContext t D W w).desc = (wordContext t D d.opc).desc from rfl) hopw hvecw _
  have hpresent : hasBit (Prefixes.ofWord W).rex Rex.present = (!has W Opc.vex && has W Opc.anyRex) :=
    (ofWord_rex_bits W).2.2.2.2.2
  have hvex : has W Opc.vex = has d.opc Opc.vex := has_keyed hkey (by decide)
  obtain ⟨h1, -, -⟩ := hagree.types k hk
  have hok := classOk_at hcls k
  rw [hrw, hsize, hpresent, hvex]
  constructor
  · rintro ⟨hrew, hlt, -, hmisc, hsz, hreg⟩
    -- only the classes of general purpose registers are read as such
    have hcls2 : d.classAt k ≤ 2 := by
      by_contra hc
      simp only [classType, if_neg hc, RegType.gpl] at hmisc
      omega
    rcases (show d.classAt k = 1 ∨ d.classAt k = 2 by omega) with hc | hc
    · -- a general purpose class without high byte registers keeps its byte registers
      rcases hagree.lowBytes k hk hc hlt with h | h
      · simp [h] at hrew
      · exact absurd hsz h
    · refine ⟨hc, ?_⟩
      rw [hc] at hok
      simp only [classOk, Bool.or_eq_true] at hok
      rcases hok with hgpl | hgph'
      · -- a register from spl on brings REX, which stops the rewriting
        obtain ⟨-, -, -, hnovex⟩ := hagree.highBytes k hk hc
        have hany : has W Opc.anyRex = true := has_mono (by decide) (hneeds (needsRex_of_register hc hgpl hreg))
        simp [hany, hnovex] at hrew
      · exact hgph'
  · rintro ⟨hc, hgph'⟩
    obtain ⟨hlt, hrew, hsz, hnovex⟩ := hagree.highBytes k hk hc
    obtain ⟨h4, -⟩ := isGph_regIdx hgph'
    exact ⟨by simp [hrew, hnovex, hgph k hk hc hgph'], hlt, rfl, by simp [hc, classType, RegType.gpl], hsz, h4⟩

theorem registerRoles_slots {d : EncDesc} {e : Encoding} {k : Position} (hk : k ∈ registerRoles d e) :
    k ∈ slots e := by
  simp only [registerRoles, slots, List.mem_append, Option.mem_toList] at hk ⊢
  rcases hk with ((h | h) | h) | h
  · exact .inl (.inl (.inl (.inl (Option.eq_some_of_filter_eq_some h))))
  · exact .inl (.inl (.inl (.inr h)))
  · exact .inl (.inl (.inr h))
  · exact .inl (.inr h)

theorem modrm_slots {e : Encoding} {m : Position} (hm : (encodingInfo e).modrm = some m) : m ∈ slots e := by
  simp [slots, EncodingInfo.rmSlot, hm]

theorem immIdx_slots {e : Encoding} (h0 : (encodingInfo e).immCtl ≠ 0) : (encodingInfo e).immIdx ∈ slots e := by
  simp [slots, EncodingInfo.immSlot, h0]

/-- an immediate is never made a high byte register: no register, or a vector one -/
theorem ImmRead.not_madeHigh {ctl op len addrsz : Nat} {imm disp : UInt64} {o : Operand}
    (h : ImmRead ctl op imm disp len addrsz o) (S : Nat) : ¬MadeHigh { o with size := S } := by
  rintro ⟨hreg, hgpl, -⟩
  unfold ImmRead at h
  split_ifs at h
  · simp [h.1] at hreg
  · simp [h.1] at hreg
  · simp [RegisterRead, regTypeOf, classType, RegType.gpl] at h hgpl
    simp [h.2.2] at hgpl
  · simp [h.1] at hreg

/-- **The operands read back.** Once finishing has set the sizes and made the high byte
registers, every register role reads its register with the type of its class, and the memory
operand, the immediate and the empty positions are as they were read. -/
theorem readsBack_of_finished {t : Tables} {d : EncDesc} {e : Encoding} {name : String} {D : DescWords}
    {ops : Vector Nat 4} {W : Nat} {w : Window} {s : Progress} {i : Instr} (hagree : Agrees t d e name D)
    (hkey : W &&& keyBits = d.opc &&& keyBits) (hcls : classesOk d.tys ops = true)
    (hneeds : needsRex d.tys ops = true → has W Opc.rex = true)
    (hgph : ∀ k ∈ registerRoles d e, d.classAt k = 2 → Operand.isGph (ops.get k) = true →
      has W Opc.anyRex = false)
    (hread : OperandsRead d e ops (readContext t D W w).addrSize s)
    (hops : i.operands = if ((readContext t D W w).rewritesBytes &&
        !hasBit (Prefixes.ofWord W).rex Rex.present) = true then
      highBytes [Position.first, Position.second] (sizeFrom D (sizeTable (readContext t D W w)) Position.all s.ops)
      else sizeFrom D (sizeTable (readContext t D W w)) Position.all s.ops)
    (hsize : i.size = s.off) (hdisp : i.disp = s.disp) (himm : i.imm = s.imm)
    (haddr : i.addrsz = (readContext t D W w).addrSize) :
    ReadsBack d e ops i := by
  -- at a slot, finishing sets the size and may make a high byte register
  have hslot := fun k (hk : k ∈ slots e) => hops ▸ finish_get D (sizeTable (readContext t D W w)) _ s.ops k
    fun j hj => hread.filled j (hagree.contiguous j k hj hk)
  constructor
  · intro k hk
    rw [hslot k (registerRoles_slots hk), hread.registers k hk]
    have hiff := madeHigh_iff (w := w) hagree hkey hcls hneeds hgph hk
    by_cases hP : d.classAt k = 2 ∧ Operand.isGph (ops.get k) = true
    · rw [if_pos (hiff.mpr hP)]
      simp [RegisterRead, regTypeOf, hP]
    · rw [if_neg fun h => hP (hiff.mp h)]
      simp [RegisterRead, regTypeOf, hP]
  · intro m hm hcl
    have hmem := hread.memory m hm hcl
    have hnot : ¬MadeHigh { s.ops.get m with size := sizeTable (readContext t D W w) (D.sizeChoice m.val) } :=
      fun h => by
        have h1 : (s.ops.get m).type = .reg := h.1
        rw [hmem.1] at h1
        cases h1
    rw [hslot m (modrm_slots hm), if_neg fun h => hnot h.2.2, hdisp, hsize]
    exact hmem
  · intro h0
    have himmr := hread.immediate h0
    rw [hslot _ (immIdx_slots h0), if_neg fun h => ImmRead.not_madeHigh himmr _ h.2.2, himm, hdisp, hsize, haddr]
    exact himmr
  · intro k hk
    rw [hops]
    split <;> simp [highBytes_type, sizeFrom_type, hread.absent k hk]

/-- **Finishing the operands read.** With a request's operands read, finishing gives an
instruction of the length read: the no-op for the exchange of the accumulator with itself, and
otherwise one of the mnemonic the name spells that reads every operand back. -/
theorem finish_decoded {t : Tables} {d : EncDesc} {e : Encoding} {name : String} {D : DescWords}
    {ops : Vector Nat 4} {W : Nat} {w : Window} {s : Progress} (hagree : Agrees t d e name D)
    (hkey : W &&& keyBits = d.opc &&& keyBits) (hcls : classesOk d.tys ops = true)
    (hneeds : needsRex d.tys ops = true → has W Opc.rex = true)
    (hgph : ∀ k ∈ registerRoles d e, d.classAt k = 2 → Operand.isGph (ops.get k) = true →
      has W Opc.anyRex = false)
    (hread : OperandsRead d e ops (readContext t D W w).addrSize s) :
    ∃ i, finish (readContext t D W w) s = .ok i ∧ i.size = s.off ∧ DecodedAs t name d e ops i := by
  have hlockp : (readContext t D W w).prefixes.lock = (!has d.opc Opc.vex && has d.opc Opc.lock) := by
    rw [show (readContext t D W w).prefixes = Prefixes.ofWord W from rfl, ofWord_lock,
      has_keyed hkey (by decide), has_keyed hkey (show keyBits &&& Opc.lock = Opc.lock by decide)]
  by_cases hnop : (readContext t D W w).is "XCHG_NOP" = true ∧ (s.ops.get Position.first).reg = 0 ∧
      (s.ops.get Position.second).reg = 0
  · -- the exchange of the accumulator with itself
    obtain ⟨hx, h0, h1⟩ := hnop
    obtain ⟨-, hnopm, hfirst, hsecond, hnolock⟩ := hagree.exchange hx
    have h3 : t.isType (t.typeOf "NOP") "3DNOW" = false := by
      rw [isType_of_mnemonic hnopm]
      decide
    obtain ⟨i, hi, hty, hsize, hn0, hn1, -⟩ := finish_nop hx ⟨h0, h1⟩ h3 (by rw [hlockp, hnolock]; simp)
    have hm : t.mnemonic? D.type = some "XCHG_NOP" := mnemonic_of_isType hx
    have hnamed := hagree.named
    rw [hm, Option.any_some, spells_xchgNop] at hnamed
    rw [hread.registers _ hfirst] at h0
    rw [hread.registers _ hsecond] at h1
    exact ⟨i, hi, hsize, .inl ⟨by rw [hty]; exact hnopm, hnamed, hn0, hn1, h0, h1⟩⟩
  · have hxchg : (readContext t D W w).is "XCHG_NOP" = true →
        t.mnemonic? (t.typeOf "XCHG") = some "XCHG" := fun hx => (hagree.exchange hx).1
    have h3 : t.isType (if (readContext t D W w).is "XCHG_NOP" then t.typeOf "XCHG" else D.type) "3DNOW" = false := by
      split
      · rename_i hx
        rw [isType_of_mnemonic (hxchg hx)]
        decide
      · exact hagree.plain.2
    -- a lock prefix comes with a lockable instruction and a memory destination
    have hlock : (readContext t D W w).prefixes.lock = true →
        D.lockable = true ∧ (s.ops.get Position.first).type = .mem := by
      intro hl
      rw [hlockp, Bool.and_eq_true] at hl
      obtain ⟨hlk, hm, hcl⟩ := hagree.lock hl.2
      exact ⟨hlk, (hread.memory _ hm hcl).1⟩
    obtain ⟨i, hi, hty, hsize, hdisp, himm, haddr, hops⟩ := finish_read hnop h3 hlock
    rw [hty, finish_rewrite hxchg] at hops
    refine ⟨i, hi, hsize, .inr ⟨?_, readsBack_of_finished hagree hkey hcls hneeds hgph hread hops hsize hdisp himm haddr⟩⟩
    rw [hty]
    split
    · -- the exchange that may be a no-op is named as the exchange
      rename_i hx
      have hm : t.mnemonic? D.type = some "XCHG_NOP" := mnemonic_of_isType hx
      have hnamed := hagree.named
      rw [hm, Option.any_some, spells_xchgNop] at hnamed
      rw [show t.mnemonic? ((readContext t D W w).tables.typeOf "XCHG") = some "XCHG" from hxchg hx,
        Option.any_some]
      exact hnamed
    · exact hagree.named

/-- an immediate read back is an operand -/
theorem ImmRead.type_ne_none {ctl op len addrsz : Nat} {imm disp : UInt64} {o : Operand}
    (h : ImmRead ctl op imm disp len addrsz o) : o.type ≠ .none := by
  unfold ImmRead RegisterRead at h
  split_ifs at h <;> simp [h.1]

/-- **The front of an instruction read**: the operands up to the ModRM operand. Every register
role but the VEX operand is the register passed with its declared type, the memory operand is
read for an instruction of length `len`, the rm, reg and fixed register slots hold operands, and
every other position is as it started. -/
structure FrontOperands (D : DescWords) (d : EncDesc) (e : Encoding) (ops : Vector Nat 4) (len : Nat)
    (s : Progress) : Prop where
  registers : ∀ k ∈ registerRoles d e, (encodingInfo e).vexreg ≠ some k →
    s.ops.get k = { type := .reg, reg := Encoder.Operand.regIdx (ops.get k), misc := classType (d.classAt k) }
  memory : ∀ m, (encodingInfo e).modrm = some m → d.classAt m = 15 →
    MemoryRead (ops.get m) s.disp len (s.ops.get m)
  filled : ∀ k, (encodingInfo e).rmSlot = some k ∨ regSlot e = some k ∨ (encodingInfo e).zreg = some k →
    (s.ops.get k).type ≠ .none
  untouched : ∀ k, (encodingInfo e).rmSlot ≠ some k → regSlot e ≠ some k → (encodingInfo e).zreg ≠ some k →
    s.ops.get k = (initialOperands D).get k

theorem modrm_immCtl {e : Encoding} (h : (encodingInfo e).modrm.isSome = true) : (encodingInfo e).immCtl ≠ 2 := by
  revert h
  cases e <;> decide

/-- a jump has no operand in ModRM or the opcode byte and no VEX operand -/
theorem jump_shape {e : Encoding} (h : (encodingInfo e).immCtl = 6) :
    (encodingInfo e).modrm = none ∧ (encodingInfo e).modreg = none ∧ (encodingInfo e).vexreg = none := by
  revert h
  cases e <;> decide

/-- **The tail of an instruction read.** After the front, the decoder reads the VEX operand and
the immediate the encoding wrote after the front's bytes, which completes the operands read. -/
theorem tail_read {t : Tables} {d : EncDesc} {e : Encoding} {name : String} {D : DescWords} {mnem opc : Nat}
    {ops : Vector Nat 4} {W : Nat} {w : Window} {s : Progress} {imm : Int} {sz : Nat} {A : List UInt8}
    (hagree : Agrees t d e name D) (hkey : W &&& keyBits = d.opc &&& keyBits)
    (hp67 : has W Opc.p67 = has mnem addr32)
    (hvexop : (W >>> Opc.vexopShift) % 16 =
      ((encodingInfo e).vexreg.elim 0 fun v => Operand.regIdx (ops.get v)) % 16)
    (hcls : classesOk d.tys ops = true)
    (himm : immediateOf d (encodingInfo e) mnem opc ops 0 = some (imm, sz))
    (hjump : (encodingInfo e).immCtl = 6 → A.length = opcSize opc)
    (hw : w.bytes.toList = A ++ immBytes (encodingInfo e) imm sz)
    (hfront : FrontOperands D d e ops (A ++ immBytes (encodingInfo e) imm sz).length s) (hoff : s.off = A.length) :
    ∃ s', (vexOperand (readContext t D W w) s >>= immediate (readContext t D W w)) = .ok s' ∧
      OperandsRead d e ops (readContext t D W w).addrSize s' ∧
      s'.off = (A ++ immBytes (encodingInfo e) imm sz).length := by
  have hapart := slots_apart hagree.distinct
  -- the VEX operand: the register passed, or no VEX.vvvv bits
  have hvexW : has W Opc.vex = has d.opc Opc.vex := has_keyed hkey (by decide)
  have hv0 : (encodingInfo e).vexreg = none → (readContext t D W w).prefixes.vexOperand = 0 := by
    intro hn
    rw [show (readContext t D W w).prefixes = Prefixes.ofWord W from rfl, ofWord_vexOperand, hvexop, hn]
    simp
  rw [vexOperand_slot hagree.vexreg rfl hv0]
  have hsize : (readContext t D W w).addrSize = if has mnem addr32 then 4 else 8 := by
    simp only [readContext, wordContext, addressSize, ofWord_p67, hp67]
  obtain ⟨s', himm', hoff', hframe, hdisp, hread⟩ := immediate_read (c := readContext t D W w)
    (s := { s with ops := updateAt s.ops (encodingInfo e).vexreg fun o =>
      { o with type := .reg, reg := (readContext t D W w).prefixes.vexOperand } })
    hagree.imm (readContext_keyed hkey).1 rfl rfl hsize himm hjump (C := [])
    (by rw [List.append_nil]; exact hw) hoff
  -- the VEX operand is the register passed
  have hvreg : ∀ v, (encodingInfo e).vexreg = some v →
      (readContext t D W w).prefixes.vexOperand = Operand.regIdx (ops.get v) := by
    intro v hv
    have hvr : v ∈ registerRoles d e := by simp [registerRoles, hv]
    obtain ⟨h1, h6, -⟩ := hagree.types v hvr
    have hlt := (classOk_register (classOk_at hcls v) h1 h6).2.1
    have hvex : has d.opc Opc.vex = true := hagree.word.2.2.2 (by simp [hv])
    rw [show (readContext t D W w).prefixes = Prefixes.ofWord W from rfl, ofWord_vexOperand, hvexW, if_pos hvex,
      hvexop, hv, Option.elim, Nat.mod_eq_of_lt hlt]
  -- an operand the VEX and immediate stages leave alone is the front's
  have hkept : ∀ k, (encodingInfo e).vexreg ≠ some k → (encodingInfo e).immSlot ≠ some k →
      s'.ops.get k = s.ops.get k := by
    intro k hv hi
    rw [hframe k hi, get_updateAt, if_neg hv]
  refine ⟨s', himm', ⟨?_, ?_, hread, ?_, ?_⟩, by rw [hoff', List.length_append]⟩
  · intro k hk
    by_cases hv : (encodingInfo e).vexreg = some k
    · -- the VEX operand starts with its declared type
      obtain ⟨hrm, hreg, -, -⟩ := hapart k
      have hrm' : (encodingInfo e).rmSlot ≠ some k := fun h => (hrm h).2.1 hv
      have hreg' : regSlot e ≠ some k := fun h => (hreg h).1 hv
      have hz' : (encodingInfo e).zreg ≠ some k := ((hapart k).2.2.1 hv).1
      rw [hframe k (registerRoles_not_imm hagree.distinct hk), get_updateAt, if_pos hv,
        hfront.untouched k hrm' hreg' hz', initialOperands_get, (hagree.types k hk).2.2, hvreg k hv]
    · rw [hkept k hv (registerRoles_not_imm hagree.distinct hk)]
      exact hfront.registers k hk hv
  · intro m hm hcl
    have hrm : (encodingInfo e).rmSlot = some m := by simp [EncodingInfo.rmSlot, hm]
    obtain ⟨-, hv, -, hi⟩ := (hapart m).1 hrm
    rw [hkept m hv hi, hdisp (modrm_immCtl (by simp [hm])), hoff', ← List.length_append]
    exact hfront.memory m hm hcl
  · intro k hk
    rcases mem_slots.mp hk with h | h | h | h | h
    · obtain ⟨-, hv, -, hi⟩ := (hapart k).1 h
      rw [hkept k hv hi]
      exact hfront.filled k (.inl h)
    · obtain ⟨hv, -, hi⟩ := (hapart k).2.1 h
      rw [hkept k hv hi]
      exact hfront.filled k (.inr (.inl h))
    · rw [hframe k ((hapart k).2.2.1 h).2, get_updateAt, if_pos h]
      simp
    · have hi := (hapart k).2.2.2 h
      have hv : (encodingInfo e).vexreg ≠ some k := fun hv => ((hapart k).2.2.1 hv).1 h
      rw [hkept k hv hi]
      exact hfront.filled k (.inr (.inr h))
    · obtain ⟨h0, hidx⟩ := immSlot_some h
      rw [← hidx]
      exact ImmRead.type_ne_none (hread h0)
  · intro k hk
    simp only [mem_slots, not_or] at hk
    obtain ⟨hrm, hreg, hv, hz, hi⟩ := hk
    rw [hkept k hv hi, hfront.untouched k hrm hreg hz, initialOperands_get]

/-! ## The whole instruction -/

theorem readOperands_plain {c : Context} (h : c.tables.movesSpecial c.desc = false) (m : Nat) (s : Progress) :
    readOperands c m s =
      modrmOperand c m (modregOperand c m (implicitOperand c s)) >>= fun s => vexOperand c s >>= immediate c := by
  simp only [Tables.movesSpecial, Bool.or_eq_false_iff] at h
  simp only [readOperands, Context.is, h.1, h.2, Bool.false_eq_true, if_false]

/-- **An instruction read whole.** The bytes of a word that agrees with a paired descriptor's,
its opcode byte and what follows, ending with the immediate the encoding writes, are read as
`ReadAs` says: refused as undefined where the walk ends on an empty entry, and otherwise decoded
to what finishing makes of the operands read, once the front is read for whichever descriptor the
walk ends on. -/
theorem decode_assembled {t : Tables} {root : Nat} (hroot : t.root? 64 = some root) {d : EncDesc}
    {e : Encoding} {name : String} (hpair : PairedAt t d e name root) {mnem opc : Nat} {ops : Vector Nat 4}
    {imm : Int} {sz W : Nat} {op : UInt8} {bytes rest A : List UInt8}
    (hb : bytes = leadBytes W ++ op :: rest) (hA : bytes = A ++ immBytes (encodingInfo e) imm sz)
    (hkey : W &&& keyBits = d.opc &&& keyBits) (hseg : segOf W ≠ 7) (hlen : bytes.length ≤ 15)
    (hop : op.toNat ∈ opcodeBytes d e)
    (hmodrm : modrmBytes d e ≠ [] → ∃ x rest', rest = x :: rest' ∧ x.toNat ∈ modrmBytes d e)
    (hp67 : has W Opc.p67 = has mnem addr32)
    (hvexop : (W >>> Opc.vexopShift) % 16 =
      ((encodingInfo e).vexreg.elim 0 fun v => Operand.regIdx (ops.get v)) % 16)
    (hcls : classesOk d.tys ops = true) (himm : immediateOf d (encodingInfo e) mnem opc ops 0 = some (imm, sz))
    (hjump : (encodingInfo e).immCtl = 6 → A.length = opcSize opc)
    (hneeds : needsRex d.tys ops = true → has W Opc.rex = true)
    (hgph : ∀ k ∈ registerRoles d e, d.classAt k = 2 → Operand.isGph (ops.get k) = true →
      has W Opc.anyRex = false)
    (hfront : ∀ D, Agrees t d e name D → ∃ s,
      (modrmByte (Window.of bytes) D ((leadBytes W).length + 1) >>= fun x =>
        modrmOperand (readContext t D W (Window.of bytes)) x.1
          (modregOperand (readContext t D W (Window.of bytes)) x.1
            (implicitOperand (readContext t D W (Window.of bytes))
              { ops := initialOperands D, off := x.2, disp := 0, imm := 0 }))) = .ok s ∧
      s.off = A.length ∧ FrontOperands D d e ops bytes.length s) :
    ReadAs t root name d e ops bytes.length (decode t bytes 64 0) := by
  -- an empty entry or an instruction that agrees is never a table of ModRM bytes
  have hstop : rest ≠ [] → ∀ x, (x.1 = WordKind.empty ∨ t.AgreesAt d e name x) → x.1 ≠ WordKind.modrm := by
    rintro - x (h | ⟨h, -⟩) <;> rw [h] <;> decide
  obtain ⟨x, hx, hP, hdec⟩ := decode_word hroot hpair.1 hkey hseg (hb ▸ hlen) hop hmodrm hstop
  rw [← hb] at hdec
  rcases hP with hempty | ⟨hinstr, hagree⟩
  · -- the decoder has no instruction there
    have hund : t.instrAt x = .error .undefined := by
      simp [Tables.instrAt, hempty, WordKind.empty, WordKind.instr]
    rw [hdec, hund]
    exact ⟨_, hop, x, hx, hempty⟩
  have hread : decode t bytes 64 0 =
      readAfter (readContext t (t.descs.getD (x.2 / 4) {}) W (Window.of bytes)) ((leadBytes W).length + 1) := by
    rw [hdec, instrAt_instr hinstr]
    rfl
  generalize t.descs.getD (x.2 / 4) {} = D at hagree hread
  obtain ⟨s, hrun, hoff, hfr⟩ := hfront D hagree
  have hw : (Window.of bytes).bytes.toList = A ++ immBytes (encodingInfo e) imm sz := by
    rw [Window.of_toList hlen, hA]
  rw [hA] at hfr
  obtain ⟨s', hrun', hread', hoff'⟩ := tail_read hagree hkey hp67 hvexop hcls himm hjump hw hfr hoff
  obtain ⟨i, hfin, hsize, hdecoded⟩ := finish_decoded hagree hkey hcls hneeds hgph hread'
  have hi : decode t bytes 64 0 = .ok i := by
    rw [hread, readAfter]
    change (modrmByte (Window.of bytes) D ((leadBytes W).length + 1) >>= fun x =>
      readOperands (readContext t D W (Window.of bytes)) x.1
        { ops := initialOperands D, off := x.2, disp := 0, imm := 0 } >>= finish (readContext t D W (Window.of bytes))) = _
    -- the front, then the VEX operand and the immediate, then finishing
    cases hm : modrmByte (Window.of bytes) D ((leadBytes W).length + 1) with
    | error err =>
      rw [hm] at hrun
      cases hrun
    | ok x =>
      rw [hm] at hrun
      change modrmOperand _ x.1 _ = .ok s at hrun
      change readOperands (readContext t D W (Window.of bytes)) x.1 _ >>= _ = _
      rw [readOperands_plain hagree.plain.1, hrun]
      change (vexOperand _ s >>= immediate _) >>= _ = _
      rw [hrun']
      exact hfin
  rw [hi]
  exact ⟨by rw [hsize, hoff', hA], hdecoded⟩

/-! ## The front, slot by slot -/

/-- a register role starts out with the type its class declares -/
theorem initial_role {t : Tables} {d : EncDesc} {e : Encoding} {name : String} {D : DescWords}
    (hagree : Agrees t d e name D) {k : Position} (hk : k ∈ registerRoles d e) :
    (initialOperands D).get k = { misc := classType (d.classAt k) } := by
  rw [initialOperands_get, (hagree.types k hk).2.2]

/-- a register read from ModRM rm is the register passed, when the rm field holds its low bits
and REX.B its bit 3 -/
theorem rm_register {cls op rm : Nat} {rexB : Bool} (h : classOk cls op = true) (h1 : 1 ≤ cls) (h6 : cls ≤ 6)
    (hrm : rm = Operand.regIdx op % 8) (hb : rexB = has (Operand.regIdx op) 8) :
    ({ ({ misc := classType cls } : Operand) with
        type := .reg
        reg := rm + if classType cls = RegType.gpl ∨ classType cls = RegType.vec then
          (if rexB then 8 else 0) else 0 } : Operand) =
      { type := .reg, reg := Operand.regIdx op, misc := classType cls } := by
  subst hrm hb
  rw [(register_fields h h1 h6).1]

/-- a register read from ModRM reg is the register passed, when the reg field holds its low bits
and REX.R its bit 3 -/
theorem reg_register {cls op r : Nat} {rexR : Bool} (h : classOk cls op = true) (h1 : 1 ≤ cls) (h6 : cls ≤ 6)
    (hr : r = Operand.regIdx op % 8) (hb : rexR = has (Operand.regIdx op) 8) :
    ({ ({ misc := classType cls } : Operand) with
        type := .reg
        reg := r + if classType cls = RegType.mmx ∨ classType cls = RegType.seg then 0 else
          (if rexR then 8 else 0) } : Operand) =
      { type := .reg, reg := Operand.regIdx op, misc := classType cls } := by
  subst hr hb
  rw [(register_fields h h1 h6).2]

/-- **The front from its slots.** When the fixed register, the ModRM reg and the ModRM stages each
write their own slot, and each makes of the operand it starts with what the request asks there,
the front is read. -/
theorem front_of_slots {t : Tables} {d : EncDesc} {e : Encoding} {name : String} {D : DescWords}
    {ops : Vector Nat 4} {len : Nat} {s : Progress} (hagree : Agrees t d e name D) (fz fr fm : Operand → Operand)
    (hops : s.ops = updateAt (updateAt (updateAt (initialOperands D) (encodingInfo e).zreg fz) (regSlot e) fr)
      (encodingInfo e).rmSlot fm)
    (hz : ∀ k, (encodingInfo e).zreg = some k → fz ((initialOperands D).get k) =
      { type := .reg, reg := Operand.regIdx (ops.get k), misc := classType (d.classAt k) })
    (hr : ∀ k, regSlot e = some k → fr ((initialOperands D).get k) =
      { type := .reg, reg := Operand.regIdx (ops.get k), misc := classType (d.classAt k) })
    (hrm : ∀ k, (encodingInfo e).rmSlot = some k → d.classAt k ≠ 15 → fm ((initialOperands D).get k) =
      { type := .reg, reg := Operand.regIdx (ops.get k), misc := classType (d.classAt k) })
    (hmem : ∀ m, (encodingInfo e).modrm = some m → d.classAt m = 15 →
      MemoryRead (ops.get m) s.disp len (fm ((initialOperands D).get m)))
    (hfill : ∀ k, (encodingInfo e).rmSlot = some k → (fm ((initialOperands D).get k)).type ≠ .none) :
    FrontOperands D d e ops len s := by
  have hapart := slots_apart hagree.distinct
  -- each position is written by the stage of its slot alone
  have hrmget : ∀ k, (encodingInfo e).rmSlot = some k → s.ops.get k = fm ((initialOperands D).get k) := by
    intro k h
    obtain ⟨hreg, -, hz', -⟩ := (hapart k).1 h
    simp [hops, get_updateAt, h, hreg, hz']
  have hregget : ∀ k, regSlot e = some k → s.ops.get k = fr ((initialOperands D).get k) := by
    intro k h
    have hrm' : (encodingInfo e).rmSlot ≠ some k := fun h' => ((hapart k).1 h').1 h
    simp [hops, get_updateAt, h, hrm', ((hapart k).2.1 h).2.1]
  have hzget : ∀ k, (encodingInfo e).zreg = some k → s.ops.get k = fz ((initialOperands D).get k) := by
    intro k h
    have hrm' : (encodingInfo e).rmSlot ≠ some k := fun h' => ((hapart k).1 h').2.2.1 h
    have hreg' : regSlot e ≠ some k := fun h' => ((hapart k).2.1 h').2.1 h
    simp [hops, get_updateAt, h, hrm', hreg']
  refine ⟨?_, ?_, ?_, ?_⟩
  · intro k hk hv
    simp only [registerRoles, List.mem_append, Option.mem_toList] at hk
    rcases hk with ((h | h) | h) | h
    · obtain ⟨hrmk, hcl⟩ := Option.filter_eq_some_iff.mp h
      rw [hrmget k hrmk, hrm k hrmk (by simpa using hcl)]
    · rw [hregget k h, hr k h]
    · exact absurd h hv
    · rw [hzget k h, hz k h]
  · intro m hm hcl
    rw [hrmget m (by simp [EncodingInfo.rmSlot, hm])]
    exact hmem m hm hcl
  · rintro k (h | h | h)
    · rw [hrmget k h]
      exact hfill k h
    · rw [hregget k h, hr k h]
      simp
    · rw [hzget k h, hz k h]
      simp
  · intro k hrm hreg hz'
    simp [hops, get_updateAt, hrm, hreg, hz']

/-! ## The stages up to the ModRM operand -/

theorem modrmByte_read {w : Window} {D : DescWords} {A C : List UInt8} {x : UInt8} (hD : D.modrm = true)
    (hw : w.bytes.toList = A ++ x :: C) : modrmByte w D A.length = .ok (x.toNat, A.length + 1) := by
  simp only [modrmByte, hD, if_true, Window.read_byte hw]
  rfl

theorem modrmByte_opcode {w : Window} {D : DescWords} (hD : D.modrm = false) (off : Nat) :
    modrmByte w D off = .ok (w.byte (off - 1) ||| 0xc0, off) := by
  simp only [modrmByte, hD, Bool.false_eq_true, if_false]
  rfl

theorem modrmOperand_none {c : Context} {s : Progress} (h : c.desc.hasModrm = false) (m : Nat) :
    modrmOperand c m s = .ok s := by
  simp [modrmOperand, h]
  rfl

/-- the digit byte of a word -/
theorem digit_byte (x : Nat) : (x &&& 0xff00) >>> 8 = (x >>> 8) % 256 := by
  rw [Nat.shiftRight_and_distrib, show (0xff00 : Nat) >>> 8 = 2 ^ 8 - 1 by decide,
    Nat.and_two_pow_sub_one_eq_mod]

/-- the ModRM bytes a descriptor can write: a mode, a reg field and any rm field -/
theorem mem_modrmBytes {d : EncDesc} {e : Encoding} (htwo : twoByte d.opc = false) {md r rm : Nat}
    (hmd : md ∈ modFields d e) (hr : r ∈ regFields d e) (hrm : rm < 8) :
    md * 64 + r * 8 + rm ∈ modrmBytes d e := by
  simp only [modrmBytes, htwo, Bool.false_eq_true, if_false, List.mem_flatMap, List.mem_map, List.mem_range]
  exact ⟨md, hmd, r, hr, rm, hrm, rfl⟩

/-- the rm, reg and mode fields of a ModRM byte -/
theorem modrm_fields : ∀ md < 4, ∀ r < 8, ∀ rm < 8, (md * 64 + r * 8 + rm) % 8 = rm ∧
    ((md * 64 + r * 8 + rm) &&& 0x38) / 8 = r ∧ ((md * 64 + r * 8 + rm) >>> 6) % 4 = md := by
  decide

/-- an opcode byte with a register in its low three bits, read as a ModRM byte: the register in
rm, mode 3 -/
theorem opcode_rm (a : UInt8) {r : Nat} (hr : r < 8) :
    (((a &&& 0xf8) ||| UInt8.ofNat r).toNat ||| 0xc0) % 8 = r ∧
      ((((a &&& 0xf8) ||| UInt8.ofNat r).toNat ||| 0xc0) >>> 6) % 4 = 3 := by
  have hr' : (UInt8.ofNat r).toNat = r := by
    rw [UInt8.toNat_ofNat']
    omega
  constructor
  · rw [UInt8.toNat_or, UInt8.toNat_and, hr', show (8 : Nat) = 2 ^ 3 from rfl, Nat.or_mod_two_pow,
      Nat.or_mod_two_pow, Nat.and_mod_two_pow]
    simp [Nat.mod_eq_of_lt hr]
  · have h3 : ∀ y < 2 ^ 2, y ||| 0xc0 >>> 6 % 2 ^ 2 = 3 := by decide
    rw [Nat.shiftRight_or_distrib, show (4 : Nat) = 2 ^ 2 from rfl, Nat.or_mod_two_pow]
    exact h3 _ (Nat.mod_lt _ (by decide))

/-- an opcode byte with a segment register in bits 3 to 5, read as a ModRM byte: the register in
reg, when the opcode has bits 3 and 4 clear and bit 5 as the register has it -/
theorem segment_reg {o r : Nat} (hr : r < 8) (h18 : o &&& 0x18 = 0) (h20 : r <<< 3 &&& 0x20 = o &&& 0x20) :
    (((o ||| r <<< 3) % 256 ||| 0xc0) &&& 0x38) / 8 = r := by
  -- bits 3 to 5 are read from the low six bits alone
  have key : ∀ y < 2 ^ 6, ∀ r < 8, y &&& 0x18 = 0 → r <<< 3 &&& 0x20 = y &&& 0x20 →
      ((y ||| r <<< 3 % 2 ^ 6 ||| 0xc0 % 2 ^ 6) &&& 0x38) / 8 = r := by decide
  have h18' : o % 2 ^ 6 &&& 0x18 = 0 := by rw [mod_two_pow_and (by decide), h18, Nat.zero_mod]
  have h20' : o % 2 ^ 6 &&& 0x20 = o &&& 0x20 := by
    rw [mod_two_pow_and (by decide), Nat.mod_eq_of_lt (lt_of_le_of_lt Nat.and_le_right (by decide))]
  have hlt : ((o ||| r <<< 3) % 256 ||| 0xc0) &&& 0x38 < 2 ^ 6 := lt_of_le_of_lt Nat.and_le_right (by decide)
  rw [← Nat.mod_eq_of_lt hlt, ← mod_two_pow_and (by decide), Nat.or_mod_two_pow,
    Nat.mod_mod_of_dvd _ (by decide : 2 ^ 6 ∣ 256), Nat.or_mod_two_pow]
  exact key _ (Nat.mod_lt _ (by decide)) r hr h18' (h20.trans h20'.symm)

/-- what the fixed register stage makes of an operand -/
def implicitRead (D : DescWords) (o : Operand) : Operand := { o with type := .reg, reg := D.implicitVal }

/-- what the ModRM reg stage makes of an operand, from the byte it reads the reg field of -/
def modregRead (c : Context) (m : Nat) (o : Operand) : Operand :=
  { o with type := .reg, reg := (m &&& 0x38) / 8 + if o.misc = RegType.mmx ∨ o.misc = RegType.seg then 0 else c.rexPlus Rex.r }

/-- what the ModRM stage makes of an operand in the register form, from the byte it reads the rm
field of -/
def rmRead (c : Context) (m : Nat) (o : Operand) : Operand :=
  { o with type := .reg, reg := m % 8 + if o.misc = RegType.gpl ∨ o.misc = RegType.vec then c.rexPlus Rex.b else 0 }

/-- the fixed register and ModRM reg stages each write their slot -/
theorem implicit_modreg {t : Tables} {d : EncDesc} {e : Encoding} {name : String} {c : Context}
    (hagree : Agrees t d e name c.desc) (m : Nat) (s : Progress) :
    modregOperand c m (implicitOperand c s) =
      { s with ops := updateAt (updateAt s.ops (encodingInfo e).zreg (implicitRead c.desc)) (regSlot e) (modregRead c m) } := by
  rw [implicitOperand_slot hagree.implicit.1, modregOperand_slot hagree.reg]
  rfl

theorem modrmOperand_rmRead {c : Context} {s : Progress} {m : Nat} (hm : c.desc.hasModrm = true)
    (h3 : (m >>> 6) % 4 = 3) : modrmOperand c m s = .ok (s.setOp c.desc.modrmIdx (rmRead c m)) :=
  modrmOperand_reg hm h3

/-- the fixed register is read as the register the encoding fixes -/
theorem implicit_value {t : Tables} {d : EncDesc} {e : Encoding} {name : String} {D : DescWords}
    {ops : Vector Nat 4} (hagree : Agrees t d e name D)
    (hzreg : ∀ z, (encodingInfo e).zreg = some z → Operand.regIdx (ops.get z) = (encodingInfo e).zregVal)
    {k : Position} (h : (encodingInfo e).zreg = some k) :
    implicitRead D ((initialOperands D).get k) =
      { type := .reg, reg := Operand.regIdx (ops.get k), misc := classType (d.classAt k) } := by
  rw [implicitRead, initial_role hagree (by simp [registerRoles, h]), hagree.implicit.2 (by simp [h]), ← hzreg k h]

/-! ## The front of each way of writing an instruction -/

/-- the bytes of an instruction with a ModRM byte: the word up to its opcode byte, the opcode
byte, the ModRM byte, the SIB byte and the displacement of the form, and what follows -/
theorem modrm_bytes {W op1 : Nat} {f : ModrmForm} {I : List UInt8} (htwo : twoByte W = false) :
    opcBytes W ++ f.bytes op1 ++ I = (leadBytes W ++ [UInt8.ofNat W]) ++
      UInt8.ofNat (f.md * 64 + op1 % 8 * 8 + f.rm) :: (f.sibByte ++ leBytes (Word.ofSigned f.disp) f.dispSize ++ I) := by
  rw [opcBytes_eq_lead, htwo]
  simp [byteIf, ModrmForm.bytes, ModrmForm.sibByte]

/-- the decoder reads REX.B, REX.X and REX.R of a written word as the word has them -/
theorem readContext_rex {d : EncDesc} {e : Encoding} {mnem : Nat} {ops : Vector Nat 4} {W : Nat} {b x r : Bool}
    (hW : W = writtenWord d e mnem ops b x r) (hopc : d.opc < 2 ^ 26)
    (hs : e = .s → Operand.regIdx (ops.get Position.first) < 8) (t : Tables) (D : DescWords) (w : Window) :
    (readContext t D W w).rex Rex.b = b ∧ (readContext t D W w).rex Rex.x = x ∧
      (readContext t D W w).rex Rex.r = r := by
  obtain ⟨hb, hx, hr, -, -⟩ := writtenWord_flags b x r hopc hs
  obtain ⟨-, hr', hx', hb', -⟩ := ofWord_rex_bits W
  rw [← hW] at hb hx hr
  exact ⟨hb'.trans hb, hx'.trans hx, hr'.trans hr⟩

section Front

variable {t : Tables} {d : EncDesc} {e : Encoding} {name : String} {D : DescWords} {mnem : Nat}
  {ops : Vector Nat 4} (hagree : Agrees t d e name D) (hcls : classesOk d.tys ops = true)
  (hzreg : ∀ z, (encodingInfo e).zreg = some z → Operand.regIdx (ops.get z) = (encodingInfo e).zregVal)
include hagree hcls hzreg

omit hzreg in
/-- an S encoding's segment register has the segment class and a number below 6 -/
theorem segment_lt (he : e = .s) : Operand.regIdx (ops.get Position.first) < 6 := by
  subst he
  have hk : Position.first ∈ registerRoles d .s := by simp [registerRoles, regSlot, encodingInfo]
  obtain ⟨h1, h6, -⟩ := hagree.types _ hk
  exact (classOk_register (classOk_at hcls _) h1 h6).2.2.2 (hagree.word.2.2.1 rfl).2

omit hzreg in
/-- the mode and rm field the encoder writes for the ModRM operand are ones the descriptor can
have: the register form for a register class, a memory form for the memory class -/
theorem rmForm_modField {m : Position} (hm : (encodingInfo e).modrm = some m) {W sz : Nat} {f : ModrmForm}
    (hf : rmForm W (ops.get m) sz = some f) : f.md ∈ modFields d e ∧ f.rm < 8 := by
  have hcl := classOk_at hcls m
  by_cases hreg : Operand.isReg (ops.get m) = true
  · simp only [rmForm, hreg, if_true, Option.some.injEq] at hf
    subst hf
    -- a register is no memory operand
    have h15 : d.classAt m ≠ 15 := by
      intro h15
      rw [h15] at hcl
      simp only [classOk, Operand.isMem, decide_eq_true_eq] at hcl
      simp only [Operand.isReg, decide_eq_true_eq] at hreg
      omega
    exact ⟨by simp [modFields, hm, h15], Nat.mod_lt _ (by decide)⟩
  · rw [rmForm, if_neg hreg] at hf
    obtain ⟨hmd, hrm, -⟩ := memForm_some hf
    -- a memory operand has the memory class: a register class would make it a register
    have h15 : d.classAt m = 15 := by
      by_contra h15
      have hkr : m ∈ registerRoles d e := by simp [registerRoles, EncodingInfo.rmSlot, hm, h15]
      obtain ⟨h1, h6, -⟩ := hagree.types m hkr
      exact hreg (classOk_register hcl h1 h6).1
    refine ⟨?_, hrm⟩
    simp only [modFields, hm, h15, if_true, List.mem_cons, List.not_mem_nil]
    omega

omit hzreg in
/-- the reg field the encoder writes beside a ModRM operand is one the descriptor can have: a
register's low bits, below 6 for a segment register, or the opcode's digit -/
theorem regField_mem {op1 : Nat} (hm : (encodingInfo e).modrm.isSome = true) (hopc : d.opc < 2 ^ 26)
    (hop1 : op1 = (encodingInfo e).modreg.elim ((writtenWord d e mnem ops false false false &&& 0xff00) >>> 8) ops.get) :
    op1 % 8 ∈ regFields d e := by
  have hne : e ≠ .s := by
    rintro rfl
    simp [encodingInfo] at hm
  cases hr : (encodingInfo e).modreg with
  | none =>
    rw [hr, Option.elim] at hop1
    rw [regFields, hr, hop1, digit_byte, digit_byte, (writtenWord_bytes _ _ _ hopc fun h => absurd h hne).2.1]
    simp
  | some r =>
    rw [hr, Option.elim] at hop1
    subst hop1
    simp only [regFields, hr]
    have hkr : r ∈ registerRoles d e := by simp [registerRoles, regSlot, hm, hr]
    obtain ⟨h1, h6, -⟩ := hagree.types r hkr
    have hok := classOk_register (classOk_at hcls r) h1 h6
    split
    · rename_i h3
      have := hok.2.2.2 h3
      rw [List.mem_range, ← regIdx_mod_eight]
      omega
    · exact List.mem_range.mpr (Nat.mod_lt _ (by decide))

omit hcls in
/-- a high byte register can only be passed in the rm or the reg slot: the fixed register is
below 4, and a VEX operand never has the byte class -/
theorem gph_slot {k : Position} (hk : k ∈ registerRoles d e) (h2 : d.classAt k = 2)
    (hg : Operand.isGph (ops.get k) = true) : (encodingInfo e).rmSlot = some k ∨ regSlot e = some k := by
  have hroles := hk
  simp only [registerRoles, List.mem_append, Option.mem_toList] at hroles
  rcases hroles with ((h | h) | h) | h
  · exact Or.inl (Option.filter_eq_some_iff.mp h).1
  · exact Or.inr h
  · have hvex := hagree.word.2.2.2 (by simp [h])
    rw [(hagree.highBytes k hk h2).2.2.2] at hvex
    cases hvex
  · have hz := hzreg k h
    have hlow : (encodingInfo e).zregVal ≤ 1 := by cases e <;> simp [encodingInfo]
    have := isGph_regIdx hg
    omega

omit hcls hzreg in
/-- the immediate bytes are as many as the width the encoder reckoned with: without an
immediate to write the width is the descriptor's, which an agreeing descriptor has zero -/
theorem immBytes_length {opc origin : Nat} {imm : Int} {sz : Nat}
    (himm : immediateOf d (encodingInfo e) mnem opc ops origin = some (imm, sz)) :
    (immBytes (encodingInfo e) imm sz).length = sz := by
  unfold immBytes
  split
  · exact length_leBytes _ _
  · rename_i hlt
    have hsz : sz = d.immsz := by
      unfold immediateOf at himm
      by_cases h0 : (encodingInfo e).immCtl = 0
      · simp only [h0, if_true] at himm
        cases himm
        rfl
      · have h1 : (encodingInfo e).immCtl = 1 := by omega
        simp [h1] at himm
        exact himm.2.2.symm
    have hctl := hagree.imm
    unfold ImmAgrees at hctl
    by_cases h0 : (encodingInfo e).immCtl = 0
    · rw [if_pos h0] at hctl
      simp [hsz, hctl.2]
    · have h1 : (encodingInfo e).immCtl = 1 := by omega
      rw [if_neg h0, if_pos h1] at hctl
      simp [hsz, hctl.2.2]

omit hzreg in
/-- the ModRM reg operand is the register passed, or the opcode's digit without one -/
theorem modreg_value {W op1 xv : Nat} {w : Window}
    (hop1 : op1 = (encodingInfo e).modreg.elim ((writtenWord d e mnem ops false false false &&& 0xff00) >>> 8) ops.get)
    (hxv : (xv &&& 0x38) / 8 = op1 % 8) (hm : (encodingInfo e).modrm.isSome = true)
    (hR : (readContext t D W w).rex Rex.r = decide (Operand.isReg op1 = true ∧ has (Operand.regIdx op1) 0x8 = true))
    {k : Position} (hk : regSlot e = some k) :
    modregRead (readContext t D W w) xv ((initialOperands D).get k) =
      { type := .reg, reg := Operand.regIdx (ops.get k), misc := classType (d.classAt k) } := by
  have hkr : k ∈ registerRoles d e := by simp [registerRoles, hk]
  have hmodreg : (encodingInfo e).modreg = some k := by simpa [regSlot, hm] using hk
  obtain ⟨h1, h6, -⟩ := hagree.types k hkr
  have hok := classOk_at hcls k
  have hreg := (classOk_register hok h1 h6).1
  rw [hop1, hmodreg, Option.elim] at hxv hR
  rw [modregRead, initial_role hagree hkr, rexPlus_eq, hR]
  exact reg_register hok h1 h6 (by rw [hxv, regIdx_mod_eight]) (by simp [hreg])


/-- **The front of an instruction with a register in ModRM rm.** After the opcode byte, the
ModRM byte of the register form: the decoder reads the fixed register, the reg operand and the
rm register. -/
theorem front_modrm_reg {m : Position} (hm : (encodingInfo e).modrm = some m) {W op1 sz : Nat} {f : ModrmForm}
    {I bytes : List UInt8}
    (hop1 : op1 = (encodingInfo e).modreg.elim ((writtenWord d e mnem ops false false false &&& 0xff00) >>> 8) ops.get)
    (hW : W = modrmWord (writtenWord d e mnem ops false false false) (ops.get m) op1) (hopc : d.opc < 2 ^ 26)
    (hreg : Operand.isReg (ops.get m) = true) (hf : rmForm W (ops.get m) sz = some f)
    (hb : bytes = opcBytes W ++ f.bytes op1 ++ I) (hlen : bytes.length ≤ 15) :
    ∃ s, (modrmByte (Window.of bytes) D ((leadBytes W).length + 1) >>= fun x =>
        modrmOperand (readContext t D W (Window.of bytes)) x.1
          (modregOperand (readContext t D W (Window.of bytes)) x.1
            (implicitOperand (readContext t D W (Window.of bytes))
              { ops := initialOperands D, off := x.2, disp := 0, imm := 0 }))) = .ok s ∧
      s.off = (opcBytes W ++ f.bytes op1).length ∧ FrontOperands D d e ops bytes.length s := by
  have hne : e ≠ .s := by
    rintro rfl
    simp [encodingInfo] at hm
  have hs : e = .s → Operand.regIdx (ops.get Position.first) < 8 := fun h => absurd h hne
  rw [modrmWord_written] at hW
  obtain ⟨hB, -, hR⟩ := readContext_rex hW hopc hs t D (Window.of bytes)
  have htwo : twoByte W = false := by
    rw [hW, (writtenWord_bytes _ _ _ hopc hs).2.2]
    cases h : twoByte d.opc
    · rfl
    · exact absurd hm (by simp [(hagree.word.2.1 h).1])
  -- the register form: mode 3 and the register's low bits in rm
  have hform : f = { md := 3, rm := Operand.regIdx (ops.get m) % 8 } := by
    simp only [rmForm, hreg, if_true, Option.some.injEq] at hf
    exact hf.symm
  subst hform
  have hxv := modrm_fields 3 (by decide) (op1 % 8) (Nat.mod_lt _ (by decide)) (Operand.regIdx (ops.get m) % 8)
    (Nat.mod_lt _ (by decide))
  have hw : (Window.of bytes).bytes.toList = (leadBytes W ++ [UInt8.ofNat W]) ++
      UInt8.ofNat (3 * 64 + op1 % 8 * 8 + Operand.regIdx (ops.get m) % 8) :: I := by
    rw [Window.of_toList hlen, hb, modrm_bytes htwo]
    simp [ModrmForm.sibByte, ModrmForm.sib, leBytes]
  have hbyte : (UInt8.ofNat (3 * 64 + op1 % 8 * 8 + Operand.regIdx (ops.get m) % 8)).toNat =
      3 * 64 + op1 % 8 * 8 + Operand.regIdx (ops.get m) % 8 := by
    rw [UInt8.toNat_ofNat']
    omega
  have hD : D.modrm = true := by
    rw [hagree.readsModrm, hm]
    rfl
  have hrm : (encodingInfo e).rmSlot = some m := by simp [EncodingInfo.rmSlot, hm]
  obtain ⟨hhas, hidx⟩ := hagree.rm.some hrm
  rw [show (leadBytes W).length + 1 = (leadBytes W ++ [UInt8.ofNat W]).length by simp,
    modrmByte_read hD hw, hbyte]
  refine ⟨
    { ops :=
        updateAt (updateAt (updateAt (initialOperands D) (encodingInfo e).zreg (implicitRead D)) (regSlot e)
          (modregRead (readContext t D W (Window.of bytes)) (3 * 64 + op1 % 8 * 8 + Operand.regIdx (ops.get m) % 8)))
          (encodingInfo e).rmSlot (rmRead (readContext t D W (Window.of bytes))
            (3 * 64 + op1 % 8 * 8 + Operand.regIdx (ops.get m) % 8))
      off := (leadBytes W ++ [UInt8.ofNat W]).length + 1
      disp := 0
      imm := 0 }, ?_, ?_,
    front_of_slots hagree _ _ _ rfl (fun k hk => implicit_value hagree hzreg hk)
      (fun k hk => modreg_value hagree hcls hop1 hxv.2.1 (by simp [hm]) hR hk) ?_ ?_ ?_⟩
  · show modrmOperand _ _ (modregOperand _ _ (implicitOperand _ _)) = _
    rw [implicit_modreg (c := readContext t D W (Window.of bytes)) hagree, modrmOperand_rmRead hhas hxv.2.2]
    rw [show (readContext t D W (Window.of bytes)).desc.modrmIdx = m from hidx, hrm]
    rfl
  · rw [← List.append_nil (opcBytes W ++ _), modrm_bytes htwo]
    simp [ModrmForm.sibByte, ModrmForm.sib, leBytes]
  · -- the register form reads the rm register
    intro k hk hcl
    obtain rfl : k = m := Option.some.inj (hk.symm.trans hrm)
    have hkr : k ∈ registerRoles d e := by simp [registerRoles, hrm, hcl]
    obtain ⟨h1, h6, -⟩ := hagree.types k hkr
    have hmem : Operand.isMem (ops.get k) = false := by
      simp only [Operand.isReg, decide_eq_true_eq] at hreg
      simp [Operand.isMem, hreg]
    rw [rmRead, initial_role hagree hkr, rexPlus_eq, hB]
    exact rm_register (classOk_at hcls k) h1 h6 hxv.1 (by simp [hreg, hmem])
  · -- a register is no memory operand
    intro k hk hcl
    obtain rfl : k = m := Option.some.inj (hk.symm.trans hm)
    have hok := classOk_at hcls k
    rw [hcl] at hok
    simp only [classOk, Operand.isMem, decide_eq_true_eq] at hok
    simp only [Operand.isReg, decide_eq_true_eq] at hreg
    omega
  · intro k _
    simp [rmRead]

/-- the memory form: the ModRM byte, the SIB byte and the displacement of the memory operand's
form are read back as its base, index and displacement, relative to the instruction's end for
the instruction pointer -/
theorem front_modrm_mem {m : Position} (hm : (encodingInfo e).modrm = some m) {W op1 sz : Nat} {f : ModrmForm}
    {I bytes : List UInt8}
    (hop1 : op1 = (encodingInfo e).modreg.elim ((writtenWord d e mnem ops false false false &&& 0xff00) >>> 8) ops.get)
    (hW : W = modrmWord (writtenWord d e mnem ops false false false) (ops.get m) op1) (hopc : d.opc < 2 ^ 26)
    (hreg : Operand.isReg (ops.get m) = false) (hf : rmForm W (ops.get m) sz = some f)
    (hb : bytes = opcBytes W ++ f.bytes op1 ++ I) (hI : I.length = sz) (hlen : bytes.length ≤ 15) :
    ∃ s, (modrmByte (Window.of bytes) D ((leadBytes W).length + 1) >>= fun x =>
        modrmOperand (readContext t D W (Window.of bytes)) x.1
          (modregOperand (readContext t D W (Window.of bytes)) x.1
            (implicitOperand (readContext t D W (Window.of bytes))
              { ops := initialOperands D, off := x.2, disp := 0, imm := 0 }))) = .ok s ∧
      s.off = (opcBytes W ++ f.bytes op1).length ∧ FrontOperands D d e ops bytes.length s := by
  have hne : e ≠ .s := by
    rintro rfl
    simp [encodingInfo] at hm
  have hs : e = .s → Operand.regIdx (ops.get Position.first) < 8 := fun h => absurd h hne
  have hmem : Operand.isMem (ops.get m) = true := by
    simp only [Operand.isReg, decide_eq_false_iff_not, not_lt] at hreg
    simpa [Operand.isMem] using hreg
  rw [modrmWord_written] at hW
  obtain ⟨hB, hX, hR⟩ := readContext_rex hW hopc hs t D (Window.of bytes)
  rw [(memory_rex hmem).1] at hB
  rw [(memory_rex hmem).2] at hX
  have htwo : twoByte W = false := by
    rw [hW, (writtenWord_bytes _ _ _ hopc hs).2.2]
    cases h : twoByte d.opc
    · rfl
    · exact absurd hm (by simp [(hagree.word.2.1 h).1])
  have hvsibW : has W Opc.vsib = D.vsib := by rw [hW, writtenWord_vsib _ _ _ hopc hs, hagree.vsib]
  rw [rmForm, if_neg (by simp [hreg])] at hf
  obtain ⟨hmd, hrm8, hbase, hindex, hscale, hdisp, hzero, hip, -, -, -, hplain, -⟩ := memForm_some hf
  obtain ⟨hdb, hdi⟩ := memForm_decoded hf
  have hxv := modrm_fields f.md (by omega) (op1 % 8) (Nat.mod_lt _ (by decide)) f.rm hrm8
  have hw : (Window.of bytes).bytes.toList = (leadBytes W ++ [UInt8.ofNat W]) ++
      UInt8.ofNat (f.md * 64 + op1 % 8 * 8 + f.rm) :: (f.sibByte ++ leBytes (Word.ofSigned f.disp) f.dispSize ++ I) := by
    rw [Window.of_toList hlen, hb, modrm_bytes htwo]
  have hbyte : (UInt8.ofNat (f.md * 64 + op1 % 8 * 8 + f.rm)).toNat = f.md * 64 + op1 % 8 * 8 + f.rm := by
    rw [UInt8.toNat_ofNat']
    omega
  have hD : D.modrm = true := by
    rw [hagree.readsModrm, hm]
    rfl
  have hrm : (encodingInfo e).rmSlot = some m := by simp [EncodingInfo.rmSlot, hm]
  obtain ⟨hhas, hidx⟩ := hagree.rm.some hrm
  -- without a SIB byte there is no vector index
  have hvsib : (readContext t D W (Window.of bytes)).desc.vsib = true → f.rm = 4 := by
    intro hv
    by_contra h4
    have hno := (hplain h4).2
    rw [hvsibW] at hno
    rw [show (readContext t D W (Window.of bytes)).desc.vsib = D.vsib from rfl, hno] at hv
    cases hv
  -- the instruction pointer is read relative to the end: the form then has four bytes of
  -- displacement and no SIB byte
  have hend : Operand.base (ops.get m) = regIp → bytes.length = opcSize W + 5 + sz := by
    intro hipb
    obtain ⟨hmd0, hrm5⟩ := hip hipb
    have hds : f.dispSize = 4 := by
      rw [hdisp]
      simp [ModrmForm.dispWidth, ModrmForm.baseField, hmd0, hrm5]
    rw [hb]
    simp [length_opcBytes, ModrmForm.bytes, ModrmForm.sib, hrm5, hds, length_leBytes, hI]
    omega
  have hw' : (readContext t D W (Window.of bytes)).window.bytes.toList =
      (leadBytes W ++ [UInt8.ofNat W] ++ [UInt8.ofNat (f.md * 64 + op1 % 8 * 8 + f.rm)]) ++
        (f.sibByte ++ leBytes (Word.ofSigned f.disp) f.dispSize) ++ I := by
    rw [show (readContext t D W (Window.of bytes)).window = Window.of bytes from rfl, hw]
    simp
  rw [show (leadBytes W).length + 1 = (leadBytes W ++ [UInt8.ofNat W]).length by simp,
    modrmByte_read hD hw, hbyte]
  refine ⟨
    { ops :=
        updateAt (updateAt (updateAt (initialOperands D) (encodingInfo e).zreg (implicitRead D)) (regSlot e)
          (modregRead (readContext t D W (Window.of bytes)) (f.md * 64 + op1 % 8 * 8 + f.rm)))
          (encodingInfo e).rmSlot (f.memOperand (has (Operand.base (ops.get m)) 8)
            (has (Encoder.Operand.index (ops.get m)) 8) D.vsib)
      off := (leadBytes W ++ [UInt8.ofNat W] ++ [UInt8.ofNat (f.md * 64 + op1 % 8 * 8 + f.rm)]).length +
        f.sibByte.length + f.dispSize
      disp := UInt64.ofNat (Word.ofSigned f.disp)
      imm := 0 }, ?_, ?_,
    front_of_slots hagree _ _ _ rfl (fun k hk => implicit_value hagree hzreg hk)
      (fun k hk => modreg_value hagree hcls hop1 hxv.2.1 (by simp [hm]) hR hk) ?_ ?_ ?_⟩
  · show modrmOperand _ _ (modregOperand _ _ (implicitOperand _ _)) = _
    rw [implicit_modreg (c := readContext t D W (Window.of bytes)) hagree,
      modrmOperand_mem op1 hhas rfl hmd hrm8 hbase hindex hscale hdisp (memForm_disp_fits hf) hzero hvsib hw'
        (by simp), hB, hX, show (readContext t D W (Window.of bytes)).desc.modrmIdx = m from hidx, hrm]
    rfl
  · rw [← List.append_nil (opcBytes W ++ _), modrm_bytes htwo]
    simp [length_leBytes]
    omega
  · -- a memory operand is no register
    intro k hk hcl
    obtain rfl : k = m := Option.some.inj (hk.symm.trans hrm)
    obtain ⟨h1, h6, -⟩ := hagree.types k (by simp [registerRoles, hrm, hcl])
    have hk := (classOk_register (classOk_at hcls k) h1 h6).1
    rw [hreg] at hk
    cases hk
  · intro k hk _
    obtain rfl : k = m := Option.some.inj (hk.symm.trans hm)
    refine ⟨rfl, hdb, by rw [← hvsibW]; exact hdi, ?_⟩
    rw [memForm_disp hf]
    by_cases hipb : Operand.base (ops.get k) = regIp
    · rw [if_pos hipb, if_pos hipb, hend hipb]
    · rw [if_neg hipb, if_neg hipb]
  · intro k _
    simp [ModrmForm.memOperand]

/-- **The front of an instruction with a register in the opcode byte.** The decoder reads the
opcode byte again as a register form: the register in its low three bits, REX.B its bit 3. -/
theorem front_inOpcode (hm : (encodingInfo e).modrm = none) {r : Position} (hr : (encodingInfo e).modreg = some r)
    {W : Nat} {I bytes : List UInt8}
    (hW : W = inOpcodeWord (writtenWord d e mnem ops false false false) (ops.get r)) (hopc : d.opc < 2 ^ 26)
    (hb : bytes = leadBytes W ++ [(UInt8.ofNat W &&& 0xf8) ||| UInt8.ofNat (Operand.regIdx (ops.get r) % 8)] ++ I)
    (hlen : bytes.length ≤ 15) :
    ∃ s, (modrmByte (Window.of bytes) D ((leadBytes W).length + 1) >>= fun x =>
        modrmOperand (readContext t D W (Window.of bytes)) x.1
          (modregOperand (readContext t D W (Window.of bytes)) x.1
            (implicitOperand (readContext t D W (Window.of bytes))
              { ops := initialOperands D, off := x.2, disp := 0, imm := 0 }))) = .ok s ∧
      s.off = (leadBytes W).length + 1 ∧ FrontOperands D d e ops bytes.length s := by
  have hne : e ≠ .s := by
    rintro rfl
    simp [encodingInfo] at hr
  rw [inOpcodeWord_written] at hW
  obtain ⟨hB, -, -⟩ := readContext_rex hW hopc (fun h => absurd h hne) t D (Window.of bytes)
  have hD : D.modrm = false := by
    rw [hagree.readsModrm, hm]
    cases h : twoByte d.opc
    · rfl
    · exact absurd hr (by simp [(hagree.word.2.1 h).2.1])
  have hrm : (encodingInfo e).rmSlot = some r := by simp [EncodingInfo.rmSlot, hm, hr]
  obtain ⟨hhas, hidx⟩ := hagree.rm.some hrm
  have hreg : regSlot e = none := by simp [regSlot, hm, hne]
  have hbyte : (Window.of bytes).byte (leadBytes W).length =
      ((UInt8.ofNat W &&& 0xf8) ||| UInt8.ofNat (Operand.regIdx (ops.get r) % 8)).toNat :=
    Window.byte_at (C := I) (by rw [Window.of_toList hlen, hb]; simp)
  obtain ⟨hx8, hx3⟩ := opcode_rm (UInt8.ofNat W) (Nat.mod_lt (Operand.regIdx (ops.get r)) (by decide))
  rw [modrmByte_opcode hD, Nat.add_sub_cancel, hbyte]
  refine ⟨
    { ops :=
        updateAt (updateAt (updateAt (initialOperands D) (encodingInfo e).zreg (implicitRead D)) (regSlot e)
          (modregRead (readContext t D W (Window.of bytes))
            (((UInt8.ofNat W &&& 0xf8) ||| UInt8.ofNat (Operand.regIdx (ops.get r) % 8)).toNat ||| 0xc0)))
          (encodingInfo e).rmSlot (rmRead (readContext t D W (Window.of bytes))
            (((UInt8.ofNat W &&& 0xf8) ||| UInt8.ofNat (Operand.regIdx (ops.get r) % 8)).toNat ||| 0xc0))
      off := (leadBytes W).length + 1
      disp := 0
      imm := 0 }, ?_, rfl,
    front_of_slots hagree _ _ _ rfl (fun k hk => implicit_value hagree hzreg hk)
      (fun k hk => absurd hk (by simp [hreg])) ?_ (fun k hk => absurd hk (by simp [hm])) (fun k _ => by simp [rmRead])⟩
  · show modrmOperand _ _ (modregOperand _ _ (implicitOperand _ _)) = _
    rw [implicit_modreg (c := readContext t D W (Window.of bytes)) hagree, modrmOperand_rmRead hhas hx3,
      show (readContext t D W (Window.of bytes)).desc.modrmIdx = r from hidx, hrm]
    rfl
  · -- the register in the opcode byte
    intro k hk hcl
    obtain rfl : k = r := Option.some.inj (hk.symm.trans hrm)
    have hkr : k ∈ registerRoles d e := by simp [registerRoles, hrm, hcl]
    obtain ⟨h1, h6, -⟩ := hagree.types k hkr
    rw [rmRead, initial_role hagree hkr, rexPlus_eq, hB]
    exact rm_register (classOk_at hcls k) h1 h6 hx8 rfl

/-- **The front of an instruction without operands in ModRM.** The decoder reads a second opcode
byte where a ModRM byte goes, or else the opcode byte again, whose bits 3 to 5 hold an S
encoding's segment register. -/
theorem front_plain (hm : (encodingInfo e).modrm = none) (hr : (encodingInfo e).modreg = none)
    {W : Nat} {I bytes : List UInt8}
    (hW : W = writtenWord d e mnem ops false false false) (hopc : d.opc < 2 ^ 26)
    (hseg : e = .s → Operand.regIdx (ops.get Position.first) <<< 3 &&& 0x20 = d.opc &&& 0x20)
    (hb : bytes = opcBytes W ++ I) (hlen : bytes.length ≤ 15) :
    ∃ s, (modrmByte (Window.of bytes) D ((leadBytes W).length + 1) >>= fun x =>
        modrmOperand (readContext t D W (Window.of bytes)) x.1
          (modregOperand (readContext t D W (Window.of bytes)) x.1
            (implicitOperand (readContext t D W (Window.of bytes))
              { ops := initialOperands D, off := x.2, disp := 0, imm := 0 }))) = .ok s ∧
      s.off = (opcBytes W).length ∧ FrontOperands D d e ops bytes.length s := by
  have hs : e = .s → Operand.regIdx (ops.get Position.first) < 8 := fun h => by
    have := segment_lt hagree hcls h
    omega
  obtain ⟨-, -, hR⟩ := readContext_rex hW hopc hs t D (Window.of bytes)
  have hrm : (encodingInfo e).rmSlot = none := by simp [EncodingInfo.rmSlot, hm, hr]
  have hhas := hagree.rm.none hrm
  obtain ⟨x, hx, hxs⟩ : ∃ x, modrmByte (Window.of bytes) D ((leadBytes W).length + 1) =
      .ok (x, (opcBytes W).length) ∧
      (e = .s → (x &&& 0x38) / 8 = Operand.regIdx (ops.get Position.first)) := by
    cases htwo : twoByte d.opc
    · -- the opcode byte is read again
      have hD : D.modrm = false := by
        rw [hagree.readsModrm, hm, htwo]
        rfl
      have hbytes : opcBytes W = leadBytes W ++ [UInt8.ofNat W] := by
        rw [opcBytes_eq_lead, hW, (writtenWord_bytes _ _ _ hopc hs).2.2, htwo]
        rfl
      have hbyte : (Window.of bytes).byte (leadBytes W).length = W % 256 := by
        rw [Window.byte_at (x := UInt8.ofNat W) (C := I) (by rw [Window.of_toList hlen, hb, hbytes]; simp),
          UInt8.toNat_ofNat']
      refine ⟨(Window.of bytes).byte (leadBytes W).length ||| 0xc0, ?_, ?_⟩
      · rw [modrmByte_opcode hD, hbytes, Nat.add_sub_cancel]
        simp
      rintro rfl
      obtain ⟨h18, -⟩ := hagree.word.2.2.1 rfl
      rw [hbyte, hW, (writtenWord_bytes _ _ _ hopc hs).1, if_pos rfl]
      exact segment_reg (hs rfl) h18 (hseg rfl)
    · -- a second opcode byte stands where a ModRM byte goes
      have hD : D.modrm = true := by
        rw [hagree.readsModrm, hm, htwo]
        rfl
      have hne : e ≠ .s := (hagree.word.2.1 htwo).2.2
      have hbytes : opcBytes W = (leadBytes W ++ [UInt8.ofNat W]) ++ [UInt8.ofNat (W >>> 8)] := by
        rw [opcBytes_eq_lead, hW, (writtenWord_bytes _ _ _ hopc hs).2.2, htwo]
        simp [byteIf]
      rw [show (leadBytes W).length + 1 = (leadBytes W ++ [UInt8.ofNat W]).length by simp,
        modrmByte_read hD (x := UInt8.ofNat (W >>> 8)) (C := I) (by rw [Window.of_toList hlen, hb, hbytes]; simp),
        hbytes]
      exact ⟨(UInt8.ofNat (W >>> 8)).toNat, by simp, fun h => absurd h hne⟩
  rw [hx]
  refine ⟨
    { ops :=
        updateAt (updateAt (updateAt (initialOperands D) (encodingInfo e).zreg (implicitRead D)) (regSlot e)
          (modregRead (readContext t D W (Window.of bytes)) x)) (encodingInfo e).rmSlot id
      off := (opcBytes W).length
      disp := 0
      imm := 0 }, ?_, rfl,
    front_of_slots hagree _ _ id rfl (fun k hk => implicit_value hagree hzreg hk) ?_
      (fun k hk => absurd hk (by simp [hrm])) (fun k hk => absurd hk (by simp [hm]))
      (fun k hk => absurd hk (by simp [hrm]))⟩
  · show modrmOperand _ _ (modregOperand _ _ (implicitOperand _ _)) = _
    rw [implicit_modreg (c := readContext t D W (Window.of bytes)) hagree, modrmOperand_none hhas, hrm]
    rfl
  · -- only an S encoding has a reg slot here: its segment register
    intro k hk
    have he : e = .s := by
      by_contra hne
      simp [regSlot, hm, hne] at hk
    subst he
    obtain rfl : k = Position.first := by simpa [regSlot, encodingInfo] using hk.symm
    have hkr : Position.first ∈ registerRoles d .s := by simp [registerRoles, regSlot, encodingInfo]
    obtain ⟨h1, h6, -⟩ := hagree.types _ hkr
    have hlt := segment_lt hagree hcls rfl
    rw [modregRead, initial_role hagree hkr, rexPlus_eq, hR]
    exact reg_register (classOk_at hcls _) h1 h6 (by rw [hxs rfl, Nat.mod_eq_of_lt (by omega)])
      (has_eight_of_lt _ (by omega)).symm

end Front

/-! ## Each way of writing an instruction -/

theorem written_empty (X Y : List UInt8) : ((Buffer.empty.writeAll X).writeAll Y).written 0 = X ++ Y := by
  rw [← Buffer.writeAll_append, show (0 : Nat) = Buffer.empty.pos from rfl, Buffer.written_writeAll]

/-- bit 5 of a request's word is the descriptor's -/
theorem requestBase_bit5 {d : EncDesc} {mnem : Nat} {ops : Vector Nat 4} (hopc : d.opc < 2 ^ 26) :
    requestBase d mnem ops &&& 0x20 = d.opc &&& 0x20 := by
  have h := (or_requestHigh_bytes hopc false false false (needsRex d.tys ops) (has mnem addr32)
    ((mnem >>> 16) % 8) 0).1
  have hlow : ∀ y : Nat, y &&& 0x20 = y % 2 ^ 8 &&& 0x20 := fun y => by
    rw [mod_two_pow_and (by decide), Nat.mod_eq_of_lt (lt_of_le_of_lt Nat.and_le_right (by decide))]
  rw [requestBase_eq, hlow, show (2 : Nat) ^ 8 = 256 from rfl, h, show (256 : Nat) = 2 ^ 8 from rfl, ← hlow]

section Shapes

variable {t : Tables} {root : Nat} {d : EncDesc} {e : Encoding} {name : String} {mnem opc : Nat}
  {ops : Vector Nat 4} {imm : Int} {sz : Nat} (hroot : t.root? 64 = some root)
  (hpair : PairedAt t d e name root) (hseg : (mnem >>> 16) % 8 ≠ 7)
  (hprep : prepare d e mnem ops 0 = some (opc, imm, sz))
include hroot hpair hseg hprep

/-- the decoding of a written word, once its shape has given the bytes after the word's opcode
byte, the front the decoder reads from them, and that no high byte register meets a REX prefix;
what the word itself carries comes from the descriptor's checks -/
theorem decode_written {b x r : Bool} {W : Nat} (hW : W = writtenWord d e mnem ops b x r) {op : UInt8}
    {bytes rest A : List UInt8} (hb : bytes = leadBytes W ++ op :: rest)
    (hA : bytes = A ++ immBytes (encodingInfo e) imm sz) (hlen : bytes.length ≤ 15)
    (hop : op.toNat ∈ opcodeBytes d e)
    (hmodrm : modrmBytes d e ≠ [] → ∃ x rest', rest = x :: rest' ∧ x.toNat ∈ modrmBytes d e)
    (hjump : (encodingInfo e).immCtl = 6 → A.length = opcSize (preparedWord d e mnem ops))
    (hgph : ∀ k ∈ registerRoles d e, d.classAt k = 2 → Operand.isGph (ops.get k) = true →
      has W Opc.anyRex = false)
    (hfront : ∀ D, Agrees t d e name D → ∃ s,
      (modrmByte (Window.of bytes) D ((leadBytes W).length + 1) >>= fun x =>
        modrmOperand (readContext t D W (Window.of bytes)) x.1
          (modregOperand (readContext t D W (Window.of bytes)) x.1
            (implicitOperand (readContext t D W (Window.of bytes))
              { ops := initialOperands D, off := x.2, disp := 0, imm := 0 }))) = .ok s ∧
      s.off = A.length ∧ FrontOperands D d e ops bytes.length s) :
    ReadAs t root name d e ops bytes.length (decode t bytes 64 0) := by
  obtain ⟨D, hagree⟩ := hpair.agrees
  obtain ⟨-, hcls, -, himm, -, -⟩ := prepare_spec hprep
  have hopc : d.opc < 2 ^ 26 := hagree.word.1
  have hs : e = .s → Operand.regIdx (ops.get Position.first) < 8 := fun h => by
    have := segment_lt hagree hcls h
    omega
  obtain ⟨-, -, -, hrex, hp67⟩ := writtenWord_flags b x r hopc hs
  rw [← hW] at hrex hp67
  have hkey : W &&& keyBits = d.opc &&& keyBits := hW ▸ writtenWord_keyBits b x r hopc hs
  have hsegW : segOf W ≠ 7 := by
    rw [hW, writtenWord_segOf b x r hopc hs]
    exact hseg
  have hvexop : (W >>> Opc.vexopShift) % 16 =
      ((encodingInfo e).vexreg.elim 0 fun v => Operand.regIdx (ops.get v)) % 16 := by
    rw [hW]
    exact writtenWord_vexop b x r hopc hs
  exact decode_assembled hroot hpair hb hA hkey hsegW hlen hop hmodrm hp67 hvexop hcls himm hjump
    (fun h => hrex.trans h) hgph hfront

/-- **An instruction written with a ModRM byte** decodes to the request. -/
theorem decode_modrm {m : Position} (hm : (encodingInfo e).modrm = some m) {b' : Buffer}
    (hemit : (emitModrm opc (ops.get m) ((encodingInfo e).modreg.elim ((opc &&& 0xff00) >>> 8) ops.get) sz).run
      Buffer.empty = .ok () b')
    {bytes : List UInt8} (hbytes : bytes = (b'.writeAll (immBytes (encodingInfo e) imm sz)).written 0)
    (hlen : bytes.length ≤ 15) :
    ReadAs t root name d e ops bytes.length (decode t bytes 64 0) := by
  obtain ⟨D0, hagree0⟩ := hpair.agrees
  obtain ⟨hzreg, hcls, -, himm, -, -⟩ := prepare_spec hprep
  have hopc : d.opc < 2 ^ 26 := hagree0.word.1
  have hne : e ≠ .s := by
    rintro rfl
    simp [encodingInfo] at hm
  have hs : e = .s → Operand.regIdx (ops.get Position.first) < 8 := fun h => absurd h hne
  have hmsome : (encodingInfo e).modrm.isSome = true := by simp [hm]
  obtain ⟨hrex, f, hf, -, rfl⟩ := emitModrm_ok hemit
  rw [written_empty] at hbytes
  generalize hop1 : (encodingInfo e).modreg.elim ((opc &&& 0xff00) >>> 8) ops.get = op1 at hrex hf hbytes
  rw [prepare_word hprep] at hop1 hrex hf hbytes
  generalize hWdef : modrmWord (writtenWord d e mnem ops false false false) (ops.get m) op1 = W at hrex hf hbytes
  have hW := hWdef.symm
  rw [modrmWord_written] at hW
  have htwo : twoByte d.opc = false := by
    cases h : twoByte d.opc
    · rfl
    · exact absurd hm (by simp [(hagree0.word.2.1 h).1])
  have htwoW : twoByte W = false := by rw [hW, (writtenWord_bytes _ _ _ hopc hs).2.2, htwo]
  have hb : bytes = leadBytes W ++ UInt8.ofNat W :: (f.bytes op1 ++ immBytes (encodingInfo e) imm sz) := by
    rw [hbytes, opcBytes_eq_lead, htwoW]
    simp [byteIf]
  have hmd := rmForm_modField hagree0 hcls hm hf
  refine decode_written hroot hpair hseg hprep hW hb hbytes hlen ?_ ?_ ?_ ?_ ?_
  · -- the opcode byte is the descriptor's own
    rw [UInt8.toNat_ofNat', hW, (writtenWord_bytes _ _ _ hopc hs).1, if_neg hne, Nat.or_zero]
    simp [opcodeBytes, hm, hne]
  · -- the ModRM byte is one the descriptor can have
    intro _
    refine ⟨UInt8.ofNat (f.md * 64 + op1 % 8 * 8 + f.rm), _, rfl, ?_⟩
    have hmd3 : f.md ≤ 3 := by
      have := hmd.1
      simp only [modFields, hm] at this
      split at this <;> simp at this <;> omega
    rw [UInt8.toNat_ofNat', Nat.mod_eq_of_lt (by omega)]
    exact mem_modrmBytes htwo hmd.1 (regField_mem hagree0 hcls hmsome hopc hop1.symm) hmd.2
  · intro h6
    rw [(jump_shape h6).1] at hm
    cases hm
  · -- a high byte register is the rm or the reg operand, which the checks kept from REX
    intro k hk h2 hg
    refine Bool.eq_false_iff.mpr fun hrexW => hrex ⟨hrexW, ?_⟩
    rcases gph_slot hagree0 hzreg hk h2 hg with h | h
    · obtain rfl : k = m := Option.some.inj (h.symm.trans (by simp [EncodingInfo.rmSlot, hm]))
      exact Or.inl hg
    · have hr : (encodingInfo e).modreg = some k := by simpa [regSlot, hmsome] using h
      rw [hr, Option.elim] at hop1
      exact Or.inr (hop1 ▸ hg)
  · intro D hagree
    by_cases hreg : Operand.isReg (ops.get m) = true
    · exact front_modrm_reg hagree hcls hzreg hm hop1.symm hWdef.symm hopc hreg hf hbytes hlen
    · exact front_modrm_mem hagree hcls hzreg hm hop1.symm hWdef.symm hopc (by simpa using hreg) hf hbytes
        (immBytes_length hagree himm) hlen

/-- **An instruction written with a register in its opcode byte** decodes to the request. -/
theorem decode_inOpcode (hm : (encodingInfo e).modrm = none) {r : Position} (hr : (encodingInfo e).modreg = some r)
    {b' : Buffer} (hemit : (emitInOpcode opc (ops.get r)).run Buffer.empty = .ok () b')
    {bytes : List UInt8} (hbytes : bytes = (b'.writeAll (immBytes (encodingInfo e) imm sz)).written 0)
    (hlen : bytes.length ≤ 15) :
    ReadAs t root name d e ops bytes.length (decode t bytes 64 0) := by
  obtain ⟨D0, hagree0⟩ := hpair.agrees
  obtain ⟨hzreg, hcls, -, -, -, -⟩ := prepare_spec hprep
  have hopc : d.opc < 2 ^ 26 := hagree0.word.1
  have hne : e ≠ .s := by
    rintro rfl
    simp [encodingInfo] at hr
  have hs : e = .s → Operand.regIdx (ops.get Position.first) < 8 := fun h => absurd h hne
  have htwo : twoByte d.opc = false := by
    cases h : twoByte d.opc
    · rfl
    · exact absurd hr (by simp [(hagree0.word.2.1 h).2.1])
  rw [prepare_word hprep] at hemit
  obtain ⟨hrex, rfl⟩ := emitInOpcode_ok (by rw [(writtenWord_bytes _ _ _ hopc hs).2.2, htwo]) hemit
  rw [written_empty] at hbytes
  generalize hWdef : inOpcodeWord (writtenWord d e mnem ops false false false) (ops.get r) = W at hrex hbytes
  have hW := hWdef.symm
  rw [inOpcodeWord_written] at hW
  have hb : bytes = leadBytes W ++ ((UInt8.ofNat W &&& 0xf8) ||| UInt8.ofNat (Operand.regIdx (ops.get r) % 8)) ::
      immBytes (encodingInfo e) imm sz := by
    rw [hbytes]
    simp
  have hrm : (encodingInfo e).rmSlot = some r := by simp [EncodingInfo.rmSlot, hm, hr]
  refine decode_written hroot hpair hseg hprep hW hb hbytes hlen ?_ ?_ ?_ ?_ ?_
  · -- the opcode byte is the descriptor's with the register's low bits
    have hbyte : ((UInt8.ofNat W &&& 0xf8) ||| UInt8.ofNat (Operand.regIdx (ops.get r) % 8)).toNat =
        d.opc % 256 &&& 0xf8 ||| Operand.regIdx (ops.get r) % 8 := by
      rw [UInt8.toNat_or, UInt8.toNat_and, UInt8.toNat_ofNat', UInt8.toNat_ofNat',
        Nat.mod_eq_of_lt (lt_trans (Nat.mod_lt (Operand.regIdx (ops.get r)) (by decide)) (by decide) : _ < 2 ^ 8),
        hW, (writtenWord_bytes _ _ _ hopc hs).1, if_neg hne, Nat.or_zero]
      rfl
    rw [hbyte]
    simp only [opcodeBytes, hm, hr, Option.isSome_some, and_self, if_true]
    exact List.mem_map.mpr ⟨_, List.mem_range.mpr (Nat.mod_lt _ (by decide)), rfl⟩
  · intro hne'
    exfalso
    exact hne' (by simp [modrmBytes, htwo, modFields, hm])
  · intro h6
    rw [(jump_shape h6).2.1] at hr
    cases hr
  · -- a high byte register is the one in the opcode byte, which the checks kept from REX
    intro k hk h2 hg
    refine Bool.eq_false_iff.mpr fun hrexW => hrex ⟨hrexW, ?_⟩
    rcases gph_slot hagree0 hzreg hk h2 hg with h | h
    · obtain rfl : k = r := Option.some.inj (h.symm.trans hrm)
      exact hg
    · simp [regSlot, hm, hne] at h
  · intro D hagree
    obtain ⟨s, hrun, hoff, hfront⟩ := front_inOpcode hagree hcls hzreg hm hr hWdef.symm hopc hbytes hlen
    exact ⟨s, hrun, by rw [hoff]; simp, hfront⟩

/-- **An instruction written as its word alone** decodes to the request. -/
theorem decode_plain (hm : (encodingInfo e).modrm = none) (hr : (encodingInfo e).modreg = none)
    {bytes : List UInt8}
    (hbytes : bytes = ((Buffer.empty.writeAll (opcBytes opc)).writeAll (immBytes (encodingInfo e) imm sz)).written 0)
    (hlen : bytes.length ≤ 15) :
    ReadAs t root name d e ops bytes.length (decode t bytes 64 0) := by
  obtain ⟨D0, hagree0⟩ := hpair.agrees
  obtain ⟨hzreg, hcls, hsegbit, -, -, hvex⟩ := prepare_spec hprep
  have hopc : d.opc < 2 ^ 26 := hagree0.word.1
  have hs : e = .s → Operand.regIdx (ops.get Position.first) < 8 := fun h => by
    have := segment_lt hagree0 hcls h
    omega
  have hsegbit' : e = .s → Operand.regIdx (ops.get Position.first) <<< 3 &&& 0x20 = d.opc &&& 0x20 :=
    fun h => (hsegbit h).trans (requestBase_bit5 hopc)
  rw [written_empty] at hbytes
  have hW := prepare_word hprep
  have hb : bytes = leadBytes opc ++ UInt8.ofNat opc ::
      (byteIf (twoByte opc) (UInt8.ofNat (opc >>> 8)) ++ immBytes (encodingInfo e) imm sz) := by
    rw [hbytes, opcBytes_eq_lead]
    simp
  have htwoW : twoByte opc = twoByte d.opc := by rw [hW, (writtenWord_bytes _ _ _ hopc hs).2.2]
  refine decode_written hroot hpair hseg hprep hW hb hbytes hlen ?_ ?_ ?_ ?_ ?_
  · -- the opcode byte is the descriptor's, with an S encoding's segment register in bits 3 to 5
    rw [UInt8.toNat_ofNat', hW, (writtenWord_bytes _ _ _ hopc hs).1]
    by_cases he : e = .s
    · subst he
      rw [if_pos rfl]
      simp only [opcodeBytes, hm, if_true]
      exact List.mem_map.mpr ⟨_, List.mem_filter.mpr ⟨List.mem_range.mpr (segment_lt hagree0 hcls rfl),
        by simp [hsegbit' rfl]⟩, rfl⟩
    · rw [if_neg he, Nat.or_zero]
      simp [opcodeBytes, hm, hr, he]
  · -- only a second opcode byte stands where the decoder reads a ModRM byte
    intro hne
    cases htwo : twoByte d.opc
    · exfalso
      exact hne (by simp [modrmBytes, htwo, modFields, hm])
    · refine ⟨UInt8.ofNat (opc >>> 8), immBytes (encodingInfo e) imm sz, by rw [htwoW, htwo]; rfl, ?_⟩
      rw [UInt8.toNat_ofNat', hW, (writtenWord_bytes _ _ _ hopc hs).2.1]
      simp [modrmBytes, htwo]
  · -- a jump's word has no VEX operand to change its size
    intro h6
    rw [length_opcBytes, hvex, vexWord, (jump_shape h6).2.2]
    rfl
  · -- only an S encoding has a register here, and it is a segment register
    intro k hk h2 hg
    rcases gph_slot hagree0 hzreg hk h2 hg with h | h
    · simp [EncodingInfo.rmSlot, hm, hr] at h
    · have he : e = .s := by
        by_contra he
        simp [regSlot, hm, he] at h
      subst he
      obtain rfl : k = Position.first := by simpa [regSlot, encodingInfo] using h.symm
      rw [(hagree0.word.2.2.1 rfl).2] at h2
      cases h2
  · intro D hagree
    exact front_plain hagree hcls hzreg hm hr hW hopc hsegbit' hbytes hlen

end Shapes

end Decoder

end X86Codec
