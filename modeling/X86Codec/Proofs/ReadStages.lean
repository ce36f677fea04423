import X86Codec.Proofs.Pairing
/-!
The decoder's stages on the bytes an encoder descriptor writes.

What decoding gives back of a request is stated once (`ReadsBack`): every register role as the
register passed, with the type of its class (a high byte register for AH to BH); the memory
operand with its base, scale, index and displacement; the immediate by its kind; and no operand
where the encoding puts none. The decoder's stages are then taken one at a time on a window
that holds, at the stage's position, what the encoder writes: the opening of a word's bytes, the
operands by the slot the pairing promise gives them, the immediate, and the finishing that sets
sizes and high byte registers.

Main statements:
- `ReadsBack`: what decoding the bytes of a request gives back;
- `decode_lead`: the bytes of a word are decoded from the opcode byte on, with the word's
  prefixes;
- `implicitOperand_slot`, `modregOperand_slot`, `vexOperand_slot`: each stage writes the slot
  the promise gives it, and nothing else;
- `immediate_read`: the immediate an encoding writes is read back as it asks;
- `finish_read`, `finish_nop`: finishing an instruction, and the exchange of the accumulator
  with itself read as a no-op.
-/
namespace X86Codec

open Encoder Decoder

theorem Position.mem_all (k : Position) : k ∈ Position.all := by
  revert k
  decide

theorem Word.ofNat_ofSigned_toSigned (v : Nat) :
    UInt64.ofNat (Word.ofSigned (Word.toSigned v)) = UInt64.ofNat v := by
  rw [Word.ofSigned_toSigned]
  exact UInt64.ofNat_mod_size'

theorem Word.low_ofSigned_signed (v : Nat) : Word.ofSigned (Word.signed 32 v) % (1 <<< (8 * 4)) = Word.low 32 v := by
  unfold Word.ofSigned Word.signed Word.low Word.modulus
  simp only [Nat.one_shiftLeft]
  norm_num
  split <;> omega

theorem Word.low_ofSigned_toSigned (v : Nat) : Word.ofSigned (Word.toSigned v) % (1 <<< (8 * 8)) = Word.low (8 * 8) v := by
  rw [Word.ofSigned_toSigned, show Word.modulus = 1 <<< (8 * 8) from rfl, Nat.mod_mod]
  rfl

theorem Word.signed_ofSigned_signed (v : Nat) :
    Word.signed 32 (Word.ofSigned (Word.signed 32 v)) = Word.signed 32 v := by
  unfold Word.ofSigned Word.signed Word.low Word.modulus
  simp only [Nat.one_shiftLeft]
  norm_num
  split <;> split <;> omega

/-- the target of a jump is its offset from the end of the instruction, added back to the length -/
theorem Word.jump_target (raw len : Nat) :
    UInt64.ofNat (Word.ofSigned (Word.toSigned (Word.ofSigned (Word.toSigned raw - len)))) + UInt64.ofNat len =
      UInt64.ofNat raw := by
  rw [Word.ofSigned_toSigned]
  apply UInt64.toNat_inj.mp
  simp only [UInt64.toNat_add, UInt64.toNat_ofNat']
  unfold Word.ofSigned Word.toSigned Word.modulus Word.signBit
  split <;> omega

namespace Encoder

variable {d : EncDesc} {info : EncodingInfo} {mnem opc : Nat} {ops : Vector Nat 4} {origin : Nat}
  {imm : Int} {size : Nat}

/-- the constant one is asked for as one -/
theorem immediateOf_one (h : immediateOf d info mnem opc ops origin = some (imm, size)) (hc : info.immCtl = 1) :
    Word.toSigned (ops.get info.immIdx) = 1 := by
  unfold immediateOf at h
  simp [hc] at h
  exact h.1

/-- an address is written in four bytes under a 32-bit address size, else in eight -/
theorem immediateOf_address (h : immediateOf d info mnem opc ops origin = some (imm, size)) (hc : info.immCtl = 2) :
    fits imm size = true ∧ (if has mnem addr32 then imm = Word.signed 32 (ops.get info.immIdx) ∧ size = 4
      else imm = Word.toSigned (ops.get info.immIdx) ∧ size = 8) := by
  unfold immediateOf at h
  simp [hc] at h
  by_cases ha : has mnem addr32 = true
  · simp only [ha, if_true] at h ⊢
    obtain ⟨hfit, h⟩ := h
    cases h
    exact ⟨hfit, rfl, rfl⟩
  · simp only [ha, Bool.false_eq_true, if_false] at h ⊢
    obtain ⟨hfit, h⟩ := h
    cases h
    exact ⟨hfit, rfl, rfl⟩

/-- a register in an immediate byte is written in its high four bits -/
theorem immediateOf_register (h : immediateOf d info mnem opc ops origin = some (imm, size)) (hc : info.immCtl = 3) :
    fits imm size = true ∧ imm = ((Operand.regIdx (ops.get info.immIdx) * 16 : Nat) : Int) ∧ size = d.immsz := by
  unfold immediateOf at h
  simp [hc] at h
  obtain ⟨hfit, rfl, rfl⟩ := h
  exact ⟨hfit, by push_cast; rfl, rfl⟩

/-- a number is written as the signed number of its 64-bit word -/
theorem immediateOf_number (h : immediateOf d info mnem opc ops origin = some (imm, size)) (hc : info.immCtl = 4) :
    fits imm size = true ∧ imm = Word.toSigned (ops.get info.immIdx) ∧ size = d.immsz := by
  unfold immediateOf at h
  simp [hc] at h
  obtain ⟨hfit, rfl, rfl⟩ := h
  exact ⟨hfit, rfl, rfl⟩

/-- a relative offset is written from the end of the instruction -/
theorem immediateOf_relative (h : immediateOf d info mnem opc ops origin = some (imm, size)) (hc : info.immCtl = 6) :
    fits imm size = true ∧ imm = Word.toSigned (Word.ofSigned (Word.toSigned (ops.get info.immIdx) - origin -
      opcSize opc - d.immsz)) ∧ size = d.immsz := by
  unfold immediateOf at h
  simp [hc] at h
  obtain ⟨-, hfit, rfl, rfl⟩ := h
  exact ⟨hfit, rfl, rfl⟩

end Encoder


/-! ## What is read back -/

/-- the register type a register of a class is read back with: a high byte register for AH to
BH, else the type of the class -/
def regTypeOf (cls op : Nat) : Nat :=
  if cls = 2 ∧ Encoder.Operand.isGph op then RegType.gph else classType cls

/-- the base register a memory operand is read back with: none, the instruction pointer, or the
register's number -/
def memBase (op : Nat) : Nat :=
  if Encoder.Operand.base op = 0 then noReg
  else if Encoder.Operand.base op = regIp then ipReg
  else Encoder.Operand.regIdx (Encoder.Operand.base op)

/-- the scale and index a memory operand is read back with: none without an index, else the
scale as a shift in the two high bits and the index register's number -/
def memIndex (op : Nat) : Nat :=
  if Encoder.Operand.index op = 0 then noReg
  else Nat.log2 (Encoder.Operand.scale op) * 64 + Encoder.Operand.regIdx (Encoder.Operand.index op)

/-- a register operand read back: a register of the number passed, with the type of its class -/
def RegisterRead (cls op : Nat) (o : Decoder.Operand) : Prop :=
  o.type = .reg ∧ o.reg = Encoder.Operand.regIdx op ∧ o.misc = regTypeOf cls op

/-- a memory operand read back: its base, scale and index, and as the instruction's displacement
the low 32 bits of its offset, taken from the end of the instruction when the base is the
instruction pointer -/
def MemoryRead (op : Nat) (disp : UInt64) (len : Nat) (o : Decoder.Operand) : Prop :=
  o.type = .mem ∧ o.reg = memBase op ∧ o.misc = memIndex op ∧
    disp = signExtend 32 (Word.ofSigned (Encoder.Operand.offset op -
      if Encoder.Operand.base op = regIp then (len : Int) else 0))

/-- an immediate read back, by how the encoding writes it: the constant one or a number as the
64-bit word passed; an address as a memory operand without base or index at that address, cut to
the address size; a vector register from the high four bits of a byte; and a jump target as an
offset from the end of the instruction -/
def ImmRead (ctl op : Nat) (imm disp : UInt64) (len addrsz : Nat) (o : Decoder.Operand) : Prop :=
  if ctl = 1 ∨ ctl = 4 then o.type = .imm ∧ imm = UInt64.ofNat op
  else if ctl = 2 then
    o.type = .mem ∧ o.reg = noReg ∧ o.misc = noReg ∧ disp = UInt64.ofNat (Word.low (8 * addrsz) op)
  else if ctl = 3 then RegisterRead 6 op o
  else o.type = .off ∧ imm + UInt64.ofNat len = UInt64.ofNat op

/-- **The operands read back** of a request an encoding wrote: every register role as its
register, the memory operand with its displacement, the immediate by its kind, and no operand
where the encoding puts none -/
structure ReadsBack (d : EncDesc) (e : Encoding) (ops : Vector Nat 4) (i : Instr) : Prop where
  registers : ∀ k ∈ registerRoles d e, RegisterRead (d.classAt k) (ops.get k) (i.operands.get k)
  memory : ∀ m, (encodingInfo e).modrm = some m → d.classAt m = 15 →
    MemoryRead (ops.get m) i.disp i.size (i.operands.get m)
  immediate : (encodingInfo e).immCtl ≠ 0 →
    ImmRead (encodingInfo e).immCtl (ops.get (encodingInfo e).immIdx) i.imm i.disp i.size i.addrsz
      (i.operands.get (encodingInfo e).immIdx)
  absent : ∀ k, k ∉ slots e → (i.operands.get k).type = .none

/-! ## Finishing -/

namespace Decoder

theorem highBytes_of_not_mem : ∀ (ps : List Position) (ops : Vector Operand 4) (k : Position),
    k ∉ ps → (highBytes ps ops).get k = ops.get k
  | [], _, _, _ => rfl
  | i :: is, ops, k, hk => by
    have hik : i ≠ k := fun h => hk (h ▸ List.mem_cons_self)
    have his : k ∉ is := fun h => hk (List.mem_cons_of_mem _ h)
    simp only [highBytes]
    split
    · rfl
    · split
      · rw [highBytes_of_not_mem is _ k his, get_update, if_neg hik]
      · exact highBytes_of_not_mem is _ k his

/-- whether the decoder makes a high byte register of an operand: a general purpose byte
register from 4 on -/
abbrev MadeHigh (o : Operand) : Prop :=
  o.type = .reg ∧ o.misc = RegType.gpl ∧ o.size = 1 ∧ o.reg ≥ 4

theorem highBytes_single (ops : Vector Operand 4) (i : Position) :
    (highBytes [i] ops).get i = if MadeHigh (ops.get i) then { ops.get i with misc := RegType.gph } else ops.get i := by
  simp only [highBytes]
  split
  · next hn =>
    rw [if_neg (by simp [MadeHigh, hn])]
  · split
    · rw [get_update, if_pos rfl]
    · rfl

/-- the first operand becomes a high byte register when it is a byte register from 4 on -/
theorem highBytes_first (ops : Vector Operand 4) :
    (highBytes [Position.first, Position.second] ops).get Position.first =
      if MadeHigh (ops.get Position.first) then { ops.get Position.first with misc := RegType.gph }
      else ops.get Position.first := by
  have hnot : Position.first ∉ [Position.second] := by decide
  rw [highBytes]
  split
  · next hn =>
    rw [if_neg (by simp [MadeHigh, hn])]
  · split
    · next hc =>
      rw [highBytes_of_not_mem _ _ _ hnot, get_update, if_pos rfl]
    · next hc =>
      rw [highBytes_of_not_mem _ _ _ hnot]

/-- the second operand does too, after a first operand -/
theorem highBytes_second (ops : Vector Operand 4) (h : (ops.get Position.first).type ≠ .none) :
    (highBytes [Position.first, Position.second] ops).get Position.second =
      if MadeHigh (ops.get Position.second) then { ops.get Position.second with misc := RegType.gph }
      else ops.get Position.second := by
  have hne : Position.first ≠ Position.second := by decide
  have hkeep : ∀ f : Operand → Operand,
      (Position.update ops Position.first f).get Position.second = ops.get Position.second := fun f => by
    rw [get_update, if_neg hne]
  rw [highBytes]
  dsimp only
  rw [if_neg h]
  split
  · rw [highBytes_single, hkeep]
  · rw [highBytes_single]

theorem highBytes_later (ops : Vector Operand 4) {k : Position} (hk : 2 ≤ k.val) :
    (highBytes [Position.first, Position.second] ops).get k = ops.get k :=
  highBytes_of_not_mem _ _ _ (by
    simp only [List.mem_cons, List.not_mem_nil, or_false, not_or]
    exact ⟨fun h => by subst h; exact absurd hk (by decide), fun h => by subst h; exact absurd hk (by decide)⟩)

/-- the operand at a position once finishing sets sizes and high byte registers, after
operands of a kind at every position before it: its size is its position's, and a byte register
from 4 on becomes a high byte register when the decoder rewrites bytes (`rw`) at the first two
positions -/
theorem finish_get (d : DescWords) (sizes : Nat → Nat) (rw : Bool) (ops : Vector Operand 4) (k : Position)
    (hk : ∀ j ≤ k, (ops.get j).type ≠ .none) :
    (if rw = true then highBytes [Position.first, Position.second] (sizeFrom d sizes Position.all ops)
      else sizeFrom d sizes Position.all ops).get k =
      if rw = true ∧ k.val < 2 ∧ MadeHigh { ops.get k with size := sizes (d.sizeChoice k.val) } then
        { ops.get k with size := sizes (d.sizeChoice k.val), misc := RegType.gph }
      else { ops.get k with size := sizes (d.sizeChoice k.val) } := by
  have hsize : ∀ j, j ≤ k → (sizeFrom d sizes Position.all ops).get j =
      { ops.get j with size := sizes (d.sizeChoice j.val) } := fun j hj =>
    sizeFrom_get d sizes Position.all ops j (by decide) (Position.mem_all j) fun i _ hij => hk i (le_trans hij hj)
  cases rw with
  | false => simp [hsize k le_rfl]
  | true =>
    simp only [if_true, true_and]
    by_cases h0 : k = Position.first
    · subst h0
      rw [highBytes_first, hsize _ le_rfl]
      by_cases hm : MadeHigh { ops.get Position.first with size := sizes (d.sizeChoice Position.first.val) }
      · rw [if_pos hm, if_pos ⟨by decide, hm⟩]
      · rw [if_neg hm, if_neg fun h => hm h.2]
    by_cases h1 : k = Position.second
    · subst h1
      have hfirst : Position.first ≤ Position.second := by decide
      rw [highBytes_second _ (by rw [hsize _ hfirst]; exact hk _ hfirst), hsize _ le_rfl]
      by_cases hm : MadeHigh { ops.get Position.second with size := sizes (d.sizeChoice Position.second.val) }
      · rw [if_pos hm, if_pos ⟨by decide, hm⟩]
      · rw [if_neg hm, if_neg fun h => hm h.2]
    · have h2 : 2 ≤ k.val := by
        have : k.val ≠ 0 := fun h => h0 (Fin.ext h)
        have : k.val ≠ 1 := fun h => h1 (Fin.ext h)
        omega
      rw [highBytes_later _ h2, hsize _ le_rfl, if_neg (by omega)]

/-- **Finishing an instruction that is no no-op.** It succeeds when its type is no 3DNow! one
and a lock prefix meets a lockable instruction with a memory destination; the type is the
descriptor's, or the exchange's for the exchange that may be a no-op; length, displacement and
immediate are those read; and the operands get their sizes and high byte registers. -/
theorem finish_read {c : Context} {s : Progress}
    (hnop : ¬(c.is "XCHG_NOP" = true ∧ (s.ops.get Position.first).reg = 0 ∧
      (s.ops.get Position.second).reg = 0))
    (h3 : c.tables.isType (if c.is "XCHG_NOP" then c.tables.typeOf "XCHG" else c.desc.type) "3DNOW" = false)
    (hlock : c.prefixes.lock = true → c.desc.lockable = true ∧ (s.ops.get Position.first).type = .mem) :
    ∃ i, finish c s = .ok i ∧ i.type = (if c.is "XCHG_NOP" then c.tables.typeOf "XCHG" else c.desc.type) ∧
      i.size = s.off ∧ i.disp = s.disp ∧ i.imm = s.imm ∧ i.addrsz = c.addrSize ∧
      i.operands = if ((c.opSize = 1 || c.tables.isType i.type "MOVSX" || c.tables.isType i.type "MOVZX") &&
          !hasBit c.prefixes.rex Rex.present) = true then
        highBytes [Position.first, Position.second] (sizeFrom c.desc (sizeTable c) Position.all s.ops)
      else sizeFrom c.desc (sizeTable c) Position.all s.ops := by
  -- the no-op and exchange split leaves the operands as they are
  have hsplit : (if c.is "XCHG_NOP" then
      if (s.ops.get Position.first).reg = 0 ∧ (s.ops.get Position.second).reg = 0 then
        (c.tables.typeOf "NOP", Position.update (Position.update s.ops Position.first fun o => { o with type := .none })
          Position.second fun o => { o with type := .none })
      else (c.tables.typeOf "XCHG", s.ops)
    else (c.desc.type, s.ops)) = ((if c.is "XCHG_NOP" then c.tables.typeOf "XCHG" else c.desc.type), s.ops) := by
    by_cases hx : c.is "XCHG_NOP" = true
    · rw [if_pos hx, if_pos hx, if_neg fun h => hnop ⟨hx, h⟩]
    · rw [if_neg hx, if_neg hx]
  unfold finish
  dsimp only
  rw [hsplit]
  dsimp only
  rw [if_neg (by simp [h3]), if_neg (fun h => by
    obtain ⟨hl, hm⟩ := hlock h.1
    simp [hl, hm] at h)]
  exact ⟨_, rfl, rfl, rfl, rfl, rfl, rfl, rfl⟩

/-- **Finishing the exchange of the accumulator with itself**: it is a no-op, of the NOP type,
without its two operands. -/
theorem finish_nop {c : Context} {s : Progress} (hx : c.is "XCHG_NOP" = true)
    (h0 : (s.ops.get Position.first).reg = 0 ∧ (s.ops.get Position.second).reg = 0)
    (h3 : c.tables.isType (c.tables.typeOf "NOP") "3DNOW" = false) (hlock : c.prefixes.lock = false) :
    ∃ i, finish c s = .ok i ∧ i.type = c.tables.typeOf "NOP" ∧ i.size = s.off ∧
      (i.operands.get Position.first).type = .none ∧ (i.operands.get Position.second).type = .none ∧
      ∀ k, k ≠ Position.first → k ≠ Position.second → (i.operands.get k).type = (s.ops.get k).type := by
  unfold finish
  dsimp only
  rw [if_pos hx, if_pos h0]
  dsimp only
  rw [if_neg (by simp [h3]), if_neg (by simp [hlock])]
  -- sizes and high byte registers keep every operand's kind
  have hkind : ∀ (b : Bool) (v : Vector Operand 4) (k : Position),
      ((if b = true then highBytes [Position.first, Position.second] (sizeFrom c.desc (sizeTable c) Position.all v)
        else sizeFrom c.desc (sizeTable c) Position.all v).get k).type = (v.get k).type := by
    intro b v k
    cases b <;> simp [highBytes_type, sizeFrom_type]
  refine ⟨_, rfl, rfl, rfl, ?_, ?_, fun k h0 h1 => ?_⟩
  all_goals
    rw [hkind]
  · simp [get_update]
  · simp [get_update]
  · simp [get_update, Ne.symm h0, Ne.symm h1]

/-! ## From the bytes of a word -/

theorem Window.of_toList {bytes : List UInt8} (h : bytes.length ≤ 15) : (Window.of bytes).bytes.toList = bytes := by
  simp [Window.of, List.take_of_length_le h]

/-- **Decoding the bytes of a word.** In 64-bit mode the bytes of a word, its opcode byte and what
follows are decoded from the opcode byte on with the prefixes of the word. -/
theorem decode_lead {t : Tables} {root W : Nat} {op : UInt8} {rest : List UInt8}
    (hroot : t.root? 64 = some root) (hlen : (leadBytes W ++ op :: rest).length ≤ 15)
    (hseg : segOf W ≠ 7) (hop : OpensAt W op.toNat) :
    decode t (leadBytes W ++ op :: rest) 64 0 =
      decodeAfter t Instr.zero (Window.of (leadBytes W ++ op :: rest)) .bits64 root 0 (Prefixes.ofWord W)
        (leadBytes W).length := by
  obtain ⟨p, hp, hsame⟩ := opening_lead (Window.of_toList hlen) hseg hop
  rw [decode, decodeInto, decodeWindow_eq (rfl : Mode.ofInt? 64 = some .bits64) hroot, hp, hsame.eq_with]
  exact decodeAfter_rexAt _ _ _ _ _ _ _ _ _

/-! ## The word a request writes -/

section Written

variable {opc s : Nat} (hopc : opc < 2 ^ 26) (hs : s < 256) (b x r rex p67 : Bool) (seg vexop : Nat)
include hopc hs

theorem written_lt : opc ||| s < 2 ^ 26 :=
  Nat.or_lt_two_pow hopc (lt_of_lt_of_le hs (by decide))

/-- the bits the decoder's walk reads of a written word are the descriptor's -/
theorem written_keyBits :
    ((opc ||| s) ||| requestHigh b x r rex p67 seg vexop) &&& keyBits = opc &&& keyBits := by
  rw [or_requestHigh_and (written_lt hopc hs) b x r rex p67 seg vexop (by decide), Nat.and_or_distrib_right,
    show keyBits = 1019 <<< 16 by decide, Nat.and_comm s,
    shiftLeft_and_of_lt _ (lt_of_lt_of_le hs (by decide)), Nat.or_zero]

/-- the byte after the opcode byte of a written word is the descriptor's -/
theorem written_second :
    (((opc ||| s) ||| requestHigh b x r rex p67 seg vexop) >>> 8) % 256 = (opc >>> 8) % 256 := by
  rw [(or_requestHigh_bytes (written_lt hopc hs) b x r rex p67 seg vexop).2, Nat.shiftRight_or_distrib,
    show s >>> 8 = 0 by rw [Nat.shiftRight_eq_div_pow]; omega, Nat.or_zero]

theorem written_twoByte : twoByte ((opc ||| s) ||| requestHigh b x r rex p67 seg vexop) = twoByte opc := by
  have hm : (0xc000 : Nat) < 2 ^ 26 := by decide
  simp only [twoByte, or_requestHigh_and (written_lt hopc hs) b x r rex p67 seg vexop hm, Nat.and_or_distrib_right,
    show s &&& 0xc000 = 0 by
      rw [show (0xc000 : Nat) = 3 <<< 14 by decide, Nat.and_comm]
      exact shiftLeft_and_of_lt _ (lt_of_lt_of_le hs (by decide)),
    Nat.or_zero]

end Written

/-! ## What the reading of operands depends on -/

theorem has_keyed {W opc m : Nat} (h : W &&& keyBits = opc &&& keyBits) (hm : keyBits &&& m = m) :
    has W m = has opc m := by
  simp only [has]
  rw [← hm, ← Nat.and_assoc, ← Nat.and_assoc, h]

/-- two words with the bits the walk reads in common give the same operand and vector sizes -/
theorem wordContext_keyed {W opc : Nat} (h : W &&& keyBits = opc &&& keyBits) (t : Tables) (D : DescWords) :
    (wordContext t D W).opSize = (wordContext t D opc).opSize ∧
      (wordContext t D W).vecSize = (wordContext t D opc).vecSize := by
  obtain ⟨-, -, -, h66, hw, -, hv⟩ := ofWord_keyed h
  have hl : hasBit (Prefixes.ofWord W).rex Rex.vexL = hasBit (Prefixes.ofWord opc).rex Rex.vexL := by
    rw [(ofWord_rex_bits W).2.2.2.2.1, (ofWord_rex_bits opc).2.2.2.2.1, hv, has_keyed h (by decide)]
  simp only [wordContext, operandSize, h66, hw, hl, and_self]

theorem immSize_congr {c c' : Context} (ht : c.tables = c'.tables) (hd : c.desc = c'.desc)
    (ho : c.opSize = c'.opSize) (ctl : Nat) : immSize c ctl = immSize c' ctl := by
  unfold immSize Context.is
  rw [ht, hd, ho]

theorem sizeTable_congr {c c' : Context} (hd : c.desc = c'.desc) (ho : c.opSize = c'.opSize)
    (hv : c.vecSize = c'.vecSize) (ch : Nat) : sizeTable c ch = sizeTable c' ch := by
  unfold sizeTable
  rw [hd, ho, hv]

theorem rewritesBytes_congr {c c' : Context} (ht : c.tables = c'.tables) (hd : c.desc = c'.desc)
    (ho : c.opSize = c'.opSize) : c.rewritesBytes = c'.rewritesBytes := by
  unfold Context.rewritesBytes Context.is
  rw [ht, hd, ho]

/-! ## The operand stages by slot -/

/-- the operands with the one at a slot changed, when there is the slot -/
def updateAt (v : Vector Operand 4) (o : Option Position) (f : Operand → Operand) : Vector Operand 4 :=
  o.elim v fun i => Position.update v i f

theorem get_updateAt (v : Vector Operand 4) (o : Option Position) (f : Operand → Operand) (k : Position) :
    (updateAt v o f).get k = if o = some k then f (v.get k) else v.get k := by
  cases o with
  | none => simp [updateAt]
  | some i => simp [updateAt, get_update]

theorem Slot.some {present : Bool} {idx : Position} {want : Option Position} (h : Slot present idx want)
    {i : Position} (hi : want = some i) : present = true ∧ idx = i :=
  ⟨by rw [h.1, hi]; rfl, h.2 i hi⟩

theorem Slot.none {present : Bool} {idx : Position} {want : Option Position} (h : Slot present idx want)
    (hi : want = none) : present = false := by
  rw [h.1, hi]
  rfl

variable {c : Context} {s : Progress}

theorem implicitOperand_slot {want : Option Position} (h : Slot c.desc.hasImplicit c.desc.implicitIdx want) :
    implicitOperand c s = { s with ops := updateAt s.ops want fun o => { o with type := .reg, reg := c.desc.implicitVal } } := by
  unfold implicitOperand
  cases hw : want with
  | none => simp [h.none hw, updateAt]
  | some i =>
    obtain ⟨hp, hi⟩ := h.some hw
    simp [hp, hi, updateAt, Progress.setOp]

theorem modregOperand_slot {want : Option Position} (h : Slot c.desc.hasModreg c.desc.modregIdx want) (m : Nat) :
    modregOperand c m s = { s with ops := updateAt s.ops want fun o =>
      { o with type := .reg
               reg := (m &&& 0x38) / 8 + if o.misc = RegType.mmx ∨ o.misc = RegType.seg then 0 else c.rexPlus Rex.r } } := by
  unfold modregOperand
  cases hw : want with
  | none => simp [h.none hw, updateAt]
  | some i =>
    obtain ⟨hp, hi⟩ := h.some hw
    simp [hp, hi, updateAt, Progress.setOp]

theorem vexOperand_slot {want : Option Position} (h : Slot c.desc.hasVexreg c.desc.vexregIdx want)
    (hmode : c.mode = .bits64) (h0 : want = none → c.prefixes.vexOperand = 0) :
    vexOperand c s = .ok { s with ops := updateAt s.ops want fun o =>
      { o with type := .reg, reg := c.prefixes.vexOperand } } := by
  cases hw : want with
  | none =>
    rw [vexOperand_none (h.none hw) (h0 hw)]
    rfl
  | some i =>
    obtain ⟨hp, hi⟩ := h.some hw
    rw [vexOperand_reg hp hmode, hi]
    rfl

@[simp] theorem wordContext_desc (t : Tables) (D : DescWords) (opc : Nat) : (wordContext t D opc).desc = D := rfl

@[simp] theorem wordContext_tables (t : Tables) (D : DescWords) (opc : Nat) :
    (wordContext t D opc).tables = t := rfl

theorem operandSize_ne_zero (mode : Mode) (D : DescWords) (p : Prefixes) : operandSize mode D p ≠ 0 := by
  rcases operandSize_cases mode D p with ⟨h, -⟩ | ⟨h, -⟩ <;> omega

theorem immSize_ne_zero {c : Context} (h : c.opSize ≠ 0) (ctl : Nat) : immSize c ctl ≠ 0 := by
  unfold immSize
  split_ifs <;> omega

theorem encodingInfo_immCtl (e : Encoding) :
    (encodingInfo e).immCtl = 0 ∨ (encodingInfo e).immCtl = 1 ∨ (encodingInfo e).immCtl = 2 ∨
      (encodingInfo e).immCtl = 3 ∨ (encodingInfo e).immCtl = 4 ∨ (encodingInfo e).immCtl = 6 := by
  cases e <;> simp [encodingInfo]

/-- **The immediate read back.** With the immediate an encoding wrote at the stage's position, the
decoder reads it as the encoding asked: at its position, the bytes the encoder wrote, and nothing
else changed; the displacement only for an address. -/
theorem immediate_read {c : Context} {s : Progress} {d : EncDesc} {e : Encoding} {mnem opc : Nat}
    {ops : Vector Nat 4} {imm : Int} {immsz : Nat} {A C : List UInt8}
    (hagree : ImmAgrees (wordContext c.tables c.desc d.opc) d (encodingInfo e))
    (hop : c.opSize = (wordContext c.tables c.desc d.opc).opSize)
    (hmode : c.mode = .bits64) (haddr : c.address = 0)
    (hsize : c.addrSize = if has mnem addr32 then 4 else 8)
    (himm : immediateOf d (encodingInfo e) mnem opc ops 0 = some (imm, immsz))
    (hjump : (encodingInfo e).immCtl = 6 → A.length = opcSize opc)
    (hw : c.window.bytes.toList = A ++ immBytes (encodingInfo e) imm immsz ++ C) (hoff : s.off = A.length) :
    ∃ s', immediate c s = .ok s' ∧ s'.off = A.length + (immBytes (encodingInfo e) imm immsz).length ∧
      (∀ k, (encodingInfo e).immSlot ≠ some k → s'.ops.get k = s.ops.get k) ∧
      ((encodingInfo e).immCtl ≠ 2 → s'.disp = s.disp) ∧
      ((encodingInfo e).immCtl ≠ 0 → ImmRead (encodingInfo e).immCtl (ops.get (encodingInfo e).immIdx)
        s'.imm s'.disp s'.off c.addrSize (s'.ops.get (encodingInfo e).immIdx)) := by
  -- the operand changed is the immediate's, when there is one
  have hframe : ∀ (f : Operand → Operand) (k : Position), (encodingInfo e).immCtl ≠ 0 →
      (encodingInfo e).immSlot ≠ some k → (Position.update s.ops (encodingInfo e).immIdx f).get k = s.ops.get k := by
    intro f k h0 hk
    rw [get_update, if_neg fun h => hk (by simp [EncodingInfo.immSlot, h0, h])]
  have hread : ∀ (f : Operand → Operand), ((Position.update s.ops (encodingInfo e).immIdx f).get
      (encodingInfo e).immIdx) = f (s.ops.get (encodingInfo e).immIdx) := fun f => by
    rw [get_update, if_pos rfl]
  unfold ImmAgrees at hagree
  rcases encodingInfo_immCtl e with hc | hc | hc | hc | hc | hc
  · -- no immediate
    rw [if_pos hc] at hagree
    refine ⟨s, immediate_none hagree.1, ?_, fun _ _ => rfl, fun _ => rfl, fun h => absurd hc h⟩
    simp [immBytes, hc, hoff]
  · -- the constant one
    simp only [hc, one_ne_zero, if_false, wordContext_desc, if_true] at hagree
    obtain ⟨hidx, hctl, -⟩ := hagree
    refine ⟨_, immediate_one hctl, by simp [immBytes, hc, hoff], fun k hk => ?_, fun _ => rfl, fun _ => ?_⟩
    · simp only [Progress.setOp, hidx]
      exact hframe _ k (by omega) hk
    · simp only [ImmRead, hc, true_or, if_true, Progress.setOp, hidx, hread, true_and]
      rw [← Word.ofNat_ofSigned_toSigned, immediateOf_one himm hc]
      rfl
  · -- an address of the address size
    simp only [hc, OfNat.ofNat_ne_zero, if_false, wordContext_desc, show (2 : Nat) ≠ 1 by decide, if_true] at hagree
    obtain ⟨hidx, hctl⟩ := hagree
    obtain ⟨-, hval⟩ := immediateOf_address himm hc
    have hsz : immsz = c.addrSize := by
      rw [hsize]
      split at hval
      · rename_i ha
        rw [if_pos ha, hval.2]
      · rename_i ha
        rw [if_neg ha, hval.2]
    have hbytes : immBytes (encodingInfo e) imm immsz = leBytes (Word.ofSigned imm) c.addrSize := by
      simp [immBytes, hc, hsz]
    rw [hbytes] at hw ⊢
    refine ⟨_, immediate_moffs hctl hw hoff, by simp [length_leBytes, hoff], fun k hk => ?_,
      fun h => absurd hc h, fun _ => ?_⟩
    · simp only [Progress.setOp, hidx]
      exact hframe _ k (by omega) hk
    · simp only [ImmRead, hc, show ¬(2 = 1 ∨ 2 = 4) by decide, if_false, if_true, Progress.setOp, hidx, hread,
        true_and]
      congr 1
      split at hval
      · rw [hval.1, hsize, if_pos ‹_›, Word.low_ofSigned_signed]
      · rw [hval.1, hsize, if_neg ‹_›, Word.low_ofSigned_toSigned]
  · -- a vector register in the high four bits of a byte
    simp only [hc, OfNat.ofNat_ne_zero, if_false, wordContext_desc, show (3 : Nat) ≠ 1 by decide,
      show (3 : Nat) ≠ 2 by decide, if_true] at hagree
    obtain ⟨hidx, hctl, himmsz, -⟩ := hagree
    obtain ⟨hfit, hv, hsz⟩ := immediateOf_register himm hc
    rw [himmsz] at hsz
    subst hsz
    have hbytes : immBytes (encodingInfo e) imm 1 = [UInt8.ofNat (Word.ofSigned imm)] := by
      simp [immBytes, hc, leBytes]
    rw [hbytes] at hw ⊢
    rw [List.append_assoc, List.singleton_append] at hw
    refine ⟨_, immediate_vecReg hctl hmode hw hoff, by simp [hoff], fun k hk => ?_,
      fun _ => rfl, fun _ => ?_⟩
    · simp only [Progress.setOp, hidx]
      exact hframe _ k (by omega) hk
    · simp only [ImmRead, hc, show ¬(3 = 1 ∨ 3 = 4) by decide, show ¬(3 = 2) by decide, if_false, if_true,
        Progress.setOp, hidx, hread, RegisterRead, regTypeOf, classType, true_and]
      -- the byte is the register's number times sixteen, below 128 as it fits one signed byte
      have hlt : -0x80 ≤ imm ∧ imm < 0x80 := by simpa [fits] using hfit
      have hbyte : (UInt8.ofNat (Word.ofSigned imm)).toNat / 16 = Operand.regIdx (ops.get (encodingInfo e).immIdx) := by
        rw [hv]
        unfold Word.ofSigned Word.modulus
        rw [hv] at hlt
        rw [UInt8.toNat_ofNat']
        omega
      exact ⟨hbyte, by simp [RegType.vec]⟩
  all_goals
    -- a number, or a relative offset: read in the width the descriptor gives it
    simp only [hc, OfNat.ofNat_ne_zero, if_false, wordContext_desc, show (4 : Nat) ≠ 1 by decide,
      show (4 : Nat) ≠ 2 by decide, show (4 : Nat) ≠ 3 by decide, show (6 : Nat) ≠ 1 by decide,
      show (6 : Nat) ≠ 2 by decide, show (6 : Nat) ≠ 3 by decide] at hagree
    obtain ⟨hidx, hctl, hwidth⟩ := hagree
    have hpos : immSize c c.desc.immControl ≠ 0 :=
      immSize_ne_zero (by rw [hop]; exact operandSize_ne_zero .bits64 c.desc (Prefixes.ofWord d.opc)) _
    have hw' : immSize c c.desc.immControl = d.immsz := by
      have ht : c.tables = (wordContext c.tables c.desc d.opc).tables := rfl
      have hd : c.desc = (wordContext c.tables c.desc d.opc).desc := rfl
      rw [immSize_congr ht hd hop, ← hwidth]
  · obtain ⟨hfit, hv, hsz⟩ := immediateOf_number himm hc
    subst hsz
    have hbytes : immBytes (encodingInfo e) imm d.immsz = leBytes (Word.ofSigned imm) (immSize c c.desc.immControl) := by
      simp [immBytes, hc, hw']
    rw [hbytes] at hw ⊢
    refine ⟨_, immediate_number (by rw [hctl]; split <;> omega) (by rw [hctl]; split <;> omega)
      (hw' ▸ hfit) hpos hw hoff, by simp [length_leBytes, hoff], fun k hk => ?_, fun _ => rfl, fun _ => ?_⟩
    · simp only [Progress.setOp, hidx]
      exact hframe _ k (by omega) hk
    · simp only [ImmRead, hc, or_true, if_true, Progress.setOp, hidx, hread, true_and, hv]
      exact Word.ofNat_ofSigned_toSigned _
  · obtain ⟨hfit, hv, hsz⟩ := immediateOf_relative himm hc
    subst hsz
    have hbytes : immBytes (encodingInfo e) imm d.immsz = leBytes (Word.ofSigned imm) (immSize c c.desc.immControl) := by
      simp [immBytes, hc, hw']
    rw [hbytes] at hw ⊢
    refine ⟨_, immediate_relative (by rw [hctl]; split <;> omega) (by rw [hctl]; split <;> omega) haddr
      (hw' ▸ hfit) hpos hw hoff, by simp [length_leBytes, hoff], fun k hk => ?_, fun _ => rfl, fun _ => ?_⟩
    · simp only [Progress.setOp, hidx]
      exact hframe _ k (by omega) hk
    · simp only [ImmRead, hc, show ¬(6 = 1 ∨ 6 = 4) by decide, show ¬(6 = 2) by decide, show ¬(6 = 3) by decide,
        if_false, Progress.setOp, hidx, hread, true_and, hv, hoff, hw', hjump hc]
      have hx : Word.toSigned (ops.get (encodingInfo e).immIdx) - ((0 : Nat) : Int) - (opcSize opc : Int) -
          (d.immsz : Int) = Word.toSigned (ops.get (encodingInfo e).immIdx) - ((opcSize opc + d.immsz : Nat) : Int) := by
        push_cast
        ring
      rw [hx]
      exact Word.jump_target _ _

end Decoder

end X86Codec
