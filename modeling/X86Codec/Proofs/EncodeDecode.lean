import X86Codec.Proofs.RoundTrip
/-!
Encoding a request and decoding its bytes, for every descriptor the decoder's tables cover.

`RoundTrip` reads back the bytes of a descriptor paired with the decoder's descriptors. The
standard tables have three more kinds of descriptor on the encoder's chains, read otherwise:
- the encoder's no-op, the byte 90, which the decoder reads as the exchange that may be a no-op
  and finishes as NOP without operands (`decode_nop`);
- the fences LFENCE, MFENCE and SFENCE, written as the bytes 0f ae alone: the decoder wants the
  ModRM byte that names the fence and refuses the bytes as too short (`decode_waiting`);
- the MVR encodings, which put their second operand both in ModRM reg and in VEX.vvvv: the third
  operand is never written, and requests that differ in it alone get the same bytes
  (`writes_mvr_third`).
The moves to and from control and debug registers are never written: the encoder checks no
operand against their classes (`writable_of_classesOk`).

Results:
- `EncDesc.writes`: the bytes one descriptor writes for a request;
- `encode_decode`: when every descriptor on a mnemonic's chain is covered (`Covered`), the bytes
  the encoder writes for a request come from one of them, and either it is an MVR descriptor,
  whose bytes are the same whatever vector register is passed third, or the decoder in 64-bit
  mode reads them as `ReadAs` says: the request read back (the exchange of the accumulator with
  itself as a no-op), or refused where its tables have an empty entry or want a ModRM byte.
Witness: `encode_decode_movRegisters`, a move between two 64-bit registers.
Premises: `ShortForms` of the encoder's tables, as for writing any request, and `Covered` for the
chain. On the standard tables `Covered` holds for every descriptor on a chain but the two of the
3DNow! instructions.
-/
namespace X86Codec

open Encoder Decoder

namespace Encoder

/-- the bytes a descriptor writes for a request at the start of a buffer, when its checks pass -/
def EncDesc.writes (d : EncDesc) (e : Encoding) (mnem : Nat) (ops : Vector Nat 4) : Option (List UInt8) :=
  match prepare d e mnem ops 0 with
  | some (opc, imm, sz) =>
    match (emitDesc (encodingInfo e) opc ops imm sz).run Buffer.empty with
    | .ok () b => some (b.written 0)
    | .error () _ => none
  | none => none

/-- a descriptor whose checks pass has only classes the encoder writes -/
theorem writable_of_classesOk {d : EncDesc} {ops : Vector Nat 4} (h : classesOk d.tys ops = true) :
    d.Writable := by
  intro k
  have hk := classOk_at h k
  have hlt : d.classAt k < 16 := Nat.mod_lt _ (by decide)
  -- the class codes 7 to 14 pass no check
  generalize d.classAt k = n at hk hlt
  by_contra hn
  obtain ⟨h7, h15⟩ : 6 < n ∧ n ≠ 15 := by omega
  interval_cases n <;> simp [classOk] at hk h15

section Third

variable {d : EncDesc} {mnem : Nat} {ops : Vector Nat 4} {c : Nat}

/-- replacing the third operand keeps the first two -/
theorem get_update_third {k : Position} (hk : k ≠ Position.third) :
    (Position.update ops Position.third fun _ => c).get k = ops.get k := by
  rw [get_update, if_neg (Ne.symm hk)]

/-- a check of each operand against its class code says the same of any third operand of the
vector class that it says of the one passed -/
theorem perOperand_update_third (q : Nat → Nat → Bool) (h6 : d.classAt Position.third = 6)
    (hq : q 6 c = q 6 (ops.get Position.third)) :
    (fun i : Position => q ((d.tys >>> (4 * i.val)) % 16) ((Position.update ops Position.third fun _ => c).get i)) =
      fun i => q ((d.tys >>> (4 * i.val)) % 16) (ops.get i) := by
  funext k
  by_cases hk : k = Position.third
  · subst hk
    show q (d.classAt Position.third) _ = q (d.classAt Position.third) _
    rw [get_update, if_pos rfl, h6, hq]
  · rw [get_update_third hk]

theorem classesOk_update_third (h6 : d.classAt Position.third = 6) (hc : Operand.isXmm c = true)
    (hx : Operand.isXmm (ops.get Position.third) = true) :
    classesOk d.tys (Position.update ops Position.third fun _ => c) = classesOk d.tys ops := by
  unfold classesOk
  congr 1
  exact perOperand_update_third classOk h6 (by simp [classOk, hc, hx])

theorem needsRex_update_third (h6 : d.classAt Position.third = 6) :
    needsRex d.tys (Position.update ops Position.third fun _ => c) = needsRex d.tys ops := by
  unfold needsRex
  congr 1
  -- only a general purpose class asks for REX
  exact perOperand_update_third (fun t o => decide (t = 2 ∧ Operand.isGpl o = true ∧ o ≥ regSp)) h6 (by simp)

/-- the checks of an MVR descriptor read its first two operands and only the class of the third -/
theorem prepare_mvr_third (h6 : d.classAt Position.third = 6) (hc : Operand.isXmm c = true)
    (hx : Operand.isXmm (ops.get Position.third) = true) :
    prepare d .mvr mnem (Position.update ops Position.third fun _ => c) 0 = prepare d .mvr mnem ops 0 := by
  unfold prepare
  simp only [encodingInfo, classesOk_update_third h6 hc hx, needsRex_update_third h6,
    get_update_third (show Position.first ≠ Position.third by decide),
    get_update_third (show Position.second ≠ Position.third by decide), immediateOf]

/-- the MVR encoding writes the first operand in ModRM rm and the second in ModRM reg -/
theorem emitDesc_mvr_third (opc : Nat) (imm : Int) (sz : Nat) :
    emitDesc (encodingInfo .mvr) opc (Position.update ops Position.third fun _ => c) imm sz =
      emitDesc (encodingInfo .mvr) opc ops imm sz := by
  simp only [emitDesc, encodingInfo]
  rw [get_update_third (by decide), get_update_third (by decide)]

/-- **The third operand of an MVR descriptor is never written.** It puts its second operand in
ModRM reg, where the third belongs, as well as in VEX.vvvv; so with a vector class third it writes
the same bytes whatever vector register is passed there. -/
theorem writes_mvr_third (h6 : d.classAt Position.third = 6) {bytes : List UInt8}
    (h : d.writes .mvr mnem ops = some bytes) (hc : Operand.isXmm c = true) :
    d.writes .mvr mnem (Position.update ops Position.third fun _ => c) = some bytes := by
  unfold EncDesc.writes at h ⊢
  split at h
  · rename_i opc imm sz hprep
    have hx : Operand.isXmm (ops.get Position.third) = true := by
      have hcl := classOk_at (prepare_spec hprep).2.1 Position.third
      rw [h6] at hcl
      exact hcl
    rw [prepare_mvr_third h6 hc hx, hprep]
    dsimp only
    rw [emitDesc_mvr_third]
    exact h
  · cases h

end Third

end Encoder

namespace Decoder

section Alone

variable {t : Tables} {root : Nat} {d : EncDesc} {mnem opc : Nat} {ops : Vector Nat 4} {imm : Int} {sz : Nat}
  {bytes : List UInt8}

theorem modrmBytes_np (htwo : twoByte d.opc = false) : modrmBytes d .np = [] := by
  simp [modrmBytes, htwo, modFields, encodingInfo]

/-- the encoder's no-op writes no operand -/
theorem registerRoles_np (d : EncDesc) : registerRoles d .np = [] := by
  simp [registerRoles, EncodingInfo.rmSlot, regSlot, encodingInfo]

/-- **A word written alone.** The bytes of a descriptor written as its word alone, without a
second opcode byte, are the word's leading bytes and its opcode byte; the walk for them ends on an
ending of the descriptor, with which the decoder goes on. -/
theorem decode_alone (hroot : t.root? 64 = some root) {P : Nat × Nat → Prop} (hwalks : WalksTo t d .np root P)
    (hopc : d.opc < 2 ^ 26) (htwo : twoByte d.opc = false) (hseg : (mnem >>> 16) % 8 ≠ 7)
    (hprep : prepare d .np mnem ops 0 = some (opc, imm, sz))
    (hbytes : bytes = ((Buffer.empty.writeAll (opcBytes opc)).writeAll (immBytes (encodingInfo .np) imm sz)).written 0)
    (hlen : bytes.length ≤ 15) :
    bytes = leadBytes opc ++ [UInt8.ofNat opc] ∧ opc = writtenWord d .np mnem ops false false false ∧
      ∃ x ∈ t.endingsAt d .np root (UInt8.ofNat opc).toNat, P x ∧ decode t bytes 64 0 =
        (t.instrAt x >>= fun D => readAfter (readContext t D opc (Window.of bytes)) ((leadBytes opc).length + 1)) := by
  have hW := prepare_word hprep
  have hs : Encoding.np = .s → Operand.regIdx (ops.get Position.first) < 8 := fun h => by cases h
  have hb : bytes = leadBytes opc ++ [UInt8.ofNat opc] := by
    rw [hbytes, written_empty, opcBytes_eq_lead, hW, (writtenWord_bytes false false false hopc hs).2.2, htwo]
    simp [byteIf, immBytes, encodingInfo]
  have hkey : opc &&& keyBits = d.opc &&& keyBits := hW ▸ writtenWord_keyBits false false false hopc hs
  have hsegW : segOf opc ≠ 7 := by
    rw [hW, writtenWord_segOf false false false hopc hs]
    exact hseg
  have hop : (UInt8.ofNat opc).toNat ∈ opcodeBytes d .np := by
    rw [UInt8.toNat_ofNat', hW, (writtenWord_bytes false false false hopc hs).1]
    simp [opcodeBytes, encodingInfo]
  -- nothing follows the opcode byte, so no ModRM byte is looked at
  obtain ⟨x, hx, hP, hdec⟩ := decode_word hroot hwalks hkey hsegW (hb ▸ hlen) hop
    (fun hne => absurd (modrmBytes_np htwo) hne) (fun hne => absurd rfl hne)
  rw [← hb] at hdec
  exact ⟨hb, hW, x, hx, hP, hdec⟩

/-- **The bytes of a word the decoder waits on** are refused as too short. -/
theorem decode_waiting (hroot : t.root? 64 = some root) {e : Encoding} (hwait : WaitsAt t d e root)
    (hseg : (mnem >>> 16) % 8 ≠ 7) (hprep : prepare d e mnem ops 0 = some (opc, imm, sz))
    (hbytes : bytes = ((Buffer.empty.writeAll (opcBytes opc)).writeAll (immBytes (encodingInfo e) imm sz)).written 0)
    (hlen : bytes.length ≤ 15) :
    decode t bytes 64 0 = .error .truncated := by
  obtain ⟨rfl, hopc, htwo, hwalks⟩ := hwait
  obtain ⟨-, -, x, -, hmodrm, hdec⟩ := decode_alone hroot hwalks hopc htwo hseg hprep hbytes hlen
  have htrunc : t.instrAt x = .error .truncated := by
    simp [Tables.instrAt, hmodrm, WordKind.modrm, WordKind.instr, WordKind.empty]
  rw [hdec, htrunc]
  rfl

/-- **The stages of the exchange that may be a no-op** on the byte 90, read as a register form
without REX.B and without a VEX operand: the register in the opcode byte, the accumulator, goes
first and the implicit accumulator second; the other positions stay empty and no byte is read. -/
theorem readOperands_exchangeNop {c : Context} (hx : ExchangeNop c.tables c.desc) (hB : c.rex Rex.b = false)
    (hvexop : c.prefixes.vexOperand = 0) (off : Nat) :
    ∃ s : Progress,
      readOperands c (0x90 ||| 0xc0) { ops := initialOperands c.desc, off := off, disp := 0, imm := 0 } = .ok s ∧
      (s.ops.get Position.first).reg = 0 ∧ (s.ops.get Position.second).reg = 0 ∧
      (∀ k, k ≠ Position.first → k ≠ Position.second → (s.ops.get k).type = .none) ∧ s.off = off := by
  have hmov : c.tables.movesSpecial c.desc = false := by
    simp [Tables.movesSpecial, isType_of_mnemonic (mnemonic_of_isType hx.exchange)]
  have hslotI : Slot c.desc.hasImplicit c.desc.implicitIdx (some Position.second) :=
    ⟨by rw [hx.accumulator.1]; rfl, fun i hi => by cases hi; exact hx.accumulator.2.1⟩
  have hslotR : Slot c.desc.hasModreg c.desc.modregIdx none :=
    ⟨by rw [hx.alone.1]; rfl, fun i hi => by cases hi⟩
  rw [readOperands_plain hmov, implicitOperand_slot hslotI, modregOperand_slot hslotR,
    modrmOperand_reg hx.inOpcode.2.1 (by decide)]
  -- the first stage fixes the progress; the other facts are read off it
  exact ⟨_,
    by
      show vexOperand c _ >>= immediate c = _
      rw [vexOperand_none hx.alone.2.1 hvexop]
      exact immediate_none hx.alone.2.2,
    by simp [Progress.setOp, get_update, get_updateAt, hx.inOpcode.2.2, rexPlus_eq, hB],
    by simp [Progress.setOp, get_update, get_updateAt, hx.inOpcode.2.2, hx.accumulator.2.2,
      show Position.first ≠ Position.second by decide],
    fun k h0 h1 => by
      simp [Progress.setOp, get_update, get_updateAt, hx.inOpcode.2.2, Ne.symm h0, Ne.symm h1,
        initialOperands_get],
    rfl⟩

/-- **The encoder's no-op read back.** The bytes of the encoder's no-op, the byte 90 after the
prefixes its request adds, decode to NOP without operands, which reads the request back. -/
theorem decode_nop (hroot : t.root? 64 = some root) {e : Encoding} {name : String}
    (hnop : NopAt t d e name root) (hseg : (mnem >>> 16) % 8 ≠ 7)
    (hprep : prepare d e mnem ops 0 = some (opc, imm, sz))
    (hbytes : bytes = ((Buffer.empty.writeAll (opcBytes opc)).writeAll (immBytes (encodingInfo e) imm sz)).written 0)
    (hlen : bytes.length ≤ 15) :
    ∃ i, decode t bytes 64 0 = .ok i ∧ i.size = bytes.length ∧ DecodedAs t name d e ops i := by
  obtain ⟨rfl, h90, hname, hwalks⟩ := hnop
  have hopc : d.opc < 2 ^ 26 := by rw [h90]; decide
  obtain ⟨hb, hW, x, -, ⟨hinstr, hx⟩, hdec⟩ :=
    decode_alone hroot hwalks hopc (by rw [h90]; decide) hseg hprep hbytes hlen
  have hs : Encoding.np = .s → Operand.regIdx (ops.get Position.first) < 8 := fun h => by cases h
  have hkey : opc &&& keyBits = d.opc &&& keyBits := hW ▸ writtenWord_keyBits false false false hopc hs
  rw [instrAt_instr hinstr] at hdec
  generalize t.descs.getD (x.2 / 4) {} = D at hx hdec
  set c := readContext t D opc (Window.of bytes) with hc
  have hD : c.desc = D := rfl
  -- the opcode byte is 90, read again as a register form: the accumulator
  have hbyte : c.window.byte (leadBytes opc).length = 0x90 := by
    show (Window.of bytes).byte _ = _
    rw [Window.byte_at (C := []) (by rw [Window.of_toList hlen, hb])]
    rw [UInt8.toNat_ofNat', hW, (writtenWord_bytes false false false hopc hs).1, h90, if_neg (by decide)]
    rfl
  have hB : c.rex Rex.b = false := (readContext_rex hW hopc hs t D (Window.of bytes)).1
  have hvexop : c.prefixes.vexOperand = 0 := by
    show (Prefixes.ofWord opc).vexOperand = 0
    rw [ofWord_vexOperand, has_keyed hkey (by decide), h90]
    rfl
  have hlock : c.prefixes.lock = false := by
    show (Prefixes.ofWord opc).lock = false
    rw [ofWord_lock, has_keyed hkey (show keyBits &&& Opc.lock = Opc.lock by decide), h90,
      show has 0x90 Opc.lock = false by decide, Bool.and_false]
  have hread : decode t bytes 64 0 = readOperands c (0x90 ||| 0xc0)
      { ops := initialOperands c.desc, off := (leadBytes opc).length + 1, disp := 0, imm := 0 } >>= finish c := by
    rw [hdec]
    show readAfter c ((leadBytes opc).length + 1) = _
    rw [readAfter, hD, modrmByte_opcode hx.inOpcode.1, Nat.add_sub_cancel, hbyte]
    rfl
  obtain ⟨s, hstages, hfirst, hsecond, hother, hoff⟩ :=
    readOperands_exchangeNop hx hB hvexop ((leadBytes opc).length + 1)
  rw [hstages] at hread
  have hxc : c.is "XCHG_NOP" = true := hx.exchange
  have h3 : c.tables.isType (c.tables.typeOf "NOP") "3DNOW" = false := by
    show t.isType (t.typeOf "NOP") "3DNOW" = false
    rw [isType_of_mnemonic hx.nop]
    decide
  obtain ⟨i, hfin, hty, hsize, hn0, hn1, hkept⟩ := finish_nop hxc ⟨hfirst, hsecond⟩ h3 hlock
  refine ⟨i, ?_, ?_, .inr ⟨?_, ?_⟩⟩
  · rw [hread]
    exact hfin
  · rw [hsize, hoff, hb]
    simp
  · -- the no-op is named as the name spells it
    rw [hty]
    show (t.mnemonic? (t.typeOf "NOP")).any (spells name) = true
    rw [hx.nop]
    exact hname
  · -- the request has no operand, and none is read
    refine ⟨fun k hk => by simp [registerRoles_np] at hk, fun m hm => by simp [encodingInfo] at hm,
      fun h0 => absurd rfl h0, fun k _ => ?_⟩
    by_cases h0 : k = Position.first
    · rw [h0]
      exact hn0
    by_cases h1 : k = Position.second
    · rw [h1]
      exact hn1
    rw [hkept k h0 h1]
    exact hother k h0 h1

end Alone

end Decoder

/-- **Encoding and then decoding.** When the encoder writes a request whose segment override is
not the seventh, and every descriptor on the chain of the request's mnemonic is covered by the
decoder's tables, a descriptor on the chain wrote the bytes. Either it is an MVR descriptor, which
writes the same bytes whatever vector register is passed third, or the decoder reads the bytes in
64-bit mode as `ReadAs` says: all of them, as an instruction of the mnemonic the name spells that
reads every operand back, or as the no-op for the exchange of the accumulator with itself, or it
refuses them where its tables have an empty entry for them or want a ModRM byte they lack. -/
theorem encode_decode {te : Encoder.Tables} {td : Decoder.Tables} (hshort : te.ShortForms) {mnem : Nat}
    {ops : Vector Nat 4} {bytes : List UInt8} (hseg : (mnem >>> 16) % 8 ≠ 7)
    (hcover : ∀ j, te.OnChain (mnem % 65536) j → Covered te td (te.names.getD (mnem % 65536) "") j)
    (h : encode te mnem ops = some bytes) :
    ∃ j e, te.OnChain (mnem % 65536) j ∧ (te.desc j).encoding = some e ∧
      (te.desc j).writes e mnem ops = some bytes ∧
      ((e = .mvr ∧ ∀ c, Operand.isXmm c = true →
          (te.desc j).writes e mnem (Position.update ops Position.third fun _ => c) = some bytes) ∨
        ∃ root, td.root? 64 = some root ∧
          ReadAs td root (te.names.getD (mnem % 65536) "") (te.desc j) e ops bytes.length (decode td bytes 64 0)) := by
  obtain ⟨hlen, j, e, opc, imm, sz, b, hj, he, hprep, hemit, hbytes⟩ := encode_some hshort h
  have hwrites : (te.desc j).writes e mnem ops = some bytes := by
    simp [EncDesc.writes, hprep, hemit, hbytes]
  refine ⟨j, e, hj, he, hwrites, ?_⟩
  obtain ⟨-, hcls, -, himm, -, -⟩ := prepare_spec hprep
  obtain ⟨b', rfl, hshape⟩ := emitDesc_ok (fun hc => (immediateOf_some himm hc).1) hemit
  -- an MVR descriptor's bytes do not depend on the third operand, whatever the decoder reads
  have hmvr : e = .mvr → (te.desc j).classAt Position.third = 6 → (e = .mvr ∧ ∀ c, Operand.isXmm c = true →
      (te.desc j).writes e mnem (Position.update ops Position.third fun _ => c) = some bytes) := by
    rintro rfl h6
    exact ⟨rfl, fun c hc => writes_mvr_third h6 hwrites hc⟩
  -- a descriptor written as its word alone
  have hplain : e = .np →
      bytes = ((Buffer.empty.writeAll (opcBytes opc)).writeAll (immBytes (encodingInfo e) imm sz)).written 0 := by
    rintro rfl
    rcases hshape with ⟨m, hm, -⟩ | ⟨hm, r, hr, -⟩ | ⟨-, -, rfl⟩
    · simp [encodingInfo] at hm
    · simp [encodingInfo] at hr
    · exact hbytes
  have hcov := hcover j hj
  unfold Covered at hcov
  rw [he] at hcov
  cases hroot : td.root? 64 with
  | none =>
    rw [hroot] at hcov
    obtain ⟨hm, h6⟩ := hcov (writable_of_classesOk hcls)
    exact .inl (hmvr hm h6)
  | some root =>
    rw [hroot] at hcov
    rcases hcov (writable_of_classesOk hcls) with ⟨hm, h6⟩ | hpair | hnop | hwait
    · exact .inl (hmvr hm h6)
    · -- written by its ModRM byte, by a register in its opcode byte, or as its word
      refine .inr ⟨root, rfl, ?_⟩
      rcases hshape with ⟨m, hm, hrun⟩ | ⟨hm, r, hr, hrun⟩ | ⟨hm, hr, rfl⟩
      · exact decode_modrm hroot hpair hseg hprep hm hrun hbytes hlen
      · exact decode_inOpcode hroot hpair hseg hprep hm hr hrun hbytes hlen
      · exact decode_plain hroot hpair hseg hprep hm hr hbytes hlen
    · refine .inr ⟨root, rfl, ?_⟩
      obtain ⟨i, hi, hsize, hdecoded⟩ := decode_nop hroot hnop hseg hprep (hplain hnop.1) hlen
      rw [hi]
      exact ⟨hsize, hdecoded⟩
    · refine .inr ⟨root, rfl, ?_⟩
      rw [decode_waiting hroot hwait hseg hprep (hplain hwait.1) hlen]
      exact hwait

/-- the encoder's tables for a move between 64-bit general purpose registers: REX.W and opcode
byte 89, the destination in ModRM rm and the source in ModRM reg -/
def Encoder.Tables.movRegisters : Encoder.Tables :=
  { names := #["FE_MOV64rr"], numbers := {},
    descs := #[{ opc := 0x89 ||| Opc.rexW, encoding := some .mr, tys := 0x11 }] }

theorem movRegisters_covered : Covered Encoder.Tables.movRegisters Decoder.Tables.mov "FE_MOV64rr" 0 := by
  decide +kernel

/-- a move from rcx to rax is written as 48 89 c8 and read back -/
theorem encode_decode_movRegisters :
    ∃ j e, Encoder.Tables.movRegisters.OnChain 0 j ∧ (Encoder.Tables.movRegisters.desc j).encoding = some e ∧
      (Encoder.Tables.movRegisters.desc j).writes e 0 #v[0x100, 0x101, 0, 0] = some [0x48, 0x89, 0xc8] ∧
      ((e = .mvr ∧ ∀ c, Operand.isXmm c = true →
          (Encoder.Tables.movRegisters.desc j).writes e 0
            (Position.update #v[0x100, 0x101, 0, 0] Position.third fun _ => c) = some [0x48, 0x89, 0xc8]) ∨
        ∃ root, Decoder.Tables.mov.root? 64 = some root ∧
          ReadAs Decoder.Tables.mov root "FE_MOV64rr" (Encoder.Tables.movRegisters.desc j) e #v[0x100, 0x101, 0, 0] 3
            (decode Decoder.Tables.mov [0x48, 0x89, 0xc8] 64 0)) :=
  @encode_decode Encoder.Tables.movRegisters Decoder.Tables.mov (by decide) 0 #v[0x100, 0x101, 0, 0]
    [0x48, 0x89, 0xc8] (by decide)
    (fun j hj => by
      cases hj with
      | here => exact movRegisters_covered
      | next halt _ => exact (halt rfl).elim)
    (by decide)

end X86Codec
