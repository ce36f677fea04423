import X86Codec.Proofs.JumpLengths
import X86Codec.Proofs.WordOpening
/-!
What the encoder writes for a request, byte by byte.

A descriptor whose checks pass makes an opcode word of its own and the request's bits: REX for
a byte register from `spl` on, 67 for a 32-bit address size, the segment, the segment register
of an S encoding in the opcode byte and the VEX operand (`preparedWord`, `vexWord`). Writing it
adds REX.B, REX.X and REX.R for the registers from r8 on that the ModRM byte or the opcode byte
cannot hold (`modrmWord`, `inOpcodeWord`), and then puts down the word, the ModRM byte, the SIB
byte and the displacement of the operand's form, or the word with a register in its opcode
byte, and last the immediate.

Main statements:
- `prepare_spec`: what the checks of a descriptor that pass say of the request, and the word
  and immediate they give;
- `emitModrm_ok`, `emitInOpcode_ok`: what writing an instruction with a ModRM byte or with a
  register in its opcode byte puts into the buffer when it succeeds.
-/

namespace X86Codec.Encoder

/-! ## The word of a request -/

/-- the word the checks of a descriptor make for a request, before the opcode byte is
touched: REX for a byte register from `spl` on, 67 for a 32-bit address size and the segment -/
def requestBase (d : EncDesc) (mnem : Nat) (ops : Vector Nat 4) : Nat :=
  let opc := if needsRex d.tys ops then d.opc ||| Opc.rex else d.opc
  let opc := if has mnem addr32 then opc ||| Opc.p67 else opc
  opc ||| ((mnem &&& segMask) <<< (Opc.segShift - 16))

/-- the word of a request before the VEX operand: for an S encoding the segment register goes
in the opcode byte -/
def preparedWord (d : EncDesc) (e : Encoding) (mnem : Nat) (ops : Vector Nat 4) : Nat :=
  if e = .s then requestBase d mnem ops ||| (Operand.regIdx (ops.get Position.first) <<< 3)
  else requestBase d mnem ops

/-- a word with the VEX operand of an encoding -/
def vexWord (info : EncodingInfo) (opc : Nat) (ops : Vector Nat 4) : Nat :=
  info.vexreg.elim opc fun v => opc ||| (Operand.regIdx (ops.get v) <<< Opc.vexopShift)

/-- **The checks of a descriptor.** When they pass, a fixed register has the number the
encoding fixes, every operand has its class, an S encoding's segment register agrees with the
opcode's bit 5, the immediate passed its checks, the NOP opcode was not asked for with `ax`, and
the word is the request's with the VEX operand. -/
theorem prepare_spec {d : EncDesc} {e : Encoding} {mnem : Nat} {ops : Vector Nat 4}
    {origin opc : Nat} {imm : Int} {immsz : Nat}
    (h : prepare d e mnem ops origin = some (opc, imm, immsz)) :
    (∀ z, (encodingInfo e).zreg = some z →
      Operand.regIdx (ops.get z) = (encodingInfo e).zregVal) ∧
    classesOk d.tys ops = true ∧
    (e = .s → (Operand.regIdx (ops.get Position.first) <<< 3) &&& 0x20 =
      requestBase d mnem ops &&& 0x20) ∧
    immediateOf d (encodingInfo e) mnem (preparedWord d e mnem ops) ops origin = some (imm, immsz) ∧
    ¬(d.opc / 8 = 0x90 / 8 ∧ ops.get Position.first = regAx) ∧
    opc = vexWord (encodingInfo e) (preparedWord d e mnem ops) ops := by
  unfold prepare at h
  extract_lets info w₁ w₂ w₃ op0 tail body at h
  -- the join point after the word is made: the immediate, the NOP check and the VEX operand
  have htail : ∀ x, tail x = some (opc, imm, immsz) →
      immediateOf d info mnem x ops origin = some (imm, immsz) ∧
        ¬(d.opc / 8 = 0x90 / 8 ∧ op0 = regAx) ∧ opc = vexWord info x ops := by
    intro x ht
    simp only [tail] at ht
    split at ht
    · rename_i imm' immsz' himm
      split at ht
      · cases ht
      · rename_i hnop
        injection ht with ht
        injection ht with hopc ht
        injection ht with h₁ h₂
        subst h₁ h₂
        refine ⟨himm, hnop, ?_⟩
        rw [← hopc]
        simp only [vexWord]
        cases info.vexreg <;> rfl
    · cases ht
  have hbody : body () = some (opc, imm, immsz) → classesOk d.tys ops = true ∧
      (e = .s → (Operand.regIdx op0 <<< 3) &&& 0x20 = w₃ &&& 0x20) ∧
      immediateOf d info mnem (preparedWord d e mnem ops) ops origin = some (imm, immsz) ∧
      ¬(d.opc / 8 = 0x90 / 8 ∧ op0 = regAx) ∧ opc = vexWord info (preparedWord d e mnem ops) ops := by
    intro hb
    simp only [body] at hb
    split at hb
    · cases hb
    · rename_i hcls
      refine ⟨by simpa using hcls, ?_⟩
      split at hb
      · rename_i hs
        split at hb
        · cases hb
        · rename_i hbit
          have hw : preparedWord d e mnem ops = w₃ ||| Operand.regIdx op0 <<< 3 := by
            simp only [preparedWord, hs, if_true]
            rfl
          rw [hw]
          exact ⟨fun _ => by simpa using hbit, htail _ hb⟩
      · rename_i hs
        have hw : preparedWord d e mnem ops = w₃ := by
          simp only [preparedWord, hs, if_false]
          rfl
        rw [hw]
        exact ⟨fun h => absurd h hs, htail _ hb⟩
  simp only [Id.run] at h
  split at h
  · rename_i z hz
    split at h
    · cases h
    · rename_i hne
      refine ⟨fun z' hz' => ?_, hbody h⟩
      rw [hz] at hz'
      cases hz'
      simpa using hne
  · rename_i hz
    exact ⟨fun z' hz' => absurd hz' (hz z'), hbody h⟩

/-! ## Writing an instruction with a ModRM byte -/

/-- the word an instruction with a ModRM byte is written with: REX.B for a register or a base
from r8 on, REX.X for an index from r8 on and REX.R for a reg operand from r8 on -/
def modrmWord (opc op0 op1 : Nat) : Nat :=
  let opc := if Operand.isReg op0 ∧ has (Operand.regIdx op0) 0x8 then opc ||| Opc.rexB else opc
  let opc := if Operand.isMem op0 ∧ has (Operand.base op0) 0x8 then opc ||| Opc.rexB else opc
  let opc := if Operand.isMem op0 ∧ has (Operand.index op0) 0x8 then opc ||| Opc.rexX else opc
  if Operand.isReg op1 ∧ has (Operand.regIdx op1) 0x8 then opc ||| Opc.rexR else opc

/-- the ModRM form of the rm operand: the register form, or a memory operand's form -/
def rmForm (opc op0 immsz : Nat) : Option ModrmForm :=
  if Operand.isReg op0 then some { md := 3, rm := Operand.regIdx op0 % 8 }
  else memForm opc op0 (opcSize opc) immsz

/-- whether a ModRM form has a SIB byte -/
def ModrmForm.sib (f : ModrmForm) : Bool := f.md ≠ 3 ∧ f.rm = 4

/-- the bytes of a ModRM form with a reg field: the ModRM byte, the SIB byte when the form has
one, and the displacement -/
def ModrmForm.bytes (f : ModrmForm) (reg : Nat) : List UInt8 :=
  UInt8.ofNat (f.md * 64 + reg % 8 * 8 + f.rm) ::
    ((if f.sib then [UInt8.ofNat (f.scale * 64 + f.index * 8 + f.base)] else []) ++
      leBytes (Word.ofSigned f.disp) f.dispSize)

/-- a check before anything is written: a run that succeeds passed it -/
theorem run_guard_ok {c : Prop} [Decidable c] {k : Unit → EncM Unit} {m : EncM Unit}
    {buf b : Buffer} (h : (if c then throw () >>= k else m).run buf = .ok () b) :
    ¬c ∧ m.run buf = .ok () b := by
  by_cases hc : c
  · rw [if_pos hc] at h
    cases h
  · rw [if_neg hc] at h
    exact ⟨hc, h⟩

/-- **An instruction with a ModRM byte.** When it is written, no high byte register meets a
REX prefix, the rm operand has a form, the instruction with its immediate fits fifteen bytes,
and the buffer holds the word, then the form's bytes with the reg field. -/
theorem emitModrm_ok {opc op0 op1 immsz : Nat} {buf b : Buffer}
    (h : (emitModrm opc op0 op1 immsz).run buf = .ok () b) :
    ¬(has (modrmWord opc op0 op1) Opc.anyRex = true ∧
      (Operand.isGph op0 = true ∨ Operand.isGph op1 = true)) ∧
    ∃ f, rmForm (modrmWord opc op0 op1) op0 immsz = some f ∧
      opcSize (modrmWord opc op0 op1) + 1 + (if f.sib then 1 else 0) + f.dispSize + immsz ≤ 15 ∧
      b = buf.writeAll (opcBytes (modrmWord opc op0 op1) ++ f.bytes op1) := by
  unfold emitModrm at h
  extract_lets w₁ w₂ w₃ w opcsz rest at h
  have hw : w = modrmWord opc op0 op1 := rfl
  clear_value w
  subst hw
  obtain ⟨hrex, h⟩ := run_guard_ok h
  refine ⟨hrex, ?_⟩
  simp only [rest] at h
  split at h
  · rename_i f hf
    obtain ⟨hlen, h⟩ := run_guard_ok h
    have hfit := modrmForm_disp_fits hf
    -- the writes cannot fail; they are named from the run they make
    have hrun : ∀ {m : EncM Unit} {bs : List UInt8}, Writes m bs → m.run buf = .ok () b →
        b = buf.writeAll bs := fun hm hr => by
      rw [hm buf] at hr
      cases hr
      rfl
    refine ⟨f, hf, ?_, ?_⟩
    · simp only [opcsz, ModrmForm.sib] at hlen ⊢
      split_ifs at hlen ⊢ <;> simp_all
    · rw [hrun ((writes_emitOpcode _).bind ((writes_emit _).bind (Writes.ite
        ((writes_emit _).bind (writes_emitImm hfit)) (writes_emitImm hfit)))) h]
      congr 1
      simp only [ModrmForm.bytes, ModrmForm.sib]
      split_ifs <;> simp_all
  · cases h

/-! ## Writing a register in the opcode byte -/

/-- the word an instruction with a register in its opcode byte is written with: REX.B for a
register from r8 on -/
def inOpcodeWord (opc op0 : Nat) : Nat :=
  if has (Operand.regIdx op0) 0x8 then opc ||| Opc.rexB else opc

theorem twoByte_or_rexB (opc : Nat) : twoByte (opc ||| Opc.rexB) = twoByte opc := by
  simp only [twoByte, Nat.and_or_distrib_right, show Opc.rexB &&& 0xc000 = 0 by decide, Nat.or_zero]

/-- **A register in the opcode byte.** When it is written, no high byte register meets a REX
prefix, and the buffer holds the word's bytes up to its opcode byte, then the opcode byte with
the register's low three bits in place of its own. -/
theorem emitInOpcode_ok {opc op0 : Nat} {buf b : Buffer} (htwo : twoByte opc = false)
    (h : (emitInOpcode opc op0).run buf = .ok () b) :
    ¬(has (inOpcodeWord opc op0) Opc.anyRex = true ∧ Operand.isGph op0 = true) ∧
      b = buf.writeAll (leadBytes (inOpcodeWord opc op0) ++
        [(UInt8.ofNat (inOpcodeWord opc op0) &&& 0xf8) ||| UInt8.ofNat (Operand.regIdx op0 % 8)]) := by
  unfold emitInOpcode at h
  extract_lets w rest at h
  have hw : w = inOpcodeWord opc op0 := rfl
  clear_value w
  subst hw
  obtain ⟨hrex, h⟩ := run_guard_ok h
  refine ⟨hrex, ?_⟩
  have htwo' : twoByte (inOpcodeWord opc op0) = false := by
    unfold inOpcodeWord
    split
    · rw [twoByte_or_rexB, htwo]
    · exact htwo
  have hbytes : opcBytes (inOpcodeWord opc op0) =
      leadBytes (inOpcodeWord opc op0) ++ [UInt8.ofNat (inOpcodeWord opc op0)] := by
    rw [opcBytes_eq_lead, htwo']
    rfl
  simp only [rest, EStateM.run_bind, writes_emitOpcode _ buf, hbytes, Buffer.writeAll_append,
    EStateM.run_modify] at h
  cases h
  rw [Buffer.writeAll_append]
  exact Buffer.write_setLow _ _ _

/-! ## Writing a chosen descriptor -/

/-- the bytes of an immediate that is written: those of its width, when the encoding writes
one -/
def immBytes (info : EncodingInfo) (imm : Int) (immsz : Nat) : List UInt8 :=
  if info.immCtl ≥ 2 then leBytes (Word.ofSigned imm) immsz else []

/-- **A chosen descriptor.** Writing it writes the instruction by its ModRM byte, by a register
in its opcode byte or as its word alone, and then the immediate. -/
theorem emitDesc_ok {info : EncodingInfo} {opc : Nat} {ops : Vector Nat 4} {imm : Int}
    {immsz : Nat} {buf b : Buffer} (hfit : info.immCtl ≥ 2 → fits imm immsz = true)
    (h : (emitDesc info opc ops imm immsz).run buf = .ok () b) :
    ∃ b', b = b'.writeAll (immBytes info imm immsz) ∧
      ((∃ m, info.modrm = some m ∧ (emitModrm opc (ops.get m)
          (info.modreg.elim ((opc &&& 0xff00) >>> 8) ops.get) immsz).run buf = .ok () b') ∨
        (info.modrm = none ∧ ∃ r, info.modreg = some r ∧
          (emitInOpcode opc (ops.get r)).run buf = .ok () b') ∨
        (info.modrm = none ∧ info.modreg = none ∧ b' = buf.writeAll (opcBytes opc))) := by
  have himm : Writes (if info.immCtl ≥ 2 then emitImm imm immsz else pure ())
      (immBytes info imm immsz) := by
    unfold immBytes
    split
    · exact writes_emitImm (hfit ‹_›)
    · exact fun _ => rfl
  -- the immediate is written after the body, whatever the body was
  have hsplit : ∀ body : EncM Unit, (body >>= fun _ =>
      if info.immCtl ≥ 2 then emitImm imm immsz else pure ()).run buf = .ok () b →
      ∃ b', body.run buf = .ok () b' ∧ b = b'.writeAll (immBytes info imm immsz) := by
    intro body hb
    rw [EStateM.run_bind] at hb
    cases hbody : body.run buf with
    | ok u b' =>
      rw [hbody] at hb
      dsimp only at hb
      rw [himm b'] at hb
      cases hb
      exact ⟨b', rfl, rfl⟩
    | error e b' =>
      rw [hbody] at hb
      cases hb
  cases hm : info.modrm with
  | some m =>
    cases hr : info.modreg with
    | some r =>
      simp only [emitDesc, hm, hr] at h
      obtain ⟨b', hb', rfl⟩ := hsplit _ h
      exact ⟨b', rfl, .inl ⟨m, rfl, hb'⟩⟩
    | none =>
      simp only [emitDesc, hm, hr] at h
      obtain ⟨b', hb', rfl⟩ := hsplit _ h
      exact ⟨b', rfl, .inl ⟨m, rfl, hb'⟩⟩
  | none =>
    cases hr : info.modreg with
    | some r =>
      simp only [emitDesc, hm, hr] at h
      obtain ⟨b', hb', rfl⟩ := hsplit _ h
      exact ⟨b', rfl, .inr (.inl ⟨rfl, r, rfl, hb'⟩)⟩
    | none =>
      simp only [emitDesc, hm, hr] at h
      obtain ⟨b', hb', rfl⟩ := hsplit _ h
      rw [writes_emitOpcode opc buf] at hb'
      cases hb'
      exact ⟨_, rfl, .inr (.inr ⟨rfl, rfl, rfl⟩)⟩

/-! ## The bits a request adds to a word

A written word is the descriptor's word, with an S encoding's segment register in its opcode
byte, and from bit 26 on the bits the request adds (`requestHigh`): REX.B, REX.X and REX.R, a bare
REX, 67, the segment and the VEX operand. The descriptor's word stays below bit 26, so each field
the decoder reads of the written word is read from one part alone.
-/

/-- the bits from bit 26 on that a request sets in the word it writes: REX.B, REX.X, REX.R, a
bare REX, 67, the segment and the VEX operand -/
def requestHigh (b x r rex p67 : Bool) (seg vexop : Nat) : Nat :=
  (if b then Opc.rexB else 0) ||| (if x then Opc.rexX else 0) ||| (if r then Opc.rexR else 0) |||
    (if rex then Opc.rex else 0) ||| (if p67 then Opc.p67 else 0) ||| ((seg % 8) <<< Opc.segShift) |||
    (vexop <<< Opc.vexopShift)

theorem ite_or (c : Prop) [Decidable c] (x y : Nat) :
    (if c then x ||| y else x) = x ||| (if c then y else 0) := by
  split <;> simp

theorem shiftLeft_and_of_lt {m k : Nat} (y : Nat) (h : m < 2 ^ k) : (y <<< k) &&& m = 0 := by
  rw [← Nat.mod_eq_of_lt (Nat.and_lt_two_pow _ h), Nat.and_mod_two_pow, Nat.shiftLeft_eq,
    Nat.mul_mod_left, Nat.zero_and]

/-- the added bits all lie from bit 26 on -/
theorem requestHigh_mod (b x r rex p67 : Bool) (seg vexop : Nat) :
    requestHigh b x r rex p67 seg vexop % 2 ^ 26 = 0 := by
  have h1 : ∀ k, 26 ≤ k → ∀ y, (y <<< k) % 2 ^ 26 = 0 := fun k hk y => by
    rw [Nat.shiftLeft_eq]
    exact Nat.mod_eq_zero_of_dvd (Dvd.dvd.mul_left (Nat.pow_dvd_pow 2 hk) y)
  simp only [requestHigh, Nat.or_mod_two_pow, h1 _ (show 26 ≤ Opc.segShift by decide),
    h1 _ (show 26 ≤ Opc.vexopShift by decide)]
  cases b <;> cases x <;> cases r <;> cases rex <;> cases p67 <;> decide

theorem has_or (a b m : Nat) : has (a ||| b) m = (has a m || has b m) := by
  simp only [has, Nat.and_or_distrib_right, ne_eq, Nat.or_eq_zero_iff, decide_not,
    Bool.decide_and, Bool.not_and]

theorem has_shiftLeft_of_lt {m k : Nat} (y : Nat) (h : m < 2 ^ k) : has (y <<< k) m = false := by
  simp [has, shiftLeft_and_of_lt y h]

/-- the flags of the high part, each in its bit -/
theorem requestHigh_flags (b x r rex p67 : Bool) (seg vexop : Nat) :
    has (requestHigh b x r rex p67 seg vexop) Opc.rexB = b ∧
      has (requestHigh b x r rex p67 seg vexop) Opc.rexX = x ∧
      has (requestHigh b x r rex p67 seg vexop) Opc.rexR = r ∧
      has (requestHigh b x r rex p67 seg vexop) Opc.rex = rex ∧
      has (requestHigh b x r rex p67 seg vexop) Opc.p67 = p67 := by
  have hs : ∀ m, m < 2 ^ 31 → has ((seg % 8) <<< Opc.segShift) m = false := fun m hm =>
    has_shiftLeft_of_lt _ hm
  have hv : ∀ m, m < 2 ^ 34 → has (vexop <<< Opc.vexopShift) m = false := fun m hm =>
    has_shiftLeft_of_lt _ hm
  simp only [requestHigh, has_or, hs _ (show Opc.rexB < 2 ^ 31 by decide), hs _ (show Opc.rexX < 2 ^ 31 by decide),
    hs _ (show Opc.rexR < 2 ^ 31 by decide), hs _ (show Opc.rex < 2 ^ 31 by decide),
    hs _ (show Opc.p67 < 2 ^ 31 by decide), hv _ (show Opc.rexB < 2 ^ 34 by decide),
    hv _ (show Opc.rexX < 2 ^ 34 by decide), hv _ (show Opc.rexR < 2 ^ 34 by decide),
    hv _ (show Opc.rex < 2 ^ 34 by decide), hv _ (show Opc.p67 < 2 ^ 34 by decide), Bool.or_false]
  cases b <;> cases x <;> cases r <;> cases rex <;> cases p67 <;> decide

theorem segOf_or (a b : Nat) : segOf (a ||| b) = segOf a ||| segOf b := by
  simp only [segOf, Nat.shiftRight_or_distrib, show (8 : Nat) = 2 ^ 3 from rfl, Nat.or_mod_two_pow]

theorem segOf_requestHigh (b x r rex p67 : Bool) (seg vexop : Nat) :
    segOf (requestHigh b x r rex p67 seg vexop) = seg % 8 := by
  have hs : segOf ((seg % 8) <<< Opc.segShift) = seg % 8 := by
    simp only [segOf, Nat.shiftLeft_shiftRight, Nat.mod_mod]
  have hv : segOf (vexop <<< Opc.vexopShift) = 0 := by
    simp only [segOf, Opc.vexopShift, Opc.segShift, Nat.shiftLeft_eq, Nat.shiftRight_eq_div_pow]
    omega
  -- the flags all lie below the segment
  have hflag : ∀ (c : Bool) (k : Nat), k < 2 ^ 31 → segOf (if c then k else 0) = 0 := by
    intro c k hk
    cases c
    · simp [segOf]
    · simp only [segOf, Opc.segShift, if_true, Nat.shiftRight_eq_div_pow, Nat.div_eq_of_lt hk]
  simp only [requestHigh, segOf_or, hs, hv, Nat.or_zero, hflag _ _ (show Opc.rexB < 2 ^ 31 by decide),
    hflag _ _ (show Opc.rexX < 2 ^ 31 by decide), hflag _ _ (show Opc.rexR < 2 ^ 31 by decide),
    hflag _ _ (show Opc.rex < 2 ^ 31 by decide), hflag _ _ (show Opc.p67 < 2 ^ 31 by decide), Nat.zero_or]

theorem vexopOf_requestHigh (b x r rex p67 : Bool) (seg vexop : Nat) :
    (requestHigh b x r rex p67 seg vexop >>> Opc.vexopShift) % 16 = vexop % 16 := by
  have hflag : ∀ (c : Bool) (k : Nat), k < 2 ^ 34 → (if c then k else 0) >>> Opc.vexopShift = 0 := by
    intro c k hk
    cases c
    · simp
    · simp only [Opc.vexopShift, if_true, Nat.shiftRight_eq_div_pow, Nat.div_eq_of_lt hk]
  have hs : ((seg % 8) <<< Opc.segShift) >>> Opc.vexopShift = 0 := by
    simp only [Opc.segShift, Opc.vexopShift, Nat.shiftLeft_eq, Nat.shiftRight_eq_div_pow]
    omega
  simp only [requestHigh, Nat.shiftRight_or_distrib, hflag _ _ (show Opc.rexB < 2 ^ 34 by decide),
    hflag _ _ (show Opc.rexX < 2 ^ 34 by decide), hflag _ _ (show Opc.rexR < 2 ^ 34 by decide),
    hflag _ _ (show Opc.rex < 2 ^ 34 by decide), hflag _ _ (show Opc.p67 < 2 ^ 34 by decide), hs,
    Nat.shiftLeft_shiftRight, Nat.zero_or]

section Written

variable {L : Nat} (hL : L < 2 ^ 26) (b x r rex p67 : Bool) (seg vexop : Nat)
include hL

theorem or_requestHigh_mod : (L ||| requestHigh b x r rex p67 seg vexop) % 2 ^ 26 = L := by
  rw [Nat.or_mod_two_pow, requestHigh_mod, Nat.or_zero, Nat.mod_eq_of_lt hL]

/-- a mask below bit 26 sees only the low part -/
theorem or_requestHigh_and {m : Nat} (hm : m < 2 ^ 26) :
    (L ||| requestHigh b x r rex p67 seg vexop) &&& m = L &&& m := by
  rw [← Nat.mod_eq_of_lt (Nat.and_lt_two_pow _ hm), Nat.and_mod_two_pow,
    or_requestHigh_mod hL, Nat.mod_eq_of_lt hm]

theorem has_or_requestHigh {m : Nat} (hm : m < 2 ^ 26) :
    has (L ||| requestHigh b x r rex p67 seg vexop) m = has L m := by
  simp only [has, or_requestHigh_and hL b x r rex p67 seg vexop hm]

theorem or_requestHigh_flags :
    has (L ||| requestHigh b x r rex p67 seg vexop) Opc.rexB = b ∧
      has (L ||| requestHigh b x r rex p67 seg vexop) Opc.rexX = x ∧
      has (L ||| requestHigh b x r rex p67 seg vexop) Opc.rexR = r ∧
      has (L ||| requestHigh b x r rex p67 seg vexop) Opc.rex = rex ∧
      has (L ||| requestHigh b x r rex p67 seg vexop) Opc.p67 = p67 := by
  have hlow : ∀ n, 26 ≤ n → has L (1 <<< n) = false := fun n hn => by
    rw [Nat.one_shiftLeft, has_two_pow]
    exact Nat.testBit_lt_two_pow (lt_of_lt_of_le hL (Nat.pow_le_pow_right (by decide) hn))
  obtain ⟨h1, h2, h3, h4, h5⟩ := requestHigh_flags b x r rex p67 seg vexop
  have l1 : has L Opc.rexB = false := hlow 26 le_rfl
  have l2 : has L Opc.rexX = false := hlow 27 (by decide)
  have l3 : has L Opc.rexR = false := hlow 28 (by decide)
  have l4 : has L Opc.rex = false := hlow 29 (by decide)
  have l5 : has L Opc.p67 = false := hlow 30 (by decide)
  simp only [has_or, h1, h2, h3, h4, h5, l1, l2, l3, l4, l5, Bool.false_or, and_self]

theorem segOf_or_requestHigh : segOf (L ||| requestHigh b x r rex p67 seg vexop) = seg % 8 := by
  have h0 : segOf L = 0 := by
    simp only [segOf, Opc.segShift, Nat.shiftRight_eq_div_pow]
    omega
  rw [segOf_or, h0, segOf_requestHigh, Nat.zero_or]

theorem vexopOf_or_requestHigh :
    ((L ||| requestHigh b x r rex p67 seg vexop) >>> Opc.vexopShift) % 16 = vexop % 16 := by
  have h0 : L >>> Opc.vexopShift = 0 := by
    simp only [Opc.vexopShift, Nat.shiftRight_eq_div_pow]
    omega
  rw [Nat.shiftRight_or_distrib, h0, Nat.zero_or, vexopOf_requestHigh]

/-- the opcode byte and the byte after it are the low part's -/
theorem or_requestHigh_bytes :
    (L ||| requestHigh b x r rex p67 seg vexop) % 256 = L % 256 ∧
      ((L ||| requestHigh b x r rex p67 seg vexop) >>> 8) % 256 = (L >>> 8) % 256 := by
  have h := or_requestHigh_mod hL b x r rex p67 seg vexop
  constructor
  · rw [← Nat.mod_mod_of_dvd _ (show 256 ∣ 2 ^ 26 by decide), h]
  · rw [Nat.shiftRight_eq_div_pow, Nat.shiftRight_eq_div_pow]
    omega

end Written

/-! ### The word after each check -/

theorem or_left_comm (a b c : Nat) : a ||| (b ||| c) = b ||| (a ||| c) := by
  rw [← Nat.or_assoc, Nat.or_comm a b, Nat.or_assoc]

theorem ite_or_ite (p q : Prop) [Decidable p] [Decidable q] (k : Nat) :
    ((if p then k else 0) ||| if q then k else 0) = if p ∨ q then k else 0 := by
  by_cases hp : p <;> by_cases hq : q <;> simp [hp, hq]

theorem requestBase_eq (d : EncDesc) (mnem : Nat) (ops : Vector Nat 4) :
    requestBase d mnem ops = d.opc ||| requestHigh false false false (needsRex d.tys ops)
      (has mnem addr32) ((mnem >>> 16) % 8) 0 := by
  unfold requestBase requestHigh
  simp only [ite_or]
  rw [segment_bits]
  simp only [Bool.false_eq_true, if_false]
  rw [Nat.mod_mod, Nat.zero_shiftLeft, Nat.zero_or, Nat.zero_or, Nat.zero_or, Nat.or_zero]
  simp only [Nat.or_assoc]

theorem preparedWord_eq (d : EncDesc) (e : Encoding) (mnem : Nat) (ops : Vector Nat 4) :
    preparedWord d e mnem ops = (d.opc ||| if e = .s then Operand.regIdx (ops.get Position.first) <<< 3 else 0) |||
      requestHigh false false false (needsRex d.tys ops) (has mnem addr32) ((mnem >>> 16) % 8) 0 := by
  unfold preparedWord
  rw [requestBase_eq]
  split
  · rw [Nat.or_assoc, Nat.or_comm (requestHigh _ _ _ _ _ _ _), ← Nat.or_assoc]
  · rw [Nat.or_zero]

theorem vexWord_eq (info : EncodingInfo) (L : Nat) (b x r rex p67 : Bool) (seg : Nat) (ops : Vector Nat 4) :
    vexWord info (L ||| requestHigh b x r rex p67 seg 0) ops =
      L ||| requestHigh b x r rex p67 seg (info.vexreg.elim 0 fun v => Operand.regIdx (ops.get v)) := by
  unfold vexWord
  cases info.vexreg with
  | none => rfl
  | some v =>
    unfold requestHigh
    rw [Option.elim, Option.elim, Nat.zero_shiftLeft, Nat.or_zero]
    simp only [Nat.or_assoc]

theorem modrmWord_eq (L : Nat) (rex p67 : Bool) (seg v op0 op1 : Nat) :
    modrmWord (L ||| requestHigh false false false rex p67 seg v) op0 op1 =
      L ||| requestHigh
        (decide ((Operand.isReg op0 ∧ has (Operand.regIdx op0) 0x8) ∨ (Operand.isMem op0 ∧ has (Operand.base op0) 0x8)))
        (decide (Operand.isMem op0 ∧ has (Operand.index op0) 0x8))
        (decide (Operand.isReg op1 ∧ has (Operand.regIdx op1) 0x8)) rex p67 seg v := by
  unfold modrmWord requestHigh
  simp only [ite_or, decide_eq_true_eq, Bool.false_eq_true, if_false]
  rw [← ite_or_ite]
  simp only [Nat.zero_or, Nat.or_zero, Nat.or_assoc, Nat.or_comm, or_left_comm]

theorem inOpcodeWord_eq (L : Nat) (rex p67 : Bool) (seg v op0 : Nat) :
    inOpcodeWord (L ||| requestHigh false false false rex p67 seg v) op0 =
      L ||| requestHigh (has (Operand.regIdx op0) 0x8) false false rex p67 seg v := by
  unfold inOpcodeWord requestHigh
  simp only [ite_or, Bool.false_eq_true, if_false]
  simp only [Nat.zero_or, Nat.or_zero, Nat.or_assoc, Nat.or_comm, or_left_comm]

/-! ## Memory operands

The form of a memory operand, as the decoder reads it back: the base field (the SIB base, or rm
without a SIB byte), the width of the displacement that mode and base field call for, and the
index with its scale.
-/

/-- the SIB scale field of a scale of 1, 2, 4 or 8 is its logarithm -/
theorem scaleField_eq : ∀ sc < 16, sc ≠ 0 → sc &&& (sc - 1) = 0 →
    ((if has sc 0xa then 1 else 0) ||| (if has sc 0xc then 2 else 0)) = Nat.log2 sc := by
  decide

/-- the index register is valid for the word: a vector register under a vector index, else a
general purpose register other than the stack pointer -/
def IndexValid (opc idx : Nat) : Prop :=
  if has opc Opc.vsib then Operand.isXmm idx = true
  else Operand.isGpl idx = true ∧ Operand.regIdx idx ≠ 4

theorem indexForm_some {opc op0 : Nat} {r : Option (Nat × Nat)} (h : indexForm opc op0 = some r) :
    (Operand.index op0 = 0 ∧ Operand.scale op0 = 0 ∧ has opc Opc.vsib = false ∧ r = none) ∨
    (Operand.index op0 ≠ 0 ∧ r = some (Nat.log2 (Operand.scale op0), Operand.index op0 % 8) ∧
      IndexValid opc (Operand.index op0)) := by
  unfold indexForm at h
  extract_lets idx sc at h
  have hsc : sc < 16 := Nat.mod_lt _ (by decide)
  by_cases h1 : (idx ≠ 0) ≠ (sc ≠ 0)
  · rw [if_pos h1] at h
    cases h
  rw [if_neg h1] at h
  by_cases h2 : idx = 0
  · -- no index: no scale, and no vector index either
    have hs : sc = 0 := by
      by_contra hs
      exact h1 (by simp [h2, hs])
    rw [if_pos h2] at h
    by_cases h3 : has opc Opc.vsib = true
    · rw [if_pos h3] at h
      cases h
    · rw [if_neg h3] at h
      cases h
      exact Or.inl ⟨h2, hs, by simpa using h3, rfl⟩
  have hs : sc ≠ 0 := fun hs => h1 (by simp [h2, hs])
  rw [if_neg h2] at h
  by_cases h4 : has opc Opc.vsib = true ∧ (!Operand.isXmm idx) = true
  · rw [if_pos h4] at h
    cases h
  rw [if_neg h4] at h
  by_cases h5 : (!has opc Opc.vsib) = true ∧ ((!Operand.isGpl idx) = true ∨ Operand.regIdx idx = 4)
  · rw [if_pos h5] at h
    cases h
  rw [if_neg h5] at h
  by_cases h6 : sc &&& (sc - 1) ≠ 0
  · rw [if_pos h6] at h
    cases h
  rw [if_neg h6] at h
  cases h
  refine Or.inr ⟨h2, by rw [scaleField_eq sc hsc hs (by simpa using h6)], ?_⟩
  unfold IndexValid
  split
  · rename_i hv
    simpa [hv] using h4
  · rename_i hv
    simpa [hv] using h5


theorem log2_lt_four {n : Nat} (h : n < 16) : Nat.log2 n < 4 := by
  interval_cases n <;> decide

/-- the scale and index fields of a form, from its index: the defaults without an index, else the
scale's logarithm and the index's low bits; without a SIB byte there is no index -/
theorem indexForm_fields {opc op0 : Nat} {sib : Option (Nat × Nat)} (h : indexForm opc op0 = some sib) :
    (sib.getD (0, 4)).1 < 4 ∧ (sib.getD (0, 4)).2 < 8 ∧
      (sib.getD (0, 4)).1 = Nat.log2 (Operand.scale op0) ∧
      (Operand.index op0 = 0 → (sib.getD (0, 4)).2 = 4 ∧ Operand.scale op0 = 0 ∧ has opc Opc.vsib = false) ∧
      (Operand.index op0 ≠ 0 → (sib.getD (0, 4)).2 = Operand.index op0 % 8 ∧
        IndexValid opc (Operand.index op0)) ∧
      (sib.isSome = false → Operand.index op0 = 0 ∧ has opc Opc.vsib = false) := by
  rcases indexForm_some h with ⟨hidx, hsc, hv, rfl⟩ | ⟨hidx, rfl, hval⟩
  · simp [hidx, hsc, hv]
  · refine ⟨log2_lt_four (Nat.mod_lt _ (by decide)), Nat.mod_lt _ (by decide), rfl,
      fun h => absurd h hidx, fun _ => ⟨rfl, hval⟩, fun h => by simp at h⟩

/-- the base field the decoder reads from a form: the SIB base with a SIB byte, else rm -/
def ModrmForm.baseField (f : ModrmForm) : Nat := if f.rm = 4 then f.base else f.rm

/-- the width of the displacement after a memory form, as the decoder reads it: one byte in
mode 1, four in mode 2 and in mode 0 with base field 5, else none -/
def ModrmForm.dispWidth (f : ModrmForm) : Nat :=
  if f.md = 1 then 1 else if f.md = 2 ∨ (f.md = 0 ∧ f.baseField = 5) then 4 else 0

theorem memForm_some {opc op0 opcsz immsz : Nat} {f : ModrmForm}
    (h : memForm opc op0 opcsz immsz = some f) :
    f.md < 3 ∧ f.rm < 8 ∧ f.base < 8 ∧ f.index < 8 ∧ f.scale < 4 ∧ f.dispSize = f.dispWidth ∧
      (f.dispSize = 0 → f.disp = 0) ∧
      (Operand.base op0 = regIp → f.md = 0 ∧ f.rm = 5) ∧
      (Operand.base op0 = 0 → f.md = 0 ∧ f.rm = 4 ∧ f.base = 5) ∧
      (Operand.base op0 ≠ 0 → Operand.base op0 ≠ regIp → Operand.isGpl (Operand.base op0) = true ∧
        f.baseField = Operand.regIdx (Operand.base op0) % 8 ∧ ¬(f.md = 0 ∧ f.baseField = 5)) ∧
      (f.rm = 4 → f.scale = Nat.log2 (Operand.scale op0) ∧
        (Operand.index op0 = 0 → f.index = 4 ∧ Operand.scale op0 = 0 ∧ has opc Opc.vsib = false) ∧
        (Operand.index op0 ≠ 0 → f.index = Operand.index op0 % 8 ∧ IndexValid opc (Operand.index op0))) ∧
      (f.rm ≠ 4 → Operand.index op0 = 0 ∧ has opc Opc.vsib = false) ∧
      f.disp = if Operand.base op0 = regIp then
        Word.signed 32 (Word.ofSigned (Operand.offset op0 - (opcsz + 5 + immsz))) else Operand.offset op0 := by
  unfold memForm at h
  cases hi : indexForm opc op0 with
  | none => simp [hi] at h
  | some sib =>
    obtain ⟨hs4, hi8, hscale, hnone, hsome, hplain⟩ := indexForm_fields hi
    simp only [hi, Option.bind_eq_bind, Option.bind_some] at h
    by_cases hb0 : Operand.base op0 = 0
    · -- no base: a SIB byte with base 5 and a four-byte offset in mode 0
      simp only [hb0, if_true, Bool.not_true, Bool.false_eq_true, and_false,
        if_false, true_or, pure, Option.some.injEq] at h
      subst h
      refine ⟨by simp, by simp, by simp, hi8, hs4, by simp [ModrmForm.dispWidth, ModrmForm.baseField],
        by simp, fun h => absurd (hb0 ▸ h) (by decide), fun _ => ⟨rfl, rfl, rfl⟩, fun h => absurd hb0 h,
        fun _ => ⟨hscale, hnone, hsome⟩, fun h => absurd rfl h, ?_⟩
      dsimp only
      rw [if_neg (show Operand.base op0 ≠ regIp by rw [hb0]; decide)]
    by_cases hip : Operand.base op0 = regIp
    · -- the instruction pointer: mode 0, rm 5 and no SIB byte
      simp only [hip, show regIp ≠ 0 by decide, if_false, if_true] at h
      cases hs : sib.isSome
      · simp only [hs, Bool.false_eq_true, if_false, Bool.not_true, and_false,
          if_false, false_or, pure, Option.some.injEq] at h
        subst h
        obtain ⟨hidx, hv⟩ := hplain hs
        refine ⟨by simp, by simp, by simp, hi8, hs4,
          by simp [ModrmForm.dispWidth, ModrmForm.baseField], by simp, fun _ => ⟨rfl, rfl⟩,
          fun h => absurd h hb0, fun _ h => absurd hip h, fun h => absurd h (by simp),
          fun _ => ⟨hidx, hv⟩, by rw [if_pos hip]⟩
      · simp [hs] at h
    · -- a general purpose base: rm or the SIB base holds its low bits, and an offset takes one
      -- byte when it fits and four when not; base 5 needs an offset byte even for no offset
      simp only [hb0, hip, if_false] at h
      by_cases hg : Operand.isGpl (Operand.base op0) = true
      · simp only [hg, Bool.not_true, Bool.false_eq_true, if_false, Bool.not_false, and_true,
          pure, Option.some.injEq, or_false] at h
        subst h
        generalize hr : Operand.regIdx (Operand.base op0) % 8 = r
        have hr8 : r < 8 := hr ▸ Nat.mod_lt _ (by decide)
        generalize hmd : (if Operand.offset op0 ≠ 0 ∧ fits (Operand.offset op0) 1 = true then 1
          else if Operand.offset op0 ≠ 0 then 2 else if r = 5 then 1 else 0) = md
        have hmd3 : md < 3 := by
          rw [← hmd]
          split_ifs <;> omega
        -- mode 0 only for no offset and a base other than 5
        have hmd0 : md = 0 → Operand.offset op0 = 0 ∧ r ≠ 5 := fun h0 => by
          rw [← hmd] at h0
          split_ifs at h0
          omega
        generalize hp : (if sib.isSome = true ∨ r = 4 then (4, r) else (r, 0)) = rb
        have hrb : (if rb.1 = 4 then rb.2 else rb.1) = r ∧ rb.1 < 8 ∧ rb.2 < 8 ∧
            (sib.isSome = true → rb.1 = 4) := by
          rw [← hp]
          split_ifs <;> simp_all
        obtain ⟨hbf, hrm8, hbase8, hsib4⟩ := hrb
        refine ⟨hmd3, hrm8, hbase8, hi8, hs4, ?_, ?_, fun h => absurd h hip, fun h => absurd h hb0,
          fun _ _ => ⟨hg, by simp only [ModrmForm.baseField, hbf], ?_⟩, fun _ => ⟨hscale, hnone, hsome⟩,
          fun h4 => hplain (by cases hs : sib.isSome <;> simp_all), by rw [if_neg hip]⟩
        · simp only [ModrmForm.dispWidth, ModrmForm.baseField, hbf]
          split_ifs <;> simp_all
        · intro h0
          have : md = 0 := by split_ifs at h0; omega
          exact (hmd0 this).1
        · simp only [ModrmForm.baseField, hbf]
          exact fun h => (hmd0 h.1).2 h.2
      · have hg' : Operand.isGpl (Operand.base op0) = false := by simpa using hg
        simp [hg'] at h

/-! ## An encoded request -/

/-- **An encoded request.** Its bytes, at most fifteen under the table's promise, are those a
descriptor on the chain of its mnemonic writes into an empty buffer, once its checks pass. -/
theorem encode_some {t : Tables} (ht : t.ShortForms) {mnem : Nat} {ops : Vector Nat 4}
    {bytes : List UInt8} (h : encode t mnem ops = some bytes) :
    bytes.length ≤ 15 ∧ ∃ j e opc imm sz b, t.OnChain (mnem % 65536) j ∧
      (t.desc j).encoding = some e ∧ prepare (t.desc j) e mnem ops 0 = some (opc, imm, sz) ∧
      (emitDesc (encodingInfo e) opc ops imm sz).run Buffer.empty = .ok () b ∧ bytes = b.written 0 := by
  unfold encode at h
  cases hr : (encodeInto t mnem ops).run Buffer.empty with
  | error u b =>
    rw [hr] at h
    cases h
  | ok u b =>
    rw [hr] at h
    cases h
    refine ⟨?_, ?_⟩
    · rcases encodeInto_all_or_nothing ht mnem ops Buffer.empty with ⟨bs, -, hle, hbs⟩ | hbs
      · rw [hr] at hbs
        cases hbs
        rw [show (0 : Nat) = Buffer.empty.pos from rfl, Buffer.written_writeAll]
        exact hle
      · rw [hr] at hbs
        cases hbs
    · obtain ⟨j, e, opc, imm, sz, hj, he, hp, hw, -⟩ := tryChain_ok (encodeInto_ok hr)
      exact ⟨j, e, opc, imm, sz, b, hj, he, hp, hw, rfl⟩

end X86Codec.Encoder
