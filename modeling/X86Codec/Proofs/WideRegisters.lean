import X86Codec.Proofs.LowRegisters
import X86Codec.Proofs.ReadBack
/-!
Registers in 64-bit mode.

A register field of the ModRM and SIB bytes has three bits; in 64-bit mode the fourth comes
from outside the field: REX.R for ModRM reg, REX.B for ModRM rm and the SIB base, REX.X for the
SIB index. A REX byte right before the opcode sets these bits, and a VEX prefix sets them
inverted; the VEX operand has all four of its bits in the prefix, inverted too. The operand
readers add eight for each extension bit set, so the registers decoded are 8 to 15 exactly
when the bit is set. ModRM reg is not extended when it names an MMX or segment register, nor
ModRM rm in the register form unless it names a general purpose or vector register.

Each reader writes the operand at its own position and leaves the others, so the statement
holds of descriptors whose readers write different positions (`DescWords.Separate`).

Main statements:
- `readOperands_widened`: the operands read in 64-bit mode, register field by register field
  (`Widened`);
- `decode_bits64_widened`: the same of a decoded instruction, in the context the opening, the
  walk and the ModRM byte give;
- `registers_by_mode`: in 32-bit mode registers 0 to 7 alone; in 64-bit mode the REX byte and the
  VEX prefix reach the operands as registers 8 to 15.
-/

namespace X86Codec.Decoder

/-! ## Descriptors whose readers write different positions -/

/-- the ModRM reg, ModRM, VEX and immediate readers of a descriptor, those it has, write
different positions -/
structure DescWords.Separate (d : DescWords) : Prop where
  reg_rm : d.hasModreg = true → d.hasModrm = true → d.modregIdx ≠ d.modrmIdx
  reg_vex : d.hasModreg = true → d.hasVexreg = true → d.modregIdx ≠ d.vexregIdx
  reg_imm : d.hasModreg = true → d.immControl ≠ 0 → d.modregIdx ≠ d.immIdx
  rm_vex : d.hasModrm = true → d.hasVexreg = true → d.modrmIdx ≠ d.vexregIdx
  rm_imm : d.hasModrm = true → d.immControl ≠ 0 → d.modrmIdx ≠ d.immIdx
  vex_imm : d.hasVexreg = true → d.immControl ≠ 0 → d.vexregIdx ≠ d.immIdx

instance (d : DescWords) : Decidable d.Separate :=
  decidable_of_iff
    ((d.hasModreg = true → d.hasModrm = true → d.modregIdx ≠ d.modrmIdx) ∧
      (d.hasModreg = true → d.hasVexreg = true → d.modregIdx ≠ d.vexregIdx) ∧
      (d.hasModreg = true → d.immControl ≠ 0 → d.modregIdx ≠ d.immIdx) ∧
      (d.hasModrm = true → d.hasVexreg = true → d.modrmIdx ≠ d.vexregIdx) ∧
      (d.hasModrm = true → d.immControl ≠ 0 → d.modrmIdx ≠ d.immIdx) ∧
      (d.hasVexreg = true → d.immControl ≠ 0 → d.vexregIdx ≠ d.immIdx))
    ⟨fun h => ⟨h.1, h.2.1, h.2.2.1, h.2.2.2.1, h.2.2.2.2.1, h.2.2.2.2.2⟩,
      fun h => ⟨h.reg_rm, h.reg_vex, h.reg_imm, h.rm_vex, h.rm_imm, h.vex_imm⟩⟩

/-! ## Register fields -/

/-- the ModRM reg field, as the ModRM reg reader masks it -/
theorem reg_field (m : Nat) : (m &&& 0x38) / 8 = (m >>> 3) % 8 := by
  have h63 : m &&& 63 = m % 64 := Nat.and_two_pow_sub_one_eq_mod m 6
  have hsplit : m &&& 0x38 = (m % 64) &&& 0x38 := by
    rw [← h63, Nat.and_assoc]
    rfl
  have key : ∀ x < 64, (x &&& 0x38) / 8 = x / 8 := by decide
  rw [hsplit, key _ (Nat.mod_lt _ (by norm_num)), Nat.shiftRight_eq_div_pow]
  omega

/-- eight for an extension bit, added to a field of three bits -/
theorem or_rexPlus {c : Context} {x : Nat} (hx : x < 8) (bit : Nat) :
    x ||| c.rexPlus bit = x + c.rexPlus bit := by
  have key : ∀ y < 8, y ||| 8 = y + 8 := by decide
  unfold Context.rexPlus
  split
  · exact key x hx
  · rw [Nat.or_zero, Nat.add_zero]

/-- a memory operand of 64-bit code: its base is the instruction pointer, none, or a field of
three bits extended by REX.B; its index is none or a field extended by REX.X -/
structure MemWidened (c : Context) (o : Operand) : Prop where
  base : o.reg = ipReg ∨ o.reg = noReg ∨ ∃ f < 8, o.reg = f + c.rexPlus Rex.b
  index : o.index = noReg ∨ ∃ f < 8, o.index = f + c.rexPlus Rex.x

theorem MemWidened.of_regs {c : Context} {o o' : Operand} (h : MemWidened c o)
    (hreg : o'.reg = o.reg) (hmisc : o'.misc = o.misc) : MemWidened c o' where
  base := hreg ▸ h.base
  index := by
    unfold Operand.index
    rw [hmisc]
    exact h.index

/-- the ModRM operands of 64-bit code, read from the byte `m`: ModRM reg extended by REX.R, ModRM
rm in the register form by REX.B, memory as `MemWidened` says; and for a move to or from a
control or debug register, ModRM reg by REX.R and ModRM rm by REX.B whatever they name -/
structure ModrmWidened (c : Context) (m : Nat) (ops : Vector Operand 4) : Prop where
  reg : c.tables.movesSpecial c.desc = false → c.desc.hasModreg = true →
    c.desc.declaredType c.desc.modregIdx ≠ RegType.mmx →
    c.desc.declaredType c.desc.modregIdx ≠ RegType.seg →
    (ops.get c.desc.modregIdx).reg = (m >>> 3) % 8 + c.rexPlus Rex.r
  rm : c.tables.movesSpecial c.desc = false → c.desc.hasModrm = true → (m >>> 6) % 4 = 3 →
    (c.desc.declaredType c.desc.modrmIdx = RegType.gpl ∨
      c.desc.declaredType c.desc.modrmIdx = RegType.vec) →
    (ops.get c.desc.modrmIdx).reg = m % 8 + c.rexPlus Rex.b
  mem : c.tables.movesSpecial c.desc = false → c.desc.hasModrm = true →
    (ops.get c.desc.modrmIdx).type = .mem → MemWidened c (ops.get c.desc.modrmIdx)
  special : c.tables.movesSpecial c.desc = true → c.desc.hasModreg = true →
    c.desc.hasModrm = true →
    (ops.get c.desc.modregIdx).reg = (m >>> 3) % 8 + c.rexPlus Rex.r ∧
      (ops.get c.desc.modrmIdx).reg = m % 8 + c.rexPlus Rex.b

/-- the operands of 64-bit code: the ModRM operands as `ModrmWidened` says, and the VEX operand
with all four bits of the prefix -/
structure Widened (c : Context) (m : Nat) (ops : Vector Operand 4) : Prop
    extends ModrmWidened c m ops where
  vex : c.desc.hasVexreg = true → (ops.get c.desc.vexregIdx).reg = c.prefixes.vexOperand

/-- the ModRM operands stay as they are where the operands at their positions do -/
theorem ModrmWidened.of_frame {c : Context} {m : Nat} {ops ops' : Vector Operand 4}
    (h : ModrmWidened c m ops)
    (hreg : c.desc.hasModreg = true → ops'.get c.desc.modregIdx = ops.get c.desc.modregIdx)
    (hrm : c.desc.hasModrm = true → ops'.get c.desc.modrmIdx = ops.get c.desc.modrmIdx) :
    ModrmWidened c m ops' where
  reg hs hr hm hg := by
    rw [hreg hr]
    exact h.reg hs hr hm hg
  rm hs hm h3 ht := by
    rw [hrm hm]
    exact h.rm hs hm h3 ht
  mem hs hm ht := by
    rw [hrm hm] at ht ⊢
    exact h.mem hs hm ht
  special hs hr hm := by
    rw [hreg hr, hrm hm]
    exact h.special hs hr hm

/-! ## What each reader writes and keeps -/

section Readers

variable {c : Context} {m : Nat}

theorem implicitOperand_misc (s : Progress) (k : Position) :
    ((implicitOperand c s).ops.get k).misc = (s.ops.get k).misc := by
  unfold implicitOperand
  split
  · simp only [Progress.setOp, get_update]
    split <;> rfl
  · rfl

theorem modregOperand_misc (s : Progress) (k : Position) :
    ((modregOperand c m s).ops.get k).misc = (s.ops.get k).misc := by
  unfold modregOperand
  split
  · simp only [Progress.setOp, get_update]
    split <;> rfl
  · rfl

/-- the ModRM reg operand: the reg field, plus eight with REX.R unless it names an MMX or
segment register -/
theorem modregOperand_reg (s : Progress) (hr : c.desc.hasModreg = true)
    (hmmx : (s.ops.get c.desc.modregIdx).misc ≠ RegType.mmx)
    (hseg : (s.ops.get c.desc.modregIdx).misc ≠ RegType.seg) :
    ((modregOperand c m s).ops.get c.desc.modregIdx).reg = (m >>> 3) % 8 + c.rexPlus Rex.r := by
  have hext : ¬((s.ops.get c.desc.modregIdx).misc = RegType.mmx ∨
      (s.ops.get c.desc.modregIdx).misc = RegType.seg) := by
    rintro (h | h)
    exacts [hmmx h, hseg h]
  simp only [modregOperand, hr, ↓reduceIte, Progress.setOp, get_update, if_neg hext, reg_field]

theorem modrmOperand_frame {s s' : Progress} (h : modrmOperand c m s = .ok s') {k : Position}
    (hk : c.desc.hasModrm = true → c.desc.modrmIdx ≠ k) : s'.ops.get k = s.ops.get k := by
  rcases modrmOperand_ops h with ⟨-, hops⟩ | ⟨hm, -, hops⟩ |
    ⟨hm, -, _, _, _, _, -, -, hops⟩
  · rw [hops]
  · rw [hops, get_update, if_neg (hk hm)]
  · rw [hops, get_update, if_neg (hk hm)]

/-- the register form of the ModRM operand: the rm field, plus eight with REX.B for a general
purpose or vector register -/
theorem modrmOperand_rm {s s' : Progress} (h : modrmOperand c m s = .ok s')
    (hm : c.desc.hasModrm = true) (h3 : (m >>> 6) % 4 = 3)
    (ht : (s.ops.get c.desc.modrmIdx).misc = RegType.gpl ∨
      (s.ops.get c.desc.modrmIdx).misc = RegType.vec) :
    (s'.ops.get c.desc.modrmIdx).reg = m % 8 + c.rexPlus Rex.b := by
  rw [modrmOperand_reg hm h3] at h
  cases h
  simp only [Progress.setOp, get_update, ↓reduceIte, if_pos ht]

/-- with the SIB byte, the base is its three low bits and the index its middle three extended
by REX.X, or none; without one, the base is the rm field and there is no index -/
theorem readSib_widened {rm base misc off : Nat} {s : Progress} (hrm : rm < 8)
    (h : readSib c rm s = .ok (base, misc, off)) :
    base < 8 ∧ (misc % 64 = noReg ∨ ∃ f < 8, misc % 64 = f + c.rexPlus Rex.x) := by
  unfold readSib at h
  by_cases h4 : rm = 4
  · simp only [h4, ↓reduceIte] at h
    obtain ⟨sib, -, h⟩ := ok_of_bind_eq_ok h
    simp only [pure, Except.pure, Except.ok.injEq, Prod.mk.injEq] at h
    obtain ⟨rfl, rfl, -⟩ := h
    have hx := rexPlus_le (c := c) Rex.x
    have hf : (sib >>> 3) % 8 < 8 := Nat.mod_lt _ (by norm_num)
    refine ⟨Nat.mod_lt _ (by norm_num), ?_⟩
    -- the scale sits above the index's six bits
    split_ifs
    · left
      simp only [noReg]
      omega
    · exact Or.inr ⟨_, hf, by omega⟩
  · simp only [h4, ↓reduceIte] at h
    split at h
    · cases h
    · simp only [pure, Except.pure, Except.ok.injEq, Prod.mk.injEq] at h
      obtain ⟨rfl, rfl, -⟩ := h
      exact ⟨hrm, Or.inl rfl⟩

/-- a memory operand read from ModRM is `MemWidened` -/
theorem modrmOperand_memWidened {s s' : Progress} (h : modrmOperand c m s = .ok s')
    (hm : c.desc.hasModrm = true) (ht : (s'.ops.get c.desc.modrmIdx).type = .mem) :
    MemWidened c (s'.ops.get c.desc.modrmIdx) := by
  rcases modrmOperand_ops h with ⟨hm', -⟩ | ⟨-, -, hops⟩ |
    ⟨-, -, base, misc, off, reg, hsib, hreg, hops⟩
  · rw [hm] at hm'
    cases hm'
  · -- the register form is no memory operand
    simp only [hops, get_update, ↓reduceIte] at ht
    cases ht
  · obtain ⟨hbase, hidx⟩ := readSib_widened (Nat.mod_lt _ (by norm_num)) hsib
    simp only [hops, get_update, ↓reduceIte]
    refine ⟨?_, hidx⟩
    rcases hreg with ⟨rfl, -⟩ | rfl | rfl
    exacts [Or.inl rfl, Or.inr (Or.inl rfl), Or.inr (Or.inr ⟨base, hbase, rfl⟩)]

theorem vexOperand_frame {s s' : Progress} (h : vexOperand c s = .ok s') {k : Position}
    (hk : c.desc.hasVexreg = true → c.desc.vexregIdx ≠ k) : s'.ops.get k = s.ops.get k := by
  rcases vexOperand_ops h with ⟨hv, hops⟩ | ⟨-, rfl⟩
  · rw [hops, get_update, if_neg (hk hv)]
  · rfl

/-- the VEX operand of 64-bit code has all four bits of the prefix -/
theorem vexOperand_get {s s' : Progress} (h : vexOperand c s = .ok s') (hmode : c.mode = .bits64)
    (hv : c.desc.hasVexreg = true) :
    (s'.ops.get c.desc.vexregIdx).reg = c.prefixes.vexOperand := by
  rw [vexOperand_reg hv hmode] at h
  cases h
  simp only [Progress.setOp, get_update, ↓reduceIte]

theorem immediate_frame {s s' : Progress} (h : immediate c s = .ok s') {k : Position}
    (hk : c.desc.immControl ≠ 0 → c.desc.immIdx ≠ k) : s'.ops.get k = s.ops.get k := by
  by_cases h0 : c.desc.immControl = 0
  · -- no immediate
    simp only [immediate, h0] at h
    cases h
    rfl
  · have hne := hk h0
    refine immediate_forall (P := fun j o => j = k → o = s.ops.get k) (fun _ hj => hj ▸ rfl)
      (fun _ hik => absurd hik hne) (fun _ _ hik => absurd hik hne) (fun _ hik => absurd hik hne)
      (fun _ _ _ _ _ hik => absurd hik hne) h k rfl

/-- the special registers: ModRM reg extended by REX.R and ModRM rm by REX.B -/
theorem specialRegisters_widened (hsep : c.desc.Separate)
    (hsp : c.tables.movesSpecial c.desc = true)
    {control : Bool} {s s' : Progress} (h : specialRegisters c m control s = .ok s') :
    ModrmWidened c m s'.ops where
  reg hs := absurd hs (by rw [hsp]; decide)
  rm hs := absurd hs (by rw [hsp]; decide)
  mem hs := absurd hs (by rw [hsp]; decide)
  special _ hr hm := by
    obtain ⟨-, -, hops⟩ := specialRegisters_ops h
    have hne : c.desc.modrmIdx ≠ c.desc.modregIdx := (hsep.reg_rm hr hm).symm
    simp only [hops, get_update, if_neg hne, ↓reduceIte]
    exact ⟨or_rexPlus (Nat.mod_lt _ (by norm_num)) _, or_rexPlus (Nat.mod_lt _ (by norm_num)) _⟩

/-- the implied, ModRM reg and ModRM readers, where every operand has the register type its
position declares -/
theorem modrmOperands_widened (hsep : c.desc.Separate)
    (hsp : c.tables.movesSpecial c.desc = false) {s s' : Progress}
    (hinit : ∀ k, (s.ops.get k).misc = c.desc.declaredType k)
    (h : modrmOperand c m (modregOperand c m (implicitOperand c s)) = .ok s') :
    ModrmWidened c m s'.ops where
  reg _ hr hmmx hseg := by
    rw [modrmOperand_frame h fun hm => (hsep.reg_rm hr hm).symm]
    refine modregOperand_reg _ hr ?_ ?_
    · rwa [implicitOperand_misc, hinit]
    · rwa [implicitOperand_misc, hinit]
  rm _ hm h3 ht := by
    refine modrmOperand_rm h hm h3 ?_
    rwa [modregOperand_misc, implicitOperand_misc, hinit]
  mem _ hm ht := modrmOperand_memWidened h hm ht
  special hs := absurd hs (by rw [hsp]; decide)

end Readers

/-! ## Reading the operands -/

/-- **Operands in 64-bit mode.** Each register field read is extended by its REX bit, and the
VEX operand has four bits, when the readers write different positions and every operand
starts with the register type its position declares. -/
theorem readOperands_widened {c : Context} {m : Nat} {s s' : Progress}
    (hr : readOperands c m s = .ok s') (hmode : c.mode = .bits64) (hsep : c.desc.Separate)
    (hinit : ∀ k, (s.ops.get k).misc = c.desc.declaredType k) : Widened c m s'.ops := by
  unfold readOperands at hr
  dsimp only at hr
  -- the VEX operand and the immediate write past the ModRM operands
  have rest : ∀ s₁ : Progress, ModrmWidened c m s₁.ops →
      (vexOperand c s₁ >>= fun s => immediate c s) = .ok s' → Widened c m s'.ops := by
    intro s₁ hfirst h'
    obtain ⟨s₂, h₂, h₃⟩ := ok_of_bind_eq_ok h'
    refine ⟨hfirst.of_frame (fun hr => ?_) (fun hm => ?_), fun hv => ?_⟩
    · rw [immediate_frame h₃ fun h => (hsep.reg_imm hr h).symm,
        vexOperand_frame h₂ fun h => (hsep.reg_vex hr h).symm]
    · rw [immediate_frame h₃ fun h => (hsep.rm_imm hm h).symm,
        vexOperand_frame h₂ fun h => (hsep.rm_vex hm h).symm]
    · rw [immediate_frame h₃ fun h => (hsep.vex_imm hv h).symm]
      exact vexOperand_get h₂ hmode hv
  -- the special registers, or the ModRM operands
  by_cases hcr : c.is "MOV_CR" = true
  · simp only [hcr, ↓reduceIte] at hr
    obtain ⟨s₁, h₁, hr⟩ := ok_of_bind_eq_ok hr
    exact rest s₁
      (specialRegisters_widened hsep (by simp_all [Tables.movesSpecial, Context.is]) h₁) hr
  · by_cases hdr : c.is "MOV_DR" = true
    · simp only [hcr, hdr, Bool.false_eq_true, ↓reduceIte] at hr
      obtain ⟨s₁, h₁, hr⟩ := ok_of_bind_eq_ok hr
      exact rest s₁
        (specialRegisters_widened hsep (by simp_all [Tables.movesSpecial, Context.is]) h₁) hr
    · simp only [hcr, hdr, Bool.false_eq_true, ↓reduceIte] at hr
      obtain ⟨s₁, h₁, hr⟩ := ok_of_bind_eq_ok hr
      exact rest s₁ (modrmOperands_widened hsep
        (by simp_all [Tables.movesSpecial, Context.is]) hinit h₁) hr

/-! ## Finishing -/

section Finish

variable {c : Context} {m : Nat}

/-- setting sizes changes the size alone -/
theorem sizeFrom_resized (d : DescWords) (sizes : Nat → Nat) :
    ∀ (ps : List Position) (ops : Vector Operand 4) (k : Position),
      ∃ n, (sizeFrom d sizes ps ops).get k = { ops.get k with size := n }
  | [], ops, k => ⟨(ops.get k).size, rfl⟩
  | i :: is, ops, k => by
    simp only [sizeFrom]
    split
    · exact ⟨(ops.get k).size, rfl⟩
    · obtain ⟨n, hn⟩ := sizeFrom_resized d sizes is
        (Position.update ops i fun o => { o with size := sizes (d.sizeChoice i.val) }) k
      rw [hn, get_update]
      split <;> exact ⟨n, rfl⟩

/-- finishing keeps every register number, and the type and index of a memory operand -/
theorem finish_keeps {s : Progress} {i : Instr} (h : finish c s = .ok i) (k : Position) :
    (i.operands.get k).reg = (s.ops.get k).reg ∧
      ((i.operands.get k).type = .mem →
        (s.ops.get k).type = .mem ∧ (i.operands.get k).misc = (s.ops.get k).misc) := by
  obtain ⟨ops, hops, -, -, -, hi⟩ := finish_ok h
  obtain ⟨n, hsize⟩ := sizeFrom_resized c.desc (sizeTable c) Position.all ops k
  -- the high byte registers are registers, not memory
  have hhigh : i.operands.get k = (sizeFrom c.desc (sizeTable c) Position.all ops).get k ∨
      ((sizeFrom c.desc (sizeTable c) Position.all ops).get k).type = .reg ∧
        i.operands.get k =
          { (sizeFrom c.desc (sizeTable c) Position.all ops).get k with misc := RegType.gph } := by
    rw [hi]
    split
    · rcases highBytes_get _ _ k with h1 | ⟨ht, -, -, -, h1⟩
      exacts [Or.inl h1, Or.inr ⟨ht, h1⟩]
    · exact Or.inl rfl
  rw [hsize] at hhigh
  rcases hops k with hk | hk <;> rw [hk] at hhigh <;> rcases hhigh with hk' | ⟨ht, hk'⟩ <;>
    rw [hk'] <;> simp_all

theorem Widened.finish {s : Progress} {i : Instr} (h : Widened c m s.ops)
    (hf : finish c s = .ok i) : Widened c m i.operands := by
  have hreg k := (finish_keeps hf k).1
  refine ⟨⟨fun hs hr hm hg => ?_, fun hs hm h3 ht => ?_, fun hs hm ht => ?_,
    fun hs hr hm => ?_⟩, fun hv => ?_⟩
  · rw [hreg]
    exact h.reg hs hr hm hg
  · rw [hreg]
    exact h.rm hs hm h3 ht
  · obtain ⟨hmem, hmisc⟩ := (finish_keeps hf c.desc.modrmIdx).2 ht
    exact (h.mem hs hm hmem).of_regs (hreg _) hmisc
  · rw [hreg, hreg]
    exact h.special hs hr hm
  · rw [hreg]
    exact h.vex hv

end Finish

/-! ## Decoding in 64-bit mode -/

/-- **Decoding in 64-bit mode.** A decoded instruction's operands are `Widened` in the context
of its decoding: the tables, the prefixes of the opening, the descriptor the walk reaches and
the byte the ModRM operands come from. -/
theorem decode_bits64_widened {t : Tables} {prior : Instr} {bytes : List UInt8}
    {address : UInt64} {i : Instr} (h : decodeInto t prior bytes 64 address = .ok i) :
    ∃ (c : Context) (m root off₁ off₂ off₃ : Nat), c.tables = t ∧ c.mode = .bits64 ∧
      t.root? 64 = some root ∧ opening .bits64 (Window.of bytes) = .ok (c.prefixes, off₁) ∧
      walk t root (Window.of bytes) c.prefixes off₁ = .ok (c.desc, off₂) ∧
      modrmByte (Window.of bytes) c.desc off₂ = .ok (m, off₃) ∧
      (c.desc.Separate → Widened c m i.operands) := by
  unfold decodeInto decodeWindow at h
  split at h
  next mode hmode =>
    obtain rfl : mode = .bits64 := by
      simp only [Mode.ofInt?, Option.some.injEq] at hmode
      exact hmode.symm
    split at h
    next root hroot =>
      obtain ⟨⟨p, off₁⟩, hop, h⟩ := ok_of_bind_eq_ok h
      obtain ⟨⟨d, off₂⟩, hwalk, h⟩ := ok_of_bind_eq_ok h
      obtain ⟨⟨m, off₃⟩, hmb, h⟩ := ok_of_bind_eq_ok h
      obtain ⟨s, hops, hfin⟩ := ok_of_bind_eq_ok h
      refine ⟨{ tables := t, mode := .bits64, window := Window.of bytes, prefixes := p, desc := d,
                opSize := operandSize .bits64 d p,
                vecSize := if hasBit p.rex Rex.vexL then 32 else 16,
                addrSize := addressSize .bits64 p, address }, m, root, off₁, off₂, off₃,
        rfl, rfl, hroot, hop, hwalk, hmb, fun hsep => ?_⟩
      exact (readOperands_widened hops rfl hsep fun k => by rw [initialOperands_get]).finish hfin
    next => cases h
  next => cases h

/-! ## The VEX operand of the opening -/

/-- the last byte of a three-byte VEX prefix names the VEX operand by its inverted bits 3 to 6 -/
theorem readVex_vexOperand {mode : Mode} {w : Window} {p p' : Prefixes} {off b1 off' : Nat}
    (h : readVex mode w p off 0xc4 b1 = .ok (p', off')) :
    p'.vexOperand = ((w.byte (off + 2) &&& 0x78) >>> 3) ^^^ 0xf := by
  unfold readVex at h
  by_cases hx : hasBit b1 0x1c = true
  · simp [hx, throw, throwThe, MonadExceptOf.throw] at h
  · simp only [hx, ↓reduceIte, Bool.false_eq_true] at h
    obtain ⟨b2, hb2, h⟩ := ok_of_bind_eq_ok h
    simp only [pure, Except.pure, Except.ok.injEq, Prod.mk.injEq] at h
    obtain ⟨rfl, -⟩ := h
    rw [← Window.read_one hb2]
    rfl

/-- **A VEX prefix in 64-bit mode.** After a run of prefixes, a three-byte VEX prefix sets
REX.R, REX.X and REX.B from its inverted bits, and the VEX operand from its last byte. -/
theorem opening_bits64_vex_operand {w : Window} {A B : List Nat} {b1 b2 : Nat}
    (hw : w.bytes.toList.map (·.toNat) = A ++ 0xc4 :: b1 :: b2 :: B)
    (hA : ∀ b ∈ A, isPrefixByte .bits64 b) {p : Prefixes} {off : Nat}
    (h : opening .bits64 w = .ok (p, off)) :
    (hasBit p.rex Rex.r = !hasBit b1 0x80 ∧ hasBit p.rex Rex.x = !hasBit b1 0x40 ∧
      hasBit p.rex Rex.b = !hasBit b1 0x20) ∧ p.vexOperand = ((b2 &&& 0x78) >>> 3) ^^^ 0xf := by
  refine ⟨opening_bits64_vex hw hA h, ?_⟩
  have hrun := @readPrefixes_run .bits64 w A (0xc4 :: b1 :: b2 :: B) hw hA
    (by simp [isPrefixByte, isRex])
  have h0 : w.byte A.length = 0xc4 := Window.byte_of_toList hw (by simp)
  have h2 : w.byte (A.length + 2) = b2 := Window.byte_of_toList hw (by simp)
  rw [opening_eq, hrun.1] at h
  rcases readOpening_rex h with ⟨-, h32⟩ | ⟨-, -, hv⟩
  · cases h32 (Or.inl h0)
  · rw [h0] at hv
    rw [readVex_vexOperand hv, h2]

/-! ## Registers by mode -/

/-- **Registers by mode.** An instruction decoded in 32-bit mode is not marked as 64-bit, and
every operand names registers 0 to 7 alone, apart from no base or index register of a memory
operand, so no memory operand is relative to the instruction pointer. In 64-bit mode each
register field is extended by its REX bit and the VEX operand has four bits; a REX byte before
the opcode sets the REX bits, and a three-byte VEX prefix sets them and the VEX operand from
its inverted bits. -/
theorem registers_by_mode :
    (∀ (t : Tables) (prior : Instr) (bytes : List UInt8) (address : UInt64) (i : Instr),
      decodeInto t prior bytes 32 address = .ok i →
        i.long = false ∧
          ∀ o ∈ i.operands.toList, o.Low ∧ (o.type = .mem → o.reg ≠ ipReg)) ∧
    (∀ (t : Tables) (prior : Instr) (bytes : List UInt8) (address : UInt64) (i : Instr),
      decodeInto t prior bytes 64 address = .ok i →
        ∃ (c : Context) (m root off₁ off₂ off₃ : Nat), c.tables = t ∧ c.mode = .bits64 ∧
          t.root? 64 = some root ∧
          opening .bits64 (Window.of bytes) = .ok (c.prefixes, off₁) ∧
          walk t root (Window.of bytes) c.prefixes off₁ = .ok (c.desc, off₂) ∧
          modrmByte (Window.of bytes) c.desc off₂ = .ok (m, off₃) ∧
          (c.desc.Separate → Widened c m i.operands)) ∧
    (∀ (w : Window) (A B : List Nat) (r : Nat) (p : Prefixes) (off : Nat),
      w.bytes.toList.map (·.toNat) = A ++ r :: B → (∀ b ∈ A, isPrefixByte .bits64 b) →
        isRex r → (∀ b ∈ B.head?, isPrefixByte .bits64 b = false) →
        opening .bits64 w = .ok (p, off) → p.rex = r) ∧
    (∀ (w : Window) (A B : List Nat) (b1 b2 : Nat) (p : Prefixes) (off : Nat),
      w.bytes.toList.map (·.toNat) = A ++ 0xc4 :: b1 :: b2 :: B →
        (∀ b ∈ A, isPrefixByte .bits64 b) → opening .bits64 w = .ok (p, off) →
        (hasBit p.rex Rex.r = !hasBit b1 0x80 ∧ hasBit p.rex Rex.x = !hasBit b1 0x40 ∧
          hasBit p.rex Rex.b = !hasBit b1 0x20) ∧
          p.vexOperand = ((b2 &&& 0x78) >>> 3) ^^^ 0xf) := by
  refine ⟨fun t prior bytes address i h => ?_, fun t prior bytes address i h =>
    decode_bits64_widened h, fun w A B r p off hw hA hr hB h => opening_bits64_rex hw hA hr hB h,
    fun w A B b1 b2 p off hw hA h => opening_bits64_vex_operand hw hA h⟩
  obtain ⟨hlong, hlow⟩ := decode_bits32_low h
  exact ⟨hlong, Vector.forall_mem_toList fun k => ⟨hlow k, (hlow k).base_ne_ip⟩⟩

/-- `MOV EAX, ECX` in 32-bit mode; in 64-bit mode `MOV R8, R9` with REX.WRB, whose registers
are 8 and 9, and `VADDPS XMM8, XMM9, XMM8` whose VEX prefix sets REX.R and REX.B and names
register 9 -/
theorem mov_registers_by_mode :
    (∃ i, decodeInto Tables.movBits32 Instr.zero [0x89, 0xc8] 32 0 = .ok i ∧
      i.long = false ∧
        ∀ o ∈ i.operands.toList, o.Low ∧ (o.type = .mem → o.reg ≠ ipReg)) ∧
    (∃ i, decodeInto Tables.mov Instr.zero [0x4d, 0x89, 0xc8] 64 0 = .ok i ∧
      (i.operands.get Position.first).reg = 8 ∧ (i.operands.get Position.second).reg = 9 ∧
      ∃ (c : Context) (m : Nat), c.prefixes.rex = 0x4d ∧ c.rexPlus Rex.r = 8 ∧
        c.rexPlus Rex.b = 8 ∧ Widened c m i.operands) ∧
    (∃ p off, opening .bits64 (Window.of [0xc4, 0x41, 0x30, 0x58, 0xc0]) = .ok (p, off) ∧
      hasBit p.rex Rex.r = true ∧ hasBit p.rex Rex.x = false ∧ hasBit p.rex Rex.b = true ∧
      p.vexOperand = 9) := by
  have hdec32 : decodeInto Tables.movBits32 Instr.zero [0x89, 0xc8] 32 0 =
      .ok { segment := noReg, addrsz := 4, size := 2,
            operands := #v[{ type := .reg, size := 4, reg := 0, misc := RegType.gpl },
                           { type := .reg, size := 4, reg := 1, misc := RegType.gpl },
                           { misc := RegType.gpl }, {}] } := by
    decide +kernel
  have hdec64 : decodeInto Tables.mov Instr.zero [0x4d, 0x89, 0xc8] 64 0 =
      .ok { long := true, segment := noReg, addrsz := 8, size := 3,
            operands := #v[{ type := .reg, size := 8, reg := 8, misc := RegType.gpl },
                           { type := .reg, size := 8, reg := 9, misc := RegType.gpl },
                           { misc := RegType.gpl }, {}] } := by
    decide +kernel
  have hopen : opening .bits64 (Window.of [0x4d, 0x89, 0xc8]) =
      .ok ({ rex := 0x4d, rexAt := some 0 }, 1) := by
    decide
  have hwalk : walk Tables.mov 0 (Window.of [0x4d, 0x89, 0xc8]) { rex := 0x4d, rexAt := some 0 } 1 =
      .ok (Tables.mov.descs.getD 0 {}, 2) := by
    decide +kernel
  have hvex : opening .bits64 (Window.of [0xc4, 0x41, 0x30, 0x58, 0xc0]) =
      .ok ({ rex := 5, escape := 5, vexOperand := 9 }, 3) := by
    decide
  refine ⟨⟨_, hdec32, registers_by_mode.1 _ _ _ _ _ hdec32⟩, ⟨_, hdec64, rfl, rfl, ?_⟩,
    ⟨_, _, hvex, ?_⟩⟩
  · obtain ⟨c, m, root, off₁, off₂, off₃, -, -, hroot, hop, hw, -, hwid⟩ :=
      registers_by_mode.2.1 _ _ _ _ _ hdec64
    -- the opening and the walk fix the prefixes and the descriptor
    obtain ⟨hp, rfl⟩ := Prod.mk.inj (Except.ok.inj (hop.symm.trans hopen))
    obtain rfl : root = 0 := (Option.some.inj hroot).symm
    rw [hp] at hw
    obtain ⟨hd, -⟩ := Prod.mk.inj (Except.ok.inj (hw.symm.trans hwalk))
    have hrex : c.prefixes.rex = 0x4d := by rw [hp]
    refine ⟨c, m, hrex, ?_, ?_, hwid (by rw [hd]; decide)⟩
    · simp [Context.rexPlus, Context.rex, hasBit, hrex, Rex.r]
    · simp [Context.rexPlus, Context.rex, hasBit, hrex, Rex.b]
  · obtain ⟨⟨hr, hx, hb⟩, hv⟩ :=
      registers_by_mode.2.2.2 _ [] [0x58, 0xc0] 0x41 0x30 _ _ rfl (by simp) hvex
    exact ⟨hr.trans rfl, hx.trans rfl, hb.trans rfl, hv.trans rfl⟩

end X86Codec.Decoder
