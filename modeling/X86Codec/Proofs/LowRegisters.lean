import X86Codec.Proofs.OperandNames
import X86Codec.Proofs.PrefixOrder
/-!
Registers in 32-bit mode.

In 32-bit mode the bytes 40 to 4F are opcodes, not REX prefixes; C4 and C5 start a VEX prefix
only when the next byte has both high bits set, and those are the inverted REX.R and REX.X;
VEX.B is ignored; the VEX operand and the register in the high bits of an immediate byte keep
their three low bits; and the instruction pointer is a memory base only in 64-bit mode. So an
instruction decoded in 32-bit mode is not marked as 64-bit and names only registers 0 to 7,
apart from no register as the base or index of a memory operand (`Operand.Low`). In 64-bit mode
the same bits reach the operand readers, which add eight for each: those of a REX byte right
before the opcode, and the inverted ones of a VEX prefix.

Main statements:
- `opening_bits32_rex`: in 32-bit mode the opening sets none of REX.R, REX.X and REX.B;
- `readOperands_low`: in 32-bit mode, without those bits, the operands read are low;
- `decode_bits32_low`: an instruction decoded in 32-bit mode is not 64-bit and its operands are
  low;
- `opening_bits64_rex`, `opening_bits64_vex`: in 64-bit mode the opening keeps the REX byte
  before the opcode and the inverted R, X and B bits of a VEX prefix.
-/

namespace X86Codec.Decoder

/-! ## Operands of 32-bit code -/

/-- an operand of 32-bit code: a register below eight, and memory whose base and index are
below eight or none -/
structure Operand.Low (o : Operand) : Prop where
  reg : o.type = .reg → o.reg < 8
  base : o.type = .mem → o.reg < 8 ∨ o.reg = noReg
  index : o.type = .mem → o.index < 8 ∨ o.index = noReg

namespace Operand.Low

theorem of_type {o : Operand} (hr : o.type ≠ .reg) (hm : o.type ≠ .mem) : o.Low :=
  ⟨fun h => absurd h hr, fun h => absurd h hm, fun h => absurd h hm⟩

theorem of_reg {o : Operand} (ht : o.type = .reg) (hr : o.reg < 8) : o.Low where
  reg _ := hr
  base hm := by rw [ht] at hm; cases hm
  index hm := by rw [ht] at hm; cases hm

theorem of_mem {o : Operand} (ht : o.type = .mem) (hb : o.reg < 8 ∨ o.reg = noReg)
    (hi : o.index < 8 ∨ o.index = noReg) : o.Low where
  reg hr := by rw [ht] at hr; cases hr
  base _ := hb
  index _ := hi

/-- a low memory operand is not relative to the instruction pointer -/
theorem base_ne_ip {o : Operand} (h : o.Low) (hm : o.type = .mem) : o.reg ≠ ipReg := by
  unfold ipReg
  rcases h.base hm with h | h
  · omega
  · rw [h]
    decide

end Operand.Low

/-! ## REX.R, REX.X and REX.B in 32-bit mode -/

/-- an extension bit of REX that the prefixes leave clear adds nothing to a register -/
theorem rexPlus_eq_zero {c : Context} (h : c.prefixes.rex &&& 7 = 0) {bit : Nat}
    (hb : bit &&& 7 = bit) : c.rexPlus bit = 0 := by
  have hand : c.prefixes.rex &&& bit = 0 := by
    rw [← hb, Nat.and_comm bit 7, ← Nat.and_assoc, h, Nat.zero_and]
  simp [Context.rexPlus, Context.rex, hasBit, hand]

theorem or_and_seven {a b : Nat} (hb : b &&& 7 = 0) : (a ||| b) &&& 7 = a &&& 7 := by
  rw [Nat.and_or_distrib_right, hb, Nat.or_zero]

theorem Prefixes.add_rex_bits32 {p q : Prefixes} {off b : Nat}
    (h : p.add .bits32 off b = some q) : q.rex = p.rex := by
  unfold Prefixes.add at h
  repeat' split at h
  all_goals cases h
  -- the REX branch belongs to 64-bit mode
  all_goals first | rfl | contradiction

theorem scan_rex_bits32 : ∀ (l : List Nat) (off : Nat) (p : Prefixes),
    (Prefixes.scan .bits32 l off p).1.rex = p.rex
  | [], _, _ => rfl
  | b :: bs, off, p => by
    simp only [Prefixes.scan]
    split
    · next q hq => rw [scan_rex_bits32 bs (off + 1) q, Prefixes.add_rex_bits32 hq]
    · rfl

/-- in 32-bit mode no prefix is a REX byte -/
theorem readPrefixes_rex_bits32 (w : Window) : (readPrefixes .bits32 w).1.rex = 0 := by
  have h := scan_rex_bits32 (w.bytes.toList.map (·.toNat)) 0 {}
  unfold readPrefixes
  split
  next p off hs =>
    rw [hs] at h
    split
    · exact h
    · rfl

/-- the opening keeps the REX bits, where C4 and C5 are `LES` and `LDS` in 32-bit mode, or
reads a VEX prefix after no REX byte; in 32-bit mode only one whose second byte has both high
bits set -/
theorem readOpening_rex {mode : Mode} {w : Window} {p p' : Prefixes} {off off' : Nat}
    (h : readOpening mode w p off = .ok (p', off')) :
    (p'.rex = p.rex ∧ (w.byte off = 0xc4 ∨ w.byte off = 0xc5 → mode = .bits32)) ∨
      (p.rex = 0 ∧ (mode = .bits32 → w.byte (off + 1) / 64 = 3) ∧
        readVex mode w p off (w.byte off) (w.byte (off + 1)) = .ok (p', off')) := by
  unfold readOpening at h
  cases h0 : w.read off 1 with
  | error e => simp [h0, bind, Except.bind] at h
  | ok b0 =>
    have hb0 := Window.read_one h0
    subst hb0
    simp only [h0, bind, Except.bind] at h
    by_cases hf : w.byte off = 0x0f
    · simp only [hf, ↓reduceIte] at h
      cases h1 : w.read (off + 1) 1 with
      | error e => simp [h1] at h
      | ok b1 =>
        simp only [h1] at h
        -- an escape changes the opcode map alone
        refine Or.inl ⟨?_, fun hv => by omega⟩
        split_ifs at h <;> simp only [pure, Except.pure, Except.ok.injEq, Prod.mk.injEq] at h <;>
          (obtain ⟨rfl, rfl⟩ := h; rfl)
    · by_cases hv : w.byte off = 0xc4 ∨ w.byte off = 0xc5
      · simp only [hf, hv, ↓reduceIte] at h
        cases h1 : w.read (off + 1) 1 with
        | error e => simp [h1] at h
        | ok b1 =>
          have hb1 := Window.read_one h1
          subst hb1
          simp only [h1] at h
          by_cases hl : mode = .bits32 ∧ w.byte (off + 1) / 64 ≠ 3
          · -- `LES` or `LDS` in 32-bit mode
            rw [if_pos hl] at h
            simp only [pure, Except.pure, Except.ok.injEq, Prod.mk.injEq] at h
            obtain ⟨rfl, rfl⟩ := h
            exact Or.inl ⟨rfl, fun _ => hl.1⟩
          · rw [if_neg hl] at h
            by_cases hud : (p.p66 || p.rep ≠ 0 || p.rex ≠ 0) = true
            · rw [if_pos hud] at h
              cases h
            · rw [if_neg hud] at h
              have hclear : (p.p66 = false ∧ p.rep = 0) ∧ p.rex = 0 := by simpa using hud
              exact Or.inr ⟨hclear.2, fun hm => by simpa [hm] using hl, h⟩
      · simp only [hf, hv, ↓reduceIte, pure, Except.pure, Except.ok.injEq, Prod.mk.injEq] at h
        obtain ⟨rfl, rfl⟩ := h
        exact Or.inl ⟨rfl, fun h => absurd h hv⟩

/-- a byte with both high bits set has the bits of the inverted REX.R and REX.X set -/
theorem hasBit_high {b : Nat} (hb : b < 256) (h : b / 64 = 3) :
    hasBit b 0x80 = true ∧ hasBit b 0x40 = true := by
  have key : ∀ x < 64, hasBit (192 + x) 0x80 = true ∧ hasBit (192 + x) 0x40 = true := by decide
  have := key (b - 192) (by omega)
  rwa [show 192 + (b - 192) = b by omega] at this

theorem vexTail_rex (q : Prefixes) (b : Nat) : (q.vexTail b).rex &&& 7 = q.rex &&& 7 := by
  show (q.rex ||| _) &&& 7 = _
  split <;> simp [or_and_seven, Rex.vexL]

/-- a VEX prefix in 32-bit mode, whose second byte has both high bits set, sets none of REX.R,
REX.X and REX.B -/
theorem readVex_bits32_rex {w : Window} {p p' : Prefixes} {off b0 b1 off' : Nat}
    (h : readVex .bits32 w p off b0 b1 = .ok (p', off')) (hb : b1 < 256) (h3 : b1 / 64 = 3) :
    p'.rex &&& 7 = p.rex &&& 7 := by
  obtain ⟨h80, h40⟩ := hasBit_high hb h3
  unfold readVex at h
  by_cases hb0 : b0 = 0xc4
  · by_cases hx : hasBit b1 0x1c = true
    · simp [hb0, hx, throw, throwThe, MonadExceptOf.throw] at h
    · simp only [hb0, hx, ↓reduceIte, Bool.false_eq_true] at h
      obtain ⟨b2, -, h⟩ := ok_of_bind_eq_ok h
      simp only [pure, Except.pure, Except.ok.injEq, Prod.mk.injEq] at h
      obtain ⟨rfl, -⟩ := h
      rw [vexTail_rex]
      -- VEX.B is read in 64-bit mode alone, and VEX.W is no extension bit
      simp only [h80, h40, ↓reduceIte, Nat.or_zero, reduceCtorEq, false_and]
      split <;> simp [or_and_seven, Rex.w]
  · simp only [hb0, ↓reduceIte, pure, Except.pure, Except.ok.injEq, Prod.mk.injEq] at h
    obtain ⟨rfl, -⟩ := h
    rw [vexTail_rex]
    simp [h80]

/-- **The opening in 32-bit mode** sets none of REX.R, REX.X and REX.B. -/
theorem opening_bits32_rex {w : Window} {p : Prefixes} {off : Nat}
    (h : opening .bits32 w = .ok (p, off)) : p.rex &&& 7 = 0 := by
  rw [opening_eq] at h
  have h0 := readPrefixes_rex_bits32 w
  rcases readOpening_rex h with ⟨he, -⟩ | ⟨-, h3, hv⟩
  · rw [he, h0]
    rfl
  · rw [readVex_bits32_rex hv (Window.byte_lt _ _) (h3 rfl), h0]
    rfl

/-! ## The operands read in 32-bit mode -/

section Operands

variable {c : Context}

/-- the implied register is one of the first two -/
theorem implicitOperand_low {s : Progress} (h : ∀ k, (s.ops.get k).Low) :
    ∀ k, ((implicitOperand c s).ops.get k).Low := by
  unfold implicitOperand
  split
  · have hval : c.desc.implicitVal < 2 := by
      unfold DescWords.implicitVal
      omega
    exact update_forall (P := fun _ o => o.Low) h (Operand.Low.of_reg rfl (by dsimp only; omega))
  · exact h

section Bits32

variable (hmode : c.mode = .bits32)
include hmode

/-- the VEX operand keeps its three low bits -/
theorem vexOperand_low {s s' : Progress} (h : ∀ k, (s.ops.get k).Low)
    (hv : vexOperand c s = .ok s') : ∀ k, (s'.ops.get k).Low := by
  rcases vexOperand_ops hv with ⟨-, hops⟩ | ⟨-, rfl⟩
  · rw [hops]
    refine update_forall (P := fun _ o => o.Low) h (Operand.Low.of_reg rfl ?_)
    dsimp only
    rw [hmode]
    exact Nat.mod_lt _ (by norm_num)
  · exact h

theorem immediate_low {s s' : Progress} (h : ∀ k, (s.ops.get k).Low)
    (hi : immediate c s = .ok s') : ∀ k, (s'.ops.get k).Low := by
  refine immediate_forall (P := fun _ o => o.Low) h
    (fun _ => Operand.Low.of_type (by simp) (by simp))
    (fun _ _ => Operand.Low.of_type (by simp) (by simp))
    (fun _ => Operand.Low.of_mem rfl (Or.inr rfl) (Or.inr rfl)) (fun _ _ _ _ h32 => ?_) hi
  -- a vector register in the high bits of a byte, whose highest bit 32-bit mode ignores
  exact Operand.Low.of_reg rfl (h32 hmode)

end Bits32

section Unextended

variable (hrex : c.prefixes.rex &&& 7 = 0)
include hrex

theorem modregOperand_low (m : Nat) {s : Progress} (h : ∀ k, (s.ops.get k).Low) :
    ∀ k, ((modregOperand c m s).ops.get k).Low := by
  unfold modregOperand
  split
  · have hfield : (m &&& 0x38) / 8 < 8 := by
      have : m &&& 0x38 ≤ 0x38 := Nat.and_le_right
      omega
    refine update_forall (P := fun _ o => o.Low) h (Operand.Low.of_reg rfl ?_)
    dsimp only
    rw [rexPlus_eq_zero hrex (by decide)]
    split_ifs <;> omega
  · exact h

/-- without REX.X the SIB index is one of eight or none -/
theorem readSib_low {rm base misc off : Nat} {s : Progress} (hrm : rm < 8)
    (h : readSib c rm s = .ok (base, misc, off)) :
    base < 8 ∧ (misc % 64 < 8 ∨ misc % 64 = noReg) := by
  unfold readSib at h
  by_cases h4 : rm = 4
  · simp only [h4, ↓reduceIte] at h
    obtain ⟨sib, -, h⟩ := ok_of_bind_eq_ok h
    simp only [pure, Except.pure, Except.ok.injEq, Prod.mk.injEq] at h
    obtain ⟨rfl, rfl, -⟩ := h
    rw [rexPlus_eq_zero hrex (by decide)]
    refine ⟨Nat.mod_lt _ (by norm_num), ?_⟩
    split_ifs <;> simp only [noReg] <;> omega
  · simp only [h4, ↓reduceIte] at h
    split at h
    · cases h
    · simp only [pure, Except.pure, Except.ok.injEq, Prod.mk.injEq] at h
      obtain ⟨rfl, rfl, -⟩ := h
      exact ⟨hrm, Or.inr rfl⟩

/-- a control or debug register and a general purpose register, neither extended -/
theorem specialRegisters_low {m : Nat} {control : Bool} {s s' : Progress}
    (h : ∀ k, (s.ops.get k).Low) (hm : specialRegisters c m control s = .ok s') :
    ∀ k, (s'.ops.get k).Low := by
  obtain ⟨-, -, hops⟩ := specialRegisters_ops hm
  rw [hops, rexPlus_eq_zero hrex (show Rex.r &&& 7 = Rex.r by decide),
    rexPlus_eq_zero hrex (show Rex.b &&& 7 = Rex.b by decide)]
  exact update_forall (P := fun _ o => o.Low)
    (update_forall (P := fun _ o => o.Low) h
      (Operand.Low.of_reg rfl (by dsimp only; rw [Nat.or_zero]; omega)))
    (Operand.Low.of_reg rfl (by dsimp only; rw [Nat.or_zero]; omega))

variable (hmode : c.mode = .bits32)
include hmode

theorem modrmOperand_low {m : Nat} {s s' : Progress} (h : ∀ k, (s.ops.get k).Low)
    (hm : modrmOperand c m s = .ok s') : ∀ k, (s'.ops.get k).Low := by
  have hrm : m % 8 < 8 := Nat.mod_lt _ (by norm_num)
  rcases modrmOperand_ops hm with ⟨-, hops⟩ | ⟨-, -, hops⟩ |
    ⟨-, -, base, misc, off, reg, hsib, hreg, hops⟩
  · rw [hops]
    exact h
  · rw [hops]
    refine update_forall (P := fun _ o => o.Low) h (Operand.Low.of_reg rfl ?_)
    dsimp only
    rw [rexPlus_eq_zero hrex (by decide)]
    split_ifs <;> omega
  · -- memory: the instruction pointer is a base in 64-bit mode alone
    rw [hops]
    obtain ⟨hbase, hidx⟩ := readSib_low hrex hrm hsib
    refine update_forall (P := fun _ o => o.Low) h (Operand.Low.of_mem rfl ?_ hidx)
    rcases hreg with ⟨-, h64⟩ | rfl | rfl
    · rw [hmode] at h64
      cases h64
    · exact Or.inr rfl
    · rw [rexPlus_eq_zero hrex (by decide)]
      exact Or.inl hbase

/-- **Operands in 32-bit mode.** Without REX.R, REX.X and REX.B every source of registers
gives one of the first eight, and memory has a base and an index of those or none. -/
theorem readOperands_low {m : Nat} {s s' : Progress} (h : ∀ k, (s.ops.get k).Low)
    (hr : readOperands c m s = .ok s') : ∀ k, (s'.ops.get k).Low := by
  unfold readOperands at hr
  dsimp only at hr
  -- the VEX operand and the immediate come after either way of reading the first operands
  have rest : ∀ s₁ : Progress, (∀ k, (s₁.ops.get k).Low) →
      (vexOperand c s₁ >>= fun s => immediate c s) = .ok s' → ∀ k, (s'.ops.get k).Low := by
    intro s₁ hs₁ h'
    obtain ⟨s₂, h₂, h₃⟩ := ok_of_bind_eq_ok h'
    exact immediate_low hmode (vexOperand_low hmode hs₁ h₂) h₃
  split at hr
  · obtain ⟨s₁, h₁, hr⟩ := ok_of_bind_eq_ok hr
    exact rest s₁ (specialRegisters_low hrex h h₁) hr
  · split at hr
    · obtain ⟨s₁, h₁, hr⟩ := ok_of_bind_eq_ok hr
      exact rest s₁ (specialRegisters_low hrex h h₁) hr
    · obtain ⟨s₁, h₁, hr⟩ := ok_of_bind_eq_ok hr
      exact rest s₁
        (modrmOperand_low hrex hmode (modregOperand_low hrex m (implicitOperand_low h)) h₁) hr

end Unextended

end Operands

/-! ## Finishing -/

section Finish

variable {c : Context}

theorem sizeFrom_low (d : DescWords) (sizes : Nat → Nat) :
    ∀ (ps : List Position) (ops : Vector Operand 4), (∀ k, (ops.get k).Low) →
      ∀ k, ((sizeFrom d sizes ps ops).get k).Low
  | [], _, h => h
  | i :: is, ops, h => by
    simp only [sizeFrom]
    split
    · exact h
    · exact sizeFrom_low d sizes is _
        (update_forall (P := fun _ o => o.Low) h ⟨(h i).reg, (h i).base, (h i).index⟩)

theorem highBytes_low (ps : List Position) (ops : Vector Operand 4) (h : ∀ k, (ops.get k).Low) :
    ∀ k, ((highBytes ps ops).get k).Low := by
  intro k
  rcases highBytes_get ps ops k with h1 | ⟨ht, -, -, -, h1⟩
  · rw [h1]
    exact h k
  · rw [h1]
    exact Operand.Low.of_reg ht ((h k).reg ht)

/-- finishing keeps low operands low: it clears operands, sets sizes and marks high byte
registers -/
theorem finish_low {s : Progress} {i : Instr} (h : finish c s = .ok i)
    (hs : ∀ k, (s.ops.get k).Low) : ∀ k, (i.operands.get k).Low := by
  obtain ⟨ops, hops, -, -, -, hi⟩ := finish_ok h
  have hlow : ∀ k, (ops.get k).Low := by
    intro k
    rcases hops k with hn | he
    · exact Operand.Low.of_type (by simp [hn]) (by simp [hn])
    · rw [he]
      exact hs k
  have hsize := sizeFrom_low c.desc (sizeTable c) Position.all ops hlow
  rw [hi]
  split
  · exact highBytes_low _ _ hsize
  · exact hsize

/-- an instruction is marked as 64-bit when decoded in 64-bit mode -/
theorem finish_long {s : Progress} {i : Instr} (h : finish c s = .ok i) :
    i.long = decide (c.mode = .bits64) := by
  unfold finish at h
  dsimp only at h
  split at h
  on_goal 1 => split at h
  all_goals
    dsimp only at h
    split at h
    · cases h
    split at h
    · cases h
    cases h
    rfl

end Finish

/-! ## Decoding in 32-bit mode -/

theorem Vector.forall_mem_toList {P : Operand → Prop} {v : Vector Operand 4}
    (h : ∀ k : Position, P (v.get k)) : ∀ o ∈ v.toList, P o := by
  intro o ho
  obtain ⟨n, hn, rfl⟩ := List.mem_iff_getElem.mp ho
  have hn' : n < 4 := by simpa using hn
  have hget := h ⟨n, hn'⟩
  simpa [Vector.get] using hget

/-- **Decoding in 32-bit mode** gives an instruction not marked as 64-bit whose operands are
low. -/
theorem decode_bits32_low {t : Tables} {prior : Instr} {bytes : List UInt8} {address : UInt64}
    {i : Instr} (h : decodeInto t prior bytes 32 address = .ok i) :
    i.long = false ∧ ∀ k, (i.operands.get k).Low := by
  unfold decodeInto decodeWindow at h
  split at h
  next mode hmode =>
    obtain rfl : mode = .bits32 := by
      simp only [Mode.ofInt?, Option.some.injEq] at hmode
      exact hmode.symm
    split at h
    next root hroot =>
      obtain ⟨⟨p, off₁⟩, hop, h⟩ := ok_of_bind_eq_ok h
      obtain ⟨⟨d, off₂⟩, -, h⟩ := ok_of_bind_eq_ok h
      obtain ⟨⟨m, off₃⟩, -, h⟩ := ok_of_bind_eq_ok h
      obtain ⟨s, hops, hfin⟩ := ok_of_bind_eq_ok h
      have hinit : ∀ k, ((initialOperands d).get k).Low := by
        intro k
        rw [initialOperands_get]
        exact Operand.Low.of_type (by simp) (by simp)
      refine ⟨by rw [finish_long hfin]; rfl, finish_low hfin ?_⟩
      exact readOperands_low (opening_bits32_rex hop) rfl hinit hops
    next => cases h
  next => cases h

/-! ## The same bits in 64-bit mode -/

theorem Window.byte_of_toList {w : Window} {l : List Nat}
    (hw : w.bytes.toList.map (·.toNat) = l) {i v : Nat} (hv : l[i]? = some v) : w.byte i = v := by
  have hget : (w.bytes.toList.map (·.toNat))[i]? = some v := hw ▸ hv
  rw [List.getElem?_map, Array.getElem?_toList] at hget
  obtain ⟨x, hx, rfl⟩ := Option.map_eq_some_iff.mp hget
  simp [Window.byte, hx]

/-- **A REX byte in 64-bit mode.** After a run of prefixes that ends with a REX byte, the opening
keeps that byte as the REX prefix. -/
theorem opening_bits64_rex {w : Window} {A B : List Nat} {r : Nat}
    (hw : w.bytes.toList.map (·.toNat) = A ++ r :: B) (hA : ∀ b ∈ A, isPrefixByte .bits64 b)
    (hr : isRex r) (hB : ∀ b ∈ B.head?, isPrefixByte .bits64 b = false) {p : Prefixes}
    {off : Nat} (h : opening .bits64 w = .ok (p, off)) : p.rex = r := by
  have hrun := @readPrefixes_run .bits64 w (A ++ [r]) B (by simpa using hw) ?_ hB
  · have hrex : (readPrefixes .bits64 w).1.rex = r := by
      have h2 := congrArg Prefixes.rex hrun.2
      rw [prefixEffect_snoc] at h2
      simpa [PrefixEffect.state, PrefixEffect.push, hr] using h2
    rw [opening_eq] at h
    rcases readOpening_rex h with ⟨he, -⟩ | ⟨h0, -⟩
    · rw [he, hrex]
    · -- a VEX prefix after a REX byte is undefined
      rw [hrex] at h0
      simp only [isRex, Bool.and_eq_true, decide_eq_true_eq] at hr
      omega
  · intro b hb
    rcases List.mem_append.mp hb with hb | hb
    · exact hA b hb
    · rw [List.mem_singleton] at hb
      subst hb
      simp [isPrefixByte, hr]

/-- a three-byte VEX prefix in 64-bit mode after no REX byte: its inverted R, X and B bits are
REX.R, REX.X and REX.B -/
theorem readVex_bits64_rex {w : Window} {p p' : Prefixes} {off b1 off' : Nat}
    (h : readVex .bits64 w p off 0xc4 b1 = .ok (p', off')) (h0 : p.rex = 0) :
    hasBit p'.rex Rex.r = !hasBit b1 0x80 ∧ hasBit p'.rex Rex.x = !hasBit b1 0x40 ∧
      hasBit p'.rex Rex.b = !hasBit b1 0x20 := by
  unfold readVex at h
  by_cases hx : hasBit b1 0x1c = true
  · simp [hx, throw, throwThe, MonadExceptOf.throw] at h
  · simp only [hx, ↓reduceIte, Bool.false_eq_true] at h
    obtain ⟨b2, -, h⟩ := ok_of_bind_eq_ok h
    simp only [pure, Except.pure, Except.ok.injEq, Prod.mk.injEq] at h
    obtain ⟨rfl, -⟩ := h
    simp only [Prefixes.vexTail, h0, true_and]
    -- five bits, each set or clear
    generalize hasBit b1 0x80 = nr, hasBit b1 0x40 = nx, hasBit b1 0x20 = nb, hasBit b2 0x80 = w,
      hasBit b2 0x04 = l
    cases nr <;> cases nx <;> cases nb <;> cases w <;> cases l <;> decide

/-- **A VEX prefix in 64-bit mode.** After a run of prefixes, a three-byte VEX prefix sets
REX.R, REX.X and REX.B from its inverted bits. -/
theorem opening_bits64_vex {w : Window} {A B : List Nat} {b1 : Nat}
    (hw : w.bytes.toList.map (·.toNat) = A ++ 0xc4 :: b1 :: B)
    (hA : ∀ b ∈ A, isPrefixByte .bits64 b) {p : Prefixes} {off : Nat}
    (h : opening .bits64 w = .ok (p, off)) :
    hasBit p.rex Rex.r = !hasBit b1 0x80 ∧ hasBit p.rex Rex.x = !hasBit b1 0x40 ∧
      hasBit p.rex Rex.b = !hasBit b1 0x20 := by
  have hrun := @readPrefixes_run .bits64 w A (0xc4 :: b1 :: B) hw hA (by simp [isPrefixByte, isRex])
  have h0 : w.byte A.length = 0xc4 := Window.byte_of_toList hw (by simp)
  have h1 : w.byte (A.length + 1) = b1 := Window.byte_of_toList hw (by simp)
  rw [opening_eq, hrun.1] at h
  rcases readOpening_rex h with ⟨-, h32⟩ | ⟨hrex, -, hv⟩
  · cases h32 (Or.inl h0)
  · rw [h0, h1] at hv
    exact readVex_bits64_rex hv hrex

/-- the tables of `Tables.mov` with their root in 32-bit mode -/
def Tables.movBits32 : Tables := { Tables.mov with roots := [(32, 0)] }

end X86Codec.Decoder
