import X86Codec.Proofs.PriorContents
/-!
Decoding at a known address.

The decoder may be told the address of the instruction. Without one (address zero) a relative
jump or call keeps its displacement as an offset operand, and the formatter adds an address and
the instruction's length when it prints it. With one, the decoder adds the address and the
length itself and stores an immediate. The two routes agree: decoding at a nonzero address fails
as decoding at zero does, or gives the instruction decoded at zero with every offset made an
immediate, the immediate made the target and the address stored (`Instr.atAddress`).

The printed texts agree but for one spelling. The formatter marks a two-byte offset in first
place with the suffix `w` (a jump whose target is cut to sixteen bits), and gives an immediate no
such suffix: `66 e9 01 00` in 32-bit mode prints `jmpw 0x6` with offsets from address 1, and
`jmp 0x6` decoded at address 1.

The rest is the tables' matter (`Tables.PlainOffsets`): an instruction with a relative immediate
is none whose immediate the decoder checks (a 3DNow! suffix), whose operands it renames (the
exchange that may be a no-op), whose heading looks at an immediate operand (`MOV`), or whose
immediate the formatter splits in two. The generated tables keep it: their relative immediates
are those of jumps, calls, loops and `XBEGIN`.

Main statements:
* `immediate_atAddress`, `finish_atAddress`: the two stages that read the address, at a nonzero
  address and at zero;
* `decodeWindow_atAddress`: decoding at a nonzero address, against decoding at zero;
* `pieces_atAddress`: an instruction with its offsets made absolute prints as the instruction
  with offsets from that address, unless its first operand is a two-byte offset;
* `decode_at_address`: both together, under the tables' promise.
-/

namespace X86Codec.Decoder

/-! ## Offsets made absolute -/

/-- an operand that reads the immediate: an immediate or an offset -/
def Operand.Numeric (o : Operand) : Prop := o.type = .imm ∨ o.type = .off

/-- an operand as it is stored at a known address: an offset becomes an immediate -/
def Operand.absolute (o : Operand) : Operand :=
  if o.type = .off then { o with type := .imm } else o

/-- some operand is an offset from the next instruction -/
def HasOffset (ops : Vector Operand 4) : Prop := ∃ k : Position, (ops.get k).type = .off

instance (ops : Vector Operand 4) : Decidable (HasOffset ops) :=
  inferInstanceAs (Decidable (∃ k : Position, (ops.get k).type = .off))

/-- the operands being read at a known address, from those read at address zero: offsets
become immediates, and the immediate becomes the target, past the bytes read so far -/
def Progress.atAddress (a : UInt64) (s : Progress) : Progress :=
  { s with ops := s.ops.map Operand.absolute
           imm := if HasOffset s.ops then s.imm + a + UInt64.ofNat s.off else s.imm }

/-- the instruction decoded at a known address, from the one decoded at address zero: offsets
become immediates, the immediate becomes the target (the address and the length added), and
the address is stored -/
def Instr.atAddress (a : UInt64) (i : Instr) : Instr :=
  { i with operands := i.operands.map Operand.absolute
           imm := if HasOffset i.operands then i.imm + a + UInt64.ofNat i.size else i.imm
           address := a }

section Absolute

variable {o : Operand}

@[simp] theorem absolute_size (o : Operand) : o.absolute.size = o.size := by
  unfold Operand.absolute
  split <;> rfl

@[simp] theorem absolute_reg (o : Operand) : o.absolute.reg = o.reg := by
  unfold Operand.absolute
  split <;> rfl

@[simp] theorem absolute_misc (o : Operand) : o.absolute.misc = o.misc := by
  unfold Operand.absolute
  split <;> rfl

theorem absolute_of_ne (h : o.type ≠ .off) : o.absolute = o := if_neg h

theorem absolute_type_ne_off (o : Operand) : o.absolute.type ≠ .off := by
  unfold Operand.absolute
  split
  · simp
  · assumption

/-- every kind but the offset and the immediate is kept -/
theorem absolute_type_eq (ty : OperandType) (himm : ty ≠ .imm) (hoff : ty ≠ .off) :
    o.absolute.type = ty ↔ o.type = ty := by
  unfold Operand.absolute
  split
  · next h =>
    rw [h]
    exact ⟨fun e => absurd e.symm himm, fun e => absurd e.symm hoff⟩
  · exact Iff.rfl

/-- an immediate at a known address is an immediate or an offset at address zero -/
theorem absolute_type_imm : o.absolute.type = .imm ↔ o.Numeric := by
  unfold Operand.absolute Operand.Numeric
  split
  · next h => simp [h]
  · next h => simp [h]

/-- the condition of the heading of `PUSH`, where a two-byte offset in first place is excluded -/
theorem absolute_push (hw : ¬ (o.type = .off ∧ o.size = 2)) :
    (o.size = 2 ∧ o.absolute.type = .imm) ↔ (o.size = 2 ∧ o.type = .imm) := by
  rw [absolute_type_imm, Operand.Numeric]
  constructor
  · rintro ⟨hs, hi | ho⟩
    · exact ⟨hs, hi⟩
    · exact absurd ⟨ho, hs⟩ hw
  · rintro ⟨hs, hi⟩
    exact ⟨hs, Or.inl hi⟩

end Absolute

section Operands

variable {ops : Vector Operand 4}

theorem get_map_absolute (ops : Vector Operand 4) (k : Position) :
    (ops.map Operand.absolute).get k = (ops.get k).absolute := by
  show (ops.map Operand.absolute)[k.val] = (ops[k.val]).absolute
  simp

theorem vector_ext {xs ys : Vector Operand 4} (h : ∀ k : Position, xs.get k = ys.get k) : xs = ys :=
  Vector.ext fun i hi => h ⟨i, hi⟩

theorem map_absolute_of_not (h : ¬ HasOffset ops) : ops.map Operand.absolute = ops :=
  vector_ext fun k => by
    rw [get_map_absolute]
    exact absolute_of_ne fun hk => h ⟨k, hk⟩

/-- a change of one operand that commutes with making offsets absolute -/
theorem update_map_absolute {i : Position} {g : Operand → Operand}
    (hg : ∀ o, (g o).absolute = g o.absolute) :
    Position.update (ops.map Operand.absolute) i g = (Position.update ops i g).map Operand.absolute :=
  vector_ext fun k => by
    rw [get_map_absolute, get_update, get_update, get_map_absolute]
    split
    · exact (hg _).symm
    · rfl

theorem not_hasOffset_of_numeric (h : ∀ k, ¬ (ops.get k).Numeric) : ¬ HasOffset ops :=
  fun ⟨k, hk⟩ => h k (Or.inr hk)

/-- a change of one operand that makes no offset adds none -/
theorem not_hasOffset_update {i : Position} {f : Operand → Operand} (h : ¬ HasOffset ops)
    (hf : (f (ops.get i)).type ≠ .off) : ¬ HasOffset (Position.update ops i f) := by
  rintro ⟨k, hk⟩
  rw [get_update] at hk
  split at hk
  · next hik =>
    subst hik
    exact hf hk
  · exact h ⟨k, hk⟩

end Operands

theorem Progress.atAddress_of_not {s : Progress} {a : UInt64} (h : ¬ HasOffset s.ops) :
    s.atAddress a = s := by
  unfold Progress.atAddress
  rw [map_absolute_of_not h, if_neg h]

/-- marking the immediate an offset at address zero is, at a nonzero address, adding the address
and the position past the immediate -/
theorem Progress.atAddress_setOff {s : Progress} {a : UInt64} {i : Position}
    (hs : ¬ HasOffset s.ops) (hi : (s.ops.get i).type = .imm) :
    (s.setOp i fun o => { o with type := .off }).atAddress a =
      { s with imm := s.imm + a + UInt64.ofNat s.off } := by
  have hoff : HasOffset (s.setOp i fun o => { o with type := .off }).ops :=
    ⟨i, by simp [Progress.setOp, get_update]⟩
  unfold Progress.atAddress
  rw [if_pos hoff]
  congr 1
  refine vector_ext fun k => ?_
  rw [get_map_absolute, Progress.setOp, get_update]
  split
  · next hik =>
    subst hik
    simp [Operand.absolute, ← hi]
  · exact absolute_of_ne fun hk => hs ⟨k, hk⟩

theorem Instr.atAddress_of_not {i : Instr} {a : UInt64} (h : ¬ HasOffset i.operands) :
    i.atAddress a = { i with address := a } := by
  unfold Instr.atAddress
  rw [map_absolute_of_not h, if_neg h]

theorem Instr.atAddress_of_hasOffset {i : Instr} {a : UInt64} (h : HasOffset i.operands) :
    i.atAddress a = { i with operands := i.operands.map Operand.absolute,
                             imm := i.imm + a + UInt64.ofNat i.size, address := a } := by
  unfold Instr.atAddress
  rw [if_pos h]

/-! ## What the tables promise -/

/-- the mnemonics an instruction with a relative immediate must not have: the decoder checks
the immediate of a 3DNow! instruction and renames the operands of the exchange that may be a
no-op, the heading of `MOV` looks at an immediate operand, and the formatter splits the
immediate of the bit field extracts and inserts, `ENTER`, and far jumps and calls -/
def offsetShy : List String :=
  ["3DNOW", "XCHG_NOP", "MOV", "SSE_EXTRQ", "SSE_INSERTQ", "ENTER", "JMPF", "CALLF"]

/-- The tables' promise that relative immediates are plain: no descriptor whose immediate is
relative to the next instruction (immediate control 6 or 7) has a mnemonic of `offsetShy`. -/
def Tables.PlainOffsets (t : Tables) : Prop :=
  ∀ d ∈ t.descs.toList, 6 ≤ d.immControl → ∀ m ∈ offsetShy, t.isType d.type m = false

instance : DecidablePred Tables.PlainOffsets := fun t =>
  inferInstanceAs (Decidable (∀ d ∈ t.descs.toList, 6 ≤ d.immControl →
    ∀ m ∈ offsetShy, t.isType d.type m = false))

/-- the promise holds of every descriptor a walk can end on, the empty one past the end too -/
theorem Tables.PlainOffsets.getD {t : Tables} (ht : t.PlainOffsets) (n : Nat)
    (h6 : 6 ≤ (t.descs.getD n {}).immControl) :
    ∀ m ∈ offsetShy, t.isType (t.descs.getD n {}).type m = false := by
  rw [Array.getD_eq_getD_getElem?] at h6 ⊢
  rcases h : t.descs[n]? with _ | d
  · rw [h] at h6
    exact absurd h6 (by decide)
  · rw [h] at h6
    exact ht d (Array.mem_toList_iff.mpr (Array.mem_of_getElem? h)) h6

/-! ## Reading the operands -/

section Reading

variable {c : Context} {a : UInt64} {s s' : Progress}

@[simp] theorem is_address (m : String) : ({ c with address := a } : Context).is m = c.is m := rfl

/-- a stage that writes registers and memory keeps what holds of the kinds of all operands -/
theorem implicitOperand_kinds {Q : OperandType → Prop} (hreg : Q .reg)
    (h : ∀ k, Q (s.ops.get k).type) : ∀ k, Q ((implicitOperand c s).ops.get k).type := by
  unfold implicitOperand
  split
  · exact update_forall (P := fun _ o => Q o.type) h hreg
  · exact h

theorem modregOperand_kinds {Q : OperandType → Prop} (hreg : Q .reg) (m : Nat)
    (h : ∀ k, Q (s.ops.get k).type) : ∀ k, Q ((modregOperand c m s).ops.get k).type := by
  unfold modregOperand
  split
  · exact update_forall (P := fun _ o => Q o.type) h hreg
  · exact h

theorem modrmOperand_kinds {Q : OperandType → Prop} (hreg : Q .reg) (hmem : Q .mem) {m : Nat}
    (h : ∀ k, Q (s.ops.get k).type) (hm : modrmOperand c m s = .ok s') :
    ∀ k, Q (s'.ops.get k).type := by
  rcases modrmOperand_ops hm with ⟨-, hops⟩ | ⟨-, -, hops⟩ |
    ⟨-, -, base, misc, off, reg, -, -, hops⟩
  · rw [hops]
    exact h
  · rw [hops]
    exact update_forall (P := fun _ o => Q o.type) h hreg
  · rw [hops]
    exact update_forall (P := fun _ o => Q o.type) h hmem

theorem specialRegisters_kinds {Q : OperandType → Prop} (hreg : Q .reg) {m : Nat}
    {control : Bool} (h : ∀ k, Q (s.ops.get k).type)
    (hm : specialRegisters c m control s = .ok s') : ∀ k, Q (s'.ops.get k).type := by
  obtain ⟨-, -, hops⟩ := specialRegisters_ops hm
  rw [hops]
  exact update_forall (P := fun _ o => Q o.type) (update_forall (P := fun _ o => Q o.type) h hreg)
    hreg

theorem vexOperand_kinds {Q : OperandType → Prop} (hreg : Q .reg)
    (h : ∀ k, Q (s.ops.get k).type) (hv : vexOperand c s = .ok s') : ∀ k, Q (s'.ops.get k).type := by
  rcases vexOperand_ops hv with ⟨-, hops⟩ | ⟨-, rfl⟩
  · rw [hops]
    exact update_forall (P := fun _ o => Q o.type) h hreg
  · exact h

/-- the width of the immediate does not depend on the address -/
theorem immSize_address (control : Nat) :
    immSize { c with address := a } control = immSize c control := rfl

/-- the immediate is the only operand that reads it, and it is an offset only for a relative
immediate -/
theorem immediate_numbers (hs : ∀ k, ¬ (s.ops.get k).Numeric) (h : immediate c s = .ok s') :
    (∀ k, (s'.ops.get k).Numeric → k = c.desc.immIdx) ∧
      (HasOffset s'.ops → 6 ≤ c.desc.immControl) := by
  constructor
  · refine immediate_forall (P := fun k o => o.Numeric → k = c.desc.immIdx)
      (fun k hk => absurd hk (hs k)) (fun _ _ => rfl) (fun _ _ _ => rfl) (fun _ hn => ?_)
      (fun _ _ _ _ _ hn => ?_) h
    · simp [Operand.Numeric] at hn
    · simp [Operand.Numeric] at hn
  · rintro ⟨k, hk⟩
    by_contra h6
    exact immediate_forall (P := fun _ o => o.type ≠ .off) (fun k hk => hs k (Or.inr hk))
      (fun _ => by simp) (fun h6' => absurd h6' h6) (fun _ => by simp) (fun _ _ _ _ _ => by simp)
      h k hk

/-- **The immediate at a nonzero address.** The decoder adds the address and the position past
the immediate where at address zero it marks the operand an offset; every other immediate is
read alike. -/
theorem immediate_atAddress (h0 : c.address = 0) (ha : a ≠ 0) (hs : ∀ k, ¬ (s.ops.get k).Numeric) :
    Alike (fun s₁ s₂ => s₁ = s₂.atAddress a) (immediate { c with address := a } s) (immediate c s) := by
  have hs' := not_hasOffset_of_numeric hs
  unfold immediate
  dsimp only
  rw [h0]
  split
  · exact (Progress.atAddress_of_not hs').symm
  · -- the constant one
    exact (Progress.atAddress_of_not (not_hasOffset_update hs' (by simp))).symm
  · -- an address of the address size
    refine Alike.bind_same fun disp _ => ?_
    exact (Progress.atAddress_of_not (not_hasOffset_update hs' (by simp))).symm
  · -- a register in the high four bits of a byte
    refine Alike.bind_same fun b _ => (Progress.atAddress_of_not ?_).symm
    exact not_hasOffset_update (not_hasOffset_update hs' (by simp))
      (by simp [Progress.setOp, get_update])
  · refine Alike.bind_same fun raw _ => ?_
    have hnum := not_hasOffset_update (i := c.desc.immIdx) (f := fun o => { o with type := .imm }) hs'
      (by simp)
    split
    · -- relative: the target at a nonzero address, an offset at zero
      simp only [ne_eq, not_true_eq_false, ↓reduceIte, immSize_address]
      show _ = Progress.atAddress a _
      rw [Progress.atAddress_setOff]
      · exact hnum
      · simp [Progress.setOp, get_update]
    · exact (Progress.atAddress_of_not hnum).symm

/-- **Reading the operands at a nonzero address**: the stages before the immediate do not read
the address, so they run alike, and the immediate is made absolute. -/
theorem readOperands_atAddress (h0 : c.address = 0) (ha : a ≠ 0) (m : Nat)
    (hs : ∀ k, ¬ (s.ops.get k).Numeric) :
    Alike (fun s₁ s₂ => s₁ = s₂.atAddress a) (readOperands { c with address := a } m s)
      (readOperands c m s) := by
  -- the stages write registers and memory, so no operand reads the immediate before it
  have rest : ∀ s₁ : Progress, (∀ k, ¬ (s₁.ops.get k).Numeric) →
      Alike (fun s₁ s₂ => s₁ = s₂.atAddress a)
        (vexOperand { c with address := a } s₁ >>= fun s => immediate { c with address := a } s)
        (vexOperand c s₁ >>= fun s => immediate c s) := fun s₁ hs₁ =>
    Alike.bind_same fun _ h₂ => immediate_atAddress h0 ha
      (vexOperand_kinds (Q := fun ty => ¬ (ty = .imm ∨ ty = .off)) (by simp) hs₁ h₂)
  unfold readOperands
  dsimp only
  refine Alike.ite (fun _ => Alike.bind_same fun s₁ h₁ => rest s₁ ?_)
    fun _ => Alike.ite (fun _ => Alike.bind_same fun s₁ h₁ => rest s₁ ?_)
      fun _ => Alike.bind_same fun s₁ h₁ => rest s₁ ?_
  · exact specialRegisters_kinds (Q := fun ty => ¬ (ty = .imm ∨ ty = .off)) (by simp) hs h₁
  · exact specialRegisters_kinds (Q := fun ty => ¬ (ty = .imm ∨ ty = .off)) (by simp) hs h₁
  · exact modrmOperand_kinds (Q := fun ty => ¬ (ty = .imm ∨ ty = .off)) (by simp) (by simp)
      (modregOperand_kinds (Q := fun ty => ¬ (ty = .imm ∨ ty = .off)) (by simp) m
        (implicitOperand_kinds (Q := fun ty => ¬ (ty = .imm ∨ ty = .off)) (by simp) hs)) h₁

/-- once the operands are read, at most the immediate's operand reads the immediate, and it is
an offset only for a relative immediate -/
theorem readOperands_numbers {m : Nat} (hs : ∀ k, ¬ (s.ops.get k).Numeric)
    (h : readOperands c m s = .ok s') :
    (∀ k, (s'.ops.get k).Numeric → k = c.desc.immIdx) ∧
      (HasOffset s'.ops → 6 ≤ c.desc.immControl) := by
  unfold readOperands at h
  dsimp only at h
  -- the VEX operand and the immediate come after either way of reading the first operands
  have rest : ∀ s₁ : Progress, (∀ k, ¬ (s₁.ops.get k).Numeric) →
      (vexOperand c s₁ >>= fun s => immediate c s) = .ok s' →
      (∀ k, (s'.ops.get k).Numeric → k = c.desc.immIdx) ∧
        (HasOffset s'.ops → 6 ≤ c.desc.immControl) := by
    intro s₁ hs₁ h'
    obtain ⟨s₂, h₂, h₃⟩ := ok_of_bind_eq_ok h'
    exact immediate_numbers (vexOperand_kinds (Q := fun ty => ¬ (ty = .imm ∨ ty = .off)) (by simp)
      hs₁ h₂) h₃
  split at h
  · obtain ⟨s₁, h₁, h⟩ := ok_of_bind_eq_ok h
    exact rest s₁ (specialRegisters_kinds (Q := fun ty => ¬ (ty = .imm ∨ ty = .off)) (by simp) hs h₁) h
  · split at h
    · obtain ⟨s₁, h₁, h⟩ := ok_of_bind_eq_ok h
      exact rest s₁
        (specialRegisters_kinds (Q := fun ty => ¬ (ty = .imm ∨ ty = .off)) (by simp) hs h₁) h
    · obtain ⟨s₁, h₁, h⟩ := ok_of_bind_eq_ok h
      exact rest s₁ (modrmOperand_kinds (Q := fun ty => ¬ (ty = .imm ∨ ty = .off)) (by simp)
        (by simp) (modregOperand_kinds (Q := fun ty => ¬ (ty = .imm ∨ ty = .off)) (by simp) m
        (implicitOperand_kinds (Q := fun ty => ¬ (ty = .imm ∨ ty = .off)) (by simp) hs)) h₁) h

end Reading

/-! ## Finishing -/

section Finish

variable (d : DescWords) (sizes : Nat → Nat)

theorem sizeFrom_map_absolute : ∀ (ps : List Position) (ops : Vector Operand 4),
    sizeFrom d sizes ps (ops.map Operand.absolute) = (sizeFrom d sizes ps ops).map Operand.absolute
  | [], _ => rfl
  | i :: is, ops => by
    simp only [sizeFrom, get_map_absolute, absolute_type_eq .none (by simp) (by simp)]
    split
    · rfl
    · rw [update_map_absolute fun o => by by_cases h : o.type = .off <;> simp [Operand.absolute, h],
        sizeFrom_map_absolute is]

theorem highBytes_map_absolute : ∀ (ps : List Position) (ops : Vector Operand 4),
    highBytes ps (ops.map Operand.absolute) = (highBytes ps ops).map Operand.absolute
  | [], _ => rfl
  | i :: is, ops => by
    simp only [highBytes, get_map_absolute, absolute_type_eq .none (by simp) (by simp),
      absolute_type_eq .reg (by simp) (by simp), absolute_misc, absolute_size, absolute_reg]
    split
    · rfl
    · split
      · rw [update_map_absolute fun o => by by_cases h : o.type = .off <;> simp [Operand.absolute, h],
          highBytes_map_absolute is]
      · exact highBytes_map_absolute is ops

end Finish

section Finish

variable {c : Context} {a : UInt64}

theorem sizeTable_address : sizeTable { c with address := a } = sizeTable c := rfl

/-- operands of the same kinds have an offset alike -/
theorem hasOffset_of_types {ops ops' : Vector Operand 4} (h : ∀ k, (ops'.get k).type = (ops.get k).type)
    (hoff : HasOffset ops) : HasOffset ops' := by
  obtain ⟨k, hk⟩ := hoff
  exact ⟨k, (h k).trans hk⟩

/-- finishing does not read the address, but stores it -/
theorem finish_address (s : Progress) :
    finish { c with address := a } s = (fun i => { i with address := a }) <$> finish c s := by
  unfold finish
  simp only [is_address]
  split_ifs <;> rfl

/-- finishing adds no offset -/
theorem finish_not_hasOffset {s : Progress} {i : Instr} (h : finish c s = .ok i)
    (hs : ¬ HasOffset s.ops) : ¬ HasOffset i.operands := by
  rintro ⟨k, hk⟩
  rcases finish_types h k with ht | ht
  · exact hs ⟨k, ht ▸ hk⟩
  · rw [hk] at ht
    cases ht

/-- **Finishing at a nonzero address** the operands read there gives the instruction finished at
zero, made absolute, where an instruction with an offset is neither checked for a 3DNow! suffix
nor renamed as the exchange that may be a no-op. -/
theorem finish_atAddress {s : Progress}
    (hx : HasOffset s.ops → c.is "XCHG_NOP" = false ∧ c.is "3DNOW" = false) :
    Alike (fun i₁ i₂ => i₁ = i₂.atAddress a) (finish { c with address := a } (s.atAddress a))
      (finish c s) := by
  by_cases hoff : HasOffset s.ops
  · obtain ⟨hxchg, h3⟩ := hx hoff
    have h3' : c.tables.isType c.desc.type "3DNOW" = false := h3
    unfold finish Progress.atAddress
    simp only [is_address, hxchg, if_pos hoff, Bool.false_eq_true, ↓reduceIte, h3', false_and,
      get_map_absolute, ne_eq, absolute_type_eq .mem (by simp) (by simp), sizeTable_address,
      sizeFrom_map_absolute, highBytes_map_absolute]
    -- the lock check reads the same kind on both sides, and the other choices are the same
    split_ifs
    all_goals first
      | show _ = Instr.atAddress a _
        rw [Instr.atAddress_of_hasOffset
          (hasOffset_of_types (fun k => by simp only [highBytes_type, sizeFrom_type]) hoff)]
      | rfl
  · rw [Progress.atAddress_of_not hoff, finish_address]
    cases hf : finish c s with
    | error e => rfl
    | ok i => exact (Instr.atAddress_of_not (finish_not_hasOffset hf hoff)).symm

end Finish

/-! ## Decoding at a nonzero address -/

namespace Alike

variable {α β γ δ : Type} {R : α → β → Prop} {S : γ → δ → Prop}

/-- stages that continue alike from related results, knowing the second side's result -/
theorem bind_right {x₁ : Except DecodeError α} {x₂ : Except DecodeError β}
    {f : α → Except DecodeError γ} {g : β → Except DecodeError δ} (h : Alike R x₁ x₂)
    (hf : ∀ a b, x₂ = .ok b → R a b → Alike S (f a) (g b)) : Alike S (x₁ >>= f) (x₂ >>= g) := by
  cases x₂ with
  | error e₂ =>
    cases x₁ with
    | error e₁ => exact h
    | ok a => exact h.elim
  | ok b =>
    cases x₁ with
    | error e₁ => exact h.elim
    | ok a => exact hf a b rfl h

/-- outcomes related by a function are the second mapped by it -/
theorem eq_map {x : Except DecodeError α} {y : Except DecodeError β} {f : β → α}
    (h : Alike (fun u v => u = f v) x y) : x = f <$> y := by
  cases x with
  | error e₁ =>
    cases y with
    | error e₂ => exact congrArg Except.error h
    | ok b => exact h.elim
  | ok a =>
    cases y with
    | error e₂ => exact h.elim
    | ok b => exact congrArg Except.ok h

end Alike

section Decoding

variable {c : Context} {a : UInt64}

/-- reading the operands and finishing, at a nonzero address and at zero, when a relative
immediate is neither checked for a 3DNow! suffix nor renamed -/
theorem readOperands_finish_atAddress {c₁ c₂ : Context} (hc₁ : c₁ = { c₂ with address := a })
    (hc : 6 ≤ c₂.desc.immControl → c₂.is "XCHG_NOP" = false ∧ c₂.is "3DNOW" = false)
    (h0 : c₂.address = 0) (ha : a ≠ 0) (m : Nat) {s : Progress}
    (hs : ∀ k, ¬ (s.ops.get k).Numeric) :
    Alike (fun i₁ i₂ => i₁ = i₂.atAddress a) (readOperands c₁ m s >>= finish c₁)
      (readOperands c₂ m s >>= finish c₂) := by
  subst hc₁
  exact (readOperands_atAddress h0 ha m hs).bind_right fun _ _ hread hrel =>
    hrel ▸ finish_atAddress fun hoff => hc ((readOperands_numbers hs hread).2 hoff)

/-- the operands a descriptor starts with read no immediate -/
theorem initialOperands_numeric (d : DescWords) (k : Position) :
    ¬ ((initialOperands d).get k).Numeric := by
  rw [initialOperands_get]
  simp [Operand.Numeric]

/-- **Decoding at a nonzero address** fails as decoding at zero does, or gives the instruction
decoded at zero made absolute, when the tables keep their promise. -/
theorem decodeWindow_atAddress {t : Tables} (ht : t.PlainOffsets) (prior : Instr) (w : Window)
    (modeNum : Int) (ha : a ≠ 0) :
    Alike (fun i₁ i₂ => i₁ = i₂.atAddress a) (decodeWindow t prior w modeNum a)
      (decodeWindow t prior w modeNum 0) := by
  unfold decodeWindow
  split
  · next mode hmode =>
    split
    · next root hroot =>
      refine Alike.bind_same fun po _ => ?_
      obtain ⟨p, off₁⟩ := po
      refine Alike.bind_same fun dw hwalk => ?_
      obtain ⟨d, off₂⟩ := dw
      refine Alike.bind_same fun mb _ => ?_
      obtain ⟨m, off₃⟩ := mb
      obtain ⟨n, rfl⟩ := walk_desc hwalk
      dsimp only
      refine readOperands_finish_atAddress ?_ (fun h6 => ?_) ?_ ha m ?_
      · rfl
      · have hplain := ht.getD n h6
        exact ⟨hplain "XCHG_NOP" (by simp [offsetShy]), hplain "3DNOW" (by simp [offsetShy])⟩
      · rfl
      · exact initialOperands_numeric _
    · rfl
  · rfl

end Decoding

/-! ## Printing with offsets made absolute -/

/-- what the formatter needs of an instruction to print it alike with its offsets made absolute:
at most one operand reads the immediate, and an instruction with an offset has no mnemonic of
`offsetShy` -/
structure Instr.Relocatable (t : Tables) (i : Instr) : Prop where
  single : ∀ j k, (i.operands.get j).Numeric → (i.operands.get k).Numeric → j = k
  plain : HasOffset i.operands → ∀ m ∈ offsetShy, t.isType i.type m = false

section Printing

variable {t : Tables} {i : Instr}

theorem heading_atAddress (a : UInt64) (hmov : HasOffset i.operands → t.isType i.type "MOV" = false)
    (hw : ¬ ((i.operands.get Position.first).type = .off ∧
      (i.operands.get Position.first).size = 2)) :
    heading t (i.atAddress a) = heading t i := by
  by_cases hoff : HasOffset i.operands
  · rw [Instr.atAddress_of_hasOffset hoff]
    have hm := hmov hoff
    unfold heading
    simp only [get_map_absolute, absolute_size, absolute_misc, absolute_type_ne_off, false_and,
      absolute_type_eq .reg (by simp) (by simp), absolute_type_eq .mem (by simp) (by simp),
      absolute_push hw, hw, ↓reduceIte]
    -- every branch reads the same but that of `MOV`, which an instruction with an offset is not
    split
    all_goals first
      | rfl
      | rename_i heq
        simp [Tables.isType, heq] at hm
  · rw [Instr.atAddress_of_not hoff]
    rfl

/-- the pieces of an immediate or offset operand of an instruction whose immediate is not split
in two: the number, made absolute for an offset, cut to the operand's size -/
theorem immPieces_unsplit
    (h : ∀ m ∈ ["SSE_EXTRQ", "SSE_INSERTQ", "ENTER", "JMPF", "CALLF"], t.isType i.type m = false)
    (o : Operand) (addr : UInt64) :
    immPieces t i o addr = [hex (maskTo o.size (if o.type = .off then
      (i.imm.toNat + addr.toNat + i.size) % Word.modulus else i.imm.toNat))] := by
  unfold immPieces
  split
  all_goals first
    | rfl
    | rename_i heq
      simp [Tables.isType, heq] at h

/-- the immediate made the target is the number the formatter prints for the offset -/
theorem target_toNat (v a : UInt64) (size : Nat) :
    (v + a + UInt64.ofNat size).toNat = (v.toNat + a.toNat + size) % Word.modulus := by
  simp only [UInt64.toNat_add, UInt64.toNat_ofNat', Word.modulus]
  omega

theorem shown_atAddress (a : UInt64) : (i.atAddress a).shown = i.shown.map Operand.absolute := by
  unfold Instr.shown Instr.atAddress
  rw [Vector.toList_map, List.takeWhile_map]
  congr 2
  funext o
  simp [absolute_type_eq .none (by simp) (by simp)]

/-- the operand's pieces, made absolute, with offsets from address zero, are its pieces with
offsets from the address -/
theorem operandPieces_atAddress (hr : i.Relocatable t) (a : UInt64) (j : Position) :
    operandPieces t (i.atAddress a) 0 (i.operands.get j).absolute =
      operandPieces t i a (i.operands.get j) := by
  by_cases hoff : HasOffset i.operands
  · -- the operands keep their sizes, so memory operands print alike
    have hmem : ∀ o, memPieces t (i.atAddress a) o = memPieces t i o := fun o => by
      unfold memPieces memShape Instr.atAddress
      simp only [get_map_absolute, absolute_size]
    have hunsplit := fun m (hm : m ∈ ["SSE_EXTRQ", "SSE_INSERTQ", "ENTER", "JMPF", "CALLF"]) =>
      hr.plain hoff m (by simp only [offsetShy, List.mem_cons] at hm ⊢; tauto)
    unfold operandPieces
    cases hty : (i.operands.get j).type with
    | none => simp [absolute_of_ne, hty]
    | reg => simp [absolute_of_ne, hty]
    | mem => simp [absolute_of_ne, hty, hmem]
    | imm =>
      -- the offset is the one operand that reads the immediate
      obtain ⟨k, hk⟩ := hoff
      obtain rfl := hr.single j k (Or.inl hty) (Or.inr hk)
      rw [hty] at hk
      cases hk
    | off =>
      -- the offset becomes an immediate holding the target
      have habs : (i.operands.get j).absolute = { i.operands.get j with type := .imm } := if_pos hty
      rw [habs]
      show immPieces t (i.atAddress a) _ 0 = immPieces t i _ a
      rw [immPieces_unsplit (i := i.atAddress a) hunsplit, immPieces_unsplit hunsplit,
        if_neg (by simp), if_pos hty, Instr.atAddress_of_hasOffset hoff]
      simp only [target_toNat]
  · rw [Instr.atAddress_of_not hoff, absolute_of_ne fun h => hoff ⟨j, h⟩]
    unfold operandPieces
    split
    · rfl
    · rfl
    · next himm =>
      unfold immPieces
      simp only [himm]
      rfl
    · next hoff' => exact absurd ⟨j, hoff'⟩ hoff
    · rfl

/-- **An instruction with its offsets made absolute prints as the instruction with offsets from
the address**, unless its first operand is a two-byte offset, which the formatter marks with the
suffix `w`. -/
theorem pieces_atAddress (hr : i.Relocatable t)
    (hw : ¬ ((i.operands.get Position.first).type = .off ∧
      (i.operands.get Position.first).size = 2)) (a : UInt64) :
    pieces t (i.atAddress a) 0 = pieces t i a := by
  unfold pieces
  rw [heading_atAddress a (fun hoff => hr.plain hoff "MOV" (by simp [offsetShy])) hw,
    shown_atAddress, List.zipIdx_map, List.flatMap_map]
  -- the prefixes and the mnemonic read no operand
  congr 1
  refine List.flatMap_congr ?_
  rintro ⟨o, k⟩ hx
  obtain ⟨j, rfl, -⟩ := Instr.mem_shown (List.fst_mem_of_mem_zipIdx hx)
  exact congrArg _ (operandPieces_atAddress hr a j)

end Printing

/-! ## Decoded instructions -/

/-- a finished operand reads the immediate only where the operand read did -/
theorem finish_numeric {c : Context} {s : Progress} {i : Instr} (h : finish c s = .ok i)
    {k : Position} (hk : (i.operands.get k).Numeric) : (s.ops.get k).Numeric := by
  rcases finish_types h k with ht | ht
  · rwa [Operand.Numeric, ← ht]
  · rcases hk with hk | hk <;> rw [hk] at ht <;> cases ht

/-- finishing keeps at most one operand reading the immediate, and gives an instruction with an
offset the descriptor's mnemonic, when that one is plain -/
theorem finish_relocatable {c : Context} {s : Progress} {i : Instr} (h : finish c s = .ok i)
    (hone : ∀ k, (s.ops.get k).Numeric → k = c.desc.immIdx)
    (hplain : HasOffset s.ops → ∀ m ∈ offsetShy, c.is m = false) : i.Relocatable c.tables where
  single j k hj hk := by
    rw [hone j (finish_numeric h hj), hone k (finish_numeric h hk)]
  plain hoff m hm := by
    obtain ⟨k, hk⟩ := hoff
    have hs : HasOffset s.ops := by
      rcases finish_types h k with ht | ht <;> rw [hk] at ht
      · exact ⟨k, ht.symm⟩
      · cases ht
    obtain ⟨_, -, htype, -⟩ := finish_ok h
    rw [(htype (hplain hs "XCHG_NOP" (by simp [offsetShy]))).1]
    exact hplain hs m hm

/-- a decoded instruction is printed alike with its offsets made absolute, under the tables'
promise -/
theorem decodeWindow_relocatable {t : Tables} (ht : t.PlainOffsets) {prior : Instr} {w : Window}
    {modeNum : Int} {address : UInt64} {i : Instr}
    (h : decodeWindow t prior w modeNum address = .ok i) : i.Relocatable t := by
  unfold decodeWindow at h
  split at h
  next mode hmode =>
    split at h
    next root hroot =>
      obtain ⟨⟨p, off₁⟩, hop, h⟩ := ok_of_bind_eq_ok h
      obtain ⟨⟨d, off₂⟩, hwalk, h⟩ := ok_of_bind_eq_ok h
      obtain ⟨⟨m, off₃⟩, hmb, h⟩ := ok_of_bind_eq_ok h
      obtain ⟨s, hops, hfin⟩ := ok_of_bind_eq_ok h
      obtain ⟨n, rfl⟩ := walk_desc hwalk
      obtain ⟨hone, hoff⟩ := readOperands_numbers (initialOperands_numeric _) hops
      exact finish_relocatable hfin hone fun hs => ht.getD n (hoff hs)
    next => cases h
  next => cases h

/-- **Decoding at a known address.** Under the tables' promise, decoding at a nonzero address
fails as decoding at zero does, or gives the instruction decoded at zero with each offset made an
immediate holding the target (the immediate plus the address and the length, modulo 2^64) and
the address stored; the length is the same. Its text is the text of the instruction decoded at
zero with offsets from the address, for every buffer length, unless the first operand is a
two-byte offset. -/
theorem decode_at_address {t : Tables} (ht : t.PlainOffsets) (prior : Instr) (bytes : List UInt8)
    (modeNum : Int) {a : UInt64} (ha : a ≠ 0) :
    decodeInto t prior bytes modeNum a = Instr.atAddress a <$> decodeInto t prior bytes modeNum 0 ∧
    ∀ i, decodeInto t prior bytes modeNum 0 = .ok i →
      ¬ ((i.operands.get Position.first).type = .off ∧ (i.operands.get Position.first).size = 2) →
      ∀ len, format t (i.atAddress a) len = formatAbs t i a len := by
  refine ⟨Alike.eq_map (decodeWindow_atAddress ht prior (Window.of bytes) modeNum ha),
    fun i h hw len => ?_⟩
  unfold format formatAbs
  rw [pieces_atAddress (decodeWindow_relocatable ht h) hw a]

/-- the tables of a single instruction, `JMP` with a relative immediate of the operand size
(opcode byte e9) in 32-bit mode, with the generated descriptor of that opcode: the root's first
opcode map is a table of opcode bytes at word 8, and the descriptor reads a relative immediate
into the first operand -/
def Tables.jmp : Tables :=
  { words := #[18] ++ Array.replicate 240 0 ++ #[1],
    descs := #[{ indices := 25344, sizes := 1794, regTypes := 7 }], roots := [(32, 0)],
    mnemonics := #["JMP"], numbers := {}, nameText := "jmp".toList.toArray, nameOffsets := #[0] }

theorem jmp_plainOffsets : Tables.jmp.PlainOffsets := by decide

/-- `jmp` with a four-byte displacement in 32-bit mode, decoded at address 0x1000 and at zero -/
theorem jmp_at_address :
    Tables.jmp.PlainOffsets ∧ (0x1000 : UInt64) ≠ 0 ∧
    (decodeInto Tables.jmp Instr.zero [0xe9, 0x10, 0x00, 0x00, 0x00] 32 0x1000 =
        Instr.atAddress 0x1000 <$>
          decodeInto Tables.jmp Instr.zero [0xe9, 0x10, 0x00, 0x00, 0x00] 32 0 ∧
      ∀ i, decodeInto Tables.jmp Instr.zero [0xe9, 0x10, 0x00, 0x00, 0x00] 32 0 = .ok i →
        ¬ ((i.operands.get Position.first).type = .off ∧ (i.operands.get Position.first).size = 2) →
        ∀ len, format Tables.jmp (i.atAddress 0x1000) len = formatAbs Tables.jmp i 0x1000 len) :=
  ⟨jmp_plainOffsets, by decide,
    decode_at_address jmp_plainOffsets Instr.zero [0xe9, 0x10, 0x00, 0x00, 0x00] 32 (by decide)⟩

example : (decodeInto Tables.jmp Instr.zero [0xe9, 0x10, 0x00, 0x00, 0x00] 32 0x1000).toOption.map
    (format Tables.jmp · 32) = some "jmp 0x1015" := by
  decide +kernel

/-- `66 e9 01 00` in 32-bit mode, a jump with a two-byte displacement: decoded at address 1 it
prints `jmp 0x6`, and decoded at zero it prints `jmpw 0x6` with offsets from address 1 -/
theorem jmp_word_texts_differ :
    ∃ i₁ i₂, decodeInto Tables.jmp Instr.zero [0x66, 0xe9, 0x01, 0x00] 32 1 = .ok i₁ ∧
      decodeInto Tables.jmp Instr.zero [0x66, 0xe9, 0x01, 0x00] 32 0 = .ok i₂ ∧
      format Tables.jmp i₁ 32 = "jmp 0x6" ∧ formatAbs Tables.jmp i₂ 1 32 = "jmpw 0x6" := by
  refine ⟨{ segment := noReg, addrsz := 4, size := 4, imm := 6, address := 1,
            operands := #v[{ type := .imm, size := 2, misc := 15 }, { misc := 1 }, { misc := 1 }, {}] },
    { segment := noReg, addrsz := 4, size := 4, imm := 1,
      operands := #v[{ type := .off, size := 2, misc := 15 }, { misc := 1 }, { misc := 1 }, {}] },
    ?_, ?_, ?_, ?_⟩
  all_goals decide +kernel

end X86Codec.Decoder
