import X86Codec.Proofs.PrefixClosed
import X86Codec.Proofs.RegisterNames
/-!
The formatter names every operand the decoder produces.

A register operand gets its type from the descriptor (or, for moves to and from control and
debug registers and for a register in an immediate byte, from the decoder), its number from the
ModRM byte, REX, VEX or the immediate, and its size from the descriptor's size choice; the
decoder then turns byte registers 4 to 7 into high byte registers when no REX prefix is there.
A memory operand gets its base and index from ModRM, SIB and REX, and the instruction its
segment from the prefixes. Which types and sizes a descriptor declares, and which registers a
source can name for its type, is the tables' matter (`Tables.NamesOperands`); the rest is the
decoder's.

Main statements:
- `Prefixes.Read` and `opening_read`: an opening ends with a segment register or none, a VEX
  operand below 16, and without VEX a REX byte or nothing and no VEX operand;
- `readOperands_readable`: under the tables' promise every operand read has a name at every
  size its position can take (`Readable`), the general purpose ones below eight when neither
  REX nor VEX extends them;
- `finish_operand`: each operand shown has the size its position chooses, and is either the
  operand read or, without REX, a high byte register 4 to 7 made from a byte register;
- `decode_operands_named`: under the tables' promise every operand a decoded instruction shows
  has names for its registers, its segment has one, and no operand prints a marker.
-/

namespace X86Codec.Decoder

/-! ## What a descriptor declares -/

namespace DescWords

/-- the register type a position declares, which its operand starts out with; the fourth
declares none -/
def declaredType (d : DescWords) (k : Position) : Nat :=
  if k.val < 3 then regTypeOfField (d.regTypeField k.val) else 0

/-- the sizes an operand at a position can get: its fixed size, an operand size or a vector
size -/
def sizesAt (d : DescWords) (k : Position) : List Nat :=
  match d.sizeChoice k.val with
  | 0 => [(1 <<< d.sizeFix1) >>> 1]
  | 1 => [1 <<< d.sizeFix2]
  | 2 => [1, 2, 4, 8]
  | _ => [16, 32]

end DescWords

/-- whether the instruction moves to or from a control or debug register, whose operands the
decoder reads apart -/
def Tables.movesSpecial (t : Tables) (d : DescWords) : Bool :=
  t.isType d.type "MOV_CR" || t.isType d.type "MOV_DR"

/-- how many registers ModRM reg names for a type: MMX and segment registers by the reg field
alone, the others up to 15 with REX.R -/
def regFieldBound (rt m : Nat) : Nat :=
  if rt = RegType.mmx ∨ rt = RegType.seg then (m &&& 0x38) / 8 + 1 else 16

/-- how many registers ModRM rm names in the register form: general purpose and vector
registers up to 15 with REX.B, the others by the rm field alone -/
def rmFieldBound (rt m : Nat) : Nat :=
  if rt = RegType.gpl ∨ rt = RegType.vec then 16 else m % 8 + 1

/-- the index register of a memory operand of the descriptor's type has a name at the type and
size the formatter gives it, whatever the address size and the size of the first operand -/
def Tables.IndexNamed (t : Tables) (d : DescWords) : Prop :=
  ∀ i : Instr, i.type = d.type → (i.operands.get Position.first).size ∈ d.sizesAt Position.first →
    (i.addrsz = 2 ∨ i.addrsz = 4 ∨ i.addrsz = 8) →
    ∀ size, Nameable (memShape t i size).2.1 16 [(memShape t i size).2.2]

/-- what a descriptor declares of the operands it reads, after the prefixes `p` and with the
byte `m` its ModRM operands come from: for each source of a register, a type and sizes the
formatter names as many registers of as the source can name; a named memory index; no ModRM
memory operand for the exchange that may be a no-op; and under VEX no byte operand size, no
sign or zero extension and no such exchange, which could make high byte registers -/
structure Declares (t : Tables) (p : Prefixes) (d : DescWords) (m : Nat) : Prop where
  implicit : t.movesSpecial d = false → d.hasImplicit = true →
    Nameable (d.declaredType d.implicitIdx) 2 (d.sizesAt d.implicitIdx)
  modreg : t.movesSpecial d = false → d.hasModreg = true →
    Nameable (d.declaredType d.modregIdx) (regFieldBound (d.declaredType d.modregIdx) m)
      (d.sizesAt d.modregIdx)
  modrm : t.movesSpecial d = false → d.hasModrm = true → (m >>> 6) % 4 = 3 →
    Nameable (d.declaredType d.modrmIdx) (rmFieldBound (d.declaredType d.modrmIdx) m)
      (d.sizesAt d.modrmIdx)
  index : t.movesSpecial d = false → d.hasModrm = true → (m >>> 6) % 4 ≠ 3 → t.IndexNamed d
  vexreg : d.hasVexreg = true → t.movesSpecial d = false ∧
    Nameable (d.declaredType d.vexregIdx) 16 (d.sizesAt d.vexregIdx) ∧
    (d.hasModrm = true → d.vexregIdx ≠ d.modrmIdx)
  immReg : d.immControl = 3 → Nameable RegType.vec 16 (d.sizesAt d.immIdx)
  special : t.movesSpecial d = true → Nameable RegType.gpl 16 (d.sizesAt d.modrmIdx)
  vex : 4 ≤ p.escape → d.opsize ≠ 1 ∧ t.isType d.type "MOVSX" = false ∧
    t.isType d.type "MOVZX" = false ∧ t.isType d.type "XCHG_NOP" = false
  xchgNop : t.isType d.type "XCHG_NOP" = true → d.hasModrm = true → (m >>> 6) % 4 = 3

/-- The tables' promise that the formatter names what is decoded with them: every descriptor a
walk ends on declares so (`Declares`), for the prefixes of the opening and the byte its ModRM
operands come from. -/
def Tables.NamesOperands (t : Tables) : Prop :=
  ∀ (modeNum : Int) (mode : Mode) (root : Nat) (w : Window) (p : Prefixes) (d : DescWords)
    (off₁ off₂ m off₃ : Nat), Mode.ofInt? modeNum = some mode → t.root? modeNum = some root →
    opening mode w = .ok (p, off₁) → walk t root w p off₁ = .ok (d, off₂) →
    modrmByte w d off₂ = .ok (m, off₃) → Declares t p d m

/-! ## Positions -/

theorem get_update {α : Type} (xs : Vector α 4) (j k : Position) (f : α → α) :
    (Position.update xs j f).get k = if j = k then f (xs.get k) else xs.get k := by
  show (Position.update xs j f)[k.val] = if j = k then f xs[k.val] else xs[k.val]
  unfold Position.update
  rw [Vector.getElem_set]
  simp only [Fin.val_inj]
  split
  · next h =>
    subst h
    rfl
  · rfl

/-- a change of one operand keeps what holds of every operand when it holds of the changed one -/
theorem update_forall {P : Position → Operand → Prop} {ops : Vector Operand 4} {j : Position}
    {f : Operand → Operand} (h : ∀ k, P k (ops.get k)) (hj : P j (f (ops.get j))) :
    ∀ k, P k ((Position.update ops j f).get k) := by
  intro k
  rw [get_update]
  split
  · next hjk =>
    subst hjk
    exact hj
  · exact h k

theorem get_update_update (ops : Vector Operand 4) (j k : Position) (f g : Operand → Operand) :
    (Position.update (Position.update ops j f) j g).get k =
      (Position.update ops j fun o => g (f o)).get k := by
  simp only [get_update]
  split <;> simp_all

theorem initialOperands_get (d : DescWords) (k : Position) :
    (initialOperands d).get k = { misc := d.declaredType k } := by
  show (initialOperands d)[k.val] = _
  by_cases h : k.val < 3 <;> simp [initialOperands, DescWords.declaredType, h]

/-! ## The prefixes -/

/-- what the prefixes before the opening hold: a segment register or none, a REX byte or
nothing, and no VEX operand -/
def Prefixes.Plain (p : Prefixes) : Prop :=
  (p.segment < 6 ∨ p.segment = noReg) ∧ (p.rex = 0 ∨ hasBit p.rex Rex.present = true) ∧
    p.vexOperand = 0

/-- what the prefixes of an opening hold: a segment register or none, a VEX operand below 16,
and without VEX a REX byte or nothing and no VEX operand -/
structure Prefixes.Read (p : Prefixes) : Prop where
  segment : p.segment < 6 ∨ p.segment = noReg
  vexOperand_lt : p.vexOperand < 16
  legacy : p.escape < 4 → (p.rex = 0 ∨ hasBit p.rex Rex.present = true) ∧ p.vexOperand = 0

section Prefixes

variable (mode : Mode) {w : Window}

theorem Prefixes.Plain.read {p : Prefixes} (h : p.Plain) : p.Read :=
  ⟨h.1, by rw [h.2.2]; decide, fun _ => h.2⟩

theorem hasBit_present {b : Nat} (h : 0x40 ≤ b ∧ b < 0x50) : hasBit b Rex.present = true := by
  have key : ∀ b, b < 0x50 → 0x40 ≤ b → hasBit b Rex.present = true := by decide
  exact key b h.2 h.1

theorem Prefixes.add_plain {p q : Prefixes} {off b : Nat} (h : p.add mode off b = some q)
    (hp : p.Plain) : q.Plain := by
  obtain ⟨hs, hr, hv⟩ := hp
  unfold Prefixes.add at h
  repeat' split at h
  all_goals try cases h
  -- a segment override, a REX byte, or a prefix that leaves all three alone
  all_goals first
    | exact ⟨hs, hr, hv⟩
    | exact ⟨Or.inl (by simp), hr, hv⟩
    | exact ⟨hs, Or.inr (hasBit_present ‹_›), hv⟩

theorem scan_plain : ∀ (l : List Nat) (off : Nat) {p : Prefixes}, p.Plain →
    (Prefixes.scan mode l off p).1.Plain
  | [], _, _, hp => hp
  | b :: bs, off, p, hp => by
    simp only [Prefixes.scan]
    split
    · next q hq => exact scan_plain bs (off + 1) (Prefixes.add_plain mode hq hp)
    · exact hp

theorem readPrefixes_plain (w : Window) : (readPrefixes mode w).1.Plain := by
  have h := scan_plain mode (w.bytes.toList.map (·.toNat)) 0 (p := {})
    ⟨Or.inr rfl, Or.inl rfl, rfl⟩
  unfold readPrefixes
  split
  next p off hs =>
    rw [hs] at h
    split
    · exact h
    · exact ⟨h.1, Or.inl rfl, h.2.2⟩

theorem vexTail_vexOperand_lt (p : Prefixes) (b : Nat) : (p.vexTail b).vexOperand < 16 := by
  show ((b &&& 0x78) >>> 3) ^^^ 0xf < 16
  have h1 : (b &&& 0x78) >>> 3 < 16 := by
    rw [Nat.shiftRight_eq_div_pow]
    have : b &&& 0x78 ≤ 0x78 := Nat.and_le_right
    omega
  exact Nat.xor_lt_two_pow (n := 4) h1 (by norm_num)

theorem readVex_tail {p p' : Prefixes} {off b0 b1 off' : Nat}
    (h : readVex mode w p off b0 b1 = .ok (p', off')) :
    ∃ (q : Prefixes) (b : Nat), p' = q.vexTail b ∧ q.segment = p.segment := by
  unfold readVex at h
  by_cases hb0 : b0 = 0xc4
  · by_cases hx : hasBit b1 0x1c = true
    · simp [hb0, hx, throw, throwThe, MonadExceptOf.throw] at h
    · simp only [hb0, hx, ↓reduceIte, Bool.false_eq_true] at h
      obtain ⟨b2, -, h⟩ := ok_of_bind_eq_ok h
      simp only [pure, Except.pure, Except.ok.injEq, Prod.mk.injEq] at h
      exact ⟨_, _, h.1.symm, rfl⟩
  · simp only [hb0, ↓reduceIte, pure, Except.pure, Except.ok.injEq, Prod.mk.injEq] at h
    exact ⟨_, _, h.1.symm, rfl⟩

/-- a VEX prefix keeps the segment and sets a VEX operand below 16 -/
theorem readVex_read {p p' : Prefixes} {off b0 b1 off' : Nat}
    (h : readVex mode w p off b0 b1 = .ok (p', off')) (hs : p.segment < 6 ∨ p.segment = noReg) :
    p'.Read := by
  have he := (readVex_escape mode h).1
  obtain ⟨q, b, rfl, hq⟩ := readVex_tail mode h
  exact ⟨hq ▸ hs, vexTail_vexOperand_lt q b, fun h4 => absurd he (by omega)⟩

theorem readOpening_read {p p' : Prefixes} {off off' : Nat} (hp : p.Plain)
    (h : readOpening mode w p off = .ok (p', off')) : p'.Read := by
  unfold readOpening at h
  cases h0 : w.read off 1 with
  | error e => simp [h0, bind, Except.bind] at h
  | ok b0 =>
    simp only [h0, bind, Except.bind] at h
    by_cases hf : b0 = 0x0f
    · simp only [hf, ↓reduceIte] at h
      cases h1 : w.read (off + 1) 1 with
      | error e => simp [h1] at h
      | ok b1 =>
        simp only [h1] at h
        -- an escape changes the opcode map alone
        split_ifs at h <;> simp only [pure, Except.pure, Except.ok.injEq, Prod.mk.injEq] at h <;>
          (obtain ⟨rfl, rfl⟩ := h; exact Prefixes.Plain.read (show Prefixes.Plain _ from hp))
    · by_cases hv : b0 = 0xc4 ∨ b0 = 0xc5
      · simp only [hf, hv, ↓reduceIte] at h
        cases h1 : w.read (off + 1) 1 with
        | error e => simp [h1] at h
        | ok b1 =>
          simp only [h1] at h
          by_cases hl : mode = .bits32 ∧ b1 / 64 ≠ 3
          · -- LES or LDS in 32-bit mode
            rw [if_pos hl] at h
            simp only [pure, Except.pure, Except.ok.injEq, Prod.mk.injEq] at h
            obtain ⟨rfl, rfl⟩ := h
            exact hp.read
          · rw [if_neg hl] at h
            by_cases hud : (p.p66 || p.rep ≠ 0 || p.rex ≠ 0) = true
            · rw [if_pos hud] at h
              cases h
            · rw [if_neg hud] at h
              exact readVex_read mode h hp.1
      · simp only [hf, hv, ↓reduceIte, pure, Except.pure, Except.ok.injEq, Prod.mk.injEq] at h
        obtain ⟨rfl, rfl⟩ := h
        exact hp.read

/-- **The opening.** An opening ends with a segment register or none, a VEX operand below 16,
and without VEX a REX byte or nothing and no VEX operand. -/
theorem opening_read {p : Prefixes} {off : Nat} (h : opening mode w = .ok (p, off)) : p.Read := by
  rw [opening_eq] at h
  exact readOpening_read mode (readPrefixes_plain mode w) h

end Prefixes

/-! ## Operands as read -/

/-- an operand as read, before its size is set: a register with a name at every size its
position can take, below eight when general purpose and neither REX nor VEX extends it; memory
with a base and an index the formatter names; or no register -/
def Readable (c : Context) (k : Position) (o : Operand) : Prop :=
  (o.type = .reg → (∀ s ∈ c.desc.sizesAt k, Named o.misc o.reg s) ∧
    (o.misc = RegType.gpl → c.prefixes.rex = 0 → c.prefixes.vexOperand = 0 → o.reg < 8)) ∧
  (o.type = .mem → (o.reg ≤ 16 ∨ o.reg = noReg) ∧ (o.index < 16 ∨ o.index = noReg) ∧
    (o.index ≠ noReg → c.is "XCHG_NOP" = false ∧ c.tables.IndexNamed c.desc))

/-- an operand before ModRM is read: readable, with the register type its position declares -/
def DeclaredAt (c : Context) (k : Position) (o : Operand) : Prop :=
  Readable c k o ∧ o.misc = c.desc.declaredType k

/-- an operand once ModRM is read: readable, with the register type its position declares
unless it is the ModRM memory operand or the instruction moves a special register -/
def SourcedAt (c : Context) (k : Position) (o : Operand) : Prop :=
  Readable c k o ∧ (o.misc = c.desc.declaredType k ∨
    (o.type = .mem ∧ k = c.desc.modrmIdx ∧ c.desc.hasModrm = true) ∨
    c.tables.movesSpecial c.desc = true)

section Operands

variable {c : Context} {m : Nat}

theorem Readable.of_reg {k : Position} {o : Operand} (ht : o.type = .reg)
    (hn : ∀ s ∈ c.desc.sizesAt k, Named o.misc o.reg s)
    (hlow : o.misc = RegType.gpl → c.prefixes.rex = 0 → c.prefixes.vexOperand = 0 → o.reg < 8) :
    Readable c k o :=
  ⟨fun _ => ⟨hn, hlow⟩, fun hm => by rw [ht] at hm; cases hm⟩

theorem Readable.of_type {k : Position} {o : Operand} (hr : o.type ≠ .reg) (hm : o.type ≠ .mem) :
    Readable c k o :=
  ⟨fun h => absurd h hr, fun h => absurd h hm⟩

theorem rexPlus_le (b : Nat) : c.rexPlus b ≤ 8 := by
  unfold Context.rexPlus
  split <;> omega

theorem rexPlus_of_rex (h : c.prefixes.rex = 0) (b : Nat) : c.rexPlus b = 0 := by
  simp [Context.rexPlus, Context.rex, hasBit, h]

theorem initial_declared (k : Position) : DeclaredAt c k ((initialOperands c.desc).get k) := by
  rw [initialOperands_get]
  exact ⟨Readable.of_type (by simp) (by simp), rfl⟩

theorem implicitOperand_declared (hd : Declares c.tables c.prefixes c.desc m)
    (hs : c.tables.movesSpecial c.desc = false) {s : Progress}
    (h : ∀ k, DeclaredAt c k (s.ops.get k)) :
    ∀ k, DeclaredAt c k ((implicitOperand c s).ops.get k) := by
  unfold implicitOperand
  split
  · next hi =>
    have hmisc := (h c.desc.implicitIdx).2
    have hval : c.desc.implicitVal < 2 := by
      unfold DescWords.implicitVal
      omega
    refine update_forall (P := DeclaredAt c) h
      ⟨Readable.of_reg rfl (fun sz hsz => ?_) fun _ _ _ => by dsimp only; omega, hmisc⟩
    dsimp only
    rw [hmisc]
    exact (hd.implicit hs hi).named hval hsz
  · exact h

theorem modregOperand_declared (hd : Declares c.tables c.prefixes c.desc m)
    (hs : c.tables.movesSpecial c.desc = false) {s : Progress}
    (h : ∀ k, DeclaredAt c k (s.ops.get k)) :
    ∀ k, DeclaredAt c k ((modregOperand c m s).ops.get k) := by
  unfold modregOperand
  split
  · next hr =>
    have hmisc := (h c.desc.modregIdx).2
    have hfield : (m &&& 0x38) / 8 < 8 := by
      have : m &&& 0x38 ≤ 0x38 := Nat.and_le_right
      omega
    have hplus := rexPlus_le (c := c) Rex.r
    refine update_forall (P := DeclaredAt c) h
      ⟨Readable.of_reg rfl (fun sz hsz => ?_) fun _ hrex _ => ?_, hmisc⟩
    · dsimp only
      rw [hmisc]
      refine (hd.modreg hs hr).named ?_ hsz
      unfold regFieldBound
      split_ifs <;> omega
    · dsimp only
      rw [rexPlus_of_rex hrex]
      split_ifs <;> omega
  · exact h

/-- the SIB byte gives a base of the three low bits and an index below 16 or none, the scale
above it; without one the base is the rm field and there is no index -/
theorem readSib_regs {rm base misc off : Nat} {s : Progress} (hrm : rm < 8)
    (h : readSib c rm s = .ok (base, misc, off)) :
    base < 8 ∧ (misc % 64 < 16 ∨ misc % 64 = noReg) := by
  unfold readSib at h
  by_cases h4 : rm = 4
  · simp only [h4, ↓reduceIte] at h
    obtain ⟨sib, -, h⟩ := ok_of_bind_eq_ok h
    simp only [pure, Except.pure, Except.ok.injEq, Prod.mk.injEq] at h
    obtain ⟨rfl, rfl, -⟩ := h
    have hx := rexPlus_le (c := c) Rex.x
    refine ⟨Nat.mod_lt _ (by norm_num), ?_⟩
    split_ifs <;> simp only [noReg] <;> omega
  · simp only [h4, ↓reduceIte] at h
    split at h
    · cases h
    · simp only [pure, Except.pure, Except.ok.injEq, Prod.mk.injEq] at h
      obtain ⟨rfl, rfl, -⟩ := h
      exact ⟨hrm, Or.inr rfl⟩

/-- what reading the ModRM operand does to the operands: nothing without one, a register in
the register form, and otherwise memory with a base of the SIB byte or the rm field, extended
by REX.B, or the instruction pointer in 64-bit mode, or none -/
theorem modrmOperand_ops {s s' : Progress} (h : modrmOperand c m s = .ok s') :
    (c.desc.hasModrm = false ∧ s'.ops = s.ops) ∨
    (c.desc.hasModrm = true ∧ (m >>> 6) % 4 = 3 ∧
      s'.ops = Position.update s.ops c.desc.modrmIdx fun o =>
        { o with type := .reg, reg := m % 8 +
          if o.misc = RegType.gpl ∨ o.misc = RegType.vec then c.rexPlus Rex.b else 0 }) ∨
    (c.desc.hasModrm = true ∧ (m >>> 6) % 4 ≠ 3 ∧ ∃ base misc off reg,
      readSib c (m % 8) s = .ok (base, misc, off) ∧
      ((reg = ipReg ∧ c.mode = .bits64) ∨ reg = noReg ∨ reg = base + c.rexPlus Rex.b) ∧
      s'.ops = Position.update s.ops c.desc.modrmIdx fun o => { o with type := .mem, reg, misc }) := by
  unfold modrmOperand at h
  by_cases hm : c.desc.hasModrm = false
  · simp only [hm, Bool.not_false, ↓reduceIte] at h
    cases h
    exact Or.inl ⟨hm, rfl⟩
  · have hm' : c.desc.hasModrm = true := by simpa using hm
    simp only [hm, Bool.not_true, Bool.false_eq_true, ↓reduceIte] at h
    by_cases h3 : (m >>> 6) % 4 = 3
    · simp only [h3, ↓reduceIte] at h
      cases h
      exact Or.inr (Or.inl ⟨hm', h3, rfl⟩)
    · simp only [h3, ↓reduceIte] at h
      obtain ⟨⟨base, misc, off₁⟩, hsib, h⟩ := ok_of_bind_eq_ok h
      refine Or.inr (Or.inr ⟨hm', h3, base, misc, off₁,
        if (m >>> 6) % 4 = 0 ∧ m % 8 = 5 ∧ c.mode = .bits64 then ipReg
        else if (m >>> 6) % 4 = 0 ∧ base = 5 then noReg else base + c.rexPlus Rex.b,
        hsib, ?_, ?_⟩)
      · split_ifs with hip
        exacts [Or.inl ⟨rfl, hip.2.2⟩, Or.inr (Or.inl rfl), Or.inr (Or.inr rfl)]
      dsimp only at h
      -- the displacement changes neither the operands nor anything they name
      split at h
      · obtain ⟨disp, -, h⟩ := ok_of_bind_eq_ok h
        cases h
        rfl
      · split at h
        · obtain ⟨disp, -, h⟩ := ok_of_bind_eq_ok h
          cases h
          rfl
        · cases h
          rfl

theorem modrmOperand_sourced (hd : Declares c.tables c.prefixes c.desc m)
    (hs : c.tables.movesSpecial c.desc = false) {s s' : Progress}
    (h : ∀ k, DeclaredAt c k (s.ops.get k)) (hm : modrmOperand c m s = .ok s') :
    ∀ k, SourcedAt c k (s'.ops.get k) := by
  have hkeep : ∀ k, SourcedAt c k (s.ops.get k) := fun k => ⟨(h k).1, Or.inl (h k).2⟩
  have hplus := rexPlus_le (c := c) Rex.b
  rcases modrmOperand_ops hm with ⟨-, hops⟩ | ⟨hyes, h3, hops⟩ |
    ⟨hyes, h3, base, misc, off, reg, hsib, hreg, hops⟩
  · rw [hops]
    exact hkeep
  · -- the register form keeps the declared type
    rw [hops]
    have hmisc := (h c.desc.modrmIdx).2
    have hrm : m % 8 < 8 := Nat.mod_lt _ (by norm_num)
    refine update_forall (P := SourcedAt c) hkeep
      ⟨Readable.of_reg rfl (fun sz hsz => ?_) fun _ hrex _ => ?_, Or.inl hmisc⟩
    · dsimp only
      rw [hmisc]
      refine (hd.modrm hs hyes h3).named ?_ hsz
      unfold rmFieldBound
      split_ifs <;> omega
    · dsimp only
      rw [rexPlus_of_rex hrex]
      split_ifs <;> omega
  · -- memory: a base of eight registers extended by REX.B, and the SIB index
    rw [hops]
    obtain ⟨hbase, hidx⟩ := readSib_regs (Nat.mod_lt _ (by norm_num)) hsib
    refine update_forall (P := SourcedAt c) hkeep
      ⟨⟨fun hr => (by cases hr), fun _ => ⟨?_, hidx, fun _ => ⟨?_, hd.index hs hyes h3⟩⟩⟩,
        Or.inr (Or.inl ⟨rfl, rfl, hyes⟩)⟩
    · rcases hreg with ⟨rfl, -⟩ | rfl | rfl
      · exact Or.inl (by dsimp only [ipReg]; omega)
      · exact Or.inr rfl
      · exact Or.inl (by dsimp only; omega)
    · -- the exchange that may be a no-op has no ModRM memory operand
      cases hx : c.is "XCHG_NOP"
      · rfl
      · exact absurd (hd.xchgNop hx hyes) h3

/-- what reading a move to or from a control or debug register does to the operands: ModRM reg
names the special register, which must exist, and ModRM rm a general purpose register -/
theorem specialRegisters_ops {control : Bool} {s s' : Progress}
    (h : specialRegisters c m control s = .ok s') :
    (control = true → (0x011d >>> ((m >>> 3) % 8 ||| c.rexPlus Rex.r)) % 2 = 1) ∧
    (control = false → c.rex Rex.r = false) ∧
    s'.ops = Position.update (Position.update s.ops c.desc.modregIdx fun o =>
        { o with type := .reg, reg := (m >>> 3) % 8 ||| c.rexPlus Rex.r,
                 misc := if control then RegType.cr else RegType.dr })
      c.desc.modrmIdx fun o =>
        { o with type := .reg, reg := m % 8 ||| c.rexPlus Rex.b, misc := RegType.gpl } := by
  unfold specialRegisters at h
  dsimp only at h
  by_cases h1 : control = true ∧ (0x011d >>> ((m >>> 3) % 8 ||| c.rexPlus Rex.r)) % 2 = 0
  · rw [if_pos h1] at h
    cases h
  · rw [if_neg h1] at h
    by_cases h2 : (!control) = true ∧ c.rex Rex.r = true
    · rw [if_pos h2] at h
      cases h
    · rw [if_neg h2] at h
      cases h
      refine ⟨fun hc => ?_, fun hc => ?_, rfl⟩
      · have := Nat.mod_two_eq_zero_or_one (0x011d >>> ((m >>> 3) % 8 ||| c.rexPlus Rex.r))
        simp only [hc, true_and] at h1
        omega
      · simpa [hc] using h2

theorem or_eight_lt {x y : Nat} (hx : x < 8) (hy : y ≤ 8) : x ||| y < 16 :=
  Nat.or_lt_two_pow (n := 4) (by omega) (by omega)

theorem specialRegisters_sourced (hd : Declares c.tables c.prefixes c.desc m)
    (hsp : c.tables.movesSpecial c.desc = true) {control : Bool} {s s' : Progress}
    (h : ∀ k, DeclaredAt c k (s.ops.get k)) (hm : specialRegisters c m control s = .ok s') :
    ∀ k, SourcedAt c k (s'.ops.get k) := by
  obtain ⟨hcr, hdr, hops⟩ := specialRegisters_ops hm
  rw [hops]
  have hkeep : ∀ k, SourcedAt c k (s.ops.get k) := fun k => ⟨(h k).1, Or.inr (Or.inr hsp)⟩
  have hfield : (m >>> 3) % 8 < 8 := Nat.mod_lt _ (by norm_num)
  have hrm : m % 8 < 8 := Nat.mod_lt _ (by norm_num)
  refine update_forall (P := SourcedAt c) (update_forall (P := SourcedAt c) hkeep
      ⟨Readable.of_reg rfl (fun sz _ => ?_) fun hg => ?_, Or.inr (Or.inr hsp)⟩)
    ⟨Readable.of_reg rfl (fun sz hsz => ?_) fun _ hrex _ => ?_, Or.inr (Or.inr hsp)⟩
  · -- a control register that exists, or a debug register, which REX.R cannot extend
    cases control
    · have hplus : c.rexPlus Rex.r = 0 := by simp [Context.rexPlus, hdr rfl]
      show Named RegType.dr ((m >>> 3) % 8 ||| c.rexPlus Rex.r) sz
      rw [hplus, Nat.or_zero]
      exact named_dr hfield
    · exact named_cr (or_eight_lt hfield (rexPlus_le Rex.r)) (hcr rfl)
  · cases control <;> simp [RegType.cr, RegType.dr, RegType.gpl] at hg
  · exact (hd.special hsp).named (or_eight_lt hrm (rexPlus_le Rex.b)) hsz
  · show m % 8 ||| c.rexPlus Rex.b < 8
    rw [rexPlus_of_rex hrex, Nat.or_zero]
    exact hrm

/-- what reading the VEX operand does to the operands: a register of sixteen in 64-bit mode
and of eight in 32-bit mode, or nothing -/
theorem vexOperand_ops {s s' : Progress} (h : vexOperand c s = .ok s') :
    (c.desc.hasVexreg = true ∧ s'.ops = Position.update s.ops c.desc.vexregIdx fun o =>
      { o with type := .reg,
               reg := match c.mode with
                 | .bits32 => c.prefixes.vexOperand % 8
                 | .bits64 => c.prefixes.vexOperand }) ∨
    (c.desc.hasVexreg = false ∧ s' = s) := by
  unfold vexOperand at h
  dsimp only at h
  split at h
  · next hv =>
    cases h
    exact Or.inl ⟨hv, rfl⟩
  · next hv =>
    split at h
    · cases h
    · cases h
      exact Or.inr ⟨by simpa using hv, rfl⟩

theorem vexOperand_sourced (hd : Declares c.tables c.prefixes c.desc m) (hp : c.prefixes.Read)
    {s s' : Progress} (h : ∀ k, SourcedAt c k (s.ops.get k)) (hv : vexOperand c s = .ok s') :
    ∀ k, SourcedAt c k (s'.ops.get k) := by
  rcases vexOperand_ops hv with ⟨hyes, hops⟩ | ⟨-, rfl⟩
  · rw [hops]
    obtain ⟨hs, hN, hne⟩ := hd.vexreg hyes
    -- the VEX operand's position is neither the ModRM memory operand nor a special register
    have hmisc : (s.ops.get c.desc.vexregIdx).misc = c.desc.declaredType c.desc.vexregIdx := by
      rcases (h c.desc.vexregIdx).2 with hm | ⟨-, heq, hmod⟩ | hsp
      · exact hm
      · exact absurd heq (hne hmod)
      · rw [hs] at hsp
        cases hsp
    have hlt := hp.vexOperand_lt
    refine update_forall (P := SourcedAt c) h
      ⟨Readable.of_reg rfl (fun sz hsz => ?_) fun _ _ hv0 => ?_, Or.inl hmisc⟩
    · dsimp only
      rw [hmisc]
      refine hN.named ?_ hsz
      split <;> omega
    · dsimp only
      rw [hv0]
      split <;> decide
  · exact h

/-- a number immediate relative to the next instruction has immediate control 6 or 7 -/
theorem six_le_of_relative {d : DescWords} (h4 : 4 ≤ d.immControl)
    (hb : hasBit d.immControl 2 = true) : 6 ≤ d.immControl := by
  have h8 : d.immControl < 8 := Nat.mod_lt _ (by norm_num)
  have key : ∀ x < 8, 4 ≤ x → hasBit x 2 = true → 6 ≤ x := by decide
  exact key _ h8 h4 hb

/-- what reading the immediate does to the operands: its position becomes an immediate, an
offset (only for a relative immediate), an address-sized memory operand with neither base nor
index, or a vector register below 16, below 8 in 32-bit mode; a property of operands that each
of these has is kept -/
theorem immediate_forall {P : Position → Operand → Prop} {s s' : Progress}
    (h : ∀ k, P k (s.ops.get k))
    (himm : ∀ o : Operand, P c.desc.immIdx { o with type := .imm })
    (hoff : 6 ≤ c.desc.immControl → ∀ o : Operand, P c.desc.immIdx { o with type := .off })
    (hmem : ∀ o : Operand, P c.desc.immIdx { o with type := .mem, reg := noReg, misc := noReg })
    (hreg : ∀ (o : Operand) (r : Nat), c.desc.immControl = 3 → r < 16 →
      (c.mode = .bits32 → r < 8) →
      P c.desc.immIdx { o with type := .reg, reg := r, misc := RegType.vec })
    (hi : immediate c s = .ok s') : ∀ k, P k (s'.ops.get k) := by
  unfold immediate at hi
  split at hi
  next =>
    cases hi
    exact h
  next =>
    cases hi
    exact update_forall h (himm _)
  next =>
    -- an address-sized offset: memory with neither base nor index
    obtain ⟨disp, -, hi⟩ := ok_of_bind_eq_ok hi
    cases hi
    exact update_forall h (hmem _)
  next hc =>
    -- a vector register in the high four bits of a byte, the highest ignored in 32-bit mode
    obtain ⟨b, hb, hi⟩ := ok_of_bind_eq_ok hi
    cases hi
    have hb' : b < 256 := (Window.read_one hb) ▸ Window.byte_lt _ _
    intro k
    simp only [Progress.setOp]
    rw [get_update_update]
    refine update_forall h (hreg _ _ hc ?_ fun h32 => ?_) k
    · split <;> omega
    · rw [h32]
      show b % 128 / 16 < 8
      omega
  next control hc₀ hc₁ hc₂ hc₃ =>
    -- a number, or an offset from the next instruction
    obtain ⟨raw, -, hi⟩ := ok_of_bind_eq_ok hi
    have h₁ := update_forall (P := P) h (j := c.desc.immIdx)
      (f := fun o => { o with type := .imm }) (himm _)
    split at hi
    · next hbit =>
      split at hi
      · cases hi
        exact h₁
      · cases hi
        have h4 : 4 ≤ c.desc.immControl := by
          simp only [imp_false] at hc₀ hc₁ hc₂ hc₃
          omega
        exact update_forall h₁ (hoff (six_le_of_relative h4 hbit) _)
    · cases hi
      exact h₁

theorem immediate_readable (hd : Declares c.tables c.prefixes c.desc m) {s s' : Progress}
    (h : ∀ k, Readable c k (s.ops.get k)) (hi : immediate c s = .ok s') :
    ∀ k, Readable c k (s'.ops.get k) := by
  refine immediate_forall h (fun _ => Readable.of_type (by simp) (by simp))
    (fun _ _ => Readable.of_type (by simp) (by simp)) (fun _ => ?_) (fun _ r hc hr _ => ?_) hi
  · -- memory with neither base nor index
    exact ⟨fun hr => (by cases hr), fun _ => ⟨Or.inr rfl, Or.inr rfl, fun hn => absurd rfl hn⟩⟩
  · -- a vector register of the size the descriptor names
    refine Readable.of_reg rfl (fun _ hsz => (hd.immReg hc).named hr hsz) fun hg => ?_
    simp [RegType.vec, RegType.gpl] at hg

/-- **Operands as read.** Under the descriptor's declarations every operand read is readable:
the sources of registers, in order, keep the declared types of the positions they do not
write, and each writes a register its declaration names, a memory operand, or an immediate. -/
theorem readOperands_readable (hd : Declares c.tables c.prefixes c.desc m) (hp : c.prefixes.Read)
    {s s' : Progress} (h : ∀ k, DeclaredAt c k (s.ops.get k)) (hr : readOperands c m s = .ok s') :
    ∀ k, Readable c k (s'.ops.get k) := by
  unfold readOperands at hr
  dsimp only at hr
  -- the VEX operand and the immediate come after either way of reading the first operands
  have rest : ∀ s₁ : Progress, (∀ k, SourcedAt c k (s₁.ops.get k)) →
      (vexOperand c s₁ >>= fun s => immediate c s) = .ok s' → ∀ k, Readable c k (s'.ops.get k) := by
    intro s₁ hs₁ h'
    obtain ⟨s₂, h₂, h₃⟩ := ok_of_bind_eq_ok h'
    exact immediate_readable hd (fun k => (vexOperand_sourced hd hp hs₁ h₂ k).1) h₃
  by_cases hcr : c.is "MOV_CR" = true
  · simp only [hcr, ↓reduceIte] at hr
    obtain ⟨s₁, h₁, hr⟩ := ok_of_bind_eq_ok hr
    exact rest s₁ (specialRegisters_sourced hd (by simp_all [Tables.movesSpecial, Context.is]) h h₁) hr
  · by_cases hdr : c.is "MOV_DR" = true
    · simp only [hcr, hdr, Bool.false_eq_true, ↓reduceIte] at hr
      obtain ⟨s₁, h₁, hr⟩ := ok_of_bind_eq_ok hr
      exact rest s₁
        (specialRegisters_sourced hd (by simp_all [Tables.movesSpecial, Context.is]) h h₁) hr
    · simp only [hcr, hdr, Bool.false_eq_true, ↓reduceIte] at hr
      obtain ⟨s₁, h₁, hr⟩ := ok_of_bind_eq_ok hr
      have hs : c.tables.movesSpecial c.desc = false := by
        simp_all [Tables.movesSpecial, Context.is]
      exact rest s₁ (modrmOperand_sourced hd hs
        (modregOperand_declared hd hs (implicitOperand_declared hd hs h)) h₁) hr

end Operands

/-! ## Sizes and high byte registers -/

section Finish

variable (d : DescWords) (sizes : Nat → Nat)

theorem sizeFrom_type : ∀ (ps : List Position) (ops : Vector Operand 4) (k : Position),
    ((sizeFrom d sizes ps ops).get k).type = (ops.get k).type
  | [], _, _ => rfl
  | i :: is, ops, k => by
    simp only [sizeFrom]
    split
    · rfl
    · rw [sizeFrom_type is, get_update]
      split <;> rfl

theorem sizeFrom_of_not_mem : ∀ (ps : List Position) (ops : Vector Operand 4) (k : Position),
    k ∉ ps → (sizeFrom d sizes ps ops).get k = ops.get k
  | [], _, _, _ => rfl
  | i :: is, ops, k, hk => by
    simp only [sizeFrom]
    split
    · rfl
    · rw [sizeFrom_of_not_mem is _ k (fun h => hk (List.mem_cons_of_mem _ h)), get_update,
        if_neg (fun h : i = k => hk (h ▸ List.mem_cons_self))]

/-- sizes are set in order up to the first operand of no kind -/
theorem sizeFrom_get : ∀ (ps : List Position) (ops : Vector Operand 4) (k : Position),
    ps.Pairwise (· < ·) → k ∈ ps → (∀ j ∈ ps, j ≤ k → (ops.get j).type ≠ .none) →
    (sizeFrom d sizes ps ops).get k = { ops.get k with size := sizes (d.sizeChoice k.val) }
  | [], _, _, _, hk, _ => absurd hk List.not_mem_nil
  | i :: is, ops, k, hp, hk, hn => by
    rw [List.pairwise_cons] at hp
    have hik : i ≤ k := by
      rcases List.mem_cons.mp hk with rfl | hk'
      · exact le_refl _
      · exact le_of_lt (hp.1 k hk')
    simp only [sizeFrom, if_neg (hn i List.mem_cons_self hik)]
    rcases List.mem_cons.mp hk with rfl | hk'
    · -- the position itself: later positions are past it
      rw [sizeFrom_of_not_mem d sizes is _ _ (fun h => lt_irrefl _ (hp.1 _ h)), get_update,
        if_pos rfl]
    · have hne : i ≠ k := ne_of_lt (hp.1 k hk')
      rw [sizeFrom_get is _ k hp.2 hk' (fun j hj hjk => ?_), get_update, if_neg hne]
      rw [get_update]
      split
      · next hij =>
        subst hij
        exact hn i List.mem_cons_self hik
      · exact hn j (List.mem_cons_of_mem _ hj) hjk

theorem highBytes_type : ∀ (ps : List Position) (ops : Vector Operand 4) (k : Position),
    ((highBytes ps ops).get k).type = (ops.get k).type
  | [], _, _ => rfl
  | i :: is, ops, k => by
    simp only [highBytes]
    split
    · rfl
    · split
      · rw [highBytes_type is, get_update]
        split <;> rfl
      · exact highBytes_type is ops k

/-- an operand stays, or is a byte register 4 to 7 that becomes a high byte register -/
theorem highBytes_get : ∀ (ps : List Position) (ops : Vector Operand 4) (k : Position),
    (highBytes ps ops).get k = ops.get k ∨
      ((ops.get k).type = .reg ∧ (ops.get k).misc = RegType.gpl ∧ (ops.get k).size = 1 ∧
        4 ≤ (ops.get k).reg ∧ (highBytes ps ops).get k = { ops.get k with misc := RegType.gph })
  | [], _, _ => Or.inl rfl
  | i :: is, ops, k => by
    simp only [highBytes]
    split
    · exact Or.inl rfl
    · split
      · next hc =>
        have hget := get_update ops i k fun o => { o with misc := RegType.gph }
        rcases highBytes_get is (Position.update ops i fun o => { o with misc := RegType.gph }) k
          with h | ⟨ht, hg, hs, hr, h⟩
        · rw [h, hget]
          split
          · next hik =>
            subst hik
            exact Or.inr ⟨hc.1, hc.2.1, hc.2.2.1, hc.2.2.2, rfl⟩
          · exact Or.inl rfl
        · rw [hget] at ht hg hs hr h
          split at hg
          · -- a high byte register is no byte register any more
            simp [RegType.gph, RegType.gpl] at hg
          · next hik =>
            rw [if_neg hik] at ht hs hr h
            exact Or.inr ⟨ht, hg, hs, hr, h⟩
      · exact highBytes_get is ops k

end Finish

section Finish

variable {c : Context}

/-- what finishing does: the no-op and exchange split may clear the first two operands and
change the type; otherwise the type is the descriptor's; then sizes are set and, without REX,
byte registers 4 to 7 become high byte registers -/
theorem finish_ok {s : Progress} {i : Instr} (h : finish c s = .ok i) :
    ∃ ops : Vector Operand 4,
      (∀ k, ops.get k = { s.ops.get k with type := .none } ∨ ops.get k = s.ops.get k) ∧
      (c.is "XCHG_NOP" = false → i.type = c.desc.type ∧ ops = s.ops) ∧
      i.segment = c.prefixes.segment ∧ i.addrsz = c.addrSize ∧
      i.operands = if (c.opSize = 1 || c.tables.isType i.type "MOVSX" ||
          c.tables.isType i.type "MOVZX") && !hasBit c.prefixes.rex Rex.present then
        highBytes [Position.first, Position.second] (sizeFrom c.desc (sizeTable c) Position.all ops)
      else sizeFrom c.desc (sizeTable c) Position.all ops := by
  unfold finish at h
  dsimp only at h
  -- the no-op and the exchange, or neither; the two checks after them only fail
  split at h
  on_goal 1 => split at h
  all_goals
    dsimp only at h
    split at h
    · cases h
    split at h
    · cases h
    cases h
  · -- the no-op clears the first two operands
    refine ⟨_, fun k => ?_, fun hn => by simp_all, rfl, rfl, rfl⟩
    simp only [get_update]
    split_ifs <;> simp
  · exact ⟨s.ops, fun _ => Or.inr rfl, fun hn => by simp_all, rfl, rfl, rfl⟩
  · exact ⟨s.ops, fun _ => Or.inr rfl, fun _ => ⟨rfl, rfl⟩, rfl, rfl, rfl⟩

theorem getElem?_of_mem_takeWhile {α : Type} {p : α → Bool} :
    ∀ {l : List α} {a : α}, a ∈ l.takeWhile p →
      ∃ n : Nat, l[n]? = some a ∧ ∀ j ≤ n, ∀ b, l[j]? = some b → p b = true
  | [], _, h => by simp at h
  | x :: xs, a, h => by
    rw [List.takeWhile_cons] at h
    split at h
    · next hx =>
      rcases List.mem_cons.mp h with rfl | h'
      · refine ⟨0, rfl, fun j hj b hb => ?_⟩
        obtain rfl : j = 0 := by omega
        simp only [List.getElem?_cons_zero, Option.some.injEq] at hb
        exact hb ▸ hx
      · obtain ⟨n, hn, hall⟩ := getElem?_of_mem_takeWhile h'
        refine ⟨n + 1, hn, fun j hj b hb => ?_⟩
        cases j with
        | zero =>
          simp only [List.getElem?_cons_zero, Option.some.injEq] at hb
          exact hb ▸ hx
        | succ j => exact hall j (by omega) b hb
    · simp at h

/-- a shown operand is at a position before which every operand has a kind -/
theorem Instr.mem_shown {i : Instr} {o : Operand} (h : o ∈ i.shown) :
    ∃ k : Position, i.operands.get k = o ∧
      ∀ j : Position, j ≤ k → (i.operands.get j).type ≠ .none := by
  obtain ⟨n, hn, hall⟩ := getElem?_of_mem_takeWhile h
  obtain ⟨hlt, hget⟩ := List.getElem?_eq_some_iff.mp hn
  have hlt' : n < 4 := by simpa using hlt
  refine ⟨⟨n, hlt'⟩, ?_, fun j hj => ?_⟩
  · simp only [Vector.getElem_toList] at hget
    exact hget
  · have := hall j.val hj (i.operands.get j) (by simp [Vector.get])
    simpa using this

/-- **A shown operand.** Each operand before the first of no kind has the size its position
chooses, and is the operand read or, without REX, a byte register 4 to 7 made a high byte
register. -/
theorem finish_operand {s : Progress} {i : Instr} (h : finish c s = .ok i) {k : Position}
    (hk : ∀ j ≤ k, (i.operands.get j).type ≠ .none) :
    i.operands.get k = { s.ops.get k with size := sizeTable c (c.desc.sizeChoice k.val) } ∨
      ((s.ops.get k).type = .reg ∧ (s.ops.get k).misc = RegType.gpl ∧
        sizeTable c (c.desc.sizeChoice k.val) = 1 ∧ 4 ≤ (s.ops.get k).reg ∧
        (c.opSize = 1 || c.tables.isType i.type "MOVSX" || c.tables.isType i.type "MOVZX") = true ∧
        hasBit c.prefixes.rex Rex.present = false ∧
        i.operands.get k =
          { s.ops.get k with size := sizeTable c (c.desc.sizeChoice k.val), misc := RegType.gph }) := by
  obtain ⟨ops, hops, -, -, -, hi⟩ := finish_ok h
  -- sizes and high byte registers keep the kinds
  have htype : ∀ j, (i.operands.get j).type = (ops.get j).type := by
    intro j
    rw [hi]
    split <;> simp only [highBytes_type, sizeFrom_type]
  have hall : ∀ k : Position, k ∈ Position.all := by decide
  have hsf := sizeFrom_get c.desc (sizeTable c) Position.all ops k (by decide) (hall k)
    fun j _ hjk => htype j ▸ hk j hjk
  have hk' : ops.get k = s.ops.get k :=
    (hops k).resolve_left fun hn => htype k ▸ hk k le_rfl <| by rw [hn]
  rw [hk'] at hsf
  rw [hi]
  split
  · next hc =>
    rcases highBytes_get _ _ k with h1 | ⟨ht, hg, hs, hr, h1⟩
    · exact Or.inl (h1.trans hsf)
    · rw [hsf] at ht hg hs hr h1
      simp only [Bool.and_eq_true, Bool.not_eq_eq_eq_not, Bool.not_true] at hc
      exact Or.inr ⟨ht, hg, hs, hr, hc.1, hc.2, h1⟩
  · exact Or.inl hsf

/-- the operand size is one byte for the byte forms alone, and otherwise two, four or eight -/
theorem operandSize_cases (mode : Mode) (d : DescWords) (p : Prefixes) :
    (operandSize mode d p = 1 ∧ d.opsize = 1) ∨
    ((operandSize mode d p = 2 ∨ operandSize mode d p = 4 ∨ operandSize mode d p = 8) ∧
      d.opsize ≠ 1) := by
  unfold operandSize
  cases mode <;> split_ifs <;> simp_all

theorem sizeTable_mem (hop : c.opSize = 1 ∨ c.opSize = 2 ∨ c.opSize = 4 ∨ c.opSize = 8)
    (hvec : c.vecSize = 16 ∨ c.vecSize = 32) (k : Position) :
    sizeTable c (c.desc.sizeChoice k.val) ∈ c.desc.sizesAt k := by
  have hlt : c.desc.sizeChoice k.val < 4 := Nat.mod_lt _ (by norm_num)
  unfold DescWords.sizesAt sizeTable
  generalize c.desc.sizeChoice k.val = ch at hlt ⊢
  match ch, hlt with
  | 0, _ => simp
  | 1, _ => simp
  | 2, _ => simpa using hop
  | 3, _ => simpa using hvec

/-- **Shown operands have names.** Finishing readable operands under the descriptor's
declarations shows registers with names at the sizes set: a byte register becomes a high byte
register only without VEX and REX, where no source extends it past seven; and memory operands
whose index the descriptor's type names. -/
theorem finish_named (hd : Declares c.tables c.prefixes c.desc m) (hp : c.prefixes.Read)
    (hop : c.opSize = operandSize c.mode c.desc c.prefixes) (hvec : c.vecSize = 16 ∨ c.vecSize = 32)
    (haddr : c.addrSize = 2 ∨ c.addrSize = 4 ∨ c.addrSize = 8) {s : Progress} {i : Instr}
    (hr : ∀ k, Readable c k (s.ops.get k)) (h : finish c s = .ok i) :
    ∀ o ∈ i.shown, OperandNamed c.tables i o := by
  intro o ho
  obtain ⟨k, rfl, hk⟩ := Instr.mem_shown ho
  obtain ⟨ops, -, hx, -, haddr', -⟩ := finish_ok h
  have hsizes : ∀ j : Position, sizeTable c (c.desc.sizeChoice j.val) ∈ c.desc.sizesAt j := by
    refine sizeTable_mem ?_ hvec
    rcases operandSize_cases c.mode c.desc c.prefixes with ⟨h1, -⟩ | ⟨h1, -⟩ <;> omega
  obtain ⟨hreg, hmem⟩ := hr k
  rcases finish_operand h hk with h1 | ⟨ht, hg, -, h4, hc, hpres, h1⟩
  · rw [h1]
    refine ⟨fun ht => (hreg ht).1 _ (hsizes k), fun hm => ⟨fun hb => ?_, fun hn => ?_⟩⟩
    · have hb' : (s.ops.get k).reg ≤ 16 := ((hmem hm).1).resolve_right hb
      exact named_base hb' (haddr' ▸ haddr)
    · -- the index, at the type and size the formatter derives from the first operand
      obtain ⟨-, hidx, hnamed⟩ := hmem hm
      obtain ⟨hxn, hin⟩ := hnamed hn
      have hfirst : (i.operands.get Position.first).size ∈ c.desc.sizesAt Position.first := by
        rcases finish_operand h (k := Position.first) (fun j hj => hk j (le_trans hj (Fin.zero_le k)))
          with h0 | ⟨-, -, -, -, -, -, h0⟩ <;> rw [h0] <;> exact hsizes _
      exact (hin i (hx hxn).1 hfirst (haddr' ▸ haddr) _).named (hidx.resolve_right hn)
        (List.mem_singleton_self _)
  · -- a high byte register: VEX rules the byte forms out, so the prefixes extend nothing
    rw [h1]
    refine ⟨fun _ => named_gph h4 ?_, fun hm => by simp [ht] at hm⟩
    by_cases hv : 4 ≤ c.prefixes.escape
    · obtain ⟨hop1, hsx, hzx, hxn⟩ := hd.vex hv
      have htype := (hx hxn).1
      rw [htype, hsx, hzx] at hc
      rcases operandSize_cases c.mode c.desc c.prefixes with ⟨-, h2⟩ | ⟨h2, -⟩
      · exact absurd h2 hop1
      · simp only [Bool.or_false, decide_eq_true_eq] at hc
        omega
    · obtain ⟨hrex, hv0⟩ := hp.legacy (by omega)
      have hrex0 : c.prefixes.rex = 0 := hrex.resolve_right (by simp [hpres])
      exact (hreg ht).2 hg hrex0 hv0

end Finish

/-! ## Decoded instructions -/

/-- a walk ends on one of the descriptors, or on none past their end -/
theorem walk_desc {t : Tables} {root : Nat} {w : Window} {p : Prefixes} {off : Nat}
    {d : DescWords} {off' : Nat} (h : walk t root w p off = .ok (d, off')) :
    ∃ n, d = t.descs.getD n {} := by
  unfold walk at h
  dsimp only at h
  split at h
  all_goals
    obtain ⟨h, -⟩ := map_pair_ok h
    unfold Tables.instrAt at h
    split at h
    · cases h
    · cases h
      exact ⟨_, rfl⟩

theorem addressSize_cases (mode : Mode) (p : Prefixes) :
    addressSize mode p = 2 ∨ addressSize mode p = 4 ∨ addressSize mode p = 8 := by
  unfold addressSize
  cases mode <;> dsimp only <;> split <;> simp

/-- **The formatter names what is decoded.** Under the tables' promise every operand a decoded
instruction shows has names for its registers: a register at its size, a memory operand's base
at the address size and its index at the type and size derived from the first operand. The
instruction's segment has a name too, so no operand prints a marker. -/
theorem decode_operands_named {t : Tables} (ht : t.NamesOperands) {prior : Instr}
    {bytes : List UInt8} {modeNum : Int} {address : UInt64} {i : Instr}
    (h : decodeInto t prior bytes modeNum address = .ok i) :
    (∀ o ∈ i.shown, OperandNamed t i o) ∧ (i.segment ≠ noReg → Named RegType.seg i.segment 2) ∧
      ∀ addr, ∀ o ∈ i.shown, ∀ s ∈ operandPieces t i addr o, s ∉ invalidNames := by
  unfold decodeInto decodeWindow at h
  split at h
  next mode hmode =>
    split at h
    next root hroot =>
      obtain ⟨⟨p, off₁⟩, hop, h⟩ := ok_of_bind_eq_ok h
      obtain ⟨⟨d, off₂⟩, hwalk, h⟩ := ok_of_bind_eq_ok h
      obtain ⟨⟨m, off₃⟩, hmb, h⟩ := ok_of_bind_eq_ok h
      obtain ⟨s, hops, hfin⟩ := ok_of_bind_eq_ok h
      have hd := ht modeNum mode root _ p d off₁ off₂ m off₃ hmode hroot hop hwalk hmb
      have hp := opening_read mode hop
      have hr := readOperands_readable hd hp (fun k => initial_declared k) hops
      have hnamed := finish_named hd hp rfl (by dsimp only; split <;> simp)
        (addressSize_cases mode p) hr hfin
      obtain ⟨-, -, -, hseg, -, -⟩ := finish_ok hfin
      have hsegn : i.segment ≠ noReg → Named RegType.seg i.segment 2 := fun hn => by
        rw [hseg] at hn ⊢
        exact named_seg (hp.segment.resolve_right hn)
      exact ⟨hnamed, hsegn, fun addr o ho => operandPieces_valid (hnamed o ho) hsegn addr⟩
    next => cases h
  next => cases h

/-- the tables of a single instruction, `MOV` from a register to a register or memory (opcode
byte 89 with a ModRM byte) in 64-bit mode: the root's first opcode map is a table of opcode
bytes at word 8, and the descriptor reads the ModRM operand first and the ModRM reg operand
second, both general purpose registers of the operand size -/
def Tables.mov : Tables :=
  { words := #[18] ++ Array.replicate 144 0 ++ #[1],
    descs := #[{ indices := 11, sizes := 1034, regTypes := 16384 }], roots := [(64, 0)],
    mnemonics := #["MOV"], numbers := {}, nameText := "mov".toList.toArray, nameOffsets := #[0] }

theorem mov_indexNamed : Tables.mov.IndexNamed (Tables.mov.descs.getD 0 {}) := by
  intro i hty _ ha size
  have hm : Tables.mov.mnemonic? i.type = some "MOV" := by
    rw [hty]
    rfl
  simp only [memShape, hm]
  show Nameable RegType.gpl 16 [i.addrsz]
  exact Or.inl ⟨rfl, le_rfl, fun s hs => by rw [List.mem_singleton] at hs; omega⟩

theorem mov_namesOperands : Tables.mov.NamesOperands := by
  intro modeNum mode root w p d off₁ off₂ m off₃ _ _ _ hwalk _
  obtain ⟨n, rfl⟩ := walk_desc hwalk
  rcases n with _ | n
  · -- the descriptor of MOV: general purpose registers of the operand size
    exact
      { implicit := fun _ h => absurd h (by decide)
        modreg := fun _ _ => show Nameable RegType.gpl 16 [1, 2, 4, 8] by decide
        modrm := fun _ _ _ => show Nameable RegType.gpl 16 [1, 2, 4, 8] by decide
        index := fun _ _ _ => mov_indexNamed
        vexreg := fun h => absurd h (by decide)
        immReg := fun h => absurd h (by decide)
        special := fun h => absurd h (by decide)
        vex := fun _ => ⟨by decide, by decide, by decide, by decide⟩
        xchgNop := fun h => absurd h (by decide) }
  · -- past the descriptors: no operands at all
    have hnone : Tables.mov.descs.getD (n + 1) {} = {} := by simp [Array.getD, Tables.mov]
    rw [hnone]
    exact
      { implicit := fun _ h => absurd h (by decide)
        modreg := fun _ h => absurd h (by decide)
        modrm := fun _ h => absurd h (by decide)
        index := fun _ h => absurd h (by decide)
        vexreg := fun h => absurd h (by decide)
        immReg := fun h => absurd h (by decide)
        special := fun h => absurd h (by decide)
        vex := fun _ => ⟨by decide, by decide, by decide, by decide⟩
        xchgNop := fun h => absurd h (by decide) }

theorem mov_operands_named :
    Tables.mov.NamesOperands ∧ ∃ i, decodeInto Tables.mov Instr.zero [0x89, 0xc8] 64 0 = .ok i ∧
      i.shown.length = 2 ∧ (∀ o ∈ i.shown, OperandNamed Tables.mov i o) ∧
      (i.segment ≠ noReg → Named RegType.seg i.segment 2) ∧
      ∀ addr, ∀ o ∈ i.shown, ∀ s ∈ operandPieces Tables.mov i addr o, s ∉ invalidNames := by
  have hdec : decodeInto Tables.mov Instr.zero [0x89, 0xc8] 64 0 =
      .ok { long := true, segment := noReg, addrsz := 8, size := 2,
            operands := #v[{ type := .reg, size := 4, reg := 0, misc := RegType.gpl },
                           { type := .reg, size := 4, reg := 1, misc := RegType.gpl },
                           { misc := RegType.gpl }, {}] } := by
    decide +kernel
  exact ⟨mov_namesOperands, _, hdec, rfl, decode_operands_named mov_namesOperands hdec⟩

example : (decodeInto Tables.mov Instr.zero [0x89, 0xc8] 64 0).toOption.map
    (format Tables.mov · 64) = some "mov eax, ecx" := by
  decide +kernel

end X86Codec.Decoder
