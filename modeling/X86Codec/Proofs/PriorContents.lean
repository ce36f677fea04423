import X86Codec.Proofs.OperandNames
/-!
Decoding over an instruction that held something before.

The decoder writes into an instruction that may still hold an earlier one. It sets every field
but the displacement and the immediate, and those two it writes only for an operand that needs
them: a memory operand writes the displacement (a ModRM memory operand, or the address of a move
with a memory offset), a number operand the immediate. So two runs over different earlier
contents fail alike or succeed alike, and their instructions agree on every field, and on the
displacement and the immediate wherever an operand reads them (`Instr.Agree`). The formatter
reads those two only there, and prints the same text for both.

Two things are the tables' matter (`Tables.ReadsImmediates`): a number immediate has a width the
decoder stores (one, two, three, four, six or eight bytes), and an instruction that checks a
3DNow! suffix in its immediate reads one. The generated tables keep both.

Main statements:
* `readOperands_agree`: reading the operands over two earlier contents gives states that agree
  (`Progress.Agree`), or the same failure;
* `finish_agree`: finishing agreeing states gives agreeing instructions, or the same failure;
* `pieces_agree`: agreeing instructions print alike;
* `decode_ignores_prior`: under the tables' promise, a decoding that goes through over one
  earlier instruction goes through over any other, with an agreeing instruction and the same
  text.
-/

namespace X86Codec.Decoder

/-! ## What the tables promise -/

/-- what a context's descriptor promises of the immediate it reads: a number immediate has a
width the decoder stores, an instruction that checks a 3DNow! suffix in its immediate reads a
number immediate, and the exchange that may be a no-op is renamed to no 3DNow! instruction -/
structure Context.ReadsImmediate (c : Context) : Prop where
  width : 4 ≤ c.desc.immControl → immSize c c.desc.immControl ∈ [1, 2, 3, 4, 6, 8]
  suffix : c.is "3DNOW" = true → 4 ≤ c.desc.immControl
  renamed : c.is "XCHG_NOP" = true → c.tables.isType (c.tables.typeOf "NOP") "3DNOW" = false ∧
    c.tables.isType (c.tables.typeOf "XCHG") "3DNOW" = false

/-- The tables' promise that decoding writes every immediate it reads: the context of every
descriptor a walk ends on, with the operand size of the prefixes, reads its immediate so
(`Context.ReadsImmediate`). -/
def Tables.ReadsImmediates (t : Tables) : Prop :=
  ∀ (modeNum : Int) (mode : Mode) (root : Nat) (w : Window) (p : Prefixes) (d : DescWords)
    (off₁ off₂ : Nat), Mode.ofInt? modeNum = some mode → t.root? modeNum = some root →
    opening mode w = .ok (p, off₁) → walk t root w p off₁ = .ok (d, off₂) →
    ∀ c : Context, c.tables = t → c.desc = d → c.opSize = operandSize mode d p → c.ReadsImmediate

/-! ## Operands that read the displacement and the immediate -/

/-- some operand is in memory, so the displacement is read -/
def ReadsDisp (ops : Vector Operand 4) : Prop := ∃ k : Position, (ops.get k).type = .mem

/-- some operand is an immediate or an offset, so the immediate is read -/
def ReadsImm (ops : Vector Operand 4) : Prop :=
  ∃ k : Position, (ops.get k).type = .imm ∨ (ops.get k).type = .off

/-- a change of one operand that makes no memory operand adds no read of the displacement -/
theorem readsDisp_update {ops : Vector Operand 4} {i : Position} {f : Operand → Operand}
    (hf : (f (ops.get i)).type ≠ .mem) (h : ReadsDisp (Position.update ops i f)) : ReadsDisp ops := by
  obtain ⟨k, hk⟩ := h
  rw [get_update] at hk
  split at hk
  · next hik =>
    subst hik
    exact absurd hk hf
  · exact ⟨k, hk⟩

/-- a change of one operand that makes no immediate or offset adds no read of the immediate -/
theorem readsImm_update {ops : Vector Operand 4} {i : Position} {f : Operand → Operand}
    (hf : (f (ops.get i)).type ≠ .imm ∧ (f (ops.get i)).type ≠ .off)
    (h : ReadsImm (Position.update ops i f)) : ReadsImm ops := by
  obtain ⟨k, hk⟩ := h
  rw [get_update] at hk
  split at hk
  · next hik =>
    subst hik
    exact absurd hk (not_or.2 hf)
  · exact ⟨k, hk⟩

/-! ## Two runs -/

/-- two outcomes of a stage run over different earlier contents: the same failure, or results
related by `R` -/
def Alike {α β : Type} (R : α → β → Prop) : Except DecodeError α → Except DecodeError β → Prop
  | .error e₁, .error e₂ => e₁ = e₂
  | .ok a, .ok b => R a b
  | _, _ => False

namespace Alike

variable {α β γ δ : Type} {R : α → β → Prop} {S : γ → δ → Prop}

/-- a stage that does not look at the earlier contents ends alike on both sides -/
theorem same (x : Except DecodeError α) : Alike (· = ·) x x := by
  cases x <;> rfl

/-- stages that continue alike from related results keep the relation -/
theorem bind {x₁ : Except DecodeError α} {x₂ : Except DecodeError β}
    {f : α → Except DecodeError γ} {g : β → Except DecodeError δ} (h : Alike R x₁ x₂)
    (hf : ∀ a b, x₁ = .ok a → R a b → Alike S (f a) (g b)) : Alike S (x₁ >>= f) (x₂ >>= g) := by
  cases x₁ with
  | error e₁ =>
    cases x₂ with
    | error e₂ => exact h
    | ok b => exact h.elim
  | ok a =>
    cases x₂ with
    | error e₂ => exact h.elim
    | ok b => exact hf a b rfl h

/-- a stage that does not look at the earlier contents, followed by stages that do -/
theorem bind_same {x : Except DecodeError α} {f : α → Except DecodeError γ}
    {g : α → Except DecodeError δ} (hf : ∀ a, x = .ok a → Alike S (f a) (g a)) :
    Alike S (x >>= f) (x >>= g) :=
  (same x).bind fun a _ hx hab => hab ▸ hf a hx

/-- the same, for a stage that reads the same thing on both sides -/
theorem bind_eq {x₁ x₂ : Except DecodeError α} {f : α → Except DecodeError γ}
    {g : α → Except DecodeError δ} (hx : x₁ = x₂) (hf : ∀ a, Alike S (f a) (g a)) :
    Alike S (x₁ >>= f) (x₂ >>= g) :=
  hx ▸ bind_same fun a _ => hf a

theorem ite {c : Prop} [Decidable c] {a₁ b₁ : Except DecodeError γ} {a₂ b₂ : Except DecodeError δ}
    (ha : c → Alike S a₁ a₂) (hb : ¬ c → Alike S b₁ b₂) :
    Alike S (if c then a₁ else b₁) (if c then a₂ else b₂) := by
  by_cases hc : c
  · simpa [hc] using ha hc
  · simpa [hc] using hb hc

/-- the second side goes through where the first does, with a related result -/
theorem ok_right {x₁ : Except DecodeError α} {x₂ : Except DecodeError β} {a : α} (h : Alike R x₁ x₂)
    (h₁ : x₁ = .ok a) : ∃ b, x₂ = .ok b ∧ R a b := by
  subst h₁
  cases x₂ with
  | error e => exact h.elim
  | ok b => exact ⟨b, rfl, h⟩

end Alike

/-- two states of reading the operands over different earlier contents: the same operands and
position, and the same displacement and immediate where an operand reads them -/
structure Progress.Agree (s₁ s₂ : Progress) : Prop where
  ops : s₁.ops = s₂.ops
  off : s₁.off = s₂.off
  disp : ReadsDisp s₁.ops → s₁.disp = s₂.disp
  imm : ReadsImm s₁.ops → s₁.imm = s₂.imm

namespace Progress.Agree

variable {s₁ s₂ : Progress}

/-- the states an operand reading starts from agree, whatever displacement and immediate the
earlier contents held: no operand has a kind yet -/
theorem start (ops : Vector Operand 4) (hnone : ∀ k, (ops.get k).type = .none) (off : Nat)
    (disp₁ disp₂ imm₁ imm₂ : UInt64) :
    Agree ⟨ops, off, disp₁, imm₁⟩ ⟨ops, off, disp₂, imm₂⟩ where
  ops := rfl
  off := rfl
  disp := fun ⟨k, hk⟩ => absurd (hnone k) (by simp [hk])
  imm := fun ⟨k, hk⟩ => absurd (hnone k) (by rcases hk with hk | hk <;> simp [hk])

/-- a change of one operand keeps the agreement, where the two sides hold the same displacement
if the operand becomes a memory operand, and the same immediate if it becomes an immediate or an
offset -/
theorem setOp (h : Agree s₁ s₂) {i : Position} {f : Operand → Operand}
    (hd : (f (s₁.ops.get i)).type = .mem → s₁.disp = s₂.disp)
    (hm : (f (s₁.ops.get i)).type = .imm ∨ (f (s₁.ops.get i)).type = .off → s₁.imm = s₂.imm) :
    Agree (s₁.setOp i f) (s₂.setOp i f) where
  ops := by simp only [Progress.setOp, h.ops]
  off := h.off
  disp hr := by
    obtain ⟨k, hk⟩ := hr
    rw [Progress.setOp, get_update] at hk
    split at hk
    · next hik =>
      subst hik
      exact hd hk
    · exact h.disp ⟨k, hk⟩
  imm hr := by
    obtain ⟨k, hk⟩ := hr
    rw [Progress.setOp, get_update] at hk
    split at hk
    · next hik =>
      subst hik
      exact hm hk
    · exact h.imm ⟨k, hk⟩

/-- a change of one operand that makes it a register keeps the agreement -/
theorem setOp_reg (h : Agree s₁ s₂) {i : Position} {f : Operand → Operand}
    (hf : (f (s₁.ops.get i)).type = .reg) : Agree (s₁.setOp i f) (s₂.setOp i f) :=
  h.setOp (fun hk => by simp [hf] at hk) (fun hk => by simp [hf] at hk)

/-- a change of one operand that keeps its kind keeps the agreement -/
theorem setOp_type (h : Agree s₁ s₂) {i : Position} {f : Operand → Operand}
    (hf : (f (s₁.ops.get i)).type = (s₁.ops.get i).type) : Agree (s₁.setOp i f) (s₂.setOp i f) :=
  h.setOp (fun hk => h.disp ⟨i, hf ▸ hk⟩) (fun hk => h.imm ⟨i, hf ▸ hk⟩)

/-- a change of one operand into anything but a memory operand, with the same immediate written
on both sides, keeps the agreement -/
theorem setImm (h : Agree s₁ s₂) {i : Position} {f : Operand → Operand}
    (hf : (f (s₁.ops.get i)).type ≠ .mem) {off₁ off₂ : Nat} (hoff : off₁ = off₂) {m₁ m₂ : UInt64}
    (himm : m₁ = m₂) :
    Agree { s₁.setOp i f with off := off₁, imm := m₁ } { s₂.setOp i f with off := off₂, imm := m₂ } where
  ops := by simp only [Progress.setOp, h.ops]
  off := hoff
  disp hr := h.disp (readsDisp_update hf hr)
  imm _ := himm

/-- a change of one operand into anything but an immediate or an offset, with the same
displacement written on both sides, keeps the agreement -/
theorem setDisp (h : Agree s₁ s₂) {i : Position} {f : Operand → Operand}
    (hf : (f (s₁.ops.get i)).type ≠ .imm ∧ (f (s₁.ops.get i)).type ≠ .off) {off₁ off₂ : Nat}
    (hoff : off₁ = off₂) {d₁ d₂ : UInt64} (hdisp : d₁ = d₂) :
    Agree { s₁.setOp i f with off := off₁, disp := d₁ } { s₂.setOp i f with off := off₂, disp := d₂ } where
  ops := by simp only [Progress.setOp, h.ops]
  off := hoff
  disp _ := hdisp
  imm hr := h.imm (readsImm_update hf hr)

/-- moving both positions alike keeps the agreement -/
theorem withOff (h : Agree s₁ s₂) {off₁ off₂ : Nat} (hoff : off₁ = off₂) :
    Agree { s₁ with off := off₁ } { s₂ with off := off₂ } :=
  { h with off := hoff }

end Progress.Agree

/-! ## Reading the operands -/

section Reading

variable {c : Context} {s₁ s₂ : Progress}

theorem implicitOperand_agree (h : s₁.Agree s₂) :
    (implicitOperand c s₁).Agree (implicitOperand c s₂) := by
  unfold implicitOperand
  split
  · exact h.setOp_reg rfl
  · exact h

theorem modregOperand_agree (b : Nat) (h : s₁.Agree s₂) :
    (modregOperand c b s₁).Agree (modregOperand c b s₂) := by
  unfold modregOperand
  split
  · exact h.setOp_reg rfl
  · exact h

theorem specialRegisters_agree (b : Nat) (control : Bool) (h : s₁.Agree s₂) :
    Alike Progress.Agree (specialRegisters c b control s₁) (specialRegisters c b control s₂) := by
  unfold specialRegisters
  dsimp only
  generalize (if control = true then RegType.cr else RegType.dr) = misc
  -- the two checks look only at the operand byte and the prefixes: they fail on both sides
  split_ifs
  · exact rfl
  · exact rfl
  · exact rfl
  · refine (h.setOp_reg ?_).setOp_reg ?_ <;> rfl

theorem vexOperand_agree (h : s₁.Agree s₂) :
    Alike Progress.Agree (vexOperand c s₁) (vexOperand c s₂) := by
  unfold vexOperand
  dsimp only
  split_ifs
  · exact h.setOp_reg rfl
  · exact rfl
  · exact h

/-- the SIB byte is read at the position reached, which both sides share -/
theorem readSib_congr (rm : Nat) (h : s₁.Agree s₂) : readSib c rm s₁ = readSib c rm s₂ := by
  unfold readSib
  rw [h.off]

/-- a memory operand writes the displacement on both sides -/
theorem modrmOperand_agree (b : Nat) (h : s₁.Agree s₂) :
    Alike Progress.Agree (modrmOperand c b s₁) (modrmOperand c b s₂) := by
  unfold modrmOperand
  simp only [bind, Except.bind, pure, Except.pure]
  split
  · exact h
  split
  · exact h.setOp_reg rfl
  rw [readSib_congr _ h]
  rcases readSib c (b % 8) s₂ with e | ⟨base, misc, off⟩
  · rfl
  -- the operand becomes a memory operand, and the displacement is written next
  dsimp only
  split
  · rcases c.window.read off 1 with e | disp
    · rfl
    · exact h.setDisp (by simp) rfl rfl
  split
  · rcases c.window.read off 4 with e | disp
    · rfl
    · exact h.setDisp (by simp) rfl rfl
  · exact h.setDisp (by simp) rfl rfl

/-- an immediate of a width the decoder stores is written whatever the earlier contents held -/
theorem immValue_isSome {size : Nat} (h : size ∈ [1, 2, 3, 4, 6, 8]) (raw : Nat) :
    ∃ v, immValue size raw = some v := by
  simp only [List.mem_cons, List.not_mem_nil, or_false] at h
  rcases h with rfl | rfl | rfl | rfl | rfl | rfl <;> exact ⟨_, rfl⟩

/-- the immediate operand writes the immediate, or the displacement for a memory offset, on
both sides, once a number immediate has a width the decoder stores -/
theorem immediate_agree
    (hw : 4 ≤ c.desc.immControl → immSize c c.desc.immControl ∈ [1, 2, 3, 4, 6, 8])
    (h : s₁.Agree s₂) : Alike Progress.Agree (immediate c s₁) (immediate c s₂) := by
  have hoff : ∀ (i : Position) (f : Operand → Operand), (s₁.setOp i f).off = (s₂.setOp i f).off :=
    fun _ _ => h.off
  unfold immediate
  dsimp only
  split
  · exact h
  · -- the constant one
    exact h.setImm (by simp) (hoff _ _) rfl
  · -- an address of the address size, read as the displacement
    refine Alike.bind_eq (congrArg (c.window.read · _) (hoff _ _)) fun disp => ?_
    exact h.setDisp (by simp) (congrArg (· + _) (hoff _ _)) rfl
  · -- a register in the high four bits of a byte
    refine Alike.bind_eq (congrArg (c.window.read · _) (hoff _ _)) fun b => ?_
    exact ((h.setOp_reg rfl).setOp_type rfl).withOff (congrArg (· + _) (hoff _ _))
  · next control hc₀ hc₁ hc₂ hc₃ =>
    -- a number: its width is one the decoder stores, so both sides write it
    have h4 : 4 ≤ c.desc.immControl := by
      simp only [imp_false] at hc₀ hc₁ hc₂ hc₃
      omega
    refine Alike.bind_eq (congrArg (c.window.read · _) (hoff _ _)) fun raw => ?_
    obtain ⟨v, hv⟩ := immValue_isSome (hw h4) raw
    simp only [hv, Option.getD_some]
    have hnum := h.setImm (i := c.desc.immIdx) (f := fun o => { o with type := .imm }) (by simp)
      (congrArg (· + immSize c c.desc.immControl) (hoff c.desc.immIdx fun o => { o with type := .imm }))
      (rfl : v = v)
    split_ifs
    · -- an offset made absolute from the address
      exact h.setImm (by simp) (congrArg (· + _) (hoff _ _))
        (by rw [hoff])
    · -- an offset kept relative
      exact hnum.setOp (fun hk => by simp at hk) fun _ => rfl
    · exact hnum

/-- a number immediate leaves its operand an immediate or an offset -/
theorem immediate_reads {s s' : Progress} (h : immediate c s = .ok s')
    (h4 : 4 ≤ c.desc.immControl) : ReadsImm s'.ops := by
  unfold immediate at h
  dsimp only at h
  split at h
  iterate 4 omega
  obtain ⟨raw, -, h⟩ := ok_of_bind_eq_ok h
  refine ⟨c.desc.immIdx, ?_⟩
  split_ifs at h <;> cases h <;> simp [Progress.setOp, get_update]

/-- **Reading the operands** over two earlier contents fails alike or gives agreeing states, once a
number immediate has a width the decoder stores. -/
theorem readOperands_agree
    (hw : 4 ≤ c.desc.immControl → immSize c c.desc.immControl ∈ [1, 2, 3, 4, 6, 8]) (b : Nat)
    (h : s₁.Agree s₂) : Alike Progress.Agree (readOperands c b s₁) (readOperands c b s₂) := by
  have hrest : ∀ {x : Except DecodeError Progress} a₁ a₂, x = .ok a₁ → a₁.Agree a₂ →
      Alike Progress.Agree (vexOperand c a₁ >>= immediate c) (vexOperand c a₂ >>= immediate c) :=
    fun _ _ _ ha => (vexOperand_agree ha).bind fun _ _ _ hv => immediate_agree hw hv
  unfold readOperands
  dsimp only
  refine Alike.ite (fun _ => (specialRegisters_agree b true h).bind hrest) fun _ => ?_
  refine Alike.ite (fun _ => (specialRegisters_agree b false h).bind hrest) fun _ => ?_
  exact (modrmOperand_agree b (modregOperand_agree b (implicitOperand_agree h))).bind hrest

/-- a number immediate is read last, so its operand is still there once the operands are read -/
theorem readOperands_reads {b : Nat} {s s' : Progress} (h : readOperands c b s = .ok s')
    (h4 : 4 ≤ c.desc.immControl) : ReadsImm s'.ops := by
  unfold readOperands at h
  dsimp only at h
  split_ifs at h <;>
  · obtain ⟨_, -, h⟩ := ok_of_bind_eq_ok h
    obtain ⟨_, -, h⟩ := ok_of_bind_eq_ok h
    exact immediate_reads h h4

end Reading

/-! ## Finishing -/

/-- finishing two states with the same operands and position gives the same instruction but for
the displacement and the immediate, where the 3DNow! suffix check reads the same immediate and
the exchange that may be a no-op is renamed to no 3DNow! instruction -/
theorem finish_congr {c : Context} {ops : Vector Operand 4} {off : Nat}
    {disp₁ disp₂ imm₁ imm₂ : UInt64} (h3 : c.is "3DNOW" = true → imm₁ = imm₂)
    (hren : c.is "XCHG_NOP" = true → c.tables.isType (c.tables.typeOf "NOP") "3DNOW" = false ∧
      c.tables.isType (c.tables.typeOf "XCHG") "3DNOW" = false) :
    finish c ⟨ops, off, disp₂, imm₂⟩ =
      (fun i => { i with disp := disp₂, imm := imm₂ }) <$> finish c ⟨ops, off, disp₁, imm₁⟩ := by
  unfold finish
  dsimp only
  by_cases hx : c.is "XCHG_NOP" = true
  · -- the exchange is renamed to NOP or XCHG, and neither checks a suffix
    obtain ⟨hnop, hxchg⟩ := hren hx
    simp only [hx, ↓reduceIte]
    by_cases hz : (ops.get Position.first).reg = 0 ∧ (ops.get Position.second).reg = 0
    · simp only [hz, and_self, ↓reduceIte, hnop, Bool.false_eq_true, false_and]
      split_ifs <;> rfl
    · simp only [hz, ↓reduceIte, hxchg, Bool.false_eq_true, false_and]
      split_ifs <;> rfl
  · simp only [hx, Bool.false_eq_true, ↓reduceIte]
    by_cases h3' : c.is "3DNOW" = true
    · -- a 3DNow! instruction checks its suffix in the immediate, which both sides hold
      rw [h3 h3']
      split_ifs <;> rfl
    · simp only [Context.is, Bool.not_eq_true] at h3'
      simp only [h3', Bool.false_eq_true, false_and, ↓reduceIte]
      split_ifs <;> rfl

/-- two decoded instructions that agree on every field, and on the displacement and the
immediate wherever an operand reads them -/
structure Instr.Agree (i₁ i₂ : Instr) : Prop where
  type : i₁.type = i₂.type
  rep : i₁.rep = i₂.rep
  repnz : i₁.repnz = i₂.repnz
  lock : i₁.lock = i₂.lock
  long : i₁.long = i₂.long
  segment : i₁.segment = i₂.segment
  addrsz : i₁.addrsz = i₂.addrsz
  operandsz : i₁.operandsz = i₂.operandsz
  size : i₁.size = i₂.size
  operands : i₁.operands = i₂.operands
  address : i₁.address = i₂.address
  disp : ReadsDisp i₁.operands → i₁.disp = i₂.disp
  imm : ReadsImm i₁.operands → i₁.imm = i₂.imm

/-- agreeing instructions differ at most in the displacement and the immediate -/
theorem Instr.Agree.eq {i₁ i₂ : Instr} (h : i₁.Agree i₂) :
    i₂ = { i₁ with disp := i₂.disp, imm := i₂.imm } := by
  obtain ⟨ty, rep, repnz, lock, long, seg, asz, osz, size, ops, disp, imm, addr⟩ := i₁
  obtain ⟨ty', rep', repnz', lock', long', seg', asz', osz', size', ops', disp', imm', addr'⟩ := i₂
  obtain ⟨rfl, rfl, rfl, rfl, rfl, rfl, rfl, rfl, rfl, rfl, rfl, -, -⟩ := h
  rfl

/-- a finished instruction's operands are those read, or cleared -/
theorem finish_types {s : Progress} {i : Instr} (h : finish c s = .ok i) (k : Position) :
    (i.operands.get k).type = (s.ops.get k).type ∨ (i.operands.get k).type = .none := by
  obtain ⟨ops, hops, -, -, -, hi⟩ := finish_ok h
  have hk : (i.operands.get k).type = (ops.get k).type := by
    rw [hi]
    split <;> simp only [highBytes_type, sizeFrom_type]
  rw [hk]
  rcases hops k with hn | he
  · exact .inr (by rw [hn])
  · exact .inl (by rw [he])

/-- a finished instruction keeps the displacement and the immediate read -/
theorem finish_data {s : Progress} {i : Instr} (h : finish c s = .ok i) :
    i.disp = s.disp ∧ i.imm = s.imm := by
  unfold finish at h
  dsimp only at h
  split_ifs at h <;> cases h <;> exact ⟨rfl, rfl⟩

/-- **Finishing** agreeing states fails alike or gives agreeing instructions, where the 3DNow!
suffix check reads an immediate and the exchange that may be a no-op is renamed to no 3DNow!
instruction. -/
theorem finish_agree {s₁ s₂ : Progress} (h : s₁.Agree s₂) (h3 : c.is "3DNOW" = true → ReadsImm s₁.ops)
    (hren : c.is "XCHG_NOP" = true → c.tables.isType (c.tables.typeOf "NOP") "3DNOW" = false ∧
      c.tables.isType (c.tables.typeOf "XCHG") "3DNOW" = false) :
    Alike Instr.Agree (finish c s₁) (finish c s₂) := by
  obtain ⟨ops, off, disp₁, imm₁⟩ := s₁
  obtain ⟨ops₂, off₂, disp₂, imm₂⟩ := s₂
  obtain ⟨rfl, rfl, hd, hi⟩ := h
  rw [finish_congr (fun h => hi (h3 h)) hren]
  cases hf : finish c ⟨ops, off, disp₁, imm₁⟩ with
  | error e => rfl
  | ok i =>
    obtain ⟨hdisp, himm⟩ := finish_data hf
    exact
      { type := rfl, rep := rfl, repnz := rfl, lock := rfl, long := rfl, segment := rfl,
        addrsz := rfl, operandsz := rfl, size := rfl, operands := rfl, address := rfl
        disp := fun ⟨k, hk⟩ => hdisp.trans (hd ⟨k, by
          rcases finish_types hf k with he | hn
          · exact he ▸ hk
          · rw [hn] at hk; cases hk⟩)
        imm := fun ⟨k, hk⟩ => himm.trans (hi ⟨k, by
          rcases finish_types hf k with he | hn
          · exact he ▸ hk
          · rw [hn] at hk; rcases hk with hk | hk <;> cases hk⟩) }


/-! ## Decoding -/

/-- reading the operands and finishing, from the operands a descriptor starts with, over two
earlier contents, under the promise of the descriptor's context -/
theorem readOperands_finish_agree {c : Context} (hc : c.ReadsImmediate) (b : Nat)
    (off : Nat) (disp₁ disp₂ imm₁ imm₂ : UInt64) :
    Alike Instr.Agree (readOperands c b ⟨initialOperands c.desc, off, disp₁, imm₁⟩ >>= finish c)
      (readOperands c b ⟨initialOperands c.desc, off, disp₂, imm₂⟩ >>= finish c) := by
  have hstart := Progress.Agree.start (initialOperands c.desc)
    (fun k => by rw [initialOperands_get]) off disp₁ disp₂ imm₁ imm₂
  exact (readOperands_agree hc.width b hstart).bind fun s₁ s₂ hread hs =>
    finish_agree hs (fun h3 => readOperands_reads hread (hc.suffix h3)) hc.renamed

/-- **Decoding over two earlier instructions** fails alike or gives agreeing instructions, under
the tables' promise. -/
theorem decodeWindow_agree {t : Tables} (ht : t.ReadsImmediates) (prior₁ prior₂ : Instr)
    (w : Window) (modeNum : Int) (address : UInt64) :
    Alike Instr.Agree (decodeWindow t prior₁ w modeNum address)
      (decodeWindow t prior₂ w modeNum address) := by
  unfold decodeWindow
  split
  · next mode hmode =>
    split
    · next root hroot =>
      refine Alike.bind_same fun po hop => ?_
      obtain ⟨p, off₁⟩ := po
      refine Alike.bind_same fun dw hwalk => ?_
      obtain ⟨d, off₂⟩ := dw
      refine Alike.bind_same fun mb _ => ?_
      obtain ⟨m, off₃⟩ := mb
      exact readOperands_finish_agree (ht modeNum mode root w p d off₁ off₂ hmode hroot hop hwalk _
        rfl rfl rfl) m off₃ _ _ _ _
    · rfl
  · rfl

/-! ## Printing -/

/-- the formatter reads the displacement only for a memory operand it shows, and the immediate
only for an immediate or offset operand it shows -/
theorem pieces_data (t : Tables) (i : Instr) (addr : UInt64) {d m : UInt64}
    (hd : ReadsDisp i.operands → d = i.disp) (hm : ReadsImm i.operands → m = i.imm) :
    pieces t { i with disp := d, imm := m } addr = pieces t i addr := by
  unfold pieces
  congr 1
  refine List.flatMap_congr ?_
  rintro ⟨o, k⟩ hx
  obtain ⟨j, hj, -⟩ := Instr.mem_shown (List.fst_mem_of_mem_zipIdx hx)
  dsimp only at hj ⊢
  congr 1
  unfold operandPieces
  split
  · rfl
  · next hmem =>
    rw [hd ⟨j, hj ▸ hmem⟩]
    rfl
  · next himm =>
    rw [hm ⟨j, .inl (hj ▸ himm)⟩]
    rfl
  · next hoff =>
    rw [hm ⟨j, .inr (hj ▸ hoff)⟩]
    rfl
  · rfl

/-- **Agreeing instructions print alike.** -/
theorem pieces_agree (t : Tables) (addr : UInt64) {i₁ i₂ : Instr} (h : i₁.Agree i₂) :
    pieces t i₁ addr = pieces t i₂ addr := by
  rw [h.eq]
  exact (pieces_data t i₁ addr (fun hr => (h.disp hr).symm) fun hr => (h.imm hr).symm).symm

/-- agreeing instructions have the same text, with offsets from any address -/
theorem formatAbs_agree (t : Tables) {i₁ i₂ : Instr} (h : i₁.Agree i₂) (addr : UInt64) (len : Nat) :
    formatAbs t i₁ addr len = formatAbs t i₂ addr len := by
  unfold formatAbs
  rw [pieces_agree t addr h]

/-! ## Decoding over any earlier instruction -/

/-- **A decoding does not depend on what the instruction held before**: under the tables'
promise, a decoding that goes through over one earlier instruction goes through over any other,
with an instruction that agrees on every field, and on the displacement and the immediate
wherever an operand reads them, and that prints the same text. -/
theorem decode_ignores_prior {t : Tables} (ht : t.ReadsImmediates) {prior₁ : Instr}
    (prior₂ : Instr) {bytes : List UInt8} {modeNum : Int} {address : UInt64} {i₁ : Instr}
    (h : decodeInto t prior₁ bytes modeNum address = .ok i₁) :
    ∃ i₂, decodeInto t prior₂ bytes modeNum address = .ok i₂ ∧ i₁.Agree i₂ ∧
      (∀ addr len, formatAbs t i₁ addr len = formatAbs t i₂ addr len) ∧
      ∀ len, format t i₁ len = format t i₂ len := by
  obtain ⟨i₂, h₂, hagree⟩ :=
    (decodeWindow_agree ht prior₁ prior₂ (Window.of bytes) modeNum address).ok_right h
  exact ⟨i₂, h₂, hagree, formatAbs_agree t hagree, formatAbs_agree t hagree 0⟩

/-- the tables of a single instruction, `MOV` of an immediate to a register or memory (opcode
byte c7 with a ModRM byte) in 64-bit mode: the root's first opcode map is a table of opcode
bytes at word 8, and the descriptor is the one the listing's generated tables give c7: the
ModRM operand first and a number immediate of the operand size second, whose register type is
none -/
def Tables.movImm : Tables :=
  { words := #[18] ++ Array.replicate 206 0 ++ #[1],
    descs := #[{ indices := 16899, sizes := 1034, regTypes := 16440 }], roots := [(64, 0)],
    mnemonics := #["MOV"], numbers := {}, nameText := "mov".toList.toArray, nameOffsets := #[0] }

theorem movImm_readsImmediates : Tables.movImm.ReadsImmediates := by
  intro modeNum mode root w p d off₁ off₂ _ _ _ hwalk c hc hd _
  obtain ⟨n, rfl⟩ := walk_desc hwalk
  -- the descriptor and the empty one past it both have type 0, which is MOV
  have hty : c.desc.type = 0 := by
    rw [hd]
    rcases n with _ | n
    · rfl
    · simp [Array.getD, Tables.movImm]
  have his : ∀ m, c.is m = (some "MOV" == some m) := fun m => by
    rw [Context.is, Tables.isType, hty, hc]
    rfl
  refine ⟨fun h4 => ?_, fun h => absurd ((his _).symm.trans h) (by decide),
    fun h => absurd ((his _).symm.trans h) (by decide)⟩
  -- only the descriptor of MOV reads a number, of two or four bytes
  have hctl : c.desc.immControl = 4 := by
    rw [hd] at h4 ⊢
    rcases n with _ | n
    · rfl
    · simp [Array.getD, Tables.movImm, DescWords.immControl] at h4
  rw [hctl]
  unfold immSize
  simp +decide only [his, ↓reduceIte]
  split_ifs <;> simp

/-- `mov eax, 0x12345678` decoded over a cleared instruction and over one that held a
displacement and an immediate: the second keeps the displacement it held, which no operand
reads, and both print alike -/
theorem movImm_ignores_prior :
    Tables.movImm.ReadsImmediates ∧
    ∃ i₁, decodeInto Tables.movImm Instr.zero [0xc7, 0xc0, 0x78, 0x56, 0x34, 0x12] 64 0 = .ok i₁ ∧
    ∃ i₂, decodeInto Tables.movImm { Instr.zero with disp := 5, imm := 7 }
        [0xc7, 0xc0, 0x78, 0x56, 0x34, 0x12] 64 0 = .ok i₂ ∧
      i₁.Agree i₂ ∧ ∀ len, format Tables.movImm i₁ len = format Tables.movImm i₂ len := by
  have hdec : decodeInto Tables.movImm Instr.zero [0xc7, 0xc0, 0x78, 0x56, 0x34, 0x12] 64 0 =
      .ok { long := true, segment := noReg, addrsz := 8, size := 6, imm := 0x12345678,
            operands := #v[{ type := .reg, size := 4, reg := 0, misc := RegType.gpl },
                           { type := .imm, size := 4, misc := RegType.mem },
                           { misc := RegType.gpl }, {}] } := by
    decide +kernel
  obtain ⟨i₂, h₂, hagree, -, hfmt⟩ :=
    decode_ignores_prior movImm_readsImmediates { Instr.zero with disp := 5, imm := 7 } hdec
  exact ⟨movImm_readsImmediates, _, hdec, i₂, h₂, hagree, hfmt⟩

example : (decodeInto Tables.movImm { Instr.zero with disp := 5, imm := 7 }
    [0xc7, 0xc0, 0x78, 0x56, 0x34, 0x12] 64 0).toOption.map (fun i => (i.disp, format Tables.movImm i 64)) =
    some (5, "mov eax, 0x12345678") := by
  decide +kernel

end X86Codec.Decoder
