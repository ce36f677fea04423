import X86Codec.Proofs.PrefixClosed
/-!
Decoding after the prefixes.

Once the prefixes are read, the decoder reads on from where they end and never looks back:
the opening, the walk, the ModRM byte, the SIB byte, the displacement and the immediate are all
read at or past the position each stage starts at. So two windows of one length that hold the
same bytes from the end of their prefixes on (`Window.SameFrom`) decode alike once their
prefixes mean the same. When the tables' roots lead to tables of opcode bytes
(`Tables.RootsRead`) this holds of the byte that stands in for a missing ModRM byte too, which
is the opcode byte the walk read.

Prefixes mean the same when they differ at most in where a REX byte stood (`Prefixes.SameEffect`):
that position only decides, at the end of the prefixes, whether the REX byte counts, and no later
stage reads it.

Main statements:
- `readOperands_sameFrom`: the operands read the same from windows that agree from where they
  start;
- `readOpening_rexAt`: the opening keeps where the REX byte stood and reads nothing of it;
- `decodeWindow_sameFrom`: two windows whose prefixes end at the same place and mean the same,
  and which agree from there on, decode alike.
-/

namespace X86Codec.Decoder

/-! ## Windows that agree from a position on -/

namespace Window

/-- two windows of one length that hold the same bytes, and the same memory after them, from
position `k` on -/
def SameFrom (k : Nat) (w₁ w₂ : Window) : Prop :=
  w₁.len = w₂.len ∧ ∀ i, k ≤ i → w₁.byte i = w₂.byte i

variable {k : Nat} {w₁ w₂ : Window}

theorem SameFrom.load_eq (h : SameFrom k w₁ w₂) :
    ∀ {off : Nat} (n : Nat), k ≤ off → w₁.load off n = w₂.load off n
  | _, 0, _ => rfl
  | off, n + 1, hk => by
    simp only [load]
    rw [h.2 off hk, h.load_eq n (by omega)]

/-- a read from `k` on reads the same number, or finds both windows too short -/
theorem SameFrom.read_eq (h : SameFrom k w₁ w₂) {off : Nat} (n : Nat) (hk : k ≤ off) :
    w₁.read off n = w₂.read off n := by
  simp only [read, h.1, h.load_eq n hk]

/-- windows made of different bytes of one length followed by the same bytes agree from where
those start -/
theorem sameFrom_of_append {A₁ A₂ B : List UInt8} (h₁ : w₁.bytes.toList = A₁ ++ B)
    (h₂ : w₂.bytes.toList = A₂ ++ B) (hlen : A₁.length = A₂.length) (hpast : w₁.past = w₂.past) :
    w₁.SameFrom A₁.length w₂ := by
  have hsize : w₁.bytes.size = w₂.bytes.size := by
    rw [← Array.length_toList, ← Array.length_toList, h₁, h₂]
    simp [hlen]
  refine ⟨hsize, fun i hi => ?_⟩
  have hget : w₁.bytes[i]? = w₂.bytes[i]? := by
    rw [← Array.getElem?_toList, ← Array.getElem?_toList, h₁, h₂, List.getElem?_append_right hi,
      List.getElem?_append_right (hlen ▸ hi), hlen]
  simp only [byte, hget, hsize, hpast]

end Window

/-- two stages that continue alike from every result of the first -/
theorem bind_congr_of_ok {α β : Type} {x : Except DecodeError α} {f g : α → Except DecodeError β}
    (h : ∀ a, x = .ok a → f a = g a) : x >>= f = x >>= g := by
  cases x with
  | error e => rfl
  | ok a => exact h a rfl

/-! ## The stages read from where they start -/

section Stages

variable {k : Nat} {w₁ w₂ : Window} (mode : Mode)

theorem readVex_sameFrom (hw : w₁.SameFrom k w₂) (p : Prefixes) {off : Nat} (hk : k ≤ off)
    (b0 b1 : Nat) : readVex mode w₁ p off b0 b1 = readVex mode w₂ p off b0 b1 := by
  simp only [readVex, hw.read_eq 1 (show k ≤ off + 2 by omega)]

theorem readOpening_sameFrom (hw : w₁.SameFrom k w₂) (p : Prefixes) {off : Nat} (hk : k ≤ off) :
    readOpening mode w₁ p off = readOpening mode w₂ p off := by
  simp only [readOpening, hw.read_eq 1 hk, hw.read_eq 1 (show k ≤ off + 1 by omega),
    readVex_sameFrom mode hw p hk]

/-- the walk reads the opcode byte and looks at the ModRM byte after it -/
theorem walk_sameFrom (t : Tables) (root : Nat) (hw : w₁.SameFrom k w₂) (p : Prefixes) {off : Nat}
    (hk : k ≤ off) : walk t root w₁ p off = walk t root w₂ p off := by
  simp only [walk, walkEntry, hw.1, hw.2 off hk, hw.2 (off + 1) (by omega)]

/-- without a ModRM byte the byte before stands in for it, so the stage reads from one before
where it starts -/
theorem modrmByte_sameFrom (hw : w₁.SameFrom k w₂) (d : DescWords) {off : Nat} (hk : k < off) :
    modrmByte w₁ d off = modrmByte w₂ d off := by
  simp only [modrmByte, hw.read_eq 1 (show k ≤ off by omega), hw.2 (off - 1) (by omega)]

variable {c : Context}

theorem readSib_sameFrom (hw : w₁.SameFrom k w₂) (rm : Nat) {s : Progress} (hk : k ≤ s.off) :
    readSib { c with window := w₁ } rm s = readSib { c with window := w₂ } rm s := by
  simp only [readSib, Context.rexPlus_window, hw.read_eq 1 hk]
  rfl

theorem modrmOperand_sameFrom (hw : w₁.SameFrom k w₂) (opByte : Nat) {s : Progress}
    (hk : k ≤ s.off) :
    modrmOperand { c with window := w₁ } opByte s =
      modrmOperand { c with window := w₂ } opByte s := by
  unfold modrmOperand
  by_cases hm : c.desc.hasModrm = false
  · simp only [hm, Bool.not_false, ↓reduceIte]
  by_cases h3 : (opByte >>> 6) % 4 = 3
  · simp only [hm, h3, Bool.not_true, ↓reduceIte, Context.rexPlus_window]
  simp only [hm, h3, Bool.not_true, Bool.false_eq_true, ↓reduceIte, Context.rexPlus_window]
  rw [readSib_sameFrom hw _ hk]
  refine bind_congr_of_ok fun r hr => ?_
  -- the displacement is read where the SIB byte, if any, ends
  have hoff : k ≤ r.2.2 := hk.trans (readSib_kept (c := { c with window := w₂ }) hr).start_le
  simp only [hw.read_eq 1 hoff, hw.read_eq 4 hoff]

theorem immediate_sameFrom (hw : w₁.SameFrom k w₂) {s : Progress} (hk : k ≤ s.off) :
    immediate { c with window := w₁ } s = immediate { c with window := w₂ } s := by
  simp only [immediate, immSize_window, Progress.off_setOp, hw.read_eq _ hk]

/-- **Operands.** Reading the operands comes out the same on windows that agree from where the
operands start. -/
theorem readOperands_sameFrom (hw : w₁.SameFrom k w₂) (opByte : Nat) {s : Progress}
    (hk : k ≤ s.off) :
    readOperands { c with window := w₁ } opByte s =
      readOperands { c with window := w₂ } opByte s := by
  unfold readOperands
  simp only [Context.is_window, specialRegisters_window, implicitOperand_window,
    modregOperand_window, vexOperand_window]
  -- the VEX operand reads nothing, and the immediate is read past where the first operands end
  have rest : ∀ s₁ : Progress, k ≤ s₁.off →
      (vexOperand c s₁ >>= fun s => immediate { c with window := w₁ } s) =
        (vexOperand c s₁ >>= fun s => immediate { c with window := w₂ } s) :=
    fun s₁ h₁ => bind_congr_of_ok fun s₂ h₂ => immediate_sameFrom hw (vexOperand_off h₂ ▸ h₁)
  by_cases hcr : c.is "MOV_CR" = true
  · simp only [hcr, ↓reduceIte]
    exact bind_congr_of_ok fun s₁ h₁ => rest s₁ (specialRegisters_off h₁ ▸ hk)
  by_cases hdr : c.is "MOV_DR" = true
  · simp only [hcr, hdr, Bool.false_eq_true, ↓reduceIte]
    exact bind_congr_of_ok fun s₁ h₁ => rest s₁ (specialRegisters_off h₁ ▸ hk)
  · simp only [hcr, hdr, Bool.false_eq_true, ↓reduceIte]
    have hk' : k ≤ (modregOperand c opByte (implicitOperand c s)).off := by simpa using hk
    rw [modrmOperand_sameFrom hw opByte hk']
    refine bind_congr_of_ok fun s₁ h₁ => rest s₁ ?_
    exact hk'.trans (modrmOperand_kept (c := { c with window := w₂ }) h₁).start_le

end Stages

/-! ## Where the REX byte stood -/

namespace Prefixes

/-- two prefix states with the same effect on decoding: equal but for where the last REX byte
stood -/
def SameEffect (p q : Prefixes) : Prop := { p with rexAt := none } = { q with rexAt := none }

theorem SameEffect.eq_with {p q : Prefixes} (h : p.SameEffect q) :
    p = { q with rexAt := p.rexAt } := by
  obtain ⟨s, a, b, c, d, e, f, g, h'⟩ := p
  obtain ⟨s', a', b', c', d', e', f', g', h''⟩ := q
  simp only [SameEffect, mk.injEq] at h
  obtain ⟨rfl, rfl, rfl, rfl, rfl, rfl, -, rfl, rfl⟩ := h
  rfl

end Prefixes

/-- **The opening** carries where the REX byte stood through to the prefixes it returns, and
decides nothing by it. -/
theorem readOpening_rexAt (mode : Mode) (w : Window) (p : Prefixes) (off : Nat) (r : Option Nat) :
    readOpening mode w { p with rexAt := r } off =
      (fun x => ({ x.1 with rexAt := r }, x.2)) <$> readOpening mode w p off := by
  unfold readOpening readVex
  cases w.read off 1 with
  | error e => rfl
  | ok b0 =>
    simp only [bind, Except.bind]
    split_ifs
    · -- 0F: the next byte names the opcode map
      cases w.read (off + 1) 1 with
      | error e => rfl
      | ok b1 => dsimp only; split_ifs <;> rfl
    · -- C4 or C5 after 66, a repeat prefix or REX: `LES` or `LDS`, or undefined
      cases w.read (off + 1) 1 with
      | error e => rfl
      | ok b1 => dsimp only; split_ifs <;> rfl
    · -- `LES` or `LDS`, or a three-byte VEX prefix
      cases w.read (off + 1) 1 with
      | error e => rfl
      | ok b1 => dsimp only; split_ifs <;> cases w.read (off + 2) 1 <;> rfl
    · -- `LES` or `LDS`, or a two-byte VEX prefix
      cases w.read (off + 1) 1 with
      | error e => rfl
      | ok b1 => dsimp only; split_ifs <;> rfl
    · rfl

/-! ## Decoding from the end of the opening -/

/-- decoding from the prefixes and the position the opening ends with, on a window in a mode
from a root: the walk, the ModRM byte, the operands and the finish -/
def decodeAfter (t : Tables) (prior : Instr) (w : Window) (mode : Mode) (root : Nat)
    (address : UInt64) (p : Prefixes) (off : Nat) : Except DecodeError Instr := do
  let (d, off) ← walk t root w p off
  let c : Context :=
    { tables := t, mode, window := w, prefixes := p, desc := d,
      opSize := operandSize mode d p,
      vecSize := if hasBit p.rex Rex.vexL then 32 else 16,
      addrSize := addressSize mode p, address }
  let (opByte, off) ← modrmByte w d off
  let s ← readOperands c opByte
    { ops := initialOperands d, off, disp := prior.disp, imm := prior.imm }
  finish c s

theorem decodeWindow_eq {t : Tables} {prior : Instr} {w : Window} {modeNum : Int} {mode : Mode}
    {root : Nat} {address : UInt64} (hm : Mode.ofInt? modeNum = some mode)
    (hr : t.root? modeNum = some root) :
    decodeWindow t prior w modeNum address =
      opening mode w >>= fun x => decodeAfter t prior w mode root address x.1 x.2 := by
  unfold decodeWindow
  simp only [hm, hr]
  rfl

/-- no stage after the opening reads where the REX byte stood -/
theorem decodeAfter_rexAt (t : Tables) (prior : Instr) (w : Window) (mode : Mode) (root : Nat)
    (address : UInt64) (p : Prefixes) (off : Nat) (r : Option Nat) :
    decodeAfter t prior w mode root address { p with rexAt := r } off =
      decodeAfter t prior w mode root address p off := rfl

variable {k : Nat} {w₁ w₂ : Window}

/-- from the end of the opening on, decoding reads nothing before it: the walk reads the opcode
byte there, and every later stage reads past it -/
theorem decodeAfter_sameFrom {t : Tables} (ht : t.RootsRead) (prior : Instr) {modeNum : Int}
    {mode : Mode} {root : Nat} (hr : t.root? modeNum = some root) (address : UInt64)
    {p : Prefixes} (hesc : p.escape < 8) (hw : w₁.SameFrom k w₂) {off : Nat} (hk : k ≤ off) :
    decodeAfter t prior w₁ mode root address p off =
      decodeAfter t prior w₂ mode root address p off := by
  unfold decodeAfter
  rw [walk_sameFrom t root hw p hk]
  refine bind_congr_of_ok fun x hx => ?_
  obtain ⟨d, off₂⟩ := x
  -- the walk read the opcode byte, so the byte that stands in for a ModRM byte is past `k`
  obtain ⟨-, -, rfl⟩ := walk_opcode ht hr hesc hx
  dsimp only
  rw [modrmByte_sameFrom hw d (show k < off + 1 by omega)]
  refine bind_congr_of_ok fun y hy => ?_
  obtain ⟨opByte, off₃⟩ := y
  have h₃ : off + 1 ≤ off₃ := (modrmByte_off hy).1
  let c : Context :=
    { tables := t, mode, window := w₂, prefixes := p, desc := d,
      opSize := operandSize mode d p,
      vecSize := if hasBit p.rex Rex.vexL then 32 else 16,
      addrSize := addressSize mode p, address }
  dsimp only
  rw [readOperands_sameFrom (c := c) hw opByte (show k ≤ off₃ by omega)]
  rfl

/-- **Decoding after the prefixes.** Under the promise about the roots, two windows whose
prefixes end at the same place `k`, mean the same when anything follows them, and whose bytes
agree from `k` on, decode alike. -/
theorem decodeWindow_sameFrom {t : Tables} (ht : t.RootsRead) (prior : Instr) {modeNum : Int}
    {mode : Mode} (hm : Mode.ofInt? modeNum = some mode) (address : UInt64)
    (hw : w₁.SameFrom k w₂) (h₁ : (readPrefixes mode w₁).2 = k)
    (h₂ : (readPrefixes mode w₂).2 = k)
    (hsame : k < w₁.len → (readPrefixes mode w₁).1.SameEffect (readPrefixes mode w₂).1) :
    decodeWindow t prior w₁ modeNum address = decodeWindow t prior w₂ modeNum address := by
  cases hr : t.root? modeNum with
  | none => simp only [decodeWindow, hm, hr]
  | some root =>
    rw [decodeWindow_eq hm hr, decodeWindow_eq hm hr, opening_eq, opening_eq, h₁, h₂]
    by_cases hk : k < w₁.len
    · rw [(hsame hk).eq_with, readOpening_rexAt, readOpening_sameFrom mode hw _ le_rfl,
        bind_map_left]
      refine bind_congr_of_ok fun x hx => ?_
      rw [decodeAfter_rexAt]
      have hesc := opening_escape mode (w := w₂) (by rw [opening_eq, h₂]; exact hx)
      exact decodeAfter_sameFrom ht prior hr address hesc hw (readOpening_off mode hx).2.1
    · -- nothing follows the prefixes: neither opening finds an opcode byte
      rw [readOpening_past_end mode (show w₁.len ≤ k by omega),
        readOpening_past_end mode (show w₂.len ≤ k by rw [← hw.1]; omega)]
      rfl

end X86Codec.Decoder
