import Mathlib.Tactic
import X86Codec.Proofs.WindowPrefix
/-!
Decoding is prefix-closed.

A decoded instruction depends only on its own bytes. Each read of the decoder is checked
against the window's end, and the reads that succeed on a window succeed alike on every prefix
of it that still holds the bytes read; so a successful stage comes out the same on such a
prefix (`Kept`). Two places look at a byte without reading it: the table walk looks at the
ModRM byte to choose among ModRM tables, and in 32-bit mode C4 and C5 look at the next byte to
tell a VEX prefix from `LES` and `LDS`. Both are safe when the tables promise that what was
looked at is read later (`Tables.PeeksRead`): ModRM tables lead only to instructions with a
ModRM byte, the roots lead to tables of opcode bytes, and in 32-bit mode the opcode bytes C4
and C5 lead to ModRM tables.

Main statements:
- `size_le_len`: a decoded instruction is no longer than its window;
- `decodeWindow_keep`: under the tables' promise, a decoded instruction decodes the same from
  every prefix of its window that holds it;
- `decode_prefix_closed`: every shorter string of the bytes of a decoded instruction is
  truncated, every string that starts with them decodes to it, and an undefined instruction
  stays undefined with more bytes after it.
-/

namespace X86Codec.Decoder

/-! ## Kept reads -/

theorem ok_of_bind_eq_ok {α β : Type} {x : Except DecodeError α} {f : α → Except DecodeError β}
    {b : β} (h : x >>= f = .ok b) : ∃ a, x = .ok a ∧ f a = .ok b := by
  cases x with
  | error e => cases h
  | ok a => exact ⟨a, rfl, h⟩

/-- what a successful stage promises, for the stage `run` on any window, started at `start`
on the window `w` and ending with `a` at `stop`: it ends no earlier than it started and
inside the window, and every prefix of the window that holds the bytes up to its end gives
the same result -/
structure Kept {α : Type} (run : Window → Except DecodeError α) (w : Window) (start stop : Nat)
    (a : α) : Prop where
  start_le : start ≤ stop
  le_len : start ≤ w.len → stop ≤ w.len
  keep : ∀ w', w'.IsPrefix w → stop ≤ w'.len → run w' = .ok a

namespace Kept

variable {α β : Type} {w : Window} {start mid stop : Nat}

/-- a stage that reads nothing -/
theorem const {run : Window → Except DecodeError α} {a : α} (h : ∀ w', run w' = .ok a) :
    Kept run w start start a :=
  ⟨le_refl _, id, fun w' _ _ => h w'⟩

/-- two stages, the second started where the first ended -/
theorem bind {run : Window → Except DecodeError α} {k : α → Window → Except DecodeError β}
    {a : α} {b : β} (h : Kept run w start mid a) (hk : Kept (k a) w mid stop b) :
    Kept (fun w' => run w' >>= fun x => k x w') w start stop b where
  start_le := h.start_le.trans hk.start_le
  le_len hs := hk.le_len (h.le_len hs)
  keep w' hw hK := by
    simp only [h.keep w' hw (hk.start_le.trans hK)]
    exact hk.keep w' hw hK

/-- a stage that reads nothing, then a stage that reads -/
theorem const_bind {x : Except DecodeError α} {k : α → Window → Except DecodeError β}
    {a : α} {b : β} (hx : x = .ok a) (hk : Kept (k a) w start stop b) :
    Kept (fun w' => x >>= fun y => k y w') w start stop b :=
  (const (fun _ => hx) : Kept (fun _ => x) w start start a).bind hk

end Kept

theorem Window.IsPrefix.read_keep {w w' : Window} (h : w'.IsPrefix w) {off n v : Nat}
    (hr : w.read off n = .ok v) (hK : off + n ≤ w'.len) : w'.read off n = .ok v :=
  (h.read_eq hK).trans hr

/-- a read of `n` bytes -/
theorem Kept.read {w : Window} {off n v : Nat} (h : w.read off n = .ok v) :
    Kept (fun w' => w'.read off n) w off (off + n) v :=
  ⟨Nat.le_add_right _ _, fun _ => Window.read_ok h, fun _ hw hK => hw.read_keep h hK⟩

/-! ## The operands -/

section Operands

variable {c : Context}

@[simp] theorem Progress.off_setOp (s : Progress) (i : Position) (f : Operand → Operand) :
    (s.setOp i f).off = s.off := rfl

@[simp] theorem implicitOperand_off (s : Progress) : (implicitOperand c s).off = s.off := by
  unfold implicitOperand; split <;> rfl

@[simp] theorem modregOperand_off (opByte : Nat) (s : Progress) :
    (modregOperand c opByte s).off = s.off := by
  unfold modregOperand; split <;> rfl

theorem specialRegisters_off {opByte : Nat} {control : Bool} {s s' : Progress}
    (h : specialRegisters c opByte control s = .ok s') : s'.off = s.off := by
  unfold specialRegisters at h
  dsimp only at h
  split_ifs at h <;> cases h <;> rfl

theorem vexOperand_off {s s' : Progress} (h : vexOperand c s = .ok s') : s'.off = s.off := by
  unfold vexOperand at h
  dsimp only at h
  split at h
  · cases h; rfl
  · split at h
    · cases h
    · cases h; rfl

theorem readSib_kept {rm : Nat} {s : Progress} {r : Nat × Nat × Nat}
    (h : readSib c rm s = .ok r) :
    Kept (fun w' => readSib { c with window := w' } rm s) c.window s.off r.2.2 r := by
  unfold readSib at h ⊢
  by_cases hrm : rm = 4
  · simp only [hrm, ↓reduceIte] at h ⊢
    obtain ⟨sib, hr, h⟩ := ok_of_bind_eq_ok h
    cases h
    exact (Kept.read hr).bind (Kept.const fun _ => rfl)
  · simp only [hrm, ↓reduceIte] at h ⊢
    split at h
    · cases h
    · cases h
      exact Kept.const fun _ => by simp_all [pure, Except.pure]

theorem modrmOperand_kept {opByte : Nat} {s s' : Progress}
    (h : modrmOperand c opByte s = .ok s') :
    Kept (fun w' => modrmOperand { c with window := w' } opByte s) c.window s.off s'.off s' := by
  unfold modrmOperand at h ⊢
  by_cases hm : c.desc.hasModrm = false
  · simp only [hm, Bool.not_false, ↓reduceIte] at h ⊢
    cases h
    exact Kept.const fun _ => rfl
  · simp only [hm, Bool.not_true, Bool.false_eq_true, ↓reduceIte] at h ⊢
    by_cases h3 : (opByte >>> 6) % 4 = 3
    · simp only [h3, ↓reduceIte] at h ⊢
      cases h
      exact Kept.const fun _ => rfl
    · simp only [h3, ↓reduceIte, Context.rexPlus_window] at h ⊢
      obtain ⟨⟨base, misc, off₁⟩, hsib, h⟩ := ok_of_bind_eq_ok h
      refine (readSib_kept hsib).bind ?_
      dsimp only at h ⊢
      -- the displacement: one byte, four bytes, or none
      by_cases h1 : (opByte >>> 6) % 4 = 1
      · simp only [h1, ↓reduceIte] at h ⊢
        obtain ⟨disp, hd, h⟩ := ok_of_bind_eq_ok h
        cases h
        exact (Kept.read hd).bind (Kept.const fun _ => rfl)
      · by_cases h2 : (opByte >>> 6) % 4 = 2 ∨ ((opByte >>> 6) % 4 = 0 ∧ base = 5)
        · simp only [h1, h2, ↓reduceIte] at h ⊢
          obtain ⟨disp, hd, h⟩ := ok_of_bind_eq_ok h
          cases h
          exact (Kept.read hd).bind (Kept.const fun _ => rfl)
        · simp only [h1, h2, ↓reduceIte] at h ⊢
          cases h
          exact Kept.const fun _ => rfl

theorem immediate_kept {s s' : Progress} (h : immediate c s = .ok s') :
    Kept (fun w' => immediate { c with window := w' } s) c.window s.off s'.off s' := by
  unfold immediate at h ⊢
  dsimp only [immSize_window]
  split at h
  next => cases h; exact Kept.const fun _ => rfl
  next => cases h; exact Kept.const fun _ => rfl
  next =>
    simp only [Progress.off_setOp] at h ⊢
    obtain ⟨disp, hd, h⟩ := ok_of_bind_eq_ok h
    cases h
    exact (Kept.read hd).bind (Kept.const fun _ => rfl)
  next =>
    simp only [Progress.off_setOp] at h ⊢
    obtain ⟨b, hd, h⟩ := ok_of_bind_eq_ok h
    cases h
    exact (Kept.read hd).bind (Kept.const fun _ => rfl)
  next =>
    simp only [Progress.off_setOp] at h ⊢
    obtain ⟨raw, hd, h⟩ := ok_of_bind_eq_ok h
    -- the relative forms only change the immediate, so every form ends past the bytes read
    have hoff : s'.off = s.off + immSize c c.desc.immControl := by
      split at h
      · split at h <;> (cases h; rfl)
      · cases h; rfl
    rw [hoff]
    exact (Kept.read hd).bind (Kept.const fun _ => h)

/-- **Operands.** Reading the operands comes out the same on every prefix of the window that
holds what they read. -/
theorem readOperands_kept {opByte : Nat} {s s' : Progress} (h : readOperands c opByte s = .ok s') :
    Kept (fun w' => readOperands { c with window := w' } opByte s) c.window s.off s'.off s' := by
  unfold readOperands at h ⊢
  dsimp only [Context.is_window, specialRegisters_window, implicitOperand_window,
    modregOperand_window, vexOperand_window] at h ⊢
  -- the VEX operand reads nothing, and the immediate starts where the first operands end
  have rest : ∀ s₁, (vexOperand c s₁ >>= fun s => immediate c s) = .ok s' →
      Kept (fun w' => vexOperand c s₁ >>= fun s => immediate { c with window := w' } s)
        c.window s₁.off s'.off s' := by
    intro s₁ h
    obtain ⟨s₂, h₂, h₃⟩ := ok_of_bind_eq_ok h
    have k₃ := immediate_kept h₃
    rw [vexOperand_off h₂] at k₃
    exact Kept.const_bind h₂ k₃
  by_cases hcr : c.is "MOV_CR" = true
  · simp only [hcr, ↓reduceIte] at h ⊢
    obtain ⟨s₁, h₁, h⟩ := ok_of_bind_eq_ok h
    have k₂ := rest s₁ h
    rw [specialRegisters_off h₁] at k₂
    exact Kept.const_bind h₁ k₂
  · by_cases hdr : c.is "MOV_DR" = true
    · simp only [hcr, hdr, Bool.false_eq_true, ↓reduceIte] at h ⊢
      obtain ⟨s₁, h₁, h⟩ := ok_of_bind_eq_ok h
      have k₂ := rest s₁ h
      rw [specialRegisters_off h₁] at k₂
      exact Kept.const_bind h₁ k₂
    · simp only [hcr, hdr, Bool.false_eq_true, ↓reduceIte] at h ⊢
      obtain ⟨s₁, h₁, h⟩ := ok_of_bind_eq_ok h
      have k₁ := modrmOperand_kept h₁
      simp only [modregOperand_off, implicitOperand_off] at k₁
      exact k₁.bind (rest s₁ h)

theorem modrmByte_kept {w : Window} {d : DescWords} {off : Nat} {r : Nat × Nat}
    (h : modrmByte w d off = .ok r) (hpos : 0 < off) :
    Kept (fun w' => modrmByte w' d off) w off r.2 r := by
  unfold modrmByte at h ⊢
  by_cases hm : d.modrm = true
  · simp only [hm, ↓reduceIte] at h ⊢
    obtain ⟨m, hr, h⟩ := ok_of_bind_eq_ok h
    cases h
    exact (Kept.read hr).bind (Kept.const fun _ => rfl)
  · -- without a ModRM byte the opcode byte before `off` stands in for it
    simp only [hm, Bool.false_eq_true, ↓reduceIte, pure, Except.pure, Except.ok.injEq] at h ⊢
    subst h
    exact ⟨le_refl _, id, fun w' hw hK => by rw [hw.byte_eq (by omega)]⟩

end Operands

/-! ## The opening -/

section Opening

variable {w w' : Window} (mode : Mode)

theorem Prefixes.add_escape {p q : Prefixes} {off b : Nat} (h : p.add mode off b = some q) :
    q.escape = p.escape := by
  unfold Prefixes.add at h
  repeat' split at h
  all_goals cases h <;> rfl

theorem scan_escape : ∀ (l : List Nat) (off : Nat) (p : Prefixes),
    (Prefixes.scan mode l off p).1.escape = p.escape
  | [], _, _ => rfl
  | b :: bs, off, p => by
    simp only [Prefixes.scan]
    split
    · next q hq => rw [scan_escape bs (off + 1) q, Prefixes.add_escape mode hq]
    · rfl

/-- the prefixes before the opening choose no opcode map -/
theorem readPrefixes_escape (w : Window) : (readPrefixes mode w).1.escape = 0 := by
  have h := scan_escape mode (w.bytes.toList.map (·.toNat)) 0 {}
  unfold readPrefixes
  split
  split <;> simp_all

theorem readPrefixes_keep (h : w'.IsPrefix w) (hK : (readPrefixes mode w).2 < w'.len) :
    readPrefixes mode w' = readPrefixes mode w := by
  rcases readPrefixes_shorter mode h with heq | ⟨-, hle⟩
  · exact heq
  · omega

theorem Window.read_one {off v : Nat} (h : w.read off 1 = .ok v) : v = w.byte off := by
  unfold Window.read at h
  split at h
  · cases h
  · cases h; simp [Window.load]

@[simp] theorem Prefixes.vexTail_escape (p : Prefixes) (b : Nat) :
    (p.vexTail b).escape = p.escape := rfl

/-- a VEX prefix chooses one of the opcode maps four to seven -/
theorem readVex_escape {p p' : Prefixes} {off b0 b1 off' : Nat}
    (h : readVex mode w p off b0 b1 = .ok (p', off')) : 4 ≤ p'.escape ∧ p'.escape < 8 := by
  unfold readVex at h
  by_cases hb0 : b0 = 0xc4
  · by_cases hx : hasBit b1 0x1c = true
    · simp [hb0, hx, throw, throwThe, MonadExceptOf.throw] at h
    · simp only [hb0, hx, ↓reduceIte, Bool.false_eq_true] at h
      obtain ⟨b2, -, h⟩ := ok_of_bind_eq_ok h
      simp only [pure, Except.pure, Except.ok.injEq, Prod.mk.injEq] at h
      rw [← h.1, Prefixes.vexTail_escape]
      exact ⟨Nat.right_le_or, Nat.or_lt_two_pow (n := 3) (Nat.and_lt_two_pow _ (by norm_num))
        (by norm_num)⟩
  · simp only [hb0, ↓reduceIte, pure, Except.pure, Except.ok.injEq, Prod.mk.injEq] at h
    rw [← h.1, Prefixes.vexTail_escape]
    exact ⟨by norm_num, by norm_num⟩

theorem readVex_keep {p p' : Prefixes} {off b0 b1 off' : Nat}
    (h : readVex mode w p off b0 b1 = .ok (p', off')) (hw : w'.IsPrefix w)
    (hK : off' ≤ w'.len) : readVex mode w' p off b0 b1 = .ok (p', off') := by
  have hoff := readVex_off mode h
  unfold readVex at h ⊢
  by_cases hb0 : b0 = 0xc4
  · by_cases hx : hasBit b1 0x1c = true
    · simp [hb0, hx, throw, throwThe, MonadExceptOf.throw] at h
    · simp only [hb0, hx, ↓reduceIte, Bool.false_eq_true] at h ⊢
      obtain ⟨b2, hr, h'⟩ := ok_of_bind_eq_ok h
      -- the three-byte form ends past its third byte
      have h3 : off' = off + 3 := by
        simp only [pure, Except.pure, Except.ok.injEq, Prod.mk.injEq] at h'
        exact h'.2.symm
      rw [hw.read_keep hr (by omega)]
      rw [hr] at h
      exact h
  · simp only [hb0, ↓reduceIte] at h ⊢
    exact h

/-- **The opening.** An opening comes out the same on every prefix of the window that holds
the opcode byte after it and, for `LES` and `LDS` in 32-bit mode, the byte after that, which
tells them from a VEX prefix. -/
theorem readOpening_keep {p p' : Prefixes} {off off' : Nat}
    (h : readOpening mode w p off = .ok (p', off')) (hw : w'.IsPrefix w) (hK : off' < w'.len)
    (hles : off' = off → (w.byte off = 0xc4 ∨ w.byte off = 0xc5) → off + 2 ≤ w'.len) :
    readOpening mode w' p off = .ok (p', off') := by
  have hoff := readOpening_off mode h
  unfold readOpening at h ⊢
  cases h0 : w.read off 1 with
  | error e => simp [h0, bind, Except.bind] at h
  | ok b0 =>
    have hb0 := Window.read_one h0
    simp only [h0, hw.read_keep h0 (by omega), bind, Except.bind] at h ⊢
    by_cases hf : b0 = 0x0f
    · simp only [hf, ↓reduceIte] at h ⊢
      cases h1 : w.read (off + 1) 1 with
      | error e => simp [h1] at h
      | ok b1 =>
        simp only [h1] at h
        -- after 0F the opening ends past the byte that names the opcode map or at it
        have h2 : off + 1 ≤ off' := by
          split_ifs at h <;> simp only [pure, Except.pure, Except.ok.injEq, Prod.mk.injEq] at h <;>
            omega
        simp only [hw.read_keep h1 (by omega)]
        exact h
    · by_cases hv : b0 = 0xc4 ∨ b0 = 0xc5
      · simp only [hf, hv, ↓reduceIte] at h ⊢
        cases h1 : w.read (off + 1) 1 with
        | error e => simp [h1] at h
        | ok b1 =>
          simp only [h1] at h
          by_cases hl : mode = .bits32 ∧ b1 / 64 ≠ 3
          · -- `LES` or `LDS`: the opening ends at C4 or C5, having looked at the byte after it
            rw [if_pos hl] at h
            simp only [pure, Except.pure, Except.ok.injEq, Prod.mk.injEq] at h
            obtain ⟨rfl, rfl⟩ := h
            simp only [hw.read_keep h1 (hles rfl (hb0 ▸ hv)), if_pos hl]
            rfl
          · rw [if_neg hl] at h
            by_cases hud : (p.p66 || p.rep ≠ 0 || p.rex ≠ 0) = true
            · rw [if_pos hud] at h
              cases h
            · rw [if_neg hud] at h
              have h2 := readVex_off mode h
              simp only [hw.read_keep h1 (by omega), if_neg hl, if_neg hud]
              exact readVex_keep mode h hw (by omega)
      · simp only [hf, hv, ↓reduceIte] at h ⊢
        exact h

/-- an opening chooses an opcode map past where it starts, or keeps the prefixes and ends
where it starts; it ends at C4 or C5 only in 32-bit mode, having looked at the byte after -/
theorem readOpening_cases {p p' : Prefixes} {off off' : Nat}
    (h : readOpening mode w p off = .ok (p', off')) :
    (1 ≤ p'.escape ∧ p'.escape < 8 ∧ off + 1 ≤ off') ∨
      (p' = p ∧ off' = off ∧
        ((w.byte off = 0xc4 ∨ w.byte off = 0xc5) → mode = .bits32 ∧ off + 2 ≤ w.len)) := by
  unfold readOpening at h
  cases h0 : w.read off 1 with
  | error e => simp [h0, bind, Except.bind] at h
  | ok b0 =>
    have hb0 := Window.read_one h0
    simp only [h0, bind, Except.bind] at h
    by_cases hf : b0 = 0x0f
    · simp only [hf, ↓reduceIte] at h
      cases h1 : w.read (off + 1) 1 with
      | error e => simp [h1] at h
      | ok b1 =>
        simp only [h1] at h
        left
        split_ifs at h <;> simp only [pure, Except.pure, Except.ok.injEq, Prod.mk.injEq] at h <;>
          (obtain ⟨rfl, rfl⟩ := h; simp)
    · by_cases hv : b0 = 0xc4 ∨ b0 = 0xc5
      · simp only [hf, hv, ↓reduceIte] at h
        cases h1 : w.read (off + 1) 1 with
        | error e => simp [h1] at h
        | ok b1 =>
          simp only [h1] at h
          by_cases hl : mode = .bits32 ∧ b1 / 64 ≠ 3
          · rw [if_pos hl] at h
            simp only [pure, Except.pure, Except.ok.injEq, Prod.mk.injEq] at h
            obtain ⟨rfl, rfl⟩ := h
            have hlen := Window.read_ok h1
            exact Or.inr ⟨rfl, rfl, fun _ => ⟨hl.1, by omega⟩⟩
          · rw [if_neg hl] at h
            by_cases hud : (p.p66 || p.rep ≠ 0 || p.rex ≠ 0) = true
            · rw [if_pos hud] at h
              cases h
            · rw [if_neg hud] at h
              have he := readVex_escape mode h
              have ho := readVex_off mode h
              exact Or.inl ⟨by omega, he.2, by omega⟩
      · simp only [hf, hv, ↓reduceIte, pure, Except.pure, Except.ok.injEq, Prod.mk.injEq] at h
        obtain ⟨rfl, rfl⟩ := h
        refine Or.inr ⟨rfl, rfl, fun hb => ?_⟩
        subst hb0
        exact absurd hb hv

/-- the opening chooses one of the eight opcode maps -/
theorem opening_escape {p : Prefixes} {off : Nat} (h : opening mode w = .ok (p, off)) :
    p.escape < 8 := by
  rw [opening_eq] at h
  rcases readOpening_cases mode h with ⟨-, he, -⟩ | ⟨rfl, -, -⟩
  · exact he
  · rw [readPrefixes_escape]
    decide

/-- an opening that chooses no opcode map and ends at C4 or C5 is `LES` or `LDS` in 32-bit
mode, and the byte after it is in the window -/
theorem opening_les {p : Prefixes} {off : Nat} (h : opening mode w = .ok (p, off))
    (h0 : p.escape = 0) (hb : w.byte off = 0xc4 ∨ w.byte off = 0xc5) :
    mode = .bits32 ∧ off + 2 ≤ w.len := by
  rw [opening_eq] at h
  rcases readOpening_cases mode h with ⟨he, -, -⟩ | ⟨-, rfl, hles⟩
  · omega
  · exact hles hb

theorem opening_keep {p : Prefixes} {off : Nat} (h : opening mode w = .ok (p, off))
    (hw : w'.IsPrefix w) (hK : off < w'.len)
    (hles : p.escape = 0 → (w.byte off = 0xc4 ∨ w.byte off = 0xc5) → off + 2 ≤ w'.len) :
    opening mode w' = .ok (p, off) := by
  rw [opening_eq] at h ⊢
  have ho := readOpening_off mode h
  rw [readPrefixes_keep mode hw (by omega)]
  refine readOpening_keep mode h hw hK fun hoff hb => ?_
  rcases readOpening_cases mode h with ⟨-, -, h1⟩ | ⟨rfl, -, -⟩
  · omega
  · exact hoff ▸ hles (readPrefixes_escape mode w) (hoff ▸ hb)

end Opening

/-! ## What the tables promise -/

namespace Tables

/-- every instruction the entry leads to has a ModRM byte -/
def ModrmAt (t : Tables) (e : Nat × Nat) : Prop := ∀ d, t.instrAt e = .ok d → d.modrm = true

instance (t : Tables) (e : Nat × Nat) : Decidable (t.ModrmAt e) :=
  decidable_of_iff (e.1 = WordKind.instr → (t.descs.getD (e.2 / 4) {}).modrm = true) (by
    unfold ModrmAt instrAt
    by_cases h : e.1 = WordKind.instr <;> simp [h])

/-- **The tables' promise** that the walk looks only at bytes that the instruction reads:
ModRM tables lead only to instructions with a ModRM byte; the entries of each root for the
eight opcode maps are tables of opcode bytes or empty; and in 32-bit mode the opcode bytes C4
and C5 (`LES` and `LDS`, where they are no VEX prefix) lead to ModRM tables. -/
structure PeeksRead (t : Tables) : Prop where
  modrm_tables : ∀ x < t.words.size, (t.step x 0).1 = WordKind.modrm →
    ∀ m < 256, ∀ v < 4, t.ModrmAt (t.vexEntry (t.modrmEntry (t.step x 0).2 m) v)
  root_tables : ∀ rt ∈ t.roots, ∀ e < 8,
    (t.step rt.2 e).1 = WordKind.empty ∨ (t.step rt.2 e).1 = WordKind.byte
  les_lds : ∀ r, t.root? 32 = some r → ∀ b, b = 0xc4 ∨ b = 0xc5 →
    (t.step (t.step r 0).2 b).1 = WordKind.modrm

variable {t : Tables}

theorem step_eq_add (t : Tables) (a b : Nat) : t.step a b = t.step (a + b) 0 := by
  simp [step]

/-- past the words every entry is empty -/
theorem lt_size_of_step {x : Nat} (h : (t.step x 0).1 ≠ WordKind.empty) : x < t.words.size := by
  by_contra hx
  apply h
  simp [step, Array.getD, show ¬ x < t.words.size from hx, WordKind.empty]

theorem PeeksRead.modrm_step (ht : t.PeeksRead) {a b m v : Nat}
    (hk : (t.step a b).1 = WordKind.modrm) (hm : m < 256) (hv : v < 4) :
    t.ModrmAt (t.vexEntry (t.modrmEntry (t.step a b).2 m) v) := by
  rw [step_eq_add] at hk ⊢
  exact ht.modrm_tables _ (lt_size_of_step (by rw [hk]; decide)) hk m hm v hv

/-- the part of the promise about the roots: each root leads, for each of the eight opcode maps,
to a table of opcode bytes or to nothing -/
def RootsRead (t : Tables) : Prop :=
  ∀ rt ∈ t.roots, ∀ e < 8, (t.step rt.2 e).1 = WordKind.empty ∨ (t.step rt.2 e).1 = WordKind.byte

theorem PeeksRead.rootsRead (ht : t.PeeksRead) : t.RootsRead := ht.root_tables

theorem RootsRead.root_step (ht : t.RootsRead) {mode : Int} {r e : Nat}
    (hr : t.root? mode = some r) (he : e < 8) :
    (t.step r e).1 = WordKind.empty ∨ (t.step r e).1 = WordKind.byte := by
  unfold root? at hr
  obtain ⟨rt, hfind, rfl⟩ := Option.map_eq_some_iff.1 hr
  exact ht rt (List.mem_of_find?_eq_some hfind) e he

end Tables

/-! ## The walk -/

section Walk

variable {w w' : Window} {t : Tables}

theorem Window.byte_lt (w : Window) (i : Nat) : w.byte i < 256 :=
  UInt8.toNat_lt _

theorem Prefixes.vexIndex_lt (p : Prefixes) : p.vexIndex < 4 := by
  unfold Prefixes.vexIndex
  split_ifs <;> decide

theorem walkEntry_empty (w : Window) (p : Prefixes) (i off : Nat) :
    walkEntry t w p (WordKind.empty, i) off = (WordKind.empty, i) := by
  simp [walkEntry, Tables.vexEntry, WordKind.empty, WordKind.mandatory, WordKind.modrm,
    WordKind.vex]

/-- the entry after a ModRM table whose ModRM byte is in the window -/
theorem walkEntry_modrm (p : Prefixes) {e : Nat × Nat} {off : Nat}
    (hk : e.1 = WordKind.modrm) (hoff : off < w.len) :
    walkEntry t w p e off = t.vexEntry (t.modrmEntry e.2 (w.byte off)) p.vexIndex := by
  simp [walkEntry, hk, hoff, WordKind.modrm, WordKind.mandatory]

/-- an instruction found through a ModRM table has a ModRM byte -/
theorem walkEntry_modrm_instr (ht : t.PeeksRead) (p : Prefixes) {a b off : Nat} {d : DescWords}
    (hk : (t.step a b).1 = WordKind.modrm) (hoff : off < w.len)
    (hd : t.instrAt (walkEntry t w p (t.step a b) off) = .ok d) : d.modrm = true := by
  rw [walkEntry_modrm p hk hoff] at hd
  exact ht.modrm_step hk (Window.byte_lt w off) (Prefixes.vexIndex_lt p) d hd

/-- on a prefix of the window the walk ends on the same entry, when the window holds the ModRM
byte of an instruction that has one -/
theorem walkEntry_keep (ht : t.PeeksRead) (p : Prefixes) {a b off : Nat} {d : DescWords}
    (hd : t.instrAt (walkEntry t w p (t.step a b) off) = .ok d) (hw : w'.IsPrefix w)
    (hmod : d.modrm = true → off < w'.len) :
    walkEntry t w' p (t.step a b) off = walkEntry t w p (t.step a b) off := by
  -- the entry after the mandatory prefix table is an entry of the tables too
  obtain ⟨a', b', he⟩ : ∃ a' b', (if (t.step a b).1 = WordKind.mandatory then
      t.step (t.step a b).2 p.mandatory else t.step a b) = t.step a' b' := by
    split
    · exact ⟨_, _, rfl⟩
    · exact ⟨_, _, rfl⟩
  unfold walkEntry at hd ⊢
  rw [he] at hd ⊢
  by_cases hk : (t.step a' b').1 = WordKind.modrm
  · by_cases hoff : off < w'.len
    · simp only [hk, hoff, lt_of_lt_of_le hoff hw.len_le, and_self, ↓reduceIte, hw.byte_eq hoff]
    · by_cases hoffw : off < w.len
      · -- the whole window holds the ModRM byte, so the instruction reads it
        simp only [hk, hoffw, and_self, ↓reduceIte] at hd
        exact absurd (hmod (ht.modrm_step hk (Window.byte_lt w off) (Prefixes.vexIndex_lt p) d hd))
          hoff
      · simp only [hoff, hoffw, and_false, ↓reduceIte]
  · simp only [hk, false_and, ↓reduceIte]

theorem instrAt_empty (i : Nat) : t.instrAt (WordKind.empty, i) = .error .undefined := by
  simp [Tables.instrAt, WordKind.empty, WordKind.instr]

theorem instrAt_byte (i : Nat) : t.instrAt (WordKind.byte, i) = .error .truncated := by
  simp [Tables.instrAt, WordKind.byte, WordKind.instr, WordKind.empty]

/-- a walk from a root that finds an instruction reads its opcode byte -/
theorem walk_opcode (ht : t.RootsRead) {mode : Int} {root : Nat} {p : Prefixes} {off off' : Nat}
    {d : DescWords} (hr : t.root? mode = some root) (hesc : p.escape < 8)
    (h : walk t root w p off = .ok (d, off')) :
    (t.step root p.escape).1 = WordKind.byte ∧ off < w.len ∧ off' = off + 1 := by
  unfold walk at h
  dsimp only at h
  have hpair : t.step root p.escape = ((t.step root p.escape).1, (t.step root p.escape).2) := rfl
  by_cases hb : (t.step root p.escape).1 = WordKind.byte ∧ off < w.len
  · rw [if_pos hb] at h
    obtain ⟨-, rfl⟩ := map_pair_ok h
    exact ⟨hb.1, hb.2, rfl⟩
  · -- without its opcode byte the walk stops at the root, whose entry is empty or a table
    rw [if_neg hb] at h
    obtain ⟨hd, -⟩ := map_pair_ok h
    rw [hpair] at hd
    rcases ht.root_step hr hesc with he | he
    · rw [he, walkEntry_empty, instrAt_empty] at hd
      cases hd
    · rw [he, walkEntry_byte, instrAt_byte] at hd
      cases hd

/-- `LES` and `LDS` found from the 32-bit root have a ModRM byte -/
theorem walk_les (ht : t.PeeksRead) {root : Nat} {p : Prefixes} {off off' : Nat} {d : DescWords}
    (hr : t.root? 32 = some root) (hp : p.escape = 0)
    (hb : w.byte off = 0xc4 ∨ w.byte off = 0xc5) (hlen : off + 2 ≤ w.len)
    (h : walk t root w p off = .ok (d, off')) : d.modrm = true := by
  obtain ⟨hbyte, hoff, -⟩ := walk_opcode ht.rootsRead hr (by rw [hp]; decide) h
  unfold walk at h
  dsimp only at h
  rw [if_pos ⟨hbyte, hoff⟩] at h
  obtain ⟨hd, -⟩ := map_pair_ok h
  rw [hp] at hd
  exact walkEntry_modrm_instr ht p (ht.les_lds root hr _ hb) (by omega) hd

/-- **The walk.** The walk finds the same instruction on every prefix of the window that holds
its opcode byte and, when it has one, its ModRM byte. -/
theorem walk_keep (ht : t.PeeksRead) {root : Nat} {p : Prefixes} {off off' : Nat}
    {d : DescWords} (h : walk t root w p off = .ok (d, off')) (hw : w'.IsPrefix w)
    (hK : off' ≤ w'.len) (hmod : d.modrm = true → off' < w'.len) :
    walk t root w' p off = .ok (d, off') := by
  unfold walk at h ⊢
  dsimp only at h ⊢
  by_cases hb : (t.step root p.escape).1 = WordKind.byte ∧ off < w.len
  · rw [if_pos hb] at h
    obtain ⟨hd, rfl⟩ := map_pair_ok h
    have hoff : off < w'.len := by omega
    rw [if_pos ⟨hb.1, hoff⟩, hw.byte_eq hoff, walkEntry_keep ht p hd hw hmod, hd]
    rfl
  · rw [if_neg hb] at h
    obtain ⟨hd, rfl⟩ := map_pair_ok h
    have hb' : ¬ ((t.step root p.escape).1 = WordKind.byte ∧ off' < w'.len) :=
      fun h' => hb ⟨h'.1, lt_of_lt_of_le h'.2 hw.len_le⟩
    rw [if_neg hb', walkEntry_keep ht p hd hw hmod, hd]
    rfl

end Walk

/-! ## Decoding -/

theorem finish_size {c : Context} {s : Progress} {r : Instr} (h : finish c s = .ok r) :
    r.size = s.off := by
  unfold finish at h
  dsimp only at h
  split_ifs at h <;> cases h <;> rfl

theorem modrmByte_off {w : Window} {d : DescWords} {off : Nat} {r : Nat × Nat}
    (h : modrmByte w d off = .ok r) : off ≤ r.2 ∧ (off ≤ w.len → r.2 ≤ w.len) := by
  unfold modrmByte at h
  split at h
  · obtain ⟨m, hr, h⟩ := ok_of_bind_eq_ok h
    cases h
    have := Window.read_ok hr
    exact ⟨Nat.le_add_right _ _, fun _ => this⟩
  · cases h
    exact ⟨le_refl _, id⟩

theorem modrmByte_modrm {w : Window} {d : DescWords} {off : Nat} {r : Nat × Nat}
    (h : modrmByte w d off = .ok r) (hm : d.modrm = true) : r.2 = off + 1 := by
  unfold modrmByte at h
  rw [if_pos hm] at h
  obtain ⟨m, -, h⟩ := ok_of_bind_eq_ok h
  cases h
  rfl

theorem Mode.ofInt?_bits32 {n : Int} (h : Mode.ofInt? n = some .bits32) : n = 32 := by
  unfold Mode.ofInt? at h
  split at h <;> simp_all

/-- **Size.** A decoded instruction is no longer than its window. -/
theorem size_le_len {t : Tables} {prior : Instr} {w : Window} {modeNum : Int} {address : UInt64}
    {r : Instr} (h : decodeWindow t prior w modeNum address = .ok r) : r.size ≤ w.len := by
  unfold decodeWindow at h
  split at h
  next mode _ =>
    split at h
    next root _ =>
      obtain ⟨⟨p, off₁⟩, hop, h⟩ := ok_of_bind_eq_ok h
      obtain ⟨⟨d, off₂⟩, hwalk, h⟩ := ok_of_bind_eq_ok h
      obtain ⟨⟨opByte, off₃⟩, hmb, h⟩ := ok_of_bind_eq_ok h
      obtain ⟨s, hops, hfin⟩ := ok_of_bind_eq_ok h
      have h₁ := (opening_off mode hop).1
      have h₂ := (walk_off t hwalk).2 h₁
      have h₃ := (modrmByte_off hmb).2 h₂
      have h₄ : s.off ≤ w.len := (readOperands_kept hops).le_len h₃
      rw [finish_size hfin]
      exact h₄
    next => cases h
  next => cases h

/-- **Keeping the bytes of an instruction.** Under the tables' promise, an instruction decoded
from a window decodes the same from every prefix of the window that holds it. -/
theorem decodeWindow_keep {t : Tables} (ht : t.PeeksRead) {prior : Instr} {w w' : Window}
    {modeNum : Int} {address : UInt64} {r : Instr} (hw : w'.IsPrefix w)
    (h : decodeWindow t prior w modeNum address = .ok r) (hK : r.size ≤ w'.len) :
    decodeWindow t prior w' modeNum address = .ok r := by
  unfold decodeWindow at h ⊢
  split at h
  next mode hmode =>
    split at h
    next root hroot =>
      obtain ⟨⟨p, off₁⟩, hop, h⟩ := ok_of_bind_eq_ok h
      obtain ⟨⟨d, off₂⟩, hwalk, h⟩ := ok_of_bind_eq_ok h
      obtain ⟨⟨opByte, off₃⟩, hmb, h⟩ := ok_of_bind_eq_ok h
      obtain ⟨s, hops, hfin⟩ := ok_of_bind_eq_ok h
      rw [finish_size hfin] at hK
      obtain ⟨-, hoff₁, hoff₂⟩ := walk_opcode ht.rootsRead hroot (opening_escape mode hop) hwalk
      have kb := modrmByte_kept hmb (by omega)
      have ko := readOperands_kept hops
      have h₂₃ : off₂ ≤ off₃ := kb.start_le
      have hK₃ : off₃ ≤ w'.len := ko.start_le.trans hK
      -- the ModRM byte the walk looked at is read next
      have hmod : d.modrm = true → off₂ < w'.len := fun hm => by
        have := modrmByte_modrm hmb hm
        simp only at this
        omega
      -- so is the byte after C4 or C5 that `LES` and `LDS` looked at
      have hles : p.escape = 0 → (w.byte off₁ = 0xc4 ∨ w.byte off₁ = 0xc5) →
          off₁ + 2 ≤ w'.len := fun h0 hb => by
        obtain ⟨rfl, hlen⟩ := opening_les mode hop h0 hb
        rw [Mode.ofInt?_bits32 hmode] at hroot
        have := hmod (walk_les ht hroot h0 hb hlen hwalk)
        omega
      have hmb' : modrmByte w' d off₂ = .ok (opByte, off₃) := kb.keep w' hw hK₃
      have hops' := ko.keep w' hw hK
      dsimp only at hops'
      simp only [opening_keep mode hop hw (by omega) hles, walk_keep ht hwalk hw (by omega) hmod,
        hmb', hops', bind, Except.bind]
      exact (finish_window _ w' s).trans hfin
    next => cases h
  next => cases h

/-! ## Byte strings -/

theorem Window.of_isPrefix {s' s : List UInt8} (h : s' <+: s) :
    (Window.of s').IsPrefix (Window.of s) := by
  simpa [Window.IsPrefix, Window.of] using h.take 15

theorem Window.len_of (s : List UInt8) : (Window.of s).len = min s.length 15 := by
  simp [Window.len, Window.of, Nat.min_comm]

/-- **Decoding is prefix-closed.** Every string of fewer bytes than a decoded instruction is
truncated; under the tables' promise every string that starts with the bytes of a decoded
instruction decodes to it; and an undefined instruction stays undefined whatever bytes follow
its first fifteen. -/
theorem decode_prefix_closed {t : Tables} (ht : t.PeeksRead) (prior : Instr) (modeNum : Int)
    (address : UInt64) (s : List UInt8) :
    (∀ r, decodeInto t prior s modeNum address = .ok r →
      (∀ n < r.size, decodeInto t prior (s.take n) modeNum address = .error .truncated) ∧
      ∀ s' : List UInt8, s'.take r.size = s.take r.size →
        decodeInto t prior s' modeNum address = .ok r) ∧
    (decodeInto t prior s modeNum address = .error .undefined →
      ∀ s' : List UInt8, s'.take (min s.length 15) = s.take (min s.length 15) →
        decodeInto t prior s' modeNum address = .error .undefined) := by
  unfold decodeInto
  refine ⟨fun r h => ⟨fun n hn => ?_, fun s' hs' => ?_⟩, fun h s' hs' => ?_⟩
  · -- fewer bytes: the same instruction could not fit, so the result is truncated
    rcases decodeWindow_shorter t prior (Window.of_isPrefix (List.take_prefix n s)) modeNum
      address with heq | htr
    · have := size_le_len (heq.trans h)
      rw [Window.len_of, List.length_take] at this
      omega
    · exact htr
  · -- the bytes of the instruction alone decode to it, and so does every string they start
    have hsize := size_le_len h
    rw [Window.len_of] at hsize
    have hu : decodeWindow t prior (Window.of (s.take r.size)) modeNum address = .ok r :=
      decodeWindow_keep ht (Window.of_isPrefix (List.take_prefix _ s)) h
        (by rw [Window.len_of, List.length_take]; omega)
    rcases decodeWindow_shorter t prior
      (Window.of_isPrefix (hs' ▸ List.take_prefix r.size s')) modeNum address with heq | htr
    · exact heq.symm.trans hu
    · rw [hu] at htr
      cases htr
  · -- the whole window of the undefined instruction starts the longer string's window
    have hw : (Window.of s).IsPrefix (Window.of s') := by
      have h15 : (Window.of s) = Window.of (s.take (min s.length 15)) := by
        simp [Window.of, List.take_take, Nat.min_comm]
      rw [h15, ← hs']
      exact Window.of_isPrefix (List.take_prefix _ s')
    rcases decodeWindow_shorter t prior hw modeNum address with heq | htr
    · exact heq.symm.trans h
    · rw [h] at htr
      cases htr

/-- the tables of a single instruction, `RET` (opcode byte C3) in 64-bit mode with the
descriptor the listing gives it: the root's first opcode map is a table of opcode bytes at
word 8 -/
def Tables.ret : Tables :=
  { words := #[18] ++ Array.replicate 202 0 ++ #[1],
    descs := #[{ type := 407, sizes := 34560 }], roots := [(64, 0)],
    mnemonics := #[], numbers := {}, nameText := #[], nameOffsets := #[] }

theorem ret_peeksRead : Tables.ret.PeeksRead :=
  ⟨by decide +kernel, by decide +kernel, fun _ h => by simp [Tables.root?, Tables.ret] at h⟩

theorem ret_prefix_closed :
    Tables.ret.PeeksRead ∧
      ((∀ r, decodeInto Tables.ret Instr.zero [0xc3] 64 0 = .ok r →
        (∀ n < r.size, decodeInto Tables.ret Instr.zero (([0xc3] : List UInt8).take n) 64 0 =
          .error .truncated) ∧
        ∀ s' : List UInt8, s'.take r.size = ([0xc3] : List UInt8).take r.size →
          decodeInto Tables.ret Instr.zero s' 64 0 = .ok r) ∧
      (decodeInto Tables.ret Instr.zero [0xc3] 64 0 = .error .undefined →
        ∀ s' : List UInt8, s'.take (min ([0xc3] : List UInt8).length 15) =
            ([0xc3] : List UInt8).take (min ([0xc3] : List UInt8).length 15) →
          decodeInto Tables.ret Instr.zero s' 64 0 = .error .undefined)) :=
  ⟨ret_peeksRead, decode_prefix_closed ret_peeksRead Instr.zero 64 0 [0xc3]⟩

example : (decodeInto Tables.ret Instr.zero [0xc3, 0x90] 64 0).toOption.map (·.size) = some 1 := by
  decide +kernel

end X86Codec.Decoder
