import Mathlib.Tactic
import X86Codec.Decoder.Decode
/-!
Decoding fewer bytes.

A window that is a prefix of another holds the same bytes where it has any. Every read of the
decoder is a checked read, which on the shorter window gives the same number or reports a
truncated instruction; the prefix scan and the table walk look at a byte only below the
window's end, and where the shorter window ends earlier they end in a truncated instruction
too. So decoding a prefix of a window gives the result of the whole window, or a truncated
instruction.

Main statements:
- `decodeWindow_shorter`: decoding a prefix of a window gives the same result, or too few
  bytes.
-/

namespace X86Codec.Decoder

/-! ## Prefixes of a window -/

/-- the result of decoding fewer bytes: the same result, or too few bytes -/
def SameOrTruncated {α : Type} (r' r : Except DecodeError α) : Prop :=
  r' = r ∨ r' = .error .truncated

namespace SameOrTruncated

variable {α β : Type}

theorem refl (r : Except DecodeError α) : SameOrTruncated r r := Or.inl rfl

theorem truncated (r : Except DecodeError α) : SameOrTruncated (.error .truncated) r := Or.inr rfl

/-- a computation that continues alike from alike results keeps the relation -/
theorem bind {m' m : Except DecodeError α} {f' f : α → Except DecodeError β}
    (hm : SameOrTruncated m' m) (hf : ∀ a, SameOrTruncated (f' a) (f a)) :
    SameOrTruncated (m' >>= f') (m >>= f) := by
  rcases hm with hm | hm
  · subst hm
    cases m' with
    | error e => exact refl _
    | ok a => exact hf a
  · subst hm
    exact truncated _

/-- the same, where the continuation is needed only at results of the shorter side -/
theorem bind_ok {m' m : Except DecodeError α} {f' f : α → Except DecodeError β}
    (hm : SameOrTruncated m' m) (hf : ∀ a, m' = .ok a → SameOrTruncated (f' a) (f a)) :
    SameOrTruncated (m' >>= f') (m >>= f) := by
  rcases hm with hm | hm
  · subst hm
    cases hm' : m' with
    | error e => exact refl _
    | ok a => exact hf a hm'
  · subst hm
    exact truncated _

theorem map {f : α → β} {r' r : Except DecodeError α} (h : SameOrTruncated r' r) :
    SameOrTruncated (f <$> r') (f <$> r) := by
  rcases h with rfl | rfl
  · exact refl _
  · exact truncated _

theorem ite {c : Prop} [Decidable c] {a' a b' b : Except DecodeError α}
    (ha : c → SameOrTruncated a' a) (hb : ¬ c → SameOrTruncated b' b) :
    SameOrTruncated (if c then a' else b') (if c then a else b) := by
  by_cases hc : c
  · simpa [hc] using ha hc
  · simpa [hc] using hb hc

end SameOrTruncated

namespace Window

/-- `w'` holds the first bytes of `w` -/
def IsPrefix (w' w : Window) : Prop := w'.bytes.toList <+: w.bytes.toList

variable {w w' : Window}

theorem IsPrefix.len_le (h : w'.IsPrefix w) : w'.len ≤ w.len := by
  simpa [len] using h.length_le

theorem IsPrefix.byte_eq (h : w'.IsPrefix w) {i : Nat} (hi : i < w'.len) :
    w'.byte i = w.byte i := by
  obtain ⟨rest, hrest⟩ := h
  have hi' : i < w'.bytes.toList.length := by simpa [len] using hi
  have hget : w.bytes.toList[i]? = w'.bytes.toList[i]? := by
    rw [← hrest, List.getElem?_append_left hi']
  simp only [byte, ← Array.getElem?_toList, hget, List.getElem?_eq_getElem hi', Option.getD_some]

theorem IsPrefix.load_eq (h : w'.IsPrefix w) :
    ∀ {off n : Nat}, off + n ≤ w'.len → w'.load off n = w.load off n
  | _, 0, _ => rfl
  | off, n + 1, hn => by
    simp only [load]
    rw [h.byte_eq (by omega), h.load_eq (by omega)]

/-- a read within the shorter window reads the same number -/
theorem IsPrefix.read_eq (h : w'.IsPrefix w) {off n : Nat} (hn : off + n ≤ w'.len) :
    w'.read off n = w.read off n := by
  have hn' : ¬ off + n > w.len := by have := h.len_le; omega
  simp only [read, show ¬ off + n > w'.len by omega, hn', ↓reduceIte, h.load_eq hn]

theorem IsPrefix.read (h : w'.IsPrefix w) (off n : Nat) :
    SameOrTruncated (w'.read off n) (w.read off n) := by
  by_cases hn : off + n ≤ w'.len
  · exact Or.inl (h.read_eq hn)
  · exact Or.inr (by simp [Window.read, show off + n > w'.len by omega])

theorem IsPrefix.bind_read {β : Type} (h : w'.IsPrefix w) (off n : Nat)
    {f' f : Nat → Except DecodeError β} (hf : ∀ a, SameOrTruncated (f' a) (f a)) :
    SameOrTruncated (w'.read off n >>= f') (w.read off n >>= f) :=
  (h.read off n).bind hf

theorem read_ok {off n v : Nat} (h : w.read off n = .ok v) : off + n ≤ w.len := by
  unfold read at h
  split at h
  · cases h
  · omega

end Window

/-! ## The prefixes and the opening -/

section Opening

variable {w w' : Window} (mode : Mode)

theorem scan_off_le : ∀ (l : List Nat) (off : Nat) (p : Prefixes),
    off ≤ (Prefixes.scan mode l off p).2
  | [], _, _ => le_refl _
  | b :: bs, off, p => by
    simp only [Prefixes.scan]
    split
    · exact Nat.le_of_succ_le (scan_off_le bs (off + 1) _)
    · exact le_refl _

/-- the scan over a prefix of the bytes stops where the whole scan stops, or at its own end,
which is no later -/
theorem scan_shorter : ∀ {l' l : List Nat}, l' <+: l → ∀ (off : Nat) (p : Prefixes),
    Prefixes.scan mode l' off p = Prefixes.scan mode l off p ∨
      ((Prefixes.scan mode l' off p).2 = off + l'.length ∧
        off + l'.length ≤ (Prefixes.scan mode l off p).2)
  | [], l, _, off, p => Or.inr ⟨rfl, by simpa using scan_off_le mode l off p⟩
  | b :: bs', l, h, off, p => by
    obtain ⟨bs, rfl, hbs⟩ : ∃ bs, l = b :: bs ∧ bs' <+: bs := by
      obtain ⟨rest, hrest⟩ := h
      exact ⟨bs' ++ rest, hrest.symm, List.prefix_append _ _⟩
    simp only [Prefixes.scan, List.length_cons]
    split
    · rcases scan_shorter hbs (off + 1) _ with heq | ⟨hend, hle⟩
      · exact Or.inl heq
      · exact Or.inr ⟨by omega, by omega⟩
    · exact Or.inl rfl

theorem readPrefixes_snd (w : Window) :
    (readPrefixes mode w).2 = (Prefixes.scan mode (w.bytes.toList.map (·.toNat)) 0 {}).2 := by
  unfold readPrefixes
  split
  split <;> simp_all

theorem readPrefixes_shorter (h : w'.IsPrefix w) :
    readPrefixes mode w' = readPrefixes mode w ∨
      ((readPrefixes mode w').2 = w'.len ∧ w'.len ≤ (readPrefixes mode w).2) := by
  rcases scan_shorter mode (h.map (·.toNat)) 0 {} with heq | ⟨hend, hle⟩
  · exact Or.inl (by simp only [readPrefixes, heq])
  · right
    simp only [readPrefixes_snd, hend, List.length_map, Array.length_toList, Nat.zero_add]
    exact ⟨rfl, by simpa [Window.len] using hle⟩

theorem readVex_shorter (h : w'.IsPrefix w) (p : Prefixes) (off b0 b1 : Nat) :
    SameOrTruncated (readVex mode w' p off b0 b1) (readVex mode w p off b0 b1) := by
  unfold readVex
  repeat' (first
    | with_reducible exact .refl _
    | with_reducible refine h.bind_read _ _ fun _ => ?_
    | with_reducible refine SameOrTruncated.bind (.refl _) fun _ => ?_
    | with_reducible refine SameOrTruncated.ite (fun _ => ?_) (fun _ => ?_))

theorem readOpening_shorter (h : w'.IsPrefix w) (p : Prefixes) (off : Nat) :
    SameOrTruncated (readOpening mode w' p off) (readOpening mode w p off) := by
  unfold readOpening
  repeat' (first
    | with_reducible exact .refl _
    | with_reducible exact readVex_shorter mode h _ _ _ _
    | with_reducible refine h.bind_read _ _ fun _ => ?_
    | with_reducible refine SameOrTruncated.ite (fun _ => ?_) (fun _ => ?_))

theorem readOpening_past_end {p : Prefixes} {off : Nat} (h : w.len ≤ off) :
    readOpening mode w p off = .error .truncated := by
  simp [readOpening, Window.read, show off + 1 > w.len by omega, bind, Except.bind]

theorem opening_eq (w : Window) :
    opening mode w = readOpening mode w (readPrefixes mode w).1 (readPrefixes mode w).2 := rfl

/-- **Opening.** The opening of a prefix of a window is that of the window, or truncated. -/
theorem opening_shorter (h : w'.IsPrefix w) :
    SameOrTruncated (opening mode w') (opening mode w) := by
  rcases readPrefixes_shorter mode h with heq | ⟨hend, -⟩
  · rw [opening_eq, opening_eq, heq]
    exact readOpening_shorter mode h _ _
  · rw [opening_eq, readOpening_past_end mode (le_of_eq hend.symm)]
    exact .truncated _

theorem readVex_off {p p' : Prefixes} {off b0 b1 off' : Nat}
    (h : readVex mode w p off b0 b1 = .ok (p', off')) :
    off' = off + 2 ∨ (off' = off + 3 ∧ off' ≤ w.len) := by
  unfold readVex at h
  by_cases hb0 : b0 = 0xc4
  · by_cases hx : hasBit b1 0x1c = true
    · simp [hb0, hx, throw, throwThe, MonadExceptOf.throw] at h
    · simp only [hb0, hx, ↓reduceIte, Bool.false_eq_true] at h
      cases hr : w.read (off + 2) 1 with
      | error e => simp [hr, bind, Except.bind] at h
      | ok b2 =>
        simp only [hr, bind, Except.bind, pure, Except.pure, Except.ok.injEq, Prod.mk.injEq] at h
        exact Or.inr ⟨h.2.symm, by have := Window.read_ok hr; omega⟩
  · simp only [hb0, ↓reduceIte, pure, Except.pure, Except.ok.injEq, Prod.mk.injEq] at h
    exact Or.inl h.2.symm

theorem readOpening_off {p p' : Prefixes} {off off' : Nat}
    (h : readOpening mode w p off = .ok (p', off')) : off < w.len ∧ off ≤ off' ∧ off' ≤ w.len := by
  unfold readOpening at h
  cases h0 : w.read off 1 with
  | error e => simp [h0, bind, Except.bind] at h
  | ok b0 =>
    have hlen0 := Window.read_ok h0
    simp only [h0, bind, Except.bind] at h
    by_cases hf : b0 = 0x0f
    · simp only [hf, ↓reduceIte] at h
      cases h1 : w.read (off + 1) 1 with
      | error e => simp [h1] at h
      | ok b1 =>
        have hlen1 := Window.read_ok h1
        simp only [h1] at h
        split_ifs at h <;> simp only [pure, Except.pure, Except.ok.injEq, Prod.mk.injEq] at h <;>
          omega
    · by_cases hv : b0 = 0xc4 ∨ b0 = 0xc5
      · simp only [hf, hv, ↓reduceIte] at h
        cases h1 : w.read (off + 1) 1 with
        | error e => simp [h1] at h
        | ok b1 =>
          have hlen1 := Window.read_ok h1
          simp only [h1] at h
          by_cases hles : mode = .bits32 ∧ b1 / 64 ≠ 3
          · rw [if_pos hles] at h
            simp only [pure, Except.pure, Except.ok.injEq, Prod.mk.injEq] at h
            obtain ⟨-, rfl⟩ := h
            omega
          · by_cases hud : (p.p66 || p.rep ≠ 0 || p.rex ≠ 0) = true
            · rw [if_neg hles, if_pos hud] at h
              cases h
            · rw [if_neg hles, if_neg hud] at h
              rcases readVex_off mode h with h2 | h2 <;> omega
      · simp only [hf, hv, ↓reduceIte, pure, Except.pure, Except.ok.injEq, Prod.mk.injEq] at h
        omega

theorem opening_off {p : Prefixes} {off : Nat} (h : opening mode w = .ok (p, off)) :
    off ≤ w.len ∧ 0 < w.len := by
  rw [opening_eq] at h
  have := readOpening_off mode h
  omega

end Opening


/-! ## The table walk -/

section Walk

variable {w w' : Window} (t : Tables)

/-- an entry that is neither an instruction nor empty asks for more bytes -/
theorem instrAt_truncated {e : Nat × Nat} (h1 : e.1 ≠ WordKind.instr)
    (h2 : e.1 ≠ WordKind.empty) : t.instrAt e = .error .truncated := by
  simp [Tables.instrAt, h1, h2]

/-- a table of opcode bytes is where the walk stops when the opcode byte is missing -/
theorem walkEntry_byte (w : Window) (p : Prefixes) (i off : Nat) :
    walkEntry t w p (WordKind.byte, i) off = (WordKind.byte, i) := by
  simp [walkEntry, Tables.vexEntry, WordKind.byte, WordKind.mandatory, WordKind.modrm,
    WordKind.vex]

/-- on a shorter window the walk ends on the same entry, or stops at a table of ModRM bytes -/
theorem walkEntry_shorter (h : w'.IsPrefix w) (p : Prefixes) (e : Nat × Nat) (off : Nat) :
    walkEntry t w' p e off = walkEntry t w p e off ∨
      (walkEntry t w' p e off).1 = WordKind.modrm := by
  unfold walkEntry
  generalize (if e.1 = WordKind.mandatory then t.step e.2 p.mandatory else e) = e
  by_cases hk : e.1 = WordKind.modrm
  · by_cases hoff : off < w'.len
    · left
      simp only [hk, hoff, lt_of_lt_of_le hoff h.len_le, and_self, ↓reduceIte, h.byte_eq hoff]
    · right
      simp [hk, hoff, Tables.vexEntry, WordKind.modrm, WordKind.vex]
  · left
    simp only [hk, false_and, ↓reduceIte]

theorem instrAt_walkEntry_shorter (h : w'.IsPrefix w) (p : Prefixes) (e : Nat × Nat)
    (off : Nat) :
    SameOrTruncated (t.instrAt (walkEntry t w' p e off)) (t.instrAt (walkEntry t w p e off)) := by
  rcases walkEntry_shorter t h p e off with heq | hmodrm
  · rw [heq]
    exact .refl _
  · rw [instrAt_truncated t (by rw [hmodrm]; decide) (by rw [hmodrm]; decide)]
    exact .truncated _

/-- **The walk.** On a prefix of a window the walk finds the same descriptor, or asks for more
bytes. -/
theorem walk_shorter (root : Nat) (h : w'.IsPrefix w) (p : Prefixes) (off : Nat) :
    SameOrTruncated (walk t root w' p off) (walk t root w p off) := by
  unfold walk
  generalize t.step root p.escape = e
  by_cases hk : e.1 = WordKind.byte
  · by_cases hoff : off < w'.len
    · have hoff' : off < w.len := lt_of_lt_of_le hoff h.len_le
      simp only [hk, hoff, hoff', and_self, ↓reduceIte, h.byte_eq hoff]
      exact (instrAt_walkEntry_shorter t h p _ _).map
    · obtain ⟨k, i⟩ := e
      simp only at hk
      subst hk
      simp only [hoff, and_false, ↓reduceIte, walkEntry_byte,
        instrAt_truncated t (e := (WordKind.byte, i)) (by simp [WordKind.byte, WordKind.instr])
          (by simp [WordKind.byte, WordKind.empty])]
      exact .truncated _
  · simp only [hk, false_and, ↓reduceIte]
    exact (instrAt_walkEntry_shorter t h p _ _).map

theorem map_pair_ok {α : Type} {r : Except DecodeError α} {n m : Nat} {d : α}
    (h : (·, n) <$> r = .ok (d, m)) : r = .ok d ∧ m = n := by
  cases r <;> simp_all [Functor.map, Except.map]

/-- the walk reads at most the opcode byte, inside the window -/
theorem walk_off {root : Nat} {p : Prefixes} {off : Nat} {d : DescWords} {off' : Nat}
    (h : walk t root w p off = .ok (d, off')) : off ≤ off' ∧ (off ≤ w.len → off' ≤ w.len) := by
  unfold walk at h
  dsimp only at h
  split at h
  · obtain ⟨-, rfl⟩ := map_pair_ok h
    omega
  · obtain ⟨-, rfl⟩ := map_pair_ok h
    omega

end Walk

/-! ## The operands -/

namespace Context
variable (c : Context) (w' : Window)
@[simp] theorem rex_window (b : Nat) : ({ c with window := w' } : Context).rex b = c.rex b := rfl
@[simp] theorem rexPlus_window (b : Nat) :
    ({ c with window := w' } : Context).rexPlus b = c.rexPlus b := rfl
@[simp] theorem is_window (m : String) : ({ c with window := w' } : Context).is m = c.is m := rfl
end Context

section
variable (c : Context) (w' : Window)
@[simp] theorem immSize_window (control : Nat) :
    immSize { c with window := w' } control = immSize c control := rfl
@[simp] theorem specialRegisters_window (opByte : Nat) (control : Bool) (s : Progress) :
    specialRegisters { c with window := w' } opByte control s = specialRegisters c opByte control s := rfl
@[simp] theorem implicitOperand_window (s : Progress) :
    implicitOperand { c with window := w' } s = implicitOperand c s := rfl
@[simp] theorem modregOperand_window (opByte : Nat) (s : Progress) :
    modregOperand { c with window := w' } opByte s = modregOperand c opByte s := rfl
@[simp] theorem vexOperand_window (s : Progress) :
    vexOperand { c with window := w' } s = vexOperand c s := rfl
@[simp] theorem finish_window (s : Progress) :
    finish { c with window := w' } s = finish c s := rfl
end

section Operands

variable {w w' : Window} {c : Context}

theorem readSib_shorter (h : w'.IsPrefix c.window) (rm : Nat) (s : Progress) :
    SameOrTruncated (readSib { c with window := w' } rm s) (readSib c rm s) := by
  unfold readSib
  dsimp only [Context.rexPlus_window]
  repeat' (first
    | with_reducible exact .refl _
    | with_reducible refine h.bind_read _ _ fun _ => ?_
    | refine SameOrTruncated.ite (fun _ => ?_) (fun _ => ?_))

theorem modrmOperand_shorter (h : w'.IsPrefix c.window) (opByte : Nat) (s : Progress) :
    SameOrTruncated (modrmOperand { c with window := w' } opByte s) (modrmOperand c opByte s) := by
  unfold modrmOperand
  dsimp only [Context.rexPlus_window]
  repeat' (first
    | with_reducible exact .refl _
    | with_reducible refine (readSib_shorter h _ _).bind fun _ => ?_
    | with_reducible refine h.bind_read _ _ fun _ => ?_
    | refine SameOrTruncated.ite (fun _ => ?_) (fun _ => ?_))

theorem immediate_shorter (h : w'.IsPrefix c.window) (s : Progress) :
    SameOrTruncated (immediate { c with window := w' } s) (immediate c s) := by
  unfold immediate
  dsimp only [immSize_window]
  split
  all_goals repeat' (first
    | with_reducible exact .refl _
    | with_reducible refine h.bind_read _ _ fun _ => ?_)

theorem readOperands_shorter (h : w'.IsPrefix c.window) (opByte : Nat) (s : Progress) :
    SameOrTruncated (readOperands { c with window := w' } opByte s) (readOperands c opByte s) := by
  unfold readOperands
  dsimp only [Context.is_window, specialRegisters_window, implicitOperand_window,
    modregOperand_window, vexOperand_window]
  repeat' (first
    | with_reducible exact immediate_shorter h _
    | with_reducible refine (modrmOperand_shorter h _ _).bind fun _ => ?_
    | with_reducible refine SameOrTruncated.bind (.refl _) fun _ => ?_
    | refine SameOrTruncated.ite (fun _ => ?_) (fun _ => ?_))

theorem modrmByte_shorter (h : w'.IsPrefix w) (d : DescWords) {off : Nat} (hoff : off ≤ w'.len)
    (hpos : 0 < w'.len) : SameOrTruncated (modrmByte w' d off) (modrmByte w d off) := by
  unfold modrmByte
  split
  · exact h.bind_read _ _ fun _ => .refl _
  · rw [h.byte_eq (by omega)]
    exact .refl _

end Operands

/-! ## Decoding -/

/-- **Decoding fewer bytes.** Decoding a prefix of a window gives the result of the whole
window, or a truncated instruction. -/
theorem decodeWindow_shorter {w w' : Window} (t : Tables) (prior : Instr) (h : w'.IsPrefix w)
    (modeNum : Int) (address : UInt64) :
    SameOrTruncated (decodeWindow t prior w' modeNum address)
      (decodeWindow t prior w modeNum address) := by
  unfold decodeWindow
  split
  next mode _ =>
    split
    next root _ =>
      refine (opening_shorter mode h).bind_ok fun ⟨p, off⟩ hop => ?_
      obtain ⟨hoff, hpos⟩ := opening_off mode hop
      refine (walk_shorter t root h p off).bind_ok fun ⟨d, off₂⟩ hwalk => ?_
      have hoff₂ := (walk_off t hwalk).2 hoff
      refine (modrmByte_shorter h d hoff₂ hpos).bind fun ⟨opByte, off₃⟩ => ?_
      -- the contexts of the two windows differ in their window only
      let c : Context :=
        { tables := t, mode, window := w, prefixes := p, desc := d,
          opSize := operandSize mode d p, vecSize := if hasBit p.rex Rex.vexL then 32 else 16,
          addrSize := addressSize mode p, address }
      exact (readOperands_shorter (c := c) h _ _).bind fun s => .refl _
    next => exact .refl _
  next => exact .refl _

end X86Codec.Decoder
