import Mathlib.Data.List.TakeWhile
import X86Codec.Proofs.LowRegisters
/-!
The text of a memory operand.

Between its brackets a memory operand prints its base, its index scaled by a power of two after
a `+` when a base comes first, and the displacement term. Without base and index the term is
the displacement as a number modulo the address size. After a register the term is nothing for
a zero displacement, and otherwise the sign of the 64-bit displacement followed by its
magnitude modulo the address size. That magnitude is zero when the displacement is a nonzero
multiple of the address size's modulus: the sign then stands alone (`[ax+]` for a 16-bit
address with displacement 0x10000). `DispTerm` lists the five forms.

The decoder gives every memory operand a scale below four, since the scale is the top two bits
of the SIB byte, and an address size of two, four or eight bytes.

Main statements:
- `dispPieces_term`: the displacement term has one of the forms of `DispTerm`;
- `memPieces_split`: a memory operand prints its size and segment, then the bracketed base,
  index and displacement;
- `Text.fill_fits`: a buffer that holds the whole text holds every piece of it in turn;
- `decode_shown_scaled`: every memory operand of a decoded instruction has a scale below four;
- `decode_memory_text`: the printed text of a decoded instruction holds each memory operand's
  bracketed text.
-/

namespace X86Codec

/-! ## A text that fits its buffer -/

namespace Text

theorem copyChars_fits : ∀ (room : Nat) (cs : List Char), cs.length < room →
    copyChars room cs = (cs, room - cs.length)
  | room, [], _ => by simp [copyChars]
  | room, c :: cs, h => by
    rw [List.length_cons] at h
    rw [copyChars, if_pos (by omega), copyChars_fits (room - 1) cs (by omega)]
    simp only [List.length_cons, Prod.mk.injEq, true_and]
    omega

theorem copyPieces_fits : ∀ (room : Nat) (ps : List String),
    (ps.flatMap pieceChars).length < room → copyPieces room ps = ps.flatMap pieceChars
  | _, [], _ => rfl
  | room, p :: ps, h => by
    rw [List.flatMap_cons, List.length_append] at h
    rw [copyPieces, copyChars_fits room (pieceChars p) (by omega)]
    dsimp only
    rw [copyPieces_fits _ ps (by omega), List.flatMap_cons]

/-- a buffer with room for the whole text holds the text of every piece in turn -/
theorem fill_fits {len : Nat} {ps : List String} (h : (ps.flatMap pieceChars).length < len) :
    fill len ps = String.ofList (ps.flatMap pieceChars) := by
  rw [fill, copyPieces_fits len ps h]

theorem pieceChars_of_nul {s : String} (h : '\x00' ∉ s.toList) : pieceChars s = s.toList :=
  List.takeWhile_eq_self_iff.mpr fun c hc => by simpa using ne_of_mem_of_not_mem hc h

theorem flatMap_pieceChars {ps : List String} (h : ∀ s ∈ ps, '\x00' ∉ s.toList) :
    ps.flatMap pieceChars = (String.join ps).toList := by
  rw [String.toList_join]
  exact List.flatMap_congr fun s hs => pieceChars_of_nul (h s hs)

/-- pieces without NUL that are written in a row stand in a row in a text that fits its
buffer -/
theorem fill_infix {len : Nat} {ps qs : List String} (hq : qs <:+: ps)
    (hnul : ∀ s ∈ qs, '\x00' ∉ s.toList) (hfit : (ps.flatMap pieceChars).length < len) :
    ∃ before after, fill len ps = before ++ String.join qs ++ after := by
  obtain ⟨xs, ys, rfl⟩ := hq
  refine ⟨String.ofList (xs.flatMap pieceChars), String.ofList (ys.flatMap pieceChars), ?_⟩
  rw [fill_fits hfit, List.flatMap_append, List.flatMap_append, flatMap_pieceChars hnul,
    String.ofList_append, String.ofList_append, String.ofList_toList]

end Text

namespace Decoder

/-! ## The displacement term -/

/-- the number of addresses of an address size in bytes -/
def addressModulus (z : Nat) : Nat := 1 <<< (8 * z)

theorem addressModulus_dvd {z : Nat} (hz : z = 2 ∨ z = 4 ∨ z = 8) :
    addressModulus z ∣ Word.modulus := by
  rcases hz with rfl | rfl | rfl
  exacts [⟨1 <<< 48, rfl⟩, ⟨1 <<< 32, rfl⟩, ⟨1, rfl⟩]

/-- the displacement term of a memory operand whose address size is `z` bytes and whose 64-bit
displacement is `d`, printed after a base or index or after neither -/
inductive DispTerm (z d : Nat) : Bool → List String → Prop
  /-- without base and index: the displacement as a number modulo the address size -/
  | plain : DispTerm z d false [hex (d % addressModulus z)]
  /-- after a register a zero displacement prints nothing -/
  | zero : d = 0 → DispTerm z d true []
  /-- a positive displacement: a plus and the displacement modulo the address size -/
  | plus : d < Word.signBit → d % addressModulus z ≠ 0 →
      DispTerm z d true ["+", hex (d % addressModulus z)]
  /-- a negative displacement: a minus and the nonzero number that the displacement makes a
  multiple of the address size's modulus when added to it -/
  | minus (v : Nat) : Word.signBit ≤ d → v ≠ 0 → v < addressModulus z →
      (v + d) % addressModulus z = 0 → DispTerm z d true ["-", hex v]
  /-- a nonzero multiple of the address size's modulus: the sign of the 64-bit displacement
  alone -/
  | signOnly : d ≠ 0 → d % addressModulus z = 0 →
      DispTerm z d true [if d < Word.signBit then "+" else "-"]

/-- a number printed after its sign unless it is zero -/
def magnitudePieces (v : Nat) : List String := if v ≠ 0 then [hex v] else []

/-- the displacement pieces with the address size's mask written as the remainder by a
modulus `m` -/
def signedPieces (m d : Nat) (hb hx : Bool) : List String :=
  if hb || hx then
    if d = 0 then []
    else if d < Word.signBit then "+" :: magnitudePieces (d % m)
    else "-" :: magnitudePieces ((Word.modulus - d) % m)
  else [hex (d % m)]

theorem dispPieces_eq_signed {z : Nat} (hz : z = 2 ∨ z = 4 ∨ z = 8) (disp : UInt64)
    (hb hx : Bool) :
    dispPieces z disp hb hx = signedPieces (addressModulus z) disp.toNat hb hx := by
  have hd : disp.toNat < Word.modulus := disp.toNat_lt_size
  -- the mask of each address size is the remainder by its modulus
  have h2 : ∀ v, Word.low 16 v = v % addressModulus 2 := fun _ => rfl
  have h4 : ∀ v, Word.low 32 v = v % addressModulus 4 := fun _ => rfl
  have h8 : ∀ v, v < Word.modulus → v % addressModulus 8 = v := fun v hv => Nat.mod_eq_of_lt hv
  have hnot : (!hb && !hx) = !(hb || hx) := by cases hb <;> cases hx <;> rfl
  unfold dispPieces signedPieces magnitudePieces
  rw [hnot]
  generalize (hb || hx) = any
  cases any
  · rcases hz with rfl | rfl | rfl <;> simp [h2, h4, h8 _ hd]
  · by_cases h0 : disp.toNat = 0
    · rcases hz with rfl | rfl | rfl <;> simp [h0, h2, h4]
    · by_cases hs : disp.toNat < Word.signBit
      · rcases hz with rfl | rfl | rfl <;>
          simp [h0, hs, not_le.mpr hs, h2, h4, h8 _ hd]
      · have hneg : Word.modulus - disp.toNat < Word.modulus := by
          unfold Word.modulus at hd ⊢
          omega
        rcases hz with rfl | rfl | rfl <;>
          simp [h0, hs, not_lt.mp hs, h2, h4, h8 _ hneg]

theorem signedPieces_term {z d : Nat} (hdvd : addressModulus z ∣ Word.modulus)
    (hd : d < Word.modulus) (hb hx : Bool) :
    DispTerm z d (hb || hx) (signedPieces (addressModulus z) d hb hx) := by
  have hpos : 0 < addressModulus z := Nat.pos_of_dvd_of_pos hdvd (by decide)
  unfold signedPieces
  cases hany : (hb || hx)
  · exact .plain
  · rw [if_pos rfl]
    by_cases h0 : d = 0
    · rw [if_pos h0]
      exact .zero h0
    rw [if_neg h0]
    by_cases hs : d < Word.signBit
    · rw [if_pos hs]
      by_cases hm : d % addressModulus z = 0
      · simpa [magnitudePieces, hm, hs] using DispTerm.signOnly h0 hm
      · simpa [magnitudePieces, hm] using DispTerm.plus hs hm
    · rw [if_neg hs]
      -- the magnitude and the displacement add up to 2^64, a multiple of the modulus
      have hsum : ((Word.modulus - d) % addressModulus z + d) % addressModulus z = 0 := by
        rw [Nat.mod_add_mod, Nat.sub_add_cancel hd.le]
        exact Nat.mod_eq_zero_of_dvd hdvd
      by_cases hm : (Word.modulus - d) % addressModulus z = 0
      · have hdm : d % addressModulus z = 0 := by simpa [hm] using hsum
        simpa [magnitudePieces, hm, hs] using DispTerm.signOnly h0 hdm
      · simpa [magnitudePieces, hm] using
          DispTerm.minus _ (not_lt.mp hs) hm (Nat.mod_lt _ hpos) hsum

/-- **The displacement term.** At an address size of two, four or eight bytes the formatter
prints a displacement in one of the forms of `DispTerm`. -/
theorem dispPieces_term {z : Nat} (hz : z = 2 ∨ z = 4 ∨ z = 8) (disp : UInt64) (hb hx : Bool) :
    DispTerm z disp.toNat (hb || hx) (dispPieces z disp hb hx) := by
  rw [dispPieces_eq_signed hz]
  exact signedPieces_term (addressModulus_dvd hz) disp.toNat_lt_size hb hx

/-- a displacement of 0x10000 after a 16-bit base leaves its sign alone -/
example : dispPieces 2 0x10000 true false = ["+"] := by decide

/-! ## Inside the brackets -/

/-- the texts of the SIB byte's four scales are the factors, powers of two, and a star -/
theorem scale_piece {s : Nat} (hs : s < 4) :
    ["1*", "2*", "4*", "8*"].getD s "" = toString (1 <<< s) ++ "*" := by
  rcases s with _ | _ | _ | _ | s
  all_goals first | decide | omega

/-- the pieces between the opening bracket and the displacement term: the base, then the index
after a `+` when a base comes first, scaled by a power of two -/
def registerPieces (t : Tables) (i : Instr) (o : Operand) : List String :=
  (if o.reg ≠ noReg then [regName RegType.gpl o.reg i.addrsz] else []) ++
  (if o.index ≠ noReg then
      (if o.reg ≠ noReg then ["+"] else []) ++
      [toString (1 <<< o.scale) ++ "*",
        regName (memShape t i o.size).2.1 o.index (memShape t i o.size).2.2]
    else [])

/-- **The bracket.** A memory operand with a scale below four ends with an opening bracket, its
registers, its displacement term and a closing bracket; its size and segment come before. -/
theorem memPieces_split {t : Tables} {i : Instr} {o : Operand} (hs : o.scale < 4) :
    "[" :: (registerPieces t i o ++ dispPieces i.addrsz i.disp (o.reg ≠ noReg) (o.index ≠ noReg) ++
      ["]"]) <:+ memPieces t i o := by
  unfold memPieces registerPieces
  rcases hshape : memShape t i o.size with ⟨size, idxType, idxSize⟩
  dsimp only
  rw [scale_piece hs]
  simp only [List.append_assoc, List.cons_append]
  exact (List.suffix_append _ _).trans (List.suffix_append _ _)

/-! ## Texts without NUL -/

theorem digitChar_ne_nul {k : Nat} (hk : k < 16) : Nat.digitChar k ≠ '\x00' := by
  have hall : ∀ j < 16, Nat.digitChar j ≠ '\x00' := by decide
  exact hall k hk

/-- the digits of a number in a base up to sixteen -/
theorem toDigitsCore_nul {b : Nat} (hb : 0 < b) (hb16 : b ≤ 16) :
    ∀ (fuel n : Nat) (ds : List Char), '\x00' ∉ ds → '\x00' ∉ Nat.toDigitsCore b fuel n ds
  | 0, _, _, h => h
  | fuel + 1, n, ds, h => by
    have hd : '\x00' ∉ Nat.digitChar (n % b) :: ds := by
      rw [List.mem_cons, not_or]
      exact ⟨(digitChar_ne_nul (by have := Nat.mod_lt n hb; omega)).symm, h⟩
    unfold Nat.toDigitsCore
    dsimp only
    split
    · exact hd
    · exact toDigitsCore_nul hb hb16 fuel _ _ hd

theorem hex_nul (v : Nat) : '\x00' ∉ (hex v).toList := by
  have hdigits := toDigitsCore_nul (b := 16) (by decide) le_rfl (v + 1) v [] List.not_mem_nil
  simp only [hex, String.toList_append, String.toList_ofList, List.mem_append, not_or]
  exact ⟨by decide, hdigits⟩

theorem toString_nul (n : Nat) : '\x00' ∉ (toString n).toList := by
  show '\x00' ∉ (String.ofList (Nat.toDigits 10 n)).toList
  rw [String.toList_ofList]
  exact toDigitsCore_nul (b := 10) (by decide) (by decide) (n + 1) n [] List.not_mem_nil

theorem pick_nul {names : List String} (h : ∀ s ∈ names, '\x00' ∉ s.toList) (ri : Nat) :
    '\x00' ∉ (pick names ri).toList := by
  unfold pick
  rw [List.getD_eq_getElem?_getD]
  cases hn : names[ri]? with
  | none => decide
  | some s => exact h s (List.mem_of_getElem? hn)

/-- no register name holds a NUL, nor the markers printed for registers without one -/
theorem regName_nul (rt ri size : Nat) : '\x00' ∉ (regName rt ri size).toList := by
  unfold regName
  split_ifs
  · split
    · next names hn =>
      exact pick_nul (by unfold gplNames at hn; split at hn <;> cases hn <;> decide) ri
    · decide
  · split
    · next names hn =>
      exact pick_nul (by unfold vecNames at hn; split at hn <;> cases hn <;> decide) ri
    · decide
  · split
    · next names hn =>
      exact pick_nul (by unfold fixedNames at hn; split_ifs at hn <;> cases hn <;> decide) ri
    · decide

theorem registerPieces_nul (t : Tables) (i : Instr) (o : Operand) :
    ∀ s ∈ registerPieces t i o, '\x00' ∉ s.toList := by
  intro s hs
  simp only [registerPieces, List.mem_append, List.mem_ite_nil_right, List.mem_cons,
    List.not_mem_nil, or_false] at hs
  rcases hs with ⟨-, rfl⟩ | ⟨-, (⟨-, rfl⟩ | rfl | rfl)⟩
  · exact regName_nul _ _ _
  · decide
  · simp only [String.toList_append, List.mem_append, not_or]
    exact ⟨toString_nul _, by decide⟩
  · exact regName_nul _ _ _

theorem DispTerm.nul {z d : Nat} {b : Bool} {ps : List String} (h : DispTerm z d b ps) :
    ∀ s ∈ ps, '\x00' ∉ s.toList := by
  intro s hs
  cases h with
  | plain => exact (List.mem_singleton.mp hs) ▸ hex_nul _
  | zero => cases hs
  | plus =>
    simp only [List.mem_cons, List.not_mem_nil, or_false] at hs
    rcases hs with rfl | rfl
    exacts [by decide, hex_nul _]
  | minus v =>
    simp only [List.mem_cons, List.not_mem_nil, or_false] at hs
    rcases hs with rfl | rfl
    exacts [by decide, hex_nul v]
  | signOnly =>
    rw [List.mem_singleton] at hs
    subst hs
    split <;> decide

/-! ## Scales of decoded operands -/

/-- a memory operand's scale is one of the four the SIB byte can give -/
def Operand.Scaled (o : Operand) : Prop := o.type = .mem → o.scale < 4

theorem Operand.scaled_of_ne {o : Operand} (h : o.type ≠ .mem) : o.Scaled :=
  fun hm => absurd hm h

section Operands

variable {c : Context}

theorem implicitOperand_scaled {s : Progress} (h : ∀ k, (s.ops.get k).Scaled) :
    ∀ k, ((implicitOperand c s).ops.get k).Scaled := by
  unfold implicitOperand
  split
  · exact update_forall (P := fun _ o => o.Scaled) h (Operand.scaled_of_ne (by simp))
  · exact h

theorem modregOperand_scaled (m : Nat) {s : Progress} (h : ∀ k, (s.ops.get k).Scaled) :
    ∀ k, ((modregOperand c m s).ops.get k).Scaled := by
  unfold modregOperand
  split
  · exact update_forall (P := fun _ o => o.Scaled) h (Operand.scaled_of_ne (by simp))
  · exact h

/-- the scale is the top two bits of the SIB byte, and the index fits the six below them -/
theorem readSib_scale {rm base misc off : Nat} {s : Progress}
    (h : readSib c rm s = .ok (base, misc, off)) : misc / 64 < 4 := by
  unfold readSib at h
  by_cases h4 : rm = 4
  · simp only [h4, ↓reduceIte] at h
    obtain ⟨sib, hsib, h⟩ := ok_of_bind_eq_ok h
    simp only [pure, Except.pure, Except.ok.injEq, Prod.mk.injEq] at h
    obtain ⟨-, rfl, -⟩ := h
    have hbyte : sib < 256 := Window.read_one hsib ▸ Window.byte_lt _ _
    have hx := rexPlus_le (c := c) Rex.x
    unfold noReg
    split_ifs <;> omega
  · simp only [h4, ↓reduceIte] at h
    split at h
    · cases h
    · simp only [pure, Except.pure, Except.ok.injEq, Prod.mk.injEq] at h
      obtain ⟨-, rfl, -⟩ := h
      decide

theorem modrmOperand_scaled {m : Nat} {s s' : Progress} (h : ∀ k, (s.ops.get k).Scaled)
    (hm : modrmOperand c m s = .ok s') : ∀ k, (s'.ops.get k).Scaled := by
  rcases modrmOperand_ops hm with ⟨-, hops⟩ | ⟨-, -, hops⟩ |
    ⟨-, -, base, misc, off, reg, hsib, -, hops⟩
  · rw [hops]
    exact h
  · rw [hops]
    exact update_forall (P := fun _ o => o.Scaled) h (Operand.scaled_of_ne (by simp))
  · -- memory, with the scale of the SIB byte
    rw [hops]
    exact update_forall (P := fun _ o => o.Scaled) h fun _ => readSib_scale hsib

theorem specialRegisters_scaled {m : Nat} {control : Bool} {s s' : Progress}
    (h : ∀ k, (s.ops.get k).Scaled) (hm : specialRegisters c m control s = .ok s') :
    ∀ k, (s'.ops.get k).Scaled := by
  obtain ⟨-, -, hops⟩ := specialRegisters_ops hm
  rw [hops]
  exact update_forall (P := fun _ o => o.Scaled)
    (update_forall (P := fun _ o => o.Scaled) h (Operand.scaled_of_ne (by simp)))
    (Operand.scaled_of_ne (by simp))

theorem vexOperand_scaled {s s' : Progress} (h : ∀ k, (s.ops.get k).Scaled)
    (hv : vexOperand c s = .ok s') : ∀ k, (s'.ops.get k).Scaled := by
  rcases vexOperand_ops hv with ⟨-, hops⟩ | ⟨-, rfl⟩
  · rw [hops]
    exact update_forall (P := fun _ o => o.Scaled) h (Operand.scaled_of_ne (by simp))
  · exact h

theorem immediate_scaled {s s' : Progress} (h : ∀ k, (s.ops.get k).Scaled)
    (hi : immediate c s = .ok s') : ∀ k, (s'.ops.get k).Scaled := by
  refine immediate_forall (P := fun _ o => o.Scaled) h
    (fun _ => Operand.scaled_of_ne (by simp)) (fun _ _ => Operand.scaled_of_ne (by simp))
    (fun _ _ => ?_) (fun _ _ _ _ _ => Operand.scaled_of_ne (by simp)) hi
  -- an address-sized offset: memory whose scale and index are those of no register
  show noReg / 64 < 4
  decide

theorem readOperands_scaled {m : Nat} {s s' : Progress} (h : ∀ k, (s.ops.get k).Scaled)
    (hr : readOperands c m s = .ok s') : ∀ k, (s'.ops.get k).Scaled := by
  unfold readOperands at hr
  dsimp only at hr
  -- the VEX operand and the immediate come after either way of reading the first operands
  have rest : ∀ s₁ : Progress, (∀ k, (s₁.ops.get k).Scaled) →
      (vexOperand c s₁ >>= fun s => immediate c s) = .ok s' → ∀ k, (s'.ops.get k).Scaled := by
    intro s₁ hs₁ h'
    obtain ⟨s₂, h₂, h₃⟩ := ok_of_bind_eq_ok h'
    exact immediate_scaled (vexOperand_scaled hs₁ h₂) h₃
  split at hr
  · obtain ⟨s₁, h₁, hr⟩ := ok_of_bind_eq_ok hr
    exact rest s₁ (specialRegisters_scaled h h₁) hr
  · split at hr
    · obtain ⟨s₁, h₁, hr⟩ := ok_of_bind_eq_ok hr
      exact rest s₁ (specialRegisters_scaled h h₁) hr
    · obtain ⟨s₁, h₁, hr⟩ := ok_of_bind_eq_ok hr
      exact rest s₁
        (modrmOperand_scaled (modregOperand_scaled m (implicitOperand_scaled h)) h₁) hr

end Operands

/-- **Decoded memory operands.** Every memory operand a decoded instruction shows has a scale
below four, and the address size is two, four or eight bytes. -/
theorem decode_shown_scaled {t : Tables} {prior : Instr} {bytes : List UInt8} {modeNum : Int}
    {address : UInt64} {i : Instr} (h : decodeInto t prior bytes modeNum address = .ok i) :
    (∀ o ∈ i.shown, o.Scaled) ∧ (i.addrsz = 2 ∨ i.addrsz = 4 ∨ i.addrsz = 8) := by
  unfold decodeInto decodeWindow at h
  split at h
  next mode hmode =>
    split at h
    next root hroot =>
      obtain ⟨⟨p, off₁⟩, -, h⟩ := ok_of_bind_eq_ok h
      obtain ⟨⟨d, off₂⟩, -, h⟩ := ok_of_bind_eq_ok h
      obtain ⟨⟨m, off₃⟩, -, h⟩ := ok_of_bind_eq_ok h
      obtain ⟨s, hops, hfin⟩ := ok_of_bind_eq_ok h
      have hinit : ∀ k, ((initialOperands d).get k).Scaled := by
        intro k
        rw [initialOperands_get]
        exact Operand.scaled_of_ne (by simp)
      have hs := readOperands_scaled hinit hops
      obtain ⟨-, -, -, -, haddr, -⟩ := finish_ok hfin
      refine ⟨fun o ho => ?_, by rw [haddr]; exact addressSize_cases mode p⟩
      -- finishing sets sizes and marks high byte registers, which are no memory
      obtain ⟨k, rfl, hk⟩ := Instr.mem_shown ho
      rcases finish_operand hfin hk with heq | ⟨hreg, -, -, -, -, -, heq⟩
      · rw [heq]
        exact hs k
      · rw [heq]
        exact Operand.scaled_of_ne (by simp [hreg])
    next => cases h
  next => cases h

/-! ## The printed text -/

/-- the pieces of a shown operand stand in a row among the pieces of the instruction -/
theorem operandPieces_infix {t : Tables} {i : Instr} {addr : UInt64} {o : Operand}
    (ho : o ∈ i.shown) : operandPieces t i addr o <:+: pieces t i addr := by
  obtain ⟨n, hn, rfl⟩ := List.getElem_of_mem ho
  have hz : (i.shown[n], n) ∈ i.shown.zipIdx := List.mem_zipIdx_iff_getElem?.mpr (by simp)
  unfold pieces
  rw [List.flatMap_def]
  -- the operand's pieces follow its separator, one of the pieces flattened after the heading
  refine List.IsInfix.trans ?_ (List.suffix_append _ _).isInfix
  refine List.IsInfix.trans ?_ (List.infix_of_mem_flatten (List.mem_map_of_mem hz))
  exact (List.suffix_cons _ _).isInfix

/-- **The text of a memory operand.** For every instruction decoded from a byte string and every
memory operand it shows, the text printed into a buffer that holds it all contains an opening
bracket, the base, the index after a `+` when a base comes first and scaled by a power of two,
the displacement term and a closing bracket, in a row; the displacement term is one of the
forms of `DispTerm` at the instruction's address size. -/
theorem decode_memory_text {t : Tables} {prior : Instr} {bytes : List UInt8} {modeNum : Int}
    {address : UInt64} {i : Instr} (h : decodeInto t prior bytes modeNum address = .ok i)
    {o : Operand} (ho : o ∈ i.shown) (hmem : o.type = .mem) :
    ∃ term, DispTerm i.addrsz i.disp.toNat (o.reg ≠ noReg || o.index ≠ noReg) term ∧
      ∀ addr len, ((pieces t i addr).flatMap Text.pieceChars).length < len →
        ∃ before after, formatAbs t i addr len =
          before ++ String.join ("[" :: (registerPieces t i o ++ term ++ ["]"])) ++ after := by
  obtain ⟨hscaled, haddr⟩ := decode_shown_scaled h
  have hterm := dispPieces_term haddr i.disp (o.reg ≠ noReg) (o.index ≠ noReg)
  refine ⟨_, hterm, fun addr len hfit => ?_⟩
  have hop : memPieces t i o <:+: pieces t i addr := by
    have hinf : operandPieces t i addr o <:+: pieces t i addr := operandPieces_infix ho
    simp only [operandPieces, hmem] at hinf
    exact hinf
  unfold formatAbs
  refine Text.fill_infix ((memPieces_split (hscaled o ho hmem)).isInfix.trans hop) ?_ hfit
  -- no piece of the bracket holds a NUL
  intro s hs
  simp only [List.mem_cons, List.mem_append, List.not_mem_nil, or_false] at hs
  rcases hs with rfl | (hs | hs) | rfl
  · decide
  · exact registerPieces_nul t i o s hs
  · exact hterm.nul s hs
  · decide

/-- a 16-bit address with base `eax` and displacement 0x10000: the term is the sign alone, and
the operand prints as `[ax+]` -/
theorem ax_sign_only :
    ∃ i, decodeInto Tables.movBits32 Instr.zero [0x67, 0x89, 0x80, 0x00, 0x00, 0x01, 0x00] 32 0 =
      .ok i ∧ ∃ o ∈ i.shown, o.type = .mem ∧
      ∃ term, DispTerm i.addrsz i.disp.toNat (o.reg ≠ noReg || o.index ≠ noReg) term ∧
        ∀ addr len, ((pieces Tables.movBits32 i addr).flatMap Text.pieceChars).length < len →
          ∃ before after, formatAbs Tables.movBits32 i addr len =
            before ++ String.join ("[" :: (registerPieces Tables.movBits32 i o ++ term ++ ["]"])) ++
              after := by
  have hdec : decodeInto Tables.movBits32 Instr.zero
      [0x67, 0x89, 0x80, 0x00, 0x00, 0x01, 0x00] 32 0 =
      .ok { segment := noReg, addrsz := 2, size := 7, disp := 0x10000,
            operands := #v[{ type := .mem, size := 4, reg := 0, misc := noReg },
                           { type := .reg, size := 4, reg := 0, misc := RegType.gpl },
                           { misc := RegType.gpl }, {}] } := by
    decide +kernel
  refine ⟨_, hdec, { type := .mem, size := 4, reg := 0, misc := noReg }, ?ho, rfl,
    decode_memory_text hdec ?ho rfl⟩
  decide

example : (decodeInto Tables.movBits32 Instr.zero [0x67, 0x89, 0x80, 0x00, 0x00, 0x01, 0x00] 32 0
    ).toOption.map (format Tables.movBits32 · 64) = some "mov dword ptr [ax+], eax" := by
  decide +kernel

end Decoder

end X86Codec
