import X86Codec.Proofs.EncodedBytes
import X86Codec.Proofs.SizeSet
/-!
Reading back what the encoder writes, stage by stage of the decoder.

Each stage of the decoder reads one part of an instruction: the SIB byte and the displacement
after a ModRM byte of a memory form, the register of the register form, the VEX operand and the
immediate of each kind. Here each stage is run on a window that holds, at the stage's position,
the bytes the encoder writes for that part (`A ++ bytes ++ C`), and gives back the operand the
encoder was asked for: the form's base, scale and index (`ModrmForm.memOperand`), the
displacement and immediates as the 64-bit words of the numbers written, sign-extended from the
width they were written with.

Main statements:
- `Window.read_leBytes`: a window reads back a number where it holds its low bytes;
- `immValue_ofSigned`: an immediate of a width it fits is read back as its 64-bit word;
- `modrmOperand_mem`: a ModRM memory form is read back as its base, scale, index and
  displacement;
- `immediate_moffs`, `immediate_vecReg`, `immediate_number`, `immediate_relative`: the immediate
  stage for an address, a register in a byte, a number and a relative offset.
-/
namespace X86Codec

open Encoder Decoder

namespace Encoder.ModrmForm

/-- the base register the decoder makes of a memory form with REX.B: the instruction pointer for
mode 0 and rm 5, none for mode 0 and base field 5, else the base field with REX.B -/
def decodedBase (f : ModrmForm) (rexB : Bool) : Nat :=
  if f.md = 0 ∧ f.rm = 5 then ipReg else if f.md = 0 ∧ f.baseField = 5 then noReg
  else f.baseField + if rexB then 8 else 0

/-- the scale and index the decoder makes of a memory form with REX.X: none without a SIB byte,
else the scale field and the index with REX.X, none for index 4 unless it is a vector index -/
def decodedIndex (f : ModrmForm) (rexX vsib : Bool) : Nat :=
  if f.rm = 4 then
    f.scale * 64 + if !vsib ∧ f.index + (if rexX then 8 else 0) = 4 then noReg
      else f.index + if rexX then 8 else 0
  else noReg

/-- the memory operand the decoder makes of a form with REX.B, REX.X and a vector index -/
def memOperand (f : ModrmForm) (rexB rexX vsib : Bool) (o : Operand) : Operand :=
  { o with type := .mem, reg := f.decodedBase rexB, misc := f.decodedIndex rexX vsib }

/-- the SIB byte of a form, when it has one -/
def sibByte (f : ModrmForm) : List UInt8 :=
  if f.sib then [UInt8.ofNat (f.scale * 64 + f.index * 8 + f.base)] else []

end Encoder.ModrmForm

/-- a number that fits one, two or four bytes is read back, sign-extended, from its low bytes -/
theorem signExtend_ofSigned {n : Nat} (hn : n = 1 ∨ n = 2 ∨ n = 4) {d : Int} (hfit : fits d n = true) :
    signExtend (8 * n) (Word.ofSigned d % (1 <<< (8 * n))) = UInt64.ofNat (Word.ofSigned d) := by
  have hs : Word.signed (8 * n) (Word.ofSigned d % (1 <<< (8 * n))) = d := by
    rcases hn with rfl | rfl | rfl <;>
      simp only [fits, decide_eq_true_eq] at hfit <;>
      simp only [Word.signed, Word.low, Word.ofSigned, Word.modulus, Nat.one_shiftLeft] <;>
      norm_num <;> split <;> omega
  rw [signExtend, hs]

/-- the widths a number can fit: none, one to four bytes, or eight -/
theorem fits_width {d : Int} {n : Nat} (h : fits d n = true) :
    n = 0 ∨ n = 1 ∨ n = 2 ∨ n = 3 ∨ n = 4 ∨ n = 8 := by
  unfold fits at h
  split at h <;> simp_all

theorem Word.ofSigned_toSigned (v : Nat) : Word.ofSigned (Word.toSigned v) = v % Word.modulus := by
  unfold Word.ofSigned Word.toSigned Word.modulus Word.signBit
  split <;> omega

/-- an immediate of a width it fits is read back from its low bytes as the 64-bit word of the
number -/
theorem immValue_ofSigned {n : Nat} {d : Int} (hfit : fits d n = true) (hn : n ≠ 0) :
    immValue n (Word.ofSigned d % (1 <<< (8 * n))) = some (UInt64.ofNat (Word.ofSigned d)) := by
  rcases fits_width hfit with rfl | rfl | rfl | rfl | rfl | rfl
  · exact absurd rfl hn
  · rw [immValue, signExtend_ofSigned (.inl rfl) hfit]
  · rw [immValue, signExtend_ofSigned (.inr (.inl rfl)) hfit]
  · -- three bytes are unsigned
    simp only [fits, decide_eq_true_eq] at hfit
    have : Word.ofSigned d % (1 <<< (8 * 3)) = Word.ofSigned d := by
      unfold Word.ofSigned Word.modulus
      rw [Nat.one_shiftLeft]
      norm_num
      omega
    rw [this]
    rfl
  · rw [immValue, signExtend_ofSigned (.inr (.inr rfl)) hfit]
  · rw [show 1 <<< (8 * 8) = Word.modulus from rfl, Nat.mod_eq_of_lt (SizeSet.ofSigned_lt d)]
    rfl

namespace Decoder.Window

variable {w : Window}

theorem len_of_toList {l : List UInt8} (hw : w.bytes.toList = l) : w.len = l.length := by
  rw [Window.len, ← Array.length_toList, hw]

/-- a window reads back a byte where it holds it -/
theorem byte_at {A C : List UInt8} {x : UInt8} (hw : w.bytes.toList = A ++ x :: C) :
    w.byte A.length = x.toNat := by
  have hget : w.bytes[A.length]? = some x := by
    rw [← Array.getElem?_toList, hw, List.getElem?_append_right le_rfl, Nat.sub_self]
    rfl
  simp [Window.byte, hget]

theorem read_byte {A C : List UInt8} {x : UInt8} (hw : w.bytes.toList = A ++ x :: C) :
    w.read A.length 1 = .ok x.toNat := by
  have hlen := len_of_toList hw
  simp only [List.length_append, List.length_cons] at hlen
  simp only [Window.read, Window.load, byte_at hw]
  rw [if_neg (by omega)]
  simp

/-- a window reads back a number where it holds its low bytes -/
theorem load_leBytes : ∀ (n : Nat) {A C : List UInt8} {v : Nat},
    w.bytes.toList = A ++ leBytes v n ++ C → w.load A.length n = v % (1 <<< (8 * n))
  | 0, _, _, _, _ => by simp [Window.load, Nat.mod_one]
  | n + 1, A, C, v, hw => by
    have hw' : w.bytes.toList = (A ++ [UInt8.ofNat v]) ++ leBytes (v / 256) n ++ C := by
      rw [hw]
      simp [leBytes]
    have hbyte : w.byte A.length = v % 256 := by
      rw [byte_at (x := UInt8.ofNat v) (C := leBytes (v / 256) n ++ C) (by rw [hw]; simp [leBytes])]
      simp
    rw [Window.load, hbyte, show A.length + 1 = (A ++ [UInt8.ofNat v]).length by simp,
      load_leBytes n hw', Nat.one_shiftLeft, Nat.one_shiftLeft, Nat.mul_succ, Nat.pow_add,
      show (2 : Nat) ^ 8 = 256 from rfl, Nat.mul_comm _ 256, Nat.mod_mul]

theorem read_leBytes {A C : List UInt8} {v n : Nat} (hw : w.bytes.toList = A ++ leBytes v n ++ C) :
    w.read A.length n = .ok (v % (1 <<< (8 * n))) := by
  have hlen := len_of_toList hw
  simp only [List.length_append, length_leBytes] at hlen
  simp only [Window.read, load_leBytes n hw]
  rw [if_neg (by omega)]

end Decoder.Window


namespace Decoder

variable {c : Context} {s : Progress}

theorem rexPlus_eq (c : Context) (bit : Nat) : c.rexPlus bit = if c.rex bit then 8 else 0 := rfl

/-- the SIB byte of a memory form is read back as the form's base field, scale and index -/
theorem readSib_form {f : ModrmForm} {A C : List UInt8} (hmd : f.md < 3) (hbase : f.base < 8)
    (hindex : f.index < 8) (hscale : f.scale < 4) (hvsib : c.desc.vsib = true → f.rm = 4)
    (hw : c.window.bytes.toList = A ++ f.sibByte ++ C) (hoff : s.off = A.length) :
    readSib c f.rm s = .ok (f.baseField, f.decodedIndex (c.rex Rex.x) c.desc.vsib, s.off + f.sibByte.length) := by
  by_cases h4 : f.rm = 4
  · have hb : f.sibByte = [UInt8.ofNat (f.scale * 64 + f.index * 8 + f.base)] := by
      simp [ModrmForm.sibByte, ModrmForm.sib, h4, show f.md ≠ 3 by omega]
    rw [hb] at hw
    have hv : (UInt8.ofNat (f.scale * 64 + f.index * 8 + f.base)).toNat = f.scale * 64 + f.index * 8 + f.base :=
      UInt8.toNat_ofNat_of_lt' (by rw [show UInt8.size = 256 from rfl]; omega)
    have hread := Window.read_byte (A := A) (C := C)
      (x := UInt8.ofNat (f.scale * 64 + f.index * 8 + f.base)) (by rw [hw, List.append_assoc, List.singleton_append])
    rw [hv, ← hoff] at hread
    have hlow : (f.scale * 64 + f.index * 8 + f.base) % 8 = f.base := by omega
    have hmid : (f.scale * 64 + f.index * 8 + f.base) >>> 3 % 8 = f.index := by
      rw [Nat.shiftRight_eq_div_pow]
      omega
    have hhigh : (f.scale * 64 + f.index * 8 + f.base) >>> 6 = f.scale := by
      rw [Nat.shiftRight_eq_div_pow]
      omega
    simp only [readSib, h4, if_true, hread, bind, Except.bind, pure, Except.pure, hlow, hmid, hhigh, hb,
      List.length_singleton, ModrmForm.baseField, ModrmForm.decodedIndex]
    rfl
  · have hb : f.sibByte = [] := by simp [ModrmForm.sibByte, ModrmForm.sib, h4]
    have hv : c.desc.vsib = false := by
      cases h : c.desc.vsib
      · rfl
      · exact absurd (hvsib h) h4
    simp [readSib, h4, hv, hb, ModrmForm.baseField, ModrmForm.decodedIndex]
    rfl

/-- **A memory operand read back.** After a ModRM byte of a memory form, the decoder reads the
form's SIB byte and displacement and makes its base, scale and index, and the displacement as
the 64-bit word of the form's offset. -/
theorem modrmOperand_mem {f : ModrmForm} (reg : Nat) {A C : List UInt8}
    (hm : c.desc.hasModrm = true) (hmode : c.mode = .bits64)
    (hmd : f.md < 3) (hrm : f.rm < 8) (hbase : f.base < 8) (hindex : f.index < 8) (hscale : f.scale < 4)
    (hdisp : f.dispSize = f.dispWidth) (hfit : fits f.disp f.dispSize = true)
    (hzero : f.dispSize = 0 → f.disp = 0) (hvsib : c.desc.vsib = true → f.rm = 4)
    (hw : c.window.bytes.toList = A ++ (f.sibByte ++ leBytes (Word.ofSigned f.disp) f.dispSize) ++ C)
    (hoff : s.off = A.length) :
    modrmOperand c (f.md * 64 + reg % 8 * 8 + f.rm) s = .ok
      { s.setOp c.desc.modrmIdx (f.memOperand (c.rex Rex.b) (c.rex Rex.x) c.desc.vsib) with
        off := A.length + f.sibByte.length + f.dispSize
        disp := UInt64.ofNat (Word.ofSigned f.disp) } := by
  have hmd' : ((f.md * 64 + reg % 8 * 8 + f.rm) >>> 6) % 4 = f.md := by
    rw [Nat.shiftRight_eq_div_pow]
    omega
  have hrm' : (f.md * 64 + reg % 8 * 8 + f.rm) % 8 = f.rm := by omega
  have hsib := readSib_form hmd hbase hindex hscale hvsib (A := A) (C := leBytes (Word.ofSigned f.disp) f.dispSize ++ C)
    (by rw [hw]; simp) hoff
  have hdispw : c.window.bytes.toList = (A ++ f.sibByte) ++ leBytes (Word.ofSigned f.disp) f.dispSize ++ C := by
    rw [hw]
    simp
  have hlen : (A ++ f.sibByte).length = s.off + f.sibByte.length := by simp [hoff]
  have hread := Window.read_leBytes hdispw
  rw [hlen] at hread
  unfold modrmOperand ModrmForm.memOperand ModrmForm.decodedBase
  simp only [hm, Bool.not_true, Bool.false_eq_true, if_false, hmd', hrm', show f.md ≠ 3 by omega, hsib,
    hmode, bind, Except.bind, and_true]
  by_cases h1 : f.md = 1
  · have hs : f.dispSize = 1 := by rw [hdisp, ModrmForm.dispWidth, if_pos h1]
    have hx := signExtend_ofSigned (n := 1) (.inl rfl) (hs ▸ hfit)
    rw [hs, hoff] at hread
    simp only [h1, if_true, hread, hx, hs, hoff, pure, Except.pure, rexPlus_eq]
  by_cases h4 : f.md = 2 ∨ (f.md = 0 ∧ f.baseField = 5)
  · have hs : f.dispSize = 4 := by rw [hdisp, ModrmForm.dispWidth, if_neg h1, if_pos h4]
    have hx := signExtend_ofSigned (n := 4) (.inr (.inr rfl)) (hs ▸ hfit)
    rw [hs, hoff] at hread
    simp only [h1, if_false, h4, if_true, hread, hx, hs, hoff, pure, Except.pure, rexPlus_eq]
  · have hs : f.dispSize = 0 := by rw [hdisp, ModrmForm.dispWidth, if_neg h1, if_neg h4]
    simp only [h1, if_false, h4, hs, hzero hs, hoff, pure, Except.pure, rexPlus_eq, Nat.add_zero]
    rfl
theorem update_update {α : Type} (xs : Vector α 4) (i : Position) (f g : α → α) :
    Position.update (Position.update xs i f) i g = Position.update xs i (g ∘ f) := by
  apply Vector.ext
  intro k hk
  show (Position.update (Position.update xs i f) i g).get ⟨k, hk⟩ = (Position.update xs i (g ∘ f)).get ⟨k, hk⟩
  simp only [get_update]
  split <;> simp_all

/-- **A register operand in ModRM.** In the register form the rm field names the register,
extended by REX.B for general purpose and vector registers. -/
theorem modrmOperand_reg {opByte : Nat} (hm : c.desc.hasModrm = true) (h3 : (opByte >>> 6) % 4 = 3) :
    modrmOperand c opByte s = .ok (s.setOp c.desc.modrmIdx fun o =>
      { o with type := .reg
               reg := opByte % 8 + if o.misc = RegType.gpl ∨ o.misc = RegType.vec then c.rexPlus Rex.b else 0 }) := by
  unfold modrmOperand
  simp only [hm, Bool.not_true, Bool.false_eq_true, if_false, h3, if_true]
  rfl

theorem vexOperand_reg (hv : c.desc.hasVexreg = true) (hmode : c.mode = .bits64) :
    vexOperand c s = .ok (s.setOp c.desc.vexregIdx fun o => { o with type := .reg, reg := c.prefixes.vexOperand }) := by
  unfold vexOperand
  simp only [hv, if_true, hmode]
  rfl

theorem vexOperand_none (hv : c.desc.hasVexreg = false) (h0 : c.prefixes.vexOperand = 0) :
    vexOperand c s = .ok s := by
  unfold vexOperand
  simp only [hv, Bool.false_eq_true, if_false, h0, ne_eq, not_true_eq_false]
  rfl

theorem immediate_none (h : c.desc.immControl = 0) : immediate c s = .ok s := by
  unfold immediate
  rw [h]
  rfl

theorem immediate_one (h : c.desc.immControl = 1) :
    immediate c s = .ok { s.setOp c.desc.immIdx (fun o => { o with type := .imm }) with imm := 1 } := by
  unfold immediate
  rw [h]
  rfl

/-- an address-sized offset is read as a memory operand with neither base nor index -/
theorem immediate_moffs {A C : List UInt8} {v : Nat} (h : c.desc.immControl = 2)
    (hw : c.window.bytes.toList = A ++ leBytes v c.addrSize ++ C) (hoff : s.off = A.length) :
    immediate c s = .ok { s.setOp c.desc.immIdx (fun o => { o with type := .mem, reg := noReg, misc := noReg }) with
      disp := UInt64.ofNat (v % (1 <<< (8 * c.addrSize))), off := s.off + c.addrSize } := by
  have hread := Window.read_leBytes hw
  rw [← hoff] at hread
  unfold immediate
  rw [h]
  simp only [Progress.off_setOp, hread]
  rfl

/-- a vector register is read from the high four bits of a byte -/
theorem immediate_vecReg {A C : List UInt8} {x : UInt8} (h : c.desc.immControl = 3)
    (hmode : c.mode = .bits64) (hw : c.window.bytes.toList = A ++ x :: C) (hoff : s.off = A.length) :
    immediate c s = .ok { s.setOp c.desc.immIdx (fun o => { o with type := .reg, reg := x.toNat / 16, misc := RegType.vec }) with
      off := s.off + 1 } := by
  have hread := Window.read_byte hw
  rw [← hoff] at hread
  unfold immediate
  rw [h]
  simp only [hread, hmode, bind, Except.bind, pure, Except.pure, Progress.setOp, update_update]
  rfl

/-- a number immediate is read from its bytes, sign-extended as the width it was written with -/
theorem immediate_number {A C : List UInt8} {d : Int} (h4 : 4 ≤ c.desc.immControl)
    (h6 : c.desc.immControl < 6) (hfit : fits d (immSize c c.desc.immControl) = true)
    (hn : immSize c c.desc.immControl ≠ 0)
    (hw : c.window.bytes.toList = A ++ leBytes (Word.ofSigned d) (immSize c c.desc.immControl) ++ C)
    (hoff : s.off = A.length) :
    immediate c s = .ok { s.setOp c.desc.immIdx (fun o => { o with type := .imm }) with
      off := s.off + immSize c c.desc.immControl, imm := UInt64.ofNat (Word.ofSigned d) } := by
  have hread := Window.read_leBytes hw
  rw [← hoff] at hread
  have hv := immValue_ofSigned hfit hn
  obtain ⟨k, hk⟩ : ∃ k, c.desc.immControl = k + 4 := ⟨_, (Nat.sub_add_cancel h4).symm⟩
  have hbit : hasBit (k + 4) 2 = false := by
    have : k = 0 ∨ k = 1 := by omega
    rcases this with rfl | rfl <;> rfl
  rw [hk] at hread hv ⊢
  unfold immediate
  rw [hk]
  simp only [Progress.off_setOp, hread, hv, hbit, bind, Except.bind, Option.getD_some, Bool.false_eq_true,
    if_false, pure, Except.pure]

/-- a relative offset, when the instruction's address is not known, is read as an offset operand
of the number its bytes hold -/
theorem immediate_relative {A C : List UInt8} {d : Int} (h6 : 6 ≤ c.desc.immControl)
    (h8 : c.desc.immControl < 8) (haddr : c.address = 0) (hfit : fits d (immSize c c.desc.immControl) = true)
    (hn : immSize c c.desc.immControl ≠ 0)
    (hw : c.window.bytes.toList = A ++ leBytes (Word.ofSigned d) (immSize c c.desc.immControl) ++ C)
    (hoff : s.off = A.length) :
    immediate c s = .ok { s.setOp c.desc.immIdx (fun o => { o with type := .off }) with
      off := s.off + immSize c c.desc.immControl, imm := UInt64.ofNat (Word.ofSigned d) } := by
  have hread := Window.read_leBytes hw
  rw [← hoff] at hread
  have hv := immValue_ofSigned hfit hn
  obtain ⟨k, hk⟩ : ∃ k, c.desc.immControl = k + 6 := ⟨_, (Nat.sub_add_cancel h6).symm⟩
  have hbit : hasBit (k + 6) 2 = true := by
    have : k = 0 ∨ k = 1 := by omega
    rcases this with rfl | rfl <;> rfl
  rw [hk] at hread hv ⊢
  unfold immediate
  rw [hk]
  simp only [hread, hv, hbit, bind, Except.bind, Option.getD_some, if_true, haddr,
    ne_eq, not_true_eq_false, if_false, pure, Except.pure, Progress.setOp, update_update]
  rfl

end Decoder

end X86Codec
