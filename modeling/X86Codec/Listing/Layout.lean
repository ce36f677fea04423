import X86Codec.Failure
/-!
Packed descriptor layouts and the operand encodings.

A decoder descriptor packs 23 small fields into 48 bits: where the ModRM operands sit, the
immediate's control, the operand size codes, the register classes and a few flags. Fields are
listed from the highest bits to the lowest; packing keeps the low bits of each value (a
negative value wraps as in two's complement).

An encoding (the first descriptor column, `RM`, `MRI`, `VMI`, ...) fixes the roles of the
operand slots. A slot number `n` is stored as `n xor 3`, so that 0 means "no such operand".

Main statements: packing keeps every field below its width (`pack_lt`), and `Layout.setNamed`
refuses exactly the names that are not fields.
-/

namespace X86Codec

/-- the fields of a packed layout, from the highest bits to the lowest -/
inductive Field where
  | ign66 | modrm | unused | op2Regty | op1Regty | op0Regty | instrWidth | sizeFix2
  | sizeFix1 | opsize | op3Size | op2Size | op1Size | op0Size | vsib | immControl | lock
  | zeroregVal | immIdx | zeroregIdx | vexregIdx | modregIdx | modrmIdx
  deriving DecidableEq, Repr

namespace Field

/-- every field, highest bits first -/
def all : List Field :=
  [ign66, modrm, unused, op2Regty, op1Regty, op0Regty, instrWidth, sizeFix2, sizeFix1,
   opsize, op3Size, op2Size, op1Size, op0Size, vsib, immControl, lock, zeroregVal, immIdx,
   zeroregIdx, vexregIdx, modregIdx, modrmIdx]

/-- the number of bits of a field -/
def width : Field → Nat
  | ign66 | modrm | instrWidth | vsib | lock | zeroregVal => 1
  | unused => 5
  | op2Regty | op1Regty | op0Regty | sizeFix1 | immControl => 3
  | sizeFix2 | opsize | op3Size | op2Size | op1Size | op0Size | immIdx | zeroregIdx
  | vexregIdx | modregIdx | modrmIdx => 2

/-- the name of a field -/
def name : Field → String
  | ign66 => "ign66" | modrm => "modrm" | unused => "unused" | op2Regty => "op2_regty"
  | op1Regty => "op1_regty" | op0Regty => "op0_regty" | instrWidth => "instr_width"
  | sizeFix2 => "size_fix2" | sizeFix1 => "size_fix1" | opsize => "opsize"
  | op3Size => "op3_size" | op2Size => "op2_size" | op1Size => "op1_size"
  | op0Size => "op0_size" | vsib => "vsib" | immControl => "imm_control" | lock => "lock"
  | zeroregVal => "zeroreg_val" | immIdx => "imm_idx" | zeroregIdx => "zeroreg_idx"
  | vexregIdx => "vexreg_idx" | modregIdx => "modreg_idx" | modrmIdx => "modrm_idx"

/-- the field of a name -/
def ofName? (s : String) : Option Field := all.find? (·.name == s)

/-- the size field of operand `i` -/
def opSize : Nat → Field
  | 0 => op0Size | 1 => op1Size | 2 => op2Size | _ => op3Size

/-- the register class field of operand `i < 3` -/
def opRegty : Nat → Field
  | 0 => op0Regty | 1 => op1Regty | _ => op2Regty

end Field

/-- a value for every field -/
structure Layout where
  get : Field → Int

namespace Layout

/-- all fields zero -/
def zero : Layout := ⟨fun _ => 0⟩

/-- one field replaced -/
def set (l : Layout) (f : Field) (v : Int) : Layout :=
  ⟨fun g => if g = f then v else l.get g⟩

@[simp] theorem get_set (l : Layout) (f g : Field) (v : Int) :
    (l.set f v).get g = if g = f then v else l.get g := rfl

/-- the low `w` bits of a value -/
def lowBits (w : Nat) (v : Int) : Nat := (v % ((1 <<< w : Nat) : Int)).toNat

theorem lowBits_lt (w : Nat) (v : Int) : lowBits w v < 1 <<< w := by
  unfold lowBits
  have hp : 0 < 1 <<< w := by rw [Nat.shiftLeft_eq, Nat.one_mul]; exact Nat.two_pow_pos w
  generalize 1 <<< w = N at *
  have hN : ((N : Nat) : Int) ≠ 0 := by omega
  have h1 := Int.emod_nonneg v hN
  have h2 := Int.emod_lt_of_pos v (by omega : (0 : Int) < N)
  generalize v % (N : Int) = x at *
  omega

/-- the fields packed from the highest bits to the lowest -/
def packFields (l : Layout) (fs : List Field) : Nat :=
  fs.foldl (fun acc f => (acc <<< f.width) + lowBits f.width (l.get f)) 0

/-- the packed value of a layout -/
def pack (l : Layout) : Nat := packFields l Field.all

/-- the total width of some fields -/
def totalWidth (fs : List Field) : Nat := fs.foldr (fun f n => f.width + n) 0

theorem packFields_go_lt (l : Layout) :
    ∀ (fs : List Field) (acc : Nat), acc < 1 <<< n →
      fs.foldl (fun acc f => (acc <<< f.width) + lowBits f.width (l.get f)) acc <
        1 <<< (n + totalWidth fs)
  | [], acc, h => by simpa [totalWidth] using h
  | f :: fs, acc, h => by
    simp only [List.foldl_cons]
    have hb := lowBits_lt f.width (l.get f)
    have step : (acc <<< f.width) + lowBits f.width (l.get f) < 1 <<< (n + f.width) := by
      rw [Nat.shiftLeft_eq] at hb h ⊢
      rw [Nat.shiftLeft_eq, Nat.one_mul, Nat.pow_add]
      rw [Nat.one_mul] at hb h
      have : (acc + 1) * 2 ^ f.width ≤ 2 ^ n * 2 ^ f.width :=
        Nat.mul_le_mul_right _ h
      rw [Nat.add_mul, Nat.one_mul] at this
      omega
    have := packFields_go_lt (n := n + f.width) l fs _ step
    simpa [totalWidth, Nat.add_assoc] using this

/-- a packed layout fits in 48 bits -/
theorem pack_lt (l : Layout) : l.pack < 1 <<< 48 := by
  have := packFields_go_lt (n := 0) l Field.all 0 (by decide)
  simpa [pack, packFields, totalWidth, Field.all, Field.width] using this

/-- the layout with the named fields set, in order; a name that is no field is refused -/
def setNamed (l : Layout) : List (String × Int) → Except Failure Layout
  | [] => .ok l
  | (n, v) :: rest =>
    match Field.ofName? n with
    | none => .error (.unknownField n)
    | some f => setNamed (l.set f v) rest

/-- the field values, highest bits first -/
def values (l : Layout) : List Int := Field.all.map l.get

end Layout

/-- the operand roles an encoding fixes; slot numbers are stored as `n xor 3` -/
structure Roles where
  modrm : Nat := 0
  modrmIdx : Nat := 0
  modregIdx : Nat := 0
  vexregIdx : Nat := 0
  zeroregIdx : Nat := 0
  zeroregVal : Nat := 0
  immIdx : Nat := 0
  immControl : Nat := 0
  deriving DecidableEq, Repr

/-- the operand encodings of the listing -/
inductive Encoding where
  | np | m | m1 | mi | mc | mr | rm | rma | mri | rmi | mrc | am | ma | i | ia | o | oi | oa
  | s | a | d | fd | td | rvm | rvmi | rvmr | rmv | vm | vmi | mvr
  deriving DecidableEq, Repr, Hashable

namespace Encoding

/-- every encoding, in the order the encoder numbers them from 1 -/
def all : List Encoding :=
  [np, m, m1, mi, mc, mr, rm, rma, mri, rmi, mrc, am, ma, i, ia, o, oi, oa, s, a, d, fd, td,
   rvm, rvmi, rvmr, rmv, vm, vmi, mvr]

/-- the spelling of an encoding -/
def name : Encoding → String
  | np => "NP" | m => "M" | m1 => "M1" | mi => "MI" | mc => "MC" | mr => "MR" | rm => "RM"
  | rma => "RMA" | mri => "MRI" | rmi => "RMI" | mrc => "MRC" | am => "AM" | ma => "MA"
  | i => "I" | ia => "IA" | o => "O" | oi => "OI" | oa => "OA" | s => "S" | a => "A"
  | d => "D" | fd => "FD" | td => "TD" | rvm => "RVM" | rvmi => "RVMI" | rvmr => "RVMR"
  | rmv => "RMV" | vm => "VM" | vmi => "VMI" | mvr => "MVR"

/-- the encoding spelled by a word -/
def ofName? (s : String) : Option Encoding := all.find? (·.name == s)

/-- the encoding spelled by a word, or the failure naming it -/
def lookup (s : String) : Except Failure Encoding :=
  match ofName? s with
  | some e => .ok e
  | none => .error (.unknownEncoding s)

/-- the operand roles of an encoding -/
def roles : Encoding → Roles
  | np => {}
  | m => { modrm := 1, modrmIdx := 0 ^^^ 3 }
  | m1 => { modrm := 1, modrmIdx := 0 ^^^ 3, immIdx := 1 ^^^ 3, immControl := 1 }
  | mi => { modrm := 1, modrmIdx := 0 ^^^ 3, immIdx := 1 ^^^ 3, immControl := 4 }
  | mc => { modrm := 1, modrmIdx := 0 ^^^ 3, zeroregIdx := 1 ^^^ 3, zeroregVal := 1 }
  | mr => { modrm := 1, modrmIdx := 0 ^^^ 3, modregIdx := 1 ^^^ 3 }
  | rm => { modrm := 1, modrmIdx := 1 ^^^ 3, modregIdx := 0 ^^^ 3 }
  | rma => { modrm := 1, modrmIdx := 1 ^^^ 3, modregIdx := 0 ^^^ 3, zeroregIdx := 2 ^^^ 3 }
  | mri => { modrm := 1, modrmIdx := 0 ^^^ 3, modregIdx := 1 ^^^ 3, immIdx := 2 ^^^ 3,
             immControl := 4 }
  | rmi => { modrm := 1, modrmIdx := 1 ^^^ 3, modregIdx := 0 ^^^ 3, immIdx := 2 ^^^ 3,
             immControl := 4 }
  | mrc => { modrm := 1, modrmIdx := 0 ^^^ 3, modregIdx := 1 ^^^ 3, zeroregIdx := 2 ^^^ 3,
             zeroregVal := 1 }
  | am => { modrm := 1, modrmIdx := 1 ^^^ 3, zeroregIdx := 0 ^^^ 3 }
  | ma => { modrm := 1, modrmIdx := 0 ^^^ 3, zeroregIdx := 1 ^^^ 3 }
  | i => { immIdx := 0 ^^^ 3, immControl := 4 }
  | ia => { zeroregIdx := 0 ^^^ 3, immIdx := 1 ^^^ 3, immControl := 4 }
  | o => { modrmIdx := 0 ^^^ 3 }
  | oi => { modrmIdx := 0 ^^^ 3, immIdx := 1 ^^^ 3, immControl := 4 }
  | oa => { modrmIdx := 0 ^^^ 3, zeroregIdx := 1 ^^^ 3 }
  | s => { modregIdx := 0 ^^^ 3 }
  | a => { zeroregIdx := 0 ^^^ 3 }
  | d => { immIdx := 0 ^^^ 3, immControl := 6 }
  | fd => { zeroregIdx := 0 ^^^ 3, immIdx := 1 ^^^ 3, immControl := 2 }
  | td => { zeroregIdx := 1 ^^^ 3, immIdx := 0 ^^^ 3, immControl := 2 }
  | rvm => { modrm := 1, modrmIdx := 2 ^^^ 3, modregIdx := 0 ^^^ 3, vexregIdx := 1 ^^^ 3 }
  | rvmi => { modrm := 1, modrmIdx := 2 ^^^ 3, modregIdx := 0 ^^^ 3, vexregIdx := 1 ^^^ 3,
              immIdx := 3 ^^^ 3, immControl := 4 }
  | rvmr => { modrm := 1, modrmIdx := 2 ^^^ 3, modregIdx := 0 ^^^ 3, vexregIdx := 1 ^^^ 3,
              immIdx := 3 ^^^ 3, immControl := 3 }
  | rmv => { modrm := 1, modrmIdx := 1 ^^^ 3, modregIdx := 0 ^^^ 3, vexregIdx := 2 ^^^ 3 }
  | vm => { modrm := 1, modrmIdx := 1 ^^^ 3, vexregIdx := 0 ^^^ 3 }
  | vmi => { modrm := 1, modrmIdx := 1 ^^^ 3, vexregIdx := 0 ^^^ 3, immIdx := 2 ^^^ 3,
             immControl := 4 }
  | mvr => { modrm := 1, modrmIdx := 0 ^^^ 3, modregIdx := 2 ^^^ 3, vexregIdx := 1 ^^^ 3 }

/-- the layout that holds only the roles of an encoding -/
def layout (e : Encoding) : Layout :=
  let r := e.roles
  Layout.zero
    |>.set .modrm r.modrm |>.set .modrmIdx r.modrmIdx |>.set .modregIdx r.modregIdx
    |>.set .vexregIdx r.vexregIdx |>.set .zeroregIdx r.zeroregIdx
    |>.set .zeroregVal r.zeroregVal |>.set .immIdx r.immIdx |>.set .immControl r.immControl

/-- the operand role letters of an encoding, one per slot: `M` a ModRM operand that may be
a register or memory, `r` a register, `i` an immediate, `a` an address, `o` an offset -/
def roleLetters (e : Encoding) : String :=
  let r := e.roles
  let put (slots : Array String) (idx : Nat) (c : String) : Array String :=
    if idx = 0 then slots else slots.setIfInBounds (idx ^^^ 3) c
  let slots := put #["", "", "", ""] r.modrmIdx (if r.modrm = 1 then "M" else "r")
  let slots := put slots r.modregIdx "r"
  let slots := put slots r.vexregIdx "r"
  let slots := put slots r.zeroregIdx "r"
  let slots := if r.immControl = 0 then slots else
    slots.setIfInBounds (r.immIdx ^^^ 3) (String.ofList [" iariioo".toList.getD r.immControl ' '])
  String.join slots.toList

end Encoding

end X86Codec
