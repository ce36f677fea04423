import X86Codec.Failure
/-!
Operand kinds of the instruction listing.

An operand column is a class in capitals (`GP`, `XMM`, `MEM`, ...) and an optional size in bits;
`MEMZ` and `MEMV` abbreviate `MEM0` and `XMM`. The size is kept in bytes (bits divided by
eight, rounded down). Without digits the class gives the size: general-purpose, immediate,
segment and memory operands take the operand size of the instruction, vector operands its
vector size, MMX registers 8 bytes, x87 registers 10 bytes, the rest none. A size of more
than `Failure.maxDigits` digits is refused before the class is looked at.

Main statement: `OperandKind.absSize` resolves a size that depends on the instruction exactly
when that size is given (`absSize_eq_error_iff`).
-/

namespace X86Codec

/-- the register or operand classes of the listing -/
inductive OperandClass where
  | imm | mem | gp | mmx | xmm | seg | fpu | mask | cr | dr | tmm | bnd
  deriving DecidableEq, Repr, Hashable

namespace OperandClass

/-- the spelling of a class in the listing -/
def name : OperandClass → String
  | imm => "IMM" | mem => "MEM" | gp => "GP" | mmx => "MMX" | xmm => "XMM" | seg => "SEG"
  | fpu => "FPU" | mask => "MASK" | cr => "CR" | dr => "DR" | tmm => "TMM" | bnd => "BND"

/-- every class -/
def all : List OperandClass := [imm, mem, gp, mmx, xmm, seg, fpu, mask, cr, dr, tmm, bnd]

/-- the class spelled by a word -/
def ofName? (s : String) : Option OperandClass := all.find? (·.name == s)

end OperandClass

/-- the size of an operand: fixed, or the operand size or vector size of the instruction -/
inductive OperandSize where
  | fixed (bytes : Nat)
  | op
  | vec
  deriving DecidableEq, Repr, Hashable

namespace OperandSize

/-- the size as one number: bytes, `-1` for the operand size, `-2` for the vector size -/
def code : OperandSize → Int
  | fixed n => n
  | op => -1
  | vec => -2

end OperandSize

/-- an operand column: a class and a size -/
structure OperandKind where
  size : OperandSize
  cls : OperandClass
  deriving DecidableEq, Repr, Hashable

namespace OperandKind

/-- the size a class has when no digits follow it -/
def defaultSize : String → OperandSize
  | "GP" | "IMM" | "SEG" | "MEM" => .op
  | "XMM" => .vec
  | "MMX" => .fixed 8
  | "FPU" => .fixed 10
  | _ => .fixed 0

/-- the value of a digit list read in base ten -/
def digitValue (ds : List Char) : Nat :=
  ds.foldl (fun n d => 10 * n + (d.toNat - '0'.toNat)) 0

/-- the letters and digits of an operand column: one or more capitals, then digits, then
nothing or a single line feed -/
def split? (cs : List Char) : Option (List Char × List Char) :=
  let letters := cs.takeWhile fun c => 'A' ≤ c && c ≤ 'Z'
  let rest := cs.dropWhile fun c => 'A' ≤ c && c ≤ 'Z'
  let digits := rest.takeWhile Char.isDigit
  let tail := rest.dropWhile Char.isDigit
  if letters.isEmpty then none
  else if tail = [] || tail = ['\n'] then some (letters, digits)
  else none

/-- read an operand column -/
def parse (s : String) : Except Failure OperandKind :=
  let s := if s = "MEMZ" then "MEM0" else if s = "MEMV" then "XMM" else s
  match split? s.toList with
  | none => .error (.badOperandText s)
  | some (letters, digits) =>
    if digits.length > Failure.maxDigits then .error (.longNumber digits.length) else
    let word := String.ofList letters
    let size := if digits.isEmpty then defaultSize word else .fixed (digitValue digits / 8)
    match OperandClass.ofName? word with
    | none => .error (.badOperandClass s)
    | some cls => .ok ⟨size, cls⟩

/-- the size in bytes, given the operand size and vector size of the instruction -/
def absSize (k : OperandKind) (opSize vecSize : Option Int) : Except Failure Int :=
  match k.size with
  | .fixed n => .ok n
  | .op => match opSize with | some n => .ok n | none => .error .unsizedOperand
  | .vec => match vecSize with | some n => .ok n | none => .error .unsizedOperand

/-- a size fails to resolve exactly when it depends on a size that is not given -/
theorem absSize_eq_error_iff (k : OperandKind) (o v : Option Int) :
    (∃ e, k.absSize o v = .error e) ↔
      (k.size = .op ∧ o = none) ∨ (k.size = .vec ∧ v = none) := by
  constructor
  · rintro ⟨e, h⟩
    unfold absSize at h
    split at h
    · cases h
    · rename_i hs; split at h <;> simp_all
    · rename_i hs; split at h <;> simp_all
  · rintro (⟨hs, ho⟩ | ⟨hs, hv⟩)
    · exact ⟨.unsizedOperand, by simp [absSize, hs, ho]⟩
    · exact ⟨.unsizedOperand, by simp [absSize, hs, hv]⟩

end OperandKind

end X86Codec
