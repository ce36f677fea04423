/-!
Words held as natural numbers: the low bits of a number, and 64-bit words read as signed
numbers (two's complement).

Powers of two are written as shifts of one, so that the same text means the same number
with any set of instances in scope.
-/

namespace X86Codec.Word

/-- the number of 64-bit words -/
def modulus : Nat := 0x10000000000000000

/-- the sign bit of a 64-bit word -/
def signBit : Nat := 0x8000000000000000

/-- the low `n` bits of a number -/
def low (n v : Nat) : Nat := v % (1 <<< n)

/-- a 64-bit word read as a signed number -/
def toSigned (v : Nat) : Int := if v < signBit then v else (v : Int) - modulus

/-- a signed number as a 64-bit word -/
def ofSigned (v : Int) : Nat := (v % (modulus : Int)).toNat

/-- the low `n` bits of a number read as a signed number of `n` bits -/
def signed (n v : Nat) : Int :=
  let l := low n v
  if l < 1 <<< (n - 1) then l else (l : Int) - ((1 <<< n : Nat) : Int)

example : toSigned 0xffffffffffffffff = -1 := by decide
example : ofSigned (-1) = 0xffffffffffffffff := by decide
example : signed 8 0x80 = -128 ∧ signed 8 0x7f = 127 ∧ signed 32 0x1ffffffff = -1 := by decide

end X86Codec.Word
