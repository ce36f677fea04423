import X86Codec.Text.Quoted
/-!
Why reading the listing or building the tables can fail.

Each cause is a constructor; `Failure.message` gives its wording and `Failure.kind` the class
of fault it belongs to (a malformed value, a missing position, a missing key, a bad count, a
value of the wrong sort, nesting past the limit, or a usage error that ends the command
line).
-/

namespace X86Codec

open Text

/-- the class of a fault, which the caller may report beside the message -/
inductive FailureKind where
  /-- a value of the listing is malformed -/
  | malformed
  /-- a position past the end of a sequence was read -/
  | position
  /-- a name or number has no entry in a fixed table -/
  | key
  /-- a count or an empty collection does not fit -/
  | count
  /-- a value of the wrong sort was used -/
  | sort
  /-- a computation nested deeper than the nesting limit allows -/
  | nesting
  /-- the command line was misused; the payload is the exit status -/
  | usage
  deriving DecidableEq, Repr

/-- what the three kinds of sequence are called in position faults -/
inductive SeqKind where
  | list | tuple | text
  deriving DecidableEq, Repr

/-- the causes of failure -/
inductive Failure where
  /-- an operand kind that is not capitals followed by digits -/
  | badOperandText (text : String)
  /-- a number written with more digits than are read -/
  | longNumber (digits : Nat)
  /-- an operand kind whose letters name no operand class -/
  | badOperandClass (text : String)
  /-- an operand size that depends on a size that was not given -/
  | unsizedOperand
  /-- an encoding name that is not in the table of encodings -/
  | unknownEncoding (name : String)
  /-- an operand class without an encoder register class -/
  | noRegisterClass (cls : String)
  /-- an operand size without a size code -/
  | noSizeCode (size : Int)
  /-- more fixed operand sizes than the two size slots hold -/
  | badFixedSizes (sizes : List Int)
  /-- a fourth operand that is not a vector register -/
  | badFourthOperand
  /-- a position past the end of a sequence -/
  | pastEnd (seq : SeqKind)
  /-- a field name that descriptor layouts do not have -/
  | unknownField (name : String)
  /-- an opcode column that is not an opcode pattern -/
  | badOpcode (text : String)
  /-- a second strong entry for the same opcode path -/
  | redundantEntry (path : List (Option (List Nat)))
  /-- the tables do not fit in the 15-bit offsets -/
  | tableTooLarge (size : Nat)
  /-- a mode with no instruction at all -/
  | emptyRoot
  /-- a root table that merging removed -/
  | removedRoot
  /-- a table that merging removed was read -/
  | readRemoved
  /-- a table that merging removed was walked -/
  | walkRemoved
  /-- a table that merging removed was linked -/
  | linkRemoved
  /-- a listing line with fewer than two columns -/
  | missingColumns (found : Nat)
  /-- no list of modes was given -/
  | noModes
  /-- an encoder entry that allows no operand size -/
  | noOperandSizes
  /-- the walk over the mnemonic names nested past the nesting limit -/
  | nestingExhausted
  /-- the command line was misused -/
  | usage (status : Nat)
  deriving Repr

namespace Failure

/-- the class of fault of a cause -/
def kind : Failure → FailureKind
  | badOperandText _ | badOperandClass _ | unsizedOperand | badFixedSizes _
  | badFourthOperand | badOpcode _ | redundantEntry _ | tableTooLarge _ => .malformed
  | pastEnd _ => .position
  | unknownEncoding _ | noRegisterClass _ | noSizeCode _ => .key
  | missingColumns _ | noOperandSizes | longNumber _ => .count
  | unknownField _ | emptyRoot | removedRoot | readRemoved | walkRemoved | linkRemoved
  | noModes => .sort
  | nestingExhausted => .nesting
  | usage _ => .usage

/-- the most decimal digits a number may be written with -/
def maxDigits : Nat := 4300

/-- the hexadecimal text of a number with a `0x` mark -/
def hexText (n : Nat) : String :=
  "0x" ++ String.ofList (Nat.toDigits 16 n)

/-- the printed form of an opcode path: its six levels in brackets -/
def showPath (path : List (Option (List Nat))) : String :=
  "(" ++ ", ".intercalate (path.map fun l => showOptInts (l.map (List.map Int.ofNat))) ++ ")"

/-- the message of a cause -/
def message : Failure → String
  | badOperandText t => "invalid opkind str: " ++ t
  | badOperandClass t => "invalid opkind kind: " ++ t
  | longNumber n => "Exceeds the limit (" ++ toString maxDigits ++
      " digits) for integer string conversion: value has " ++ toString n ++
      " digits; use sys.set_int_max_str_digits() to increase the limit"
  | unsizedOperand => "unspecified operand size"
  | unknownEncoding n => quote n
  | noRegisterClass c => quote c
  | noSizeCode s => toString s
  | badFixedSizes s => "invalid fixed operand sizes: " ++ showInts s
  | badFourthOperand => "invalid regty for op 3, must be VEC"
  | pastEnd .list => "list index out of range"
  | pastEnd .tuple => "tuple index out of range"
  | pastEnd .text => "string index out of range"
  | unknownField n => "InstrFlags.__new__() got an unexpected keyword argument '" ++ n ++ "'"
  | badOpcode t => t
  | redundantEntry p => "redundant non-weak " ++ showPath p
  | tableTooLarge n => "maximum table size exceeded: " ++ hexText n
  | emptyRoot => "cannot unpack non-iterable NoneType object"
  | removedRoot => "%d format: a real number is required, not NoneType"
  | readRemoved => "'NoneType' object is not subscriptable"
  | walkRemoved => "'NoneType' object is not iterable"
  | linkRemoved => "unsupported operand type(s) for <<: 'NoneType' and 'int'"
  | missingColumns n => "not enough values to unpack (expected 2, got " ++ toString n ++ ")"
  | noModes => "object of type 'NoneType' has no len()"
  | noOperandSizes => "max() arg is an empty sequence"
  | nestingExhausted => "maximum recursion depth exceeded while calling a Python object"
  | usage s => toString s

end Failure

end X86Codec
