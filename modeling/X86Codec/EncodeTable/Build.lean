import Std.Data.HashMap
import X86Codec.Listing.Entry
/-!
The encoder's tables built from listing entries, and their text.

Each entry gives one encoder variant per operand size, vector size, lock or repeat prefix and
ModRM form it allows. A variant is named `FE_`, the prefix, the mnemonic (`MOVABS` as `MOV`,
`XCHG_NOP` as `XCHG`), the operand and vector size unless fixed (with `_` before it when the
name already ends in a digit), and one role letter per operand (`o` dropped), each followed by
the operand's size in bits for entries flagged `ENC_SEPSZ`.

Variants of one name that agree in encoding, immediate width and operand classes are kept
once. They are tried in the order of their immediate width, then of the encoding's priority
(`O`, `OA`, `OI`, `IA`, `M`, `MI`, `MR`, `RM`, the rest with `O`), each pointing to the next
as its alternative. The first variant of a name sits at the name's number, the others after
all names.

Operand sizes are lists in ascending order.
-/

namespace X86Codec

/-- the flags of an encoder opcode word -/
inductive OpcFlag where
  | esc0f | esc0f38 | esc0f3a | vsib | p66 | f2 | f3 | rexw | lock | vex | vexl
  deriving DecidableEq, Repr, Hashable

namespace OpcFlag

/-- the name of a flag -/
def name : OpcFlag → String
  | esc0f => "OPC_0F" | esc0f38 => "OPC_0F38" | esc0f3a => "OPC_0F3A" | vsib => "OPC_VSIB"
  | p66 => "OPC_66" | f2 => "OPC_F2" | f3 => "OPC_F3" | rexw => "OPC_REXW"
  | lock => "OPC_LOCK" | vex => "OPC_VEX" | vexl => "OPC_VEXL"

/-- the bits of a flag -/
def bits : OpcFlag → Nat
  | esc0f => 1 <<< 16 | esc0f38 => 2 <<< 16 | esc0f3a => 3 <<< 16 | vsib => 1 <<< 18
  | p66 => 1 <<< 19 | f2 => 1 <<< 20 | f3 => 1 <<< 21 | rexw => 1 <<< 22 | lock => 1 <<< 23
  | vex => 1 <<< 24 | vexl => 1 <<< 25

end OpcFlag

/-- an encoder opcode: the opcode bytes and the flags, in the order they are written -/
structure OpcWord where
  base : Nat
  flags : List OpcFlag
  deriving DecidableEq, Repr, Hashable

namespace OpcWord

/-- the numeric opcode word -/
def value (o : OpcWord) : Nat := o.flags.foldl (fun v f => v ||| f.bits) o.base

/-- the opcode word as text: hex bytes, then `|` and each flag -/
def text (o : OpcWord) : String :=
  "0x" ++ String.ofList (Nat.toDigits 16 o.base) ++ String.join (o.flags.map ("|" ++ ·.name))

end OpcWord

/-- one encoder variant -/
structure Variant where
  encoding : String
  immWidth : Int
  classes : Nat
  opc : OpcWord
  deriving DecidableEq, Repr, Hashable

/-- the variants of each name, names in order of first use -/
structure VariantMap where
  names : Array String
  variants : Array (Array Variant)
  index : Std.HashMap String Nat

namespace VariantMap

/-- the map with only `FE_NOP` -/
def initial : VariantMap :=
  { names := #["FE_NOP"], variants := #[#[⟨"NP", 0, 0, ⟨0x90, []⟩⟩]],
    index := ({} : Std.HashMap String Nat).insert "FE_NOP" 0 }

/-- the map with a variant added under a name -/
def add (m : VariantMap) (name : String) (v : Variant) : VariantMap :=
  match m.index[name]? with
  | some i => { m with variants := m.variants.modify i (·.push v) }
  | none =>
    { names := m.names.push name, variants := m.variants.push #[v],
      index := m.index.insert name m.names.size }

end VariantMap

namespace EncodeTable

/-- the name suffix for a size: with `_` before it when the name ends in a digit -/
def sizeSuffix (name : String) (size : Nat) : String :=
  if name.back.isDigit then "_" ++ toString size else toString size

/-- the lock and repeat prefixes a descriptor allows: name part and flag -/
def prefixes (d : Descriptor) : List (String × Option OpcFlag) :=
  [("", none)] ++
  (if d.has "LOCK" then [("LOCK_", some .lock)] else []) ++
  (if d.has "ENC_REP" then [("REP_", some .f3)] else []) ++
  (if d.has "ENC_REPCC" then [("REPNZ_", some .f2), ("REPZ_", some .f3)] else [])

/-- the opcode bytes of an entry's opcode word: the opcode byte, with a fixed ModRM byte or
a reg digit above it -/
def opcBase (o : Opcode) : Nat :=
  let base := match o.fixedModrm with
    | some x => o.byte ||| (x <<< 8)
    | none => o.byte
  match o.modrm with
  | some (some r, _) => base ||| (r <<< 8)
  | _ => base

/-- what the variants of an entry range over: its operand sizes and vector sizes, the flags of
its opcode, and whether the operand and vector sizes go into the names -/
structure Shape where
  opsizes : List Nat
  vecsizes : List Nat
  flags : List OpcFlag
  prependOp : Bool
  prependVec : Bool

/-- the shape of an entry's variants; an entry left with no operand or vector size fails -/
def shapeOf (e : Entry) : Except Failure Shape := do
  let d := e.desc
  let o := e.opcode
  let mut opsizes : List Nat := if d.has "SIZE_8" then [8] else [16, 32, 64]
  let mut vecsizes : List Nat := [128]
  let mut hasVex := false
  let mut flags : List OpcFlag :=
    match o.escape with | 1 => [.esc0f] | 2 => [.esc0f38] | 3 => [.esc0f3a] | _ => []
  if d.has "VSIB" then flags := flags ++ [.vsib]
  if o.vex then
    hasVex := true
    vecsizes := [128, 256]
    flags := flags ++ [.vex]
  if let some m := o.mandatory then
    match m with
    | .p66 => flags := flags ++ [.p66]
    | .f2 => flags := flags ++ [.f2]
    | .f3 => flags := flags ++ [.f3]
    | _ => pure ()
    if !d.has "USE66" && m ≠ .nfx then opsizes := opsizes.filter (· ≠ 16)
  match o.vexl with
  | some .ignored => vecsizes := [0]
  | some .set =>
    vecsizes := vecsizes.filter (· ≠ 128)
    flags := flags ++ [.vexl]
  | some .clear => vecsizes := vecsizes.filter (· ≠ 256)
  | none => pure ()
  match o.rexw with
  | some .ignored => opsizes := [0]
  | some .set =>
    opsizes := opsizes.filter (· ≠ 32)
    flags := flags ++ [.rexw]
  | some .clear => opsizes := opsizes.filter (· ≠ 64)
  | none => pure ()
  if d.has "DEF64" then opsizes := opsizes.filter (· ≠ 32)
  if !d.has "INSTR_WIDTH" && d.operands.all (·.size ≠ .op) then opsizes := [0]
  if !d.has "VSIB" && d.operands.all (·.size ≠ .vec) then vecsizes := [0]
  if d.has "ENC_NOSZ" then
    opsizes := [0]
    vecsizes := [0]
  let separate := d.has "ENC_SEPSZ"
  let some opMax := opsizes.max? | throw .noOperandSizes
  let mut prependOp := opMax > 0 && !separate
  let prependVec ← if hasVex then
      match vecsizes.max? with
      | some v => pure (v > 0 && !separate)
      | none => throw .noOperandSizes
    else pure false
  if d.has "FORCE64" then
    opsizes := [64]
    prependOp := false
  return { opsizes, vecsizes, flags, prependOp, prependVec }

/-- the flags of a variant: the entry's, the prefix's, then 66, VEX.L and REX.W for its sizes -/
def variantFlags (d : Descriptor) (flags : List OpcFlag) (opsize vecsize : Nat)
    (pflag : Option OpcFlag) : List OpcFlag :=
  flags ++ pflag.toList ++ (if opsize = 16 then [.p66] else []) ++
    (if vecsize = 256 then [.vexl] else []) ++
    (if opsize = 64 && !d.has "DEF64" && !d.has "FORCE64" then [.rexw] else [])

/-- the name of a variant; an operand whose size is not known fails under `ENC_SEPSZ` -/
def variantName (d : Descriptor) (mnemonic pname : String) (s : Shape) (opsize vecsize : Nat)
    (roles : String) : Except Failure String := do
  let mut name := "FE_" ++ pname ++ mnemonic
  if s.prependOp && !(d.has "DEF64" && opsize = 64) then
    name := name ++ sizeSuffix name opsize
  if s.prependVec then name := name ++ sizeSuffix name vecsize
  for (role, k) in roles.toList.zip d.operands do
    name := name ++ (if role = 'o' then "" else role.toString)
    if d.has "ENC_SEPSZ" then
      let size ← k.absSize (some ((opsize / 8 : Nat) : Int)) (some ((vecsize / 8 : Nat) : Int))
      name := name ++ toString (size * 8)
  return name

/-- the variant of an entry for an operand size, a vector size, a prefix and the role letters
of a ModRM form, named; none for a lock prefix on a form whose first operand is not in memory -/
def variantAt (e : Entry) (s : Shape) (mnemonic : String) (opsize vecsize : Nat)
    (pfx : String × Option OpcFlag) (roles : String) :
    Except Failure (Option (String × Variant)) := do
  let d := e.desc
  if pfx.2 == some .lock then
    match roles.toList.head? with
    | none => throw (.pastEnd .text)
    | some c => if c ≠ 'm' then return none
  let imm ← d.immWidth (some ((opsize / 8 : Nat) : Int))
  let classes ← d.registerClasses roles (some ((opsize / 8 : Nat) : Int))
  let name ← variantName d mnemonic pfx.1 s opsize vecsize roles
  let opc : OpcWord :=
    { base := opcBase e.opcode, flags := variantFlags d s.flags opsize vecsize pfx.2 }
  return some (name, { encoding := d.encoding, immWidth := imm, classes, opc })

/-- every operand size, vector size, prefix and set of role letters, the first varying slowest -/
def combos (s : Shape) (pfxs : List (String × Option OpcFlag)) (roleSets : List String) :
    List (Nat × Nat × (String × Option OpcFlag) × String) :=
  s.opsizes.flatMap fun o => s.vecsizes.flatMap fun v =>
    pfxs.flatMap fun p => roleSets.map fun r => (o, v, p, r)

/-- the role letters of a ModRM form: the letter `M` of the ModRM operand replaced by the form's
letter -/
def withForm (roles : String) (form : Char) : String :=
  String.ofList (roles.toList.map fun c => if c = 'M' then form else c)

/-- the variants of one entry, named, in order -/
def variantsOf (e : Entry) : Except Failure (List (String × Variant)) := do
  let d := e.desc
  let s ← shapeOf e
  let forms : List Char := match e.opcode.modrm with
    | some (_, f) => f.name.toList
    | none => ['r', 'm']
  let rolesBase ← d.operandRoles
  let roleSets := forms.map (withForm rolesBase)
  let mnemonic := if d.mnemonic = "MOVABS" then "MOV"
    else if d.mnemonic = "XCHG_NOP" then "XCHG" else d.mnemonic
  (combos s (prefixes d) roleSets).foldlM (fun out c => do
    let v? ← variantAt e s mnemonic c.1 c.2.1 c.2.2.1 c.2.2.2
    pure (out ++ v?.toList)) []

/-- the variant map of some entries; entries flagged `ONLY32` and reserved mnemonics are
left out -/
def variantMap (entries : List Entry) : Except Failure VariantMap :=
  entries.foldlM (fun m e =>
    if e.desc.has "ONLY32" || e.desc.mnemonic.startsWith "RESERVED_" then pure m
    else do
      let vs ← variantsOf e
      pure (vs.foldl (fun m (n, v) => m.add n v) m)) VariantMap.initial

/-- the priority of an encoding among variants of equal immediate width -/
def priority (enc : String) : Nat :=
  match ["O", "OA", "OI", "IA", "M", "MI", "MR", "RM"].findIdx? (· == enc) with
  | some i => i
  | none => 0

/-- the variants kept for a name, in the order they are tried -/
def ordered (vs : Array Variant) : List Variant :=
  let kept := vs.toList.foldl (fun acc v =>
    if acc.any fun x => x.encoding = v.encoding && x.immWidth = v.immWidth &&
        x.classes = v.classes then acc else acc ++ [v]) []
  kept.mergeSort fun a b =>
    a.immWidth < b.immWidth || (a.immWidth = b.immWidth && priority a.encoding ≤ priority b.encoding)

/-- where an encoder descriptor sits: at a name's number, or at the `k`-th place after all
names -/
inductive DescSlot where
  | named (name : String)
  | extra (k : Nat)
  deriving DecidableEq, Repr

/-- the slot as text -/
def DescSlot.text : DescSlot → String
  | .named n => n
  | .extra k => "FE_MNEM_MAX+" ++ toString k

/-- one encoder descriptor: where it sits, its variant and the slot of its alternative -/
structure Line where
  slot : DescSlot
  variant : Variant
  alt : Option DescSlot

/-- the descriptor lines of one name whose alternatives start at the `first`-th place after
all names: the name's slot, then the places in order, each pointing to the next -/
def chain (name : String) (first : Nat) (kept : List Variant) : List Line :=
  let slots := DescSlot.named name :: (List.range (kept.length - 1)).map fun i =>
    DescSlot.extra (first + i)
  let alts := (slots.drop 1).map some ++ [none]
  ((slots.zip alts).zip kept).map fun ((s, a), v) => ⟨s, v, a⟩

/-- the descriptor lines, names in order of first use -/
def lines (m : VariantMap) : List Line :=
  let step := fun ((altIndex, out) : Nat × List (List Line)) ((name, vs) : String × Array Variant) =>
      let kept := ordered vs
      (altIndex + (kept.length - 1), chain name altIndex kept :: out)
  let (_, out) := (m.names.toList.zip m.variants.toList).foldl step (0, [])
  out.reverse.flatten

/-- the text of one descriptor line -/
def Line.text (l : Line) : String :=
  "[" ++ l.slot.text ++ "] = \x7b .enc = ENC_" ++ l.variant.encoding ++ ", .immsz = " ++
    toString l.variant.immWidth ++ ", .tys = 0x" ++
    String.ofList (Nat.toDigits 16 l.variant.classes) ++ ", .opc = " ++ l.variant.opc.text ++
    ", .alt = " ++ ((l.alt.map DescSlot.text).getD "0") ++ " \x7d,\n"

/-- the names in sorted order -/
def sortedNames (m : VariantMap) : List String := sortedDistinct m.names.toList

/-- the mnemonic list text: one `FE_MNEMONIC(name,number)` line per name, sorted -/
def mnemonicText (m : VariantMap) : String :=
  String.join ((sortedNames m).zipIdx.map fun (n, i) =>
    "FE_MNEMONIC(" ++ n ++ "," ++ toString i ++ ")\n")

/-- the descriptor text -/
def descText (m : VariantMap) : String := String.join ((lines m).map Line.text)

end EncodeTable

end X86Codec
