import X86Codec.Failure
/-!
Opcode patterns: the first column of a listing line.

A pattern is an optional prefix part, an escape, an opcode byte and an optional suffix:

* the prefix part is `VEX.` (optional), a mandatory prefix `NP`, `66`, `F2`, `F3` or `NFx`
  (no 66 prefix, any of the others), a dot, then optionally `W0.`, `W1.` or `WIG.` for REX.W /
  VEX.W, and `L0.`, `L1.` or `LIG.` for VEX.L;
* the escape is `0f38`, `0f3a`, `0f` or nothing, the byte two lowercase hex digits;
* the suffix is `+` (the low three bits of the byte name a register), `/` and a ModRM form
  (a reg field digit, `r` or `m` for the register or memory form, or both), or a second
  opcode byte `c0`..`ff` that is a fixed ModRM byte.

A single line feed may end the pattern. Longer escapes are tried first, and a pattern whose
prefix part does not lead to a match is read again without it.
-/

namespace X86Codec

/-- the mandatory prefix of a pattern -/
inductive Mandatory where
  | np | p66 | f2 | f3 | nfx
  deriving DecidableEq, Repr

/-- the spelling of a mandatory prefix -/
def Mandatory.name : Mandatory → String
  | .np => "NP" | .p66 => "66" | .f2 => "F2" | .f3 => "F3" | .nfx => "NFx"

/-- a W or L bit: required clear, required set, or ignored -/
inductive Switch where
  | clear | set | ignored
  deriving DecidableEq, Repr

/-- the spelling of a switch -/
def Switch.name : Switch → String
  | .clear => "0" | .set => "1" | .ignored => "IG"

/-- the ModRM forms a pattern admits -/
inductive ModForm where
  | reg | mem | both
  deriving DecidableEq, Repr

/-- the spelling of a ModRM form -/
def ModForm.name : ModForm → String
  | .reg => "r" | .mem => "m" | .both => "rm"

/-- a parsed opcode pattern -/
structure Opcode where
  mandatory : Option Mandatory
  /-- 0 none, 1 `0f`, 2 `0f38`, 3 `0f3a` -/
  escape : Nat
  byte : Nat
  extended : Bool
  /-- the reg field digit, if fixed, and the ModRM forms -/
  modrm : Option (Option Nat × ModForm)
  /-- a fixed second byte `c0`..`ff` -/
  fixedModrm : Option Nat
  vex : Bool
  vexl : Option Switch
  rexw : Option Switch
  deriving Repr

namespace Opcode

/-- the value of a lowercase hex digit -/
def hexValue (c : Char) : Option Nat :=
  if '0' ≤ c && c ≤ '9' then some (c.toNat - '0'.toNat)
  else if 'a' ≤ c && c ≤ 'f' then some (c.toNat - 'a'.toNat + 10)
  else none

/-- nothing left, or only a final line feed -/
def atEnd (cs : List Char) : Bool := cs.isEmpty || cs == ['\n']

/-- the suffix of a pattern -/
structure Suffix where
  extended : Bool := false
  modrm : Option (Option Nat × ModForm) := none
  fixedModrm : Option Nat := none

/-- the ModRM form named by a letter -/
def formOf (c : Char) : Option ModForm :=
  if c = 'r' then some .reg else if c = 'm' then some .mem else none

/-- read the suffix, which must end the pattern -/
def suffix? (cs : List Char) : Option Suffix :=
  if atEnd cs then some {} else
  match cs with
  | '+' :: r => if atEnd r then some { extended := true } else none
  | '/' :: d :: r =>
    if '0' ≤ d && d ≤ '7' then
      if atEnd r then some { modrm := some (some (d.toNat - '0'.toNat), .both) }
      else match r with
        | c :: r' => match formOf c with
          | some f => if atEnd r' then some { modrm := some (some (d.toNat - '0'.toNat), f) }
                      else none
          | none => none
        | [] => none
    else match formOf d with
      | some f => if atEnd r then some { modrm := some (none, f) } else none
      | none => none
  | c1 :: c2 :: r =>
    match hexValue c1, hexValue c2 with
    | some h1, some h2 =>
      if 12 ≤ h1 && atEnd r then some { fixedModrm := some (16 * h1 + h2) } else none
    | _, _ => none
  | _ => none

/-- read the opcode byte and the suffix -/
def byteAndSuffix? : List Char → Option (Nat × Suffix)
  | c1 :: c2 :: r =>
    match hexValue c1, hexValue c2, suffix? r with
    | some h1, some h2, some sfx => some (16 * h1 + h2, sfx)
    | _, _, _ => none
  | _ => none

/-- read the escape, the opcode byte and the suffix, longer escapes first -/
def body? (cs : List Char) : Option (Nat × Nat × Suffix) :=
  let attempt (esc : Nat) (r : List Char) := (byteAndSuffix? r).map fun (b, s) => (esc, b, s)
  let try0f38 := match cs with | '0' :: 'f' :: '3' :: '8' :: r => attempt 2 r | _ => none
  let try0f3a := match cs with | '0' :: 'f' :: '3' :: 'a' :: r => attempt 3 r | _ => none
  let try0f := match cs with | '0' :: 'f' :: r => attempt 1 r | _ => none
  try0f38 <|> try0f3a <|> try0f <|> attempt 0 cs

/-- read a mandatory prefix and the dot after it -/
def mandatory? : List Char → Option (Mandatory × List Char)
  | 'N' :: 'P' :: '.' :: r => some (.np, r)
  | '6' :: '6' :: '.' :: r => some (.p66, r)
  | 'F' :: '2' :: '.' :: r => some (.f2, r)
  | 'F' :: '3' :: '.' :: r => some (.f3, r)
  | 'N' :: 'F' :: 'x' :: '.' :: r => some (.nfx, r)
  | _ => none

/-- read an optional switch group such as `W0.` or `LIG.` -/
def switch? (letter : Char) : List Char → Option Switch × List Char
  | c :: '0' :: '.' :: r => if c = letter then (some .clear, r) else (none, c :: '0' :: '.' :: r)
  | c :: '1' :: '.' :: r => if c = letter then (some .set, r) else (none, c :: '1' :: '.' :: r)
  | c :: 'I' :: 'G' :: '.' :: r =>
    if c = letter then (some .ignored, r) else (none, c :: 'I' :: 'G' :: '.' :: r)
  | cs => (none, cs)

/-- the pattern read with its prefix part, if it has one that leads to a match -/
def withPrefix? (cs : List Char) : Option Opcode :=
  let (vex, cs) := match cs with
    | 'V' :: 'E' :: 'X' :: '.' :: r => (true, r)
    | _ => (false, cs)
  match mandatory? cs with
  | none => none
  | some (m, cs) =>
    let (rexw, cs) := switch? 'W' cs
    let (vexl, cs) := switch? 'L' cs
    (body? cs).map fun (escape, byte, s) =>
      { mandatory := some m, escape, byte, extended := s.extended, modrm := s.modrm,
        fixedModrm := s.fixedModrm, vex, vexl, rexw }

/-- the pattern read without a prefix part -/
def bare? (cs : List Char) : Option Opcode :=
  (body? cs).map fun (escape, byte, s) =>
    { mandatory := none, escape, byte, extended := s.extended, modrm := s.modrm,
      fixedModrm := s.fixedModrm, vex := false, vexl := none, rexw := none }

/-- read an opcode pattern; a text that is no pattern is the failure -/
def parse (s : String) : Except Failure Opcode :=
  match withPrefix? s.toList <|> bare? s.toList with
  | some o => .ok o
  | none => .error (.badOpcode s)

end Opcode

end X86Codec
