import X86Codec.Proofs.LowRegisters
import X86Codec.Encoder.OpcodeSize
/-!
Reading back the bytes of an opcode word.

The encoder writes an opcode word as its lead bytes, its opcode byte and, when the word holds a
fixed ModRM byte, that byte. The lead bytes are a run of prefixes (a segment override, 67 and,
without VEX, lock, 66, the repeat prefixes and REX) and then either a VEX prefix or the escape
bytes (`leadBytes`). In 64-bit mode the decoder reads all of them and stops at the opcode byte,
as long as that byte is no prefix and no escape or VEX byte where it could be read as one
(`OpensAt`). What it then knows is `Prefixes.ofWord`: the segment override that counts in
64-bit mode (FS or GS; the others are read and ignored), 67, lock, 66, the last repeat prefix,
REX or the VEX fields, and the opcode map.

Main statements:
- `opcBytes_eq_lead`: an opcode word is written as its lead bytes, its opcode byte and the fixed
  ModRM byte;
- `opening_lead`: the decoder's opening reads the lead bytes and ends at the opcode byte with
  the prefixes of the word, but for where a REX byte stood;
- `ofWord_keyed`: the bits a request adds to a word (REX and its R, X and B bits, 67, a segment,
  a VEX operand) change neither the opcode map, the mandatory prefix, VEX.W and VEX.L nor the
  operand size prefix that the decoder reads.
-/

namespace X86Codec

namespace Encoder

/-! ## The lead bytes of an opcode word -/

/-- the REX byte of an opcode word -/
def rexByte (opc : Nat) : Nat :=
  0x40 ||| (if has opc Opc.rexW then 8 else 0) ||| (if has opc Opc.rexR then 4 else 0) |||
    (if has opc Opc.rexX then 2 else 0) ||| (if has opc Opc.rexB then 1 else 0)

/-- the prefixes the decoder reads one by one: the segment override, 67, and without VEX the
lock, 66 and repeat prefixes and REX -/
def prefixRun (opc : Nat) : List UInt8 :=
  byteIf (segOf opc ≠ 0) (segByte (segOf opc)) ++ byteIf (has opc Opc.p67) 0x67 ++
    if has opc Opc.vex then []
    else byteIf (has opc Opc.lock) 0xf0 ++ byteIf (has opc Opc.p66) 0x66 ++
      byteIf (has opc Opc.f2) 0xf2 ++ byteIf (has opc Opc.f3) 0xf3 ++
      byteIf (has opc Opc.anyRex) (UInt8.ofNat (rexByte opc))

/-- the escape bytes of an opcode word: 0F, then 38 or 3A -/
def escapeBytes (opc : Nat) : List UInt8 :=
  byteIf (opc &&& Opc.escapeMask ≠ 0) 0x0f ++ byteIf (opc &&& Opc.escapeMask = Opc.esc0f38) 0x38 ++
    byteIf (opc &&& Opc.escapeMask = Opc.esc0f3a) 0x3a

/-- the bits of a word the decoder's walk reads through the prefixes: VEX, the escape, lock,
the 66, F2 and F3 prefixes, REX.W and VEX.L -/
def keyBits : Nat :=
  Opc.vex ||| Opc.escapeMask ||| Opc.lock ||| Opc.p66 ||| Opc.f2 ||| Opc.f3 ||| Opc.rexW ||| Opc.vexL

/-- the bytes of an opcode word before its opcode byte -/
def leadBytes (opc : Nat) : List UInt8 :=
  prefixRun opc ++ if has opc Opc.vex then vexBytes opc else escapeBytes opc

theorem legacyBytes_eq (opc : Nat) : legacyBytes opc =
    byteIf (has opc Opc.lock) 0xf0 ++ byteIf (has opc Opc.p66) 0x66 ++
      byteIf (has opc Opc.f2) 0xf2 ++ byteIf (has opc Opc.f3) 0xf3 ++
      byteIf (has opc Opc.anyRex) (UInt8.ofNat (rexByte opc)) ++ escapeBytes opc := by
  simp only [legacyBytes, escapeBytes, rexByte, List.append_assoc]

/-- an opcode word is written as its lead bytes, its opcode byte and a fixed ModRM byte -/
theorem opcBytes_eq_lead (opc : Nat) : opcBytes opc =
    leadBytes opc ++ UInt8.ofNat opc :: byteIf (twoByte opc) (UInt8.ofNat (opc >>> 8)) := by
  unfold opcBytes leadBytes prefixRun
  by_cases hv : has opc Opc.vex = true
  · simp [hv]
  · simp [hv, legacyBytes_eq]

theorem map_byteIf (c : Bool) (b : UInt8) :
    (byteIf c b).map (·.toNat) = if c then [b.toNat] else [] := by
  cases c <;> rfl

/-- the segment override byte of segments 1 to 6 -/
theorem segByte_toNat {s : Nat} (h0 : 0 < s) (h7 : s < 7) :
    (segByte s).toNat ∈ [0x26, 0x2e, 0x36, 0x3e, 0x64, 0x65] ∧
      ((segByte s).toNat = 0x64 ↔ s = 5) ∧ ((segByte s).toNat = 0x65 ↔ s = 6) := by
  interval_cases s <;> decide

theorem segOf_lt (opc : Nat) : segOf opc < 8 := Nat.mod_lt _ (by decide)

theorem forall_mem_map_byteIf {c : Bool} {b : UInt8} {P : Nat → Prop} (h : c = true → P b.toNat) :
    ∀ x ∈ (byteIf c b).map (·.toNat), P x := by
  cases c
  · simp [byteIf]
  · simpa [byteIf] using h rfl

end Encoder

namespace Decoder

open Encoder

/-! ## What the decoder reads from the lead bytes -/

/-- the segment register whose override in a word counts in 64-bit mode: FS or GS; the other
overrides are read and ignored -/
def segmentOfWord (opc : Nat) : Nat :=
  if segOf opc = 5 then 4 else if segOf opc = 6 then 5 else noReg

/-- the REX bits of an opcode word as the decoder keeps them -/
def rexBits (opc : Nat) : Nat :=
  (if has opc Opc.rexW then Rex.w else 0) ||| (if has opc Opc.rexR then Rex.r else 0) |||
    (if has opc Opc.rexX then Rex.x else 0) ||| (if has opc Opc.rexB then Rex.b else 0)

/-- the opcode map of a word: none, 0F, 0F 38 or 0F 3A -/
def wordEscape (opc : Nat) : Nat := (opc >>> 16) % 4

/-- the implied prefix a word's VEX prefix names: F2, else F3, else 66 -/
def vexPP (opc : Nat) : Nat :=
  if has opc Opc.f2 then 3 else if has opc Opc.f3 then 2 else if has opc Opc.p66 then 1 else 0

/-- the VEX fields in the last byte of a word's VEX prefix: the implied prefix, VEX.L and the
inverted VEX operand (VEX.W, in bit 7 of the three-byte form, is not among them) -/
def vexPayload (opc : Nat) : Nat :=
  vexPP opc ||| (if has opc Opc.vexL then 0x04 else 0) ||| ((((opc >>> Opc.vexopShift) % 16) ^^^ 0xf) <<< 3)

/-- the second byte of a word's three-byte VEX prefix: the opcode map and the inverted REX.R,
REX.X and REX.B -/
def vexByte1 (opc : Nat) : Nat :=
  wordEscape opc ||| (if has opc Opc.rexR then 0 else 0x80) ||| (if has opc Opc.rexX then 0 else 0x40) |||
    (if has opc Opc.rexB then 0 else 0x20)

/-- the prefixes the decoder has read after the prefix run of a word -/
def Prefixes.ofRun (opc : Nat) : Prefixes :=
  if has opc Opc.vex then { segment := segmentOfWord opc, p67 := has opc Opc.p67 }
  else
    { segment := segmentOfWord opc, p66 := has opc Opc.p66, p67 := has opc Opc.p67,
      lock := has opc Opc.lock, rep := if has opc Opc.f3 then 2 else if has opc Opc.f2 then 3 else 0,
      rex := if has opc Opc.anyRex then rexByte opc else 0 }

/-- the prefixes the decoder has read when it reaches the opcode byte of a word: those of the
run, then the opcode map, and under VEX its REX bits and its last byte -/
def Prefixes.ofWord (opc : Nat) : Prefixes :=
  if has opc Opc.vex then
    Prefixes.vexTail { Prefixes.ofRun opc with rex := rexBits opc, escape := wordEscape opc ||| 4 }
      (vexPayload opc)
  else { Prefixes.ofRun opc with escape := wordEscape opc }

/-- the opcode byte `op` of a word ends the opening: without VEX and escape it is no prefix and
no 0F, C4 or C5, and after the 0F escape alone it is no 38 or 3A -/
def OpensAt (opc op : Nat) : Prop :=
  has opc Opc.vex = false →
    (wordEscape opc = 0 → isPrefixByte .bits64 op = false ∧ op ≠ 0x0f ∧ op ≠ 0xc4 ∧ op ≠ 0xc5) ∧
    (wordEscape opc = 1 → op ≠ 0x38 ∧ op ≠ 0x3a)

theorem rexByte_eq (opc : Nat) : rexByte opc = Rex.present ||| rexBits opc := by
  simp only [rexByte, rexBits, Nat.or_assoc]
  rfl

theorem isRex_rexByte (opc : Nat) : isRex (rexByte opc) := by
  simp only [rexByte, isRex]
  split_ifs <;> decide

/-- every byte of a word's prefix run is a prefix in 64-bit mode -/
theorem prefixRun_isPrefixByte {opc : Nat} (hseg : segOf opc ≠ 7) :
    ∀ b ∈ (prefixRun opc).map (·.toNat), isPrefixByte .bits64 b := by
  have hs : segOf opc < 7 := by have := segOf_lt opc; omega
  simp only [prefixRun, List.map_append, List.forall_mem_append]
  refine ⟨⟨forall_mem_map_byteIf fun h => ?_, forall_mem_map_byteIf fun _ => by decide⟩, ?_⟩
  · obtain ⟨hmem, -⟩ := segByte_toNat (Nat.pos_of_ne_zero (by simpa using h)) hs
    have hseg : ∀ x ∈ [0x26, 0x2e, 0x36, 0x3e, 0x64, 0x65], isPrefixByte .bits64 x := by decide
    exact hseg _ hmem
  · split
    · simp
    · simp only [List.map_append, List.forall_mem_append]
      refine ⟨⟨⟨⟨forall_mem_map_byteIf fun _ => by decide, forall_mem_map_byteIf fun _ => by decide⟩,
        forall_mem_map_byteIf fun _ => by decide⟩, forall_mem_map_byteIf fun _ => by decide⟩,
        forall_mem_map_byteIf fun _ => ?_⟩
      have h := isRex_rexByte opc
      have hlt : rexByte opc < 256 := by
        simp only [isRex, Bool.and_eq_true, decide_eq_true_eq] at h
        omega
      simp [isPrefixByte, Nat.mod_eq_of_lt hlt, h]

/-- a segment override of the word's segment field, and its facts as a prefix byte -/
theorem segByte_facts {opc : Nat} (hseg : segOf opc ≠ 7) :
    let s := (segByte (segOf opc)).toNat
    s ∉ [0x66, 0x67, 0xf0, 0xf2, 0xf3] ∧ isRex s = false ∧
      (s ∈ segmentOverrides .bits64 ↔ segOf opc = 5 ∨ segOf opc = 6) := by
  have h := segOf_lt opc
  generalize segOf opc = k at *
  interval_cases k <;> simp_all <;> decide

theorem filter_ite_singleton (c : Bool) (x : Nat) (p : Nat → Bool) :
    (if c then [x] else []).filter p = if c && p x then [x] else [] := by
  cases c <;> cases h : p x <;> simp [h]

theorem getLast?_ite_singleton (c : Prop) [Decidable c] (x : Nat) :
    (if c then [x] else []).getLast? = if c then some x else none := by split <;> rfl

/-- a run whose last byte may be a REX byte ends with it, if it is there, as far as REX goes -/
theorem getLast?_filter_isRex {A : List Nat} (hA : ∀ x ∈ A, isRex x = false) (c : Bool)
    {r : Nat} (hr : isRex r = true) :
    (A ++ if c then [r] else []).getLast?.filter isRex = if c then some r else none := by
  cases c
  · cases h : A.getLast? with
    | none => simp [h]
    | some x => simp [h, hA x (List.mem_of_getLast? h)]
  · simp [hr]

/-- the effect of a run that has each prefix at most once, in the order a word's bytes are
written: a segment override, 67, F0, 66, F2, F3 and a REX byte -/
theorem prefixEffect_ordered (cs c67 cl c66 cf2 cf3 cr : Bool) {s r : Nat}
    (hs : s ∉ [0x66, 0x67, 0xf0, 0xf2, 0xf3]) (hsr : isRex s = false) (hr : isRex r = true) :
    prefixEffect .bits64 ((if cs then [s] else []) ++ (if c67 then [0x67] else []) ++
        (if cl then [0xf0] else []) ++ (if c66 then [0x66] else []) ++
        (if cf2 then [0xf2] else []) ++ (if cf3 then [0xf3] else []) ++ (if cr then [r] else [])) =
      { operandSize := c66, addressSize := c67, lock := cl,
        repeatPrefix := if cf3 then some 0xf3 else if cf2 then some 0xf2 else none,
        segment := if cs && s ∈ segmentOverrides .bits64 then some s else none,
        rex := if cr then some r else none } := by
  have hr' : 0x40 ≤ r ∧ r < 0x50 := by simpa [isRex] using hr
  simp only [List.mem_cons, List.not_mem_nil, or_false, not_or] at hs
  obtain ⟨s66, s67, sf0, sf2, sf3⟩ := hs
  have hrs : (0x66 : Nat) ≠ r ∧ (0x67 : Nat) ≠ r ∧ (0xf0 : Nat) ≠ r ∧ r ≠ 0xf2 ∧ r ≠ 0xf3 ∧
      r ≠ 0x64 ∧ r ≠ 0x65 := by omega
  obtain ⟨r66, r67, rf0, rf2, rf3, r64, r65⟩ := hrs
  simp only [prefixEffect, PrefixEffect.mk.injEq]
  refine ⟨?_, ?_, ?_, ?_, ?_, ?_⟩
  · simp [List.mem_append, Ne.symm s66, r66]
  · simp [List.mem_append, Ne.symm s67, r67]
  · simp [List.mem_append, Ne.symm sf0, rf0]
  · cases cf3 <;> simp [List.filter_append, filter_ite_singleton, getLast?_ite_singleton, sf2, sf3, rf2, rf3]
  · simp [List.filter_append, filter_ite_singleton, getLast?_ite_singleton, segmentOverrides, r64, r65]
  · -- only the last byte may be a REX byte
    refine getLast?_filter_isRex ?_ cr hr
    intro x hx
    simp only [List.mem_append, List.mem_ite_nil_right, List.mem_singleton] at hx
    rcases hx with (((((⟨-, rfl⟩ | ⟨-, rfl⟩) | ⟨-, rfl⟩) | ⟨-, rfl⟩) | ⟨-, rfl⟩) | ⟨-, rfl⟩)
    exacts [hsr, rfl, rfl, rfl, rfl, rfl]

theorem prefixRun_map (opc : Nat) :
    (prefixRun opc).map (·.toNat) =
      (if decide (segOf opc ≠ 0) then [(segByte (segOf opc)).toNat] else []) ++
        (if has opc Opc.p67 then [0x67] else []) ++
        (if has opc Opc.lock && !has opc Opc.vex then [0xf0] else []) ++
        (if has opc Opc.p66 && !has opc Opc.vex then [0x66] else []) ++
        (if has opc Opc.f2 && !has opc Opc.vex then [0xf2] else []) ++
        (if has opc Opc.f3 && !has opc Opc.vex then [0xf3] else []) ++
        (if has opc Opc.anyRex && !has opc Opc.vex then [rexByte opc] else []) := by
  have hlt : rexByte opc < 256 := by
    have h := isRex_rexByte opc
    simp only [isRex, Bool.and_eq_true, decide_eq_true_eq] at h
    omega
  unfold prefixRun
  cases has opc Opc.vex <;> simp [map_byteIf, Nat.mod_eq_of_lt hlt]

theorem prefixEffect_run {opc : Nat} (hseg : segOf opc ≠ 7) :
    (prefixEffect .bits64 ((prefixRun opc).map (·.toNat))).state = Prefixes.ofRun opc := by
  obtain ⟨hs, hsr, hov⟩ := segByte_facts hseg
  rw [prefixRun_map, prefixEffect_ordered _ _ _ _ _ _ _ hs hsr (isRex_rexByte opc)]
  unfold PrefixEffect.state Prefixes.ofRun segmentOfWord
  -- the segment field is the one that needs the override's number; the rest read back
  have hseg : (if ¬segOf opc = 0 ∧ (segOf opc = 5 ∨ segOf opc = 6) then
      some (segByte (segOf opc)).toNat else none).elim noReg segmentNumber =
        if segOf opc = 5 then 4 else if segOf opc = 6 then 5 else noReg := by
    by_cases e5 : segOf opc = 5
    · simp only [e5]
      decide
    · by_cases e6 : segOf opc = 6
      · simp only [e6]
        decide
      · simp [e5, e6]
  by_cases hv : has opc Opc.vex = true
  · simpa [hv, hov] using hseg
  · simp only [hv, Bool.not_false, Bool.and_true, Bool.false_eq_true, ↓reduceIte]
    congr 1
    · simpa [hov] using hseg
    · split_ifs <;> rfl
    · split_ifs <;> rfl

theorem and_escapeMask (opc : Nat) : opc &&& Opc.escapeMask = wordEscape opc <<< 16 := by
  refine Nat.eq_of_testBit_eq fun i => ?_
  have h3 : (3 : Nat) = 2 ^ 2 - 1 := rfl
  have h4 : (4 : Nat) = 2 ^ 2 := rfl
  simp only [Opc.escapeMask, wordEscape, Nat.testBit_and, Nat.testBit_shiftLeft, h3, h4,
    Nat.testBit_two_pow_sub_one, Nat.testBit_mod_two_pow, Nat.testBit_shiftRight]
  by_cases hi : 16 ≤ i
  · simp [hi, Nat.add_sub_cancel' hi, Bool.and_comm]
  · simp [hi]

theorem wordEscape_lt (opc : Nat) : wordEscape opc < 4 := Nat.mod_lt _ (by decide)

/-- a window whose bytes are known reads them back one at a time -/
theorem Window.read_of_getElem? {w : Window} {l : List Nat} (hw : w.bytes.toList.map (·.toNat) = l)
    {i v : Nat} (hv : l[i]? = some v) : w.read i 1 = .ok v := by
  have hi := (List.getElem?_eq_some_iff.mp hv).1
  have hlen := congrArg List.length hw
  simp only [List.length_map, Array.length_toList] at hlen
  simp [Window.read, Window.load, Window.len, Window.byte_of_toList hw hv]
  omega

/-- the escape bytes of a word open the opcode map it names -/
theorem readOpening_escapeBytes {p : Prefixes} (hp : p.escape = 0) {opc op : Nat} {w : Window}
    {A rest : List Nat}
    (hw : w.bytes.toList.map (·.toNat) = A ++ ((escapeBytes opc).map (·.toNat) ++ op :: rest))
    (hop0 : wordEscape opc = 0 → op ≠ 0x0f ∧ op ≠ 0xc4 ∧ op ≠ 0xc5)
    (hop1 : wordEscape opc = 1 → op ≠ 0x38 ∧ op ≠ 0x3a) :
    readOpening .bits64 w p A.length =
      .ok ({ p with escape := wordEscape opc }, A.length + (escapeBytes opc).length) := by
  have hlt := wordEscape_lt opc
  unfold escapeBytes at hw ⊢
  rw [and_escapeMask] at hw ⊢
  generalize wordEscape opc = e at *
  unfold readOpening
  interval_cases e
  · -- no escape: the opcode byte is read and left in place
    obtain ⟨h0f, hc4, hc5⟩ := hop0 rfl
    simp [byteIf, Opc.esc0f38, Opc.esc0f3a] at hw ⊢
    rw [Window.read_of_getElem? hw (v := op) (by simp)]
    simp [bind, Except.bind, h0f, hc4, hc5, pure, Except.pure, ← hp]
  · obtain ⟨h38, h3a⟩ := hop1 rfl
    simp [byteIf, Opc.esc0f38, Opc.esc0f3a] at hw ⊢
    rw [Window.read_of_getElem? hw (v := 0x0f) (by simp),
      Window.read_of_getElem? hw (i := A.length + 1) (v := op) (by simp)]
    simp [bind, Except.bind, h38, h3a, pure, Except.pure]
  · simp [byteIf, Opc.esc0f38, Opc.esc0f3a] at hw ⊢
    rw [Window.read_of_getElem? hw (v := 0x0f) (by simp),
      Window.read_of_getElem? hw (i := A.length + 1) (v := 0x38) (by simp)]
    simp [bind, Except.bind, pure, Except.pure]
  · simp [byteIf, Opc.esc0f38, Opc.esc0f3a] at hw ⊢
    rw [Window.read_of_getElem? hw (v := 0x0f) (by simp),
      Window.read_of_getElem? hw (i := A.length + 1) (v := 0x3a) (by simp)]
    simp [bind, Except.bind, pure, Except.pure]

/-! ## The VEX prefix -/

theorem vexPayload_lt (opc : Nat) : vexPayload opc < 0x80 := by
  have hv : ((opc >>> Opc.vexopShift) % 16) ^^^ 0xf < 16 :=
    Nat.xor_lt_two_pow (n := 4) (Nat.mod_lt _ (by decide)) (by decide)
  have hpp : vexPP opc < 2 ^ 7 := by unfold vexPP; split_ifs <;> decide
  have hl : (if has opc Opc.vexL then 0x04 else 0) < 2 ^ 7 := by split_ifs <;> decide
  have hop : (((opc >>> Opc.vexopShift) % 16) ^^^ 0xf) <<< 3 < 2 ^ 7 := by
    rw [Nat.shiftLeft_eq]
    omega
  exact Nat.or_lt_two_pow (Nat.or_lt_two_pow hpp hl) hop

/-- the last VEX byte is read only below its high bit -/
theorem vexTail_or_high (q : Prefixes) (b : Nat) : q.vexTail (b ||| 0x80) = q.vexTail b := by
  have h : ∀ m, 0x80 &&& m = 0 → (b ||| 0x80) &&& m = b &&& m := fun m hm => by
    rw [Nat.and_or_distrib_right, hm, Nat.or_zero]
  simp only [Prefixes.vexTail, hasBit, h 4 rfl, h 2 rfl, h 3 rfl, h 0x78 rfl]
  rfl

/-- the second byte of a three-byte VEX prefix: the opcode map and the inverted R, X and B -/
theorem vexByte1_bits_of : ∀ e < 4, ∀ r x b : Bool,
    let b1 := e ||| (if r then 0 else 0x80) ||| (if x then 0 else 0x40) ||| (if b then 0 else 0x20)
    b1 < 256 ∧ hasBit b1 0x80 = !r ∧ hasBit b1 0x40 = !x ∧ hasBit b1 0x20 = !b ∧
      hasBit b1 0x1c = false ∧ b1 &&& 3 = e := by
  decide

theorem hasBit_high_bit : ∀ b < 0x80, hasBit b 0x80 = false ∧ hasBit (b ||| 0x80) 0x80 = true := by
  decide

theorem vexEscape_eq (opc : Nat) : (opc &&& Opc.escapeMask) >>> 16 = wordEscape opc := by
  rw [and_escapeMask, Nat.shiftLeft_shiftRight]

theorem vexBytes_eq (opc : Nat) : vexBytes opc =
    if vex3 opc then
      [0xc4, UInt8.ofNat (vexByte1 opc),
        UInt8.ofNat (vexPayload opc ||| (if has opc Opc.rexW then 0x80 else 0))]
    else [0xc5, UInt8.ofNat (vexPayload opc ||| (if !has opc Opc.rexR then 0x80 else 0))] := by
  have hr : (if has opc Opc.rexR then 0 else 0x80) = (if !has opc Opc.rexR then 0x80 else 0) := by
    cases has opc Opc.rexR <;> rfl
  simp only [vexBytes, vexPayload, vexPP, vexByte1, vexEscape_eq, hr]

/-- a word with a two-byte VEX prefix has no REX.W, REX.X or REX.B and is in the 0F map -/
theorem vex2_word {opc : Nat} (h3 : vex3 opc = false) :
    has opc Opc.rexW = false ∧ has opc Opc.rexX = false ∧ has opc Opc.rexB = false ∧
      wordEscape opc = 1 := by
  have hm : opc &&& (Opc.rexW ||| Opc.rexX ||| Opc.rexB ||| Opc.escapeMask) = Opc.esc0f := by
    simpa [vex3] using h3
  -- each of these bits lies in the mask the two-byte form fixes
  have hbit : ∀ m, (Opc.rexW ||| Opc.rexX ||| Opc.rexB ||| Opc.escapeMask) &&& m = m →
      opc &&& m = Opc.esc0f &&& m := fun m hsub =>
    calc opc &&& m = opc &&& ((Opc.rexW ||| Opc.rexX ||| Opc.rexB ||| Opc.escapeMask) &&& m) := by
          rw [hsub]
      _ = Opc.esc0f &&& m := by rw [← Nat.and_assoc, hm]
  have he := and_escapeMask opc
  rw [hbit _ (by decide), show Opc.esc0f &&& Opc.escapeMask = 1 <<< 16 by decide] at he
  simp only [has, hbit _ (by decide : _ &&& Opc.rexW = Opc.rexW),
    hbit _ (by decide : _ &&& Opc.rexX = Opc.rexX), hbit _ (by decide : _ &&& Opc.rexB = Opc.rexB)]
  refine ⟨by decide, by decide, by decide, ?_⟩
  simpa [Nat.shiftLeft_shiftRight] using (congrArg (· >>> 16) he).symm

theorem vexByte1_bits (opc : Nat) :
    vexByte1 opc < 256 ∧ hasBit (vexByte1 opc) 0x80 = !has opc Opc.rexR ∧
      hasBit (vexByte1 opc) 0x40 = !has opc Opc.rexX ∧
      hasBit (vexByte1 opc) 0x20 = !has opc Opc.rexB ∧ hasBit (vexByte1 opc) 0x1c = false ∧
      vexByte1 opc &&& 3 = wordEscape opc :=
  vexByte1_bits_of (wordEscape opc) (wordEscape_lt opc) _ _ _

/-- the last byte of a VEX prefix: the payload, with REX.W or the inverted REX.R above it -/
theorem vexLast_facts (opc : Nat) (c : Bool) :
    (vexPayload opc ||| (if c then 0x80 else 0)) < 256 ∧
      hasBit (vexPayload opc ||| (if c then 0x80 else 0)) 0x80 = c ∧
      ∀ q : Prefixes, q.vexTail (vexPayload opc ||| (if c then 0x80 else 0)) = q.vexTail (vexPayload opc) := by
  have hpl := vexPayload_lt opc
  obtain ⟨hlo, hhi⟩ := hasBit_high_bit _ hpl
  cases c
  · refine ⟨?_, ?_, fun q => ?_⟩ <;> simp only [Bool.false_eq_true, ↓reduceIte, Nat.or_zero]
    · omega
    · exact hlo
  · refine ⟨?_, hhi, fun q => vexTail_or_high q _⟩
    exact Nat.or_lt_two_pow (n := 8) (by omega) (by decide)

/-- a VEX prefix after a run with no 66, repeat or REX byte opens the map it names, with the
REX bits, VEX.L, the implied prefix and the operand the word holds -/
theorem readOpening_vexBytes {p : Prefixes} (hp66 : p.p66 = false) (hrep : p.rep = 0)
    (hrex : p.rex = 0) {opc : Nat} {w : Window} {A rest : List Nat}
    (hw : w.bytes.toList.map (·.toNat) = A ++ ((vexBytes opc).map (·.toNat) ++ rest)) :
    readOpening .bits64 w p A.length =
      .ok (Prefixes.vexTail { p with rex := rexBits opc, escape := wordEscape opc ||| 4 }
        (vexPayload opc), A.length + (vexBytes opc).length) := by
  rw [vexBytes_eq] at hw ⊢
  unfold readOpening
  by_cases h3 : vex3 opc = true
  · obtain ⟨hlt, hr, hx, hb, h1c, he⟩ := vexByte1_bits opc
    obtain ⟨hlt2, hw2, htail⟩ := vexLast_facts opc (has opc Opc.rexW)
    simp only [h3, ↓reduceIte, List.map_cons, List.map_nil, List.cons_append, List.nil_append,
      UInt8.toNat_ofNat_of_lt' hlt, UInt8.toNat_ofNat_of_lt' hlt2] at hw
    rw [Window.read_of_getElem? hw (v := 0xc4) (by simp),
      Window.read_of_getElem? hw (i := A.length + 1) (v := vexByte1 opc) (by simp)]
    simp only [bind, Except.bind, hp66, hrep, hrex]
    simp only [h3]
    unfold readVex
    rw [Window.read_of_getElem? hw (i := A.length + 2)
      (v := vexPayload opc ||| if has opc Opc.rexW = true then 128 else 0) (by simp)]
    simp [bind, Except.bind, pure, Except.pure, hr, hx, hb, he, hw2, h1c, htail]
    rw [hp66, hrep, hrex]
    congr 2
    unfold rexBits
    cases has opc Opc.rexR <;> cases has opc Opc.rexX <;> cases has opc Opc.rexB <;>
      cases has opc Opc.rexW <;> decide
  · obtain ⟨hW, hX, hB, he⟩ := vex2_word (by simpa using h3)
    obtain ⟨hlt2, hw2, htail⟩ := vexLast_facts opc (!has opc Opc.rexR)
    simp only [h3, Bool.false_eq_true, ↓reduceIte, List.map_cons, List.map_nil, List.cons_append,
      List.nil_append, UInt8.toNat_ofNat_of_lt' hlt2] at hw
    generalize (vexPayload opc ||| if (!has opc Opc.rexR) = true then 128 else 0) = pb at hw hw2 htail
    rw [Window.read_of_getElem? hw (v := 0xc5) (by simp),
      Window.read_of_getElem? hw (i := A.length + 1) (v := pb) (by simp)]
    simp only [bind, Except.bind, hp66, hrep, hrex]
    unfold readVex
    simp [pure, Except.pure, hw2, htail, h3]
    rw [hp66, hrep, hrex, he]
    congr 2
    unfold rexBits
    rw [hW, hX, hB]
    cases has opc Opc.rexR <;> decide

/-! ## What the prefixes of a word say -/

theorem vexPP_lt (opc : Nat) : vexPP opc < 4 := by
  unfold vexPP
  split_ifs <;> decide

/-- the fields of a last VEX byte, for every implied prefix, VEX.L and operand -/
theorem payload_bits : ∀ pp < 4, ∀ l : Bool, ∀ v < 16,
    let b := pp ||| (if l then 0x04 else 0) ||| ((v ^^^ 0xf) <<< 3)
    b &&& 3 = pp ∧ hasBit b 0x04 = l ∧ hasBit b 0x02 = decide (2 ≤ pp) ∧
      ((b &&& 0x78) >>> 3) ^^^ 0xf = v := by
  decide

theorem vexPayload_fields (opc : Nat) :
    vexPayload opc &&& 3 = vexPP opc ∧ hasBit (vexPayload opc) 0x04 = has opc Opc.vexL ∧
      hasBit (vexPayload opc) 0x02 = decide (2 ≤ vexPP opc) ∧
      ((vexPayload opc &&& 0x78) >>> 3) ^^^ 0xf = (opc >>> Opc.vexopShift) % 16 :=
  payload_bits _ (vexPP_lt opc) _ _ (Nat.mod_lt _ (by decide))

/-- the REX bits of a word, one by one -/
theorem rexBits_bits (opc : Nat) :
    hasBit (rexBits opc) Rex.w = has opc Opc.rexW ∧ hasBit (rexBits opc) Rex.r = has opc Opc.rexR ∧
      hasBit (rexBits opc) Rex.x = has opc Opc.rexX ∧ hasBit (rexBits opc) Rex.b = has opc Opc.rexB ∧
      hasBit (rexBits opc) Rex.vexL = false ∧ hasBit (rexBits opc) Rex.present = false := by
  unfold rexBits
  cases has opc Opc.rexW <;> cases has opc Opc.rexR <;> cases has opc Opc.rexX <;>
    cases has opc Opc.rexB <;> decide

theorem ofWord_escape (opc : Nat) :
    (Prefixes.ofWord opc).escape = if has opc Opc.vex then wordEscape opc ||| 4 else wordEscape opc := by
  unfold Prefixes.ofWord
  split <;> rfl

theorem ofWord_p67 (opc : Nat) : (Prefixes.ofWord opc).p67 = has opc Opc.p67 := by
  unfold Prefixes.ofWord Prefixes.ofRun
  split <;> simp_all [Prefixes.vexTail]

theorem ofWord_lock (opc : Nat) : (Prefixes.ofWord opc).lock = (!has opc Opc.vex && has opc Opc.lock) := by
  unfold Prefixes.ofWord Prefixes.ofRun
  split <;> simp_all [Prefixes.vexTail]

theorem ofWord_vexOperand (opc : Nat) :
    (Prefixes.ofWord opc).vexOperand = if has opc Opc.vex then (opc >>> Opc.vexopShift) % 16 else 0 := by
  unfold Prefixes.ofWord Prefixes.ofRun
  split
  · simp only [Prefixes.vexTail, (vexPayload_fields opc).2.2.2]
  · simp_all

/-- the mandatory prefix of a word: VEX's implied prefix, or F3, F2 and 66 in that order -/
theorem ofWord_mandatory (opc : Nat) : (Prefixes.ofWord opc).mandatory =
    if has opc Opc.vex then vexPP opc
    else if has opc Opc.f3 then 2 else if has opc Opc.f2 then 3 else if has opc Opc.p66 then 1 else 0 := by
  obtain ⟨h3, -, h2, -⟩ := vexPayload_fields opc
  have hlt := vexPP_lt opc
  unfold Prefixes.ofWord Prefixes.ofRun Prefixes.mandatory
  split
  · simp only [Prefixes.vexTail, h3, h2]
    generalize vexPP opc = pp at hlt
    interval_cases pp <;> simp
  · split_ifs <;> simp_all

/-- the REX bits the decoder keeps of a word, VEX.L among them -/
theorem ofWord_rex (opc : Nat) : (Prefixes.ofWord opc).rex =
    if has opc Opc.vex then rexBits opc ||| (if has opc Opc.vexL then Rex.vexL else 0)
    else if has opc Opc.anyRex then Rex.present ||| rexBits opc else 0 := by
  unfold Prefixes.ofWord Prefixes.ofRun
  split
  · simp only [Prefixes.vexTail, (vexPayload_fields opc).2.1]
  · simp_all [rexByte_eq]

theorem hasBit_or (a b m : Nat) : hasBit (a ||| b) m = (hasBit a m || hasBit b m) := by
  simp only [hasBit, Nat.and_or_distrib_right, ne_eq, Nat.or_eq_zero_iff, decide_not,
    Bool.decide_and, Bool.not_and]

/-- a word that has some of a set of bits has some of any larger set -/
theorem has_mono {opc m m' : Nat} (hm : m' &&& m = m) (h : has opc m = true) :
    has opc m' = true := by
  simp only [has, ne_eq, decide_eq_true_eq] at h ⊢
  intro h0
  apply h
  rw [← hm, ← Nat.and_assoc, h0, Nat.zero_and]

/-- the REX bits the decoder keeps of a word: REX.W, REX.R, REX.X and REX.B as the word has
them, VEX.L under VEX, and a REX byte without VEX when the word has any REX bit -/
theorem ofWord_rex_bits (opc : Nat) :
    hasBit (Prefixes.ofWord opc).rex Rex.w = has opc Opc.rexW ∧
      hasBit (Prefixes.ofWord opc).rex Rex.r = has opc Opc.rexR ∧
      hasBit (Prefixes.ofWord opc).rex Rex.x = has opc Opc.rexX ∧
      hasBit (Prefixes.ofWord opc).rex Rex.b = has opc Opc.rexB ∧
      hasBit (Prefixes.ofWord opc).rex Rex.vexL = (has opc Opc.vex && has opc Opc.vexL) ∧
      hasBit (Prefixes.ofWord opc).rex Rex.present = (!has opc Opc.vex && has opc Opc.anyRex) := by
  obtain ⟨hw, hr, hx, hb, hl, hp⟩ := rexBits_bits opc
  rw [ofWord_rex]
  split
  · rename_i hv
    simp only [hasBit_or, hw, hr, hx, hb, hl, hp, hv, Bool.true_and, Bool.not_true, Bool.false_and]
    cases has opc Opc.vexL <;> simp +decide
  · rename_i hv
    simp only [hv, Bool.not_false, Bool.true_and, Bool.false_and]
    split
    · rename_i ha
      simp only [hasBit_or, hw, hr, hx, hb, hl, hp, ha]
      simp +decide
    · rename_i ha
      -- no REX bit at all: each of them is one of the word's REX bits
      have hnot : ∀ m, Opc.anyRex &&& m = m → has opc m = false := fun m hm => by
        cases hm' : has opc m
        · rfl
        · exact absurd (has_mono hm hm') ha
      simp only [hnot Opc.rexW (by decide), hnot Opc.rexR (by decide), hnot Opc.rexX (by decide),
        hnot Opc.rexB (by decide), Bool.eq_false_iff.2 ha]
      decide

/-- VEX.W and VEX.L, by which a VEX table is indexed -/
theorem ofWord_vexIndex (opc : Nat) : (Prefixes.ofWord opc).vexIndex =
    (if has opc Opc.rexW then 1 else 0) + (if has opc Opc.vex && has opc Opc.vexL then 2 else 0) := by
  obtain ⟨hw, -, -, -, hl, -⟩ := ofWord_rex_bits opc
  simp only [Prefixes.vexIndex, hw, hl]

theorem ofWord_p66 (opc : Nat) : (Prefixes.ofWord opc).p66 =
    if has opc Opc.vex then decide (vexPP opc = 1) else has opc Opc.p66 := by
  unfold Prefixes.ofWord Prefixes.ofRun
  split
  · simp only [Prefixes.vexTail, (vexPayload_fields opc).1]
  · rfl

/-- two words that agree on the bits the decoder's walk reads (`keyBits`) open with the same
opcode map, mandatory prefix, VEX.W and VEX.L, 66 prefix, REX.W and lock prefix -/
theorem wordEscape_keyed {w w' : Nat} (h : w &&& keyBits = w' &&& keyBits) : wordEscape w = wordEscape w' := by
  have he : w &&& Opc.escapeMask = w' &&& Opc.escapeMask := by
    rw [← show keyBits &&& Opc.escapeMask = Opc.escapeMask by decide, ← Nat.and_assoc, ← Nat.and_assoc, h]
  rw [and_escapeMask, and_escapeMask] at he
  simpa [Nat.shiftLeft_shiftRight] using congrArg (· >>> 16) he

theorem ofWord_keyed {w w' : Nat} (h : w &&& keyBits = w' &&& keyBits) :
    (Prefixes.ofWord w).escape = (Prefixes.ofWord w').escape ∧
      (Prefixes.ofWord w).mandatory = (Prefixes.ofWord w').mandatory ∧
      (Prefixes.ofWord w).vexIndex = (Prefixes.ofWord w').vexIndex ∧
      (Prefixes.ofWord w).p66 = (Prefixes.ofWord w').p66 ∧
      hasBit (Prefixes.ofWord w).rex Rex.w = hasBit (Prefixes.ofWord w').rex Rex.w ∧
      (Prefixes.ofWord w).lock = (Prefixes.ofWord w').lock ∧ has w Opc.vex = has w' Opc.vex := by
  have hand : ∀ m, keyBits &&& m = m → w &&& m = w' &&& m := fun m hm => by
    rw [← hm, ← Nat.and_assoc, ← Nat.and_assoc, h]
  have hhas : ∀ m, keyBits &&& m = m → has w m = has w' m := fun m hm => by
    simp only [has, hand m hm]
  have hesc := wordEscape_keyed h
  have hpp : vexPP w = vexPP w' := by
    simp only [vexPP, hhas Opc.f2 (by decide), hhas Opc.f3 (by decide), hhas Opc.p66 (by decide)]
  have hv := hhas Opc.vex (by decide)
  refine ⟨?_, ?_, ?_, ?_, ?_, ?_, hv⟩
  · rw [ofWord_escape, ofWord_escape, hv, hesc]
  · rw [ofWord_mandatory, ofWord_mandatory, hv, hpp, hhas Opc.f2 (by decide),
      hhas Opc.f3 (by decide), hhas Opc.p66 (by decide)]
  · rw [ofWord_vexIndex, ofWord_vexIndex, hv, hhas Opc.rexW (by decide), hhas Opc.vexL (by decide)]
  · rw [ofWord_p66, ofWord_p66, hv, hpp, hhas Opc.p66 (by decide)]
  · rw [(ofWord_rex_bits w).1, (ofWord_rex_bits w').1, hhas Opc.rexW (by decide)]
  · rw [ofWord_lock, ofWord_lock, hv, hhas Opc.lock (by decide)]

/-! ## The opening of a word -/

theorem vexTail_with_rexAt (q : Prefixes) (b : Nat) (r : Option Nat) :
    { q.vexTail b with rexAt := r } = { q with rexAt := r }.vexTail b := rfl

/-- the escape bytes of a word start with 0F, unless it is in the first map -/
theorem escapeBytes_head (opc : Nat) :
    ((escapeBytes opc).map (·.toNat)).head? = if wordEscape opc = 0 then none else some 0x0f := by
  have hlt := wordEscape_lt opc
  unfold escapeBytes
  rw [and_escapeMask]
  generalize wordEscape opc = e at *
  interval_cases e <;> rfl

/-- **The opening of a word.** Before its opcode byte, a word's bytes open, in 64-bit mode, with
the prefixes `Prefixes.ofWord` names, but for where a REX byte stood, and end where the word's
lead bytes end. -/
theorem opening_lead {w : Window} {opc : Nat} {op : UInt8} {rest : List UInt8}
    (hw : w.bytes.toList = leadBytes opc ++ op :: rest) (hseg : segOf opc ≠ 7)
    (hop : OpensAt opc op.toNat) :
    ∃ p, opening .bits64 w = .ok (p, (leadBytes opc).length) ∧ p.SameEffect (Prefixes.ofWord opc) := by
  have hmap := congrArg (List.map (·.toNat)) hw
  simp only [leadBytes, List.map_append, List.map_cons, List.append_assoc] at hmap
  rw [opening_eq]
  by_cases hv : has opc Opc.vex = true
  · simp only [hv, ↓reduceIte] at hmap
    have hhead : ∀ b ∈ ((vexBytes opc).map (·.toNat) ++ op.toNat :: rest.map (·.toNat)).head?,
        isPrefixByte .bits64 b = false := by
      rw [vexBytes_eq]
      split <;> simp [isPrefixByte, isRex]
    obtain ⟨hoff, hstate⟩ := readPrefixes_run hmap (prefixRun_isPrefixByte hseg) hhead
    rw [prefixEffect_run hseg] at hstate
    -- a VEX word writes no 66, repeat or REX byte before its VEX prefix
    have h66 : (readPrefixes .bits64 w).1.p66 = false := by
      simpa [Prefixes.ofRun, hv] using congrArg Prefixes.p66 hstate
    have hrep : (readPrefixes .bits64 w).1.rep = 0 := by
      simpa [Prefixes.ofRun, hv] using congrArg Prefixes.rep hstate
    have hrex : (readPrefixes .bits64 w).1.rex = 0 := by
      simpa [Prefixes.ofRun, hv] using congrArg Prefixes.rex hstate
    refine ⟨Prefixes.vexTail
      { (readPrefixes .bits64 w).1 with rex := rexBits opc, escape := wordEscape opc ||| 4 }
      (vexPayload opc), ?_, ?_⟩
    · rw [hoff, readOpening_vexBytes h66 hrep hrex hmap]
      simp [leadBytes, hv]
    · unfold Prefixes.SameEffect Prefixes.ofWord
      rw [if_pos hv, vexTail_with_rexAt, vexTail_with_rexAt, ← hstate]
  · have hv' : has opc Opc.vex = false := by simpa using hv
    obtain ⟨hop0, hop1⟩ := hop hv'
    simp only [hv', Bool.false_eq_true, ↓reduceIte] at hmap
    -- the opening stops at 0F, or at the opcode byte when there is no escape
    have hhead : ∀ b ∈ ((escapeBytes opc).map (·.toNat) ++ op.toNat :: rest.map (·.toNat)).head?,
        isPrefixByte .bits64 b = false := by
      intro b hb
      rw [List.head?_append, escapeBytes_head] at hb
      by_cases he : wordEscape opc = 0
      · simp only [he, ↓reduceIte, Option.none_or, List.head?_cons, Option.mem_def,
          Option.some.injEq] at hb
        exact hb ▸ (hop0 he).1
      · simp only [he, ↓reduceIte, Option.some_or, Option.mem_def, Option.some.injEq] at hb
        exact hb ▸ rfl
    obtain ⟨hoff, hstate⟩ := readPrefixes_run hmap (prefixRun_isPrefixByte hseg) hhead
    rw [prefixEffect_run hseg] at hstate
    refine ⟨{ (readPrefixes .bits64 w).1 with escape := wordEscape opc }, ?_, ?_⟩
    · rw [hoff, readOpening_escapeBytes (readPrefixes_escape _ w) hmap (fun h => (hop0 h).2) hop1]
      simp [leadBytes, hv']
    · unfold Prefixes.SameEffect Prefixes.ofWord
      rw [if_neg hv, ← hstate]

end Decoder

end X86Codec
