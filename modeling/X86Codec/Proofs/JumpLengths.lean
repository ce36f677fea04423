import X86Codec.Proofs.EncodeWrites
/-!
The lengths of relative jumps.

A mnemonic of a relative jump has a chain of variants, shortest first: a jump with a one-byte
offset, then one with a four-byte offset. Without the long form asked for, the encoder writes
the first variant that reaches the target, and that is the shortest that does; with it, every
variant that has a longer one after it is skipped, so the jump is written in the last form
whatever the target and the address, and a jump reserved before its target is known can be
written again in place.

Main statements:
* `tryChain_ok`: a chain that is written was written with the first variant on it whose checks
  pass at the position;
* `jump_lengths`: under the table's promise, a request for the long form writes one length for
  every target, address and operands, and any request writes no more bytes than any variant of
  its chain that reaches the target would.

What the table promises is `Tables.JumpChains`: a jump variant needs no operand class and
carries no 67 prefix or segment of its own, a chain with a jump on it is made of jumps, and each
variant is no shorter than the one before. The generated table keeps it.
-/

namespace X86Codec.Encoder

/-! ## Chains -/

/-- `j` is on the chain of descriptors tried from the place `i`: `i` itself, or on the chain
from the place its descriptor falls back to -/
inductive Tables.OnChain (t : Tables) : Nat → Nat → Prop
  | here (i : Nat) : OnChain t i i
  | next {i j : Nat} : (t.desc i).alt ≠ 0 → OnChain t (t.desc i).alt j → OnChain t i j

namespace Tables.OnChain

variable {t : Tables} {i j k : Nat}

theorem trans (hij : t.OnChain i j) (hjk : t.OnChain j k) : t.OnChain i k := by
  induction hij with
  | here => exact hjk
  | next halt _ ih => exact .next halt (ih hjk)

/-- a chain has one end: the place whose descriptor falls back to nothing -/
theorem eq_of_last {j₁ j₂ : Nat} (h₁ : t.OnChain i j₁) (hl₁ : (t.desc j₁).alt = 0)
    (h₂ : t.OnChain i j₂) (hl₂ : (t.desc j₂).alt = 0) : j₁ = j₂ := by
  induction h₁ with
  | here i =>
    cases h₂ with
    | here => rfl
    | next halt _ => exact absurd hl₁ halt
  | next halt _ ih =>
    cases h₂ with
    | here => exact absurd hl₂ halt
    | next _ h₂ => exact ih hl₁ h₂

end Tables.OnChain

/-- reading the buffer's position reads the buffer it runs from -/
theorem run_get_bind {α : Type} {k : Buffer → EncM α} {buf : Buffer} :
    (get >>= k).run buf = (k buf).run buf := rfl

/-- the written variant is the first on its chain whose checks pass: a chain that is written
was written with a descriptor on it whose checks pass at the position, and every descriptor on
the chain whose checks pass there comes at or after it -/
theorem tryChain_ok {t : Tables} {mnem : Nat} {ops : Vector Nat 4} {fuel i : Nat}
    {buf b : Buffer} (h : (tryChain t mnem ops fuel i).run buf = .ok () b) :
    ∃ j e opc imm sz, t.OnChain i j ∧ (t.desc j).encoding = some e ∧
      prepare (t.desc j) e mnem ops buf.pos = some (opc, imm, sz) ∧
      (emitDesc (encodingInfo e) opc ops imm sz).run buf = .ok () b ∧
      ∀ k e', t.OnChain i k → (t.desc k).encoding = some e' →
        (prepare (t.desc k) e' mnem ops buf.pos).isSome → t.OnChain j k := by
  -- the cases are split in the goal: splitting the hypothesis makes a term the kernel cannot check
  revert h
  induction fuel generalizing i with
  | zero =>
    intro h
    cases h
  | succ fuel ih =>
    simp only [tryChain]
    split
    · rename_i e he
      rw [run_get_bind]
      split
      · rename_i opc imm sz hp
        exact fun h => ⟨i, e, opc, imm, sz, .here i, he, hp, h, fun _ _ hk _ _ => hk⟩
      · rename_i hp
        split
        · intro h
          cases h
        · rename_i halt
          intro h
          obtain ⟨j, e₁, opc, imm, sz, hj, hje, hp₁, hw, hfirst⟩ := ih h
          refine ⟨j, e₁, opc, imm, sz, .next halt hj, hje, hp₁, hw, fun k e' hk he' hs => ?_⟩
          -- the first place's checks fail, so a place whose checks pass lies further on
          cases hk with
          | here =>
            rw [he] at he'
            cases he'
            rw [hp] at hs
            cases hs
          | next _ hk => exact hfirst k e' hk he' hs
    · intro h
      cases h

/-- a request that is written was written by trying the chain of its mnemonic -/
theorem encodeInto_ok {t : Tables} {mnem : Nat} {ops : Vector Nat 4} {buf b : Buffer}
    (h : (encodeInto t mnem ops).run buf = .ok () b) :
    (tryChain t mnem ops (t.descs.size + 1) (mnem % 65536)).run buf = .ok () b := by
  simp only [encodeInto, EStateM.run_bind, EStateM.run_get] at h
  split at h
  · -- a number past the mnemonics fails, and the handler fails again
    simp only [run_tryCatch_error (rfl : (throw () : EncM Unit).run buf = .error () buf)] at h
    cases h
  · cases hx : (tryChain t mnem ops (t.descs.size + 1) (mnem % 65536)).run buf with
    | ok u b' =>
      rw [run_tryCatch_ok hx] at h
      rw [h]
    | error e b' =>
      rw [run_tryCatch_error hx] at h
      cases h

/-! ## The words a request makes -/

/-- the word a request makes of a relative jump's opcode word: with the 67 prefix of a 32-bit
address size and the segment override, as the checks of a descriptor add them -/
def requestWord (opc mnem : Nat) : Nat :=
  (if has mnem addr32 then opc ||| Opc.p67 else opc) ||| ((mnem &&& segMask) <<< (Opc.segShift - 16))

/-- the segment override of a request lands in the segment bits of the word -/
theorem segment_bits (mnem : Nat) :
    (mnem &&& segMask) <<< (Opc.segShift - 16) = ((mnem >>> 16) % 8) <<< Opc.segShift := by
  apply Nat.eq_of_testBit_eq
  intro i
  rw [show segMask = (2 ^ 3 - 1) <<< 16 from rfl, show Opc.segShift - 16 = 15 from rfl,
    show Opc.segShift = 31 from rfl, show (8 : Nat) = 2 ^ 3 from rfl]
  simp only [Nat.testBit_shiftLeft, Nat.testBit_and, Nat.testBit_two_pow_sub_one,
    Nat.testBit_mod_two_pow, Nat.testBit_shiftRight]
  -- bit `i` of both sides is bit `i - 15` of the request, for `i` from 31 to 33
  by_cases h : 31 ≤ i
  · simp only [h, show 15 ≤ i by omega, show 16 ≤ i - 15 by omega, decide_true, Bool.true_and]
    rw [show 16 + (i - 31) = i - 15 by omega]
    by_cases h3 : i - 31 < 3
    · simp [h3, show i - 15 - 16 < 3 by omega]
    · simp [h3, show ¬ i - 15 - 16 < 3 by omega]
  · simp only [h, decide_false, Bool.false_and]
    by_cases h1 : 15 ≤ i
    · by_cases h2 : 16 ≤ i - 15
      · simp [h2, show ¬ i - 15 - 16 < 3 by omega]
      · simp [h2]
    · simp [h1]

/-- a word has a single bit exactly when that bit is set -/
theorem has_two_pow (w n : Nat) : has w (2 ^ n) = w.testBit n := by
  cases hw : w.testBit n
  · simp only [has, ne_eq, decide_eq_false_iff_not, not_not]
    refine and_eq_zero_of_testBit fun i hi => ?_
    rw [Nat.testBit_two_pow]
    by_cases hin : n = i
    · subst hin
      rw [hw] at hi
      cases hi
    · simp [hin]
  · exact has_of_testBit n hw Nat.testBit_two_pow_self

/-- a word with neither the 67 prefix nor a segment, with a request's added on top -/
theorem requestWord_eq {opc : Nat} (mnem : Nat) (h : opc < Opc.p67) :
    requestWord opc mnem =
      2 ^ 31 * ((mnem >>> 16) % 8) + (opc + 2 ^ 30 * (if has mnem addr32 then 1 else 0)) := by
  have hp67 : Opc.p67 = 2 ^ 30 := rfl
  rw [hp67] at h
  have hlow : (if has mnem addr32 then opc ||| Opc.p67 else opc) =
      opc + 2 ^ 30 * (if has mnem addr32 then 1 else 0) := by
    split
    · rw [hp67, Nat.or_two_pow_eq_add_of_lt h, Nat.mul_one]
    · rw [Nat.mul_zero, Nat.add_zero]
  have hlt : opc + 2 ^ 30 * (if has mnem addr32 then 1 else 0) < 2 ^ 31 := by
    split <;> omega
  rw [requestWord, hlow, segment_bits, show Opc.segShift = 31 from rfl, Nat.shiftLeft_eq,
    Nat.mul_comm ((mnem >>> 16) % 8), Nat.or_comm, Nat.two_pow_add_eq_or_of_lt hlt, Nat.or_comm]

/-- a mask below the 67 prefix sees the same bits of the word a request makes as of the
descriptor's word -/
theorem requestWord_and {opc m : Nat} (mnem : Nat) (h : opc < Opc.p67) (hm : m < 2 ^ 30) :
    requestWord opc mnem &&& m = opc &&& m := by
  have hmod : requestWord opc mnem % 2 ^ 30 = opc := by
    rw [requestWord_eq mnem h]
    have : opc < 2 ^ 30 := h
    split <;> omega
  rw [← Nat.mod_eq_of_lt (Nat.and_lt_two_pow _ hm), Nat.and_mod_two_pow, hmod,
    Nat.mod_eq_of_lt hm]

/-- the 67 prefix of a request and its segment override add a byte each to a word that has
neither -/
theorem opcSize_requestWord {opc : Nat} (mnem : Nat) (h : opc < Opc.p67) :
    opcSize (requestWord opc mnem) = opcSize opc + (if has mnem addr32 then 1 else 0) +
      (if (mnem >>> 16) % 8 ≠ 0 then 1 else 0) := by
  have hopc : opc < 2 ^ 30 := h
  have hhas : ∀ m, m < 2 ^ 30 → has (requestWord opc mnem) m = has opc m := fun m hm => by
    simp only [has, requestWord_and mnem h hm]
  have h67 : has (requestWord opc mnem) Opc.p67 = has mnem addr32 := by
    rw [show Opc.p67 = 2 ^ 30 from rfl, has_two_pow, Nat.testBit_eq_decide_div_mod_eq,
      requestWord_eq mnem h]
    cases ha : has mnem addr32
    · simp only [Bool.false_eq_true, ↓reduceIte, decide_eq_false_iff_not]
      omega
    · simp only [↓reduceIte, decide_eq_true_eq]
      omega
  have h67' : has opc Opc.p67 = false := by
    rw [show Opc.p67 = 2 ^ 30 from rfl, has_two_pow, Nat.testBit_lt_two_pow hopc]
  have hseg : segOf (requestWord opc mnem) = (mnem >>> 16) % 8 := by
    rw [segOf, requestWord_eq mnem h, show Opc.segShift = 31 from rfl, Nat.shiftRight_eq_div_pow]
    split <;> omega
  have hseg' : segOf opc = 0 := by
    rw [segOf, show Opc.segShift = 31 from rfl, Nat.shiftRight_eq_div_pow]
    omega
  rw [opcSize, opcSize]
  simp only [vex3, twoByte, hhas _ (show Opc.vex < 2 ^ 30 by decide),
    hhas _ (show Opc.lock < 2 ^ 30 by decide), hhas _ (show Opc.p66 < 2 ^ 30 by decide),
    hhas _ (show Opc.f2 < 2 ^ 30 by decide), hhas _ (show Opc.f3 < 2 ^ 30 by decide),
    hhas _ (show Opc.anyRex < 2 ^ 30 by decide),
    requestWord_and mnem h (show Opc.escapeMask < 2 ^ 30 by decide),
    requestWord_and mnem h (show Opc.rexW ||| Opc.rexX ||| Opc.rexB ||| Opc.escapeMask < 2 ^ 30 by decide),
    requestWord_and mnem h (show (0xc000 : Nat) < 2 ^ 30 by decide), h67, h67', hseg, hseg',
    ne_eq, not_true_eq_false, Bool.false_eq_true, ↓reduceIte]
  simp only [Nat.add_zero]
  ac_rfl

/-! ## Relative jumps -/

/-- a jump needs no operand class: every operand passes -/
theorem classesOk_zero (ops : Vector Nat 4) : classesOk 0 ops = true := by
  simp [classesOk, classOk, Position.all]

/-- a jump needs no operand class, so no operand needs REX -/
theorem needsRex_zero (ops : Vector Nat 4) : needsRex 0 ops = false := by
  simp [needsRex, Position.all]

/-- the immediate of a jump: a variant with a longer one after it is skipped under the long
form, and otherwise the offset to the target from the end of the instruction, in the variant's
width, when it fits -/
theorem immediateOf_jump {d : EncDesc} {mnem opc : Nat} {ops : Vector Nat 4} {origin : Nat}
    {imm : Int} {sz : Nat} (h : immediateOf d (encodingInfo .d) mnem opc ops origin = some (imm, sz)) :
    ¬(has mnem jumpLong = true ∧ d.alt ≠ 0) ∧ sz = d.immsz ∧ fits imm sz = true := by
  unfold immediateOf at h
  simp only [encodingInfo, OfNat.ofNat_ne_zero, ↓reduceIte, ne_eq, OfNat.ofNat_ne_one, false_and,
    ge_iff_le, Nat.reduceLeDiff, Bool.not_eq_eq_eq_not, Bool.not_true, true_and, Option.pure_def,
    Option.bind_eq_bind, Option.bind_none, Option.bind_some, Option.ite_none_left_eq_some, not_and,
    Decidable.not_not, Bool.not_eq_false, Option.some.injEq, Prod.mk.injEq] at h
  obtain ⟨hlong, hfit, rfl, rfl⟩ := h
  exact ⟨fun hc => hc.2 (hlong hc.1), rfl, hfit⟩

/-- the checks of a jump that pass give the word a request makes of the jump's own, and an
immediate that passed its checks -/
theorem prepare_jump {d : EncDesc} (hty : d.tys = 0) {mnem : Nat} {ops : Vector Nat 4}
    {origin opc : Nat} {imm : Int} {sz : Nat} (h : prepare d .d mnem ops origin = some (opc, imm, sz)) :
    opc = requestWord d.opc mnem ∧
      immediateOf d (encodingInfo .d) mnem opc ops origin = some (imm, sz) := by
  revert h
  unfold prepare
  simp only [Id.run, encodingInfo, hty, classesOk_zero, Bool.not_true, Bool.false_eq_true,
    ↓reduceIte, reduceCtorEq, needsRex_zero, Nat.reduceDiv, pure_bind, ← requestWord.eq_1]
  -- the word is fixed before the immediate is read; the check of NOP's opcode only fails
  split
  · rename_i imm' sz' himm
    by_cases hnop : d.opc / 8 = 18 ∧ ops.get Position.first = regAx
    · rw [if_pos hnop]
      intro h
      cases h
    · rw [if_neg hnop]
      intro h
      cases h
      exact ⟨rfl, himm⟩
  · intro h
    cases h

/-- a jump writes its opcode word and then its offset -/
theorem emitDesc_jump {opc : Nat} {ops : Vector Nat 4} {imm : Int} {sz : Nat}
    (hfit : fits imm sz = true) :
    Writes (emitDesc (encodingInfo .d) opc ops imm sz) (opcBytes opc ++ leBytes (Word.ofSigned imm) sz) := by
  simp only [emitDesc, encodingInfo]
  exact (writes_emitOpcode opc).bind (writes_emitImm hfit)

/-- a jump whose checks pass is written in its opcode word with the request's 67 prefix and
segment, and its offset; and it has no longer variant after it, if the long form was asked for -/
theorem jump_written {d : EncDesc} (hty : d.tys = 0) {mnem : Nat} {ops : Vector Nat 4}
    {buf b : Buffer} {opc : Nat} {imm : Int} {sz : Nat}
    (hp : prepare d .d mnem ops buf.pos = some (opc, imm, sz))
    (hw : (emitDesc (encodingInfo .d) opc ops imm sz).run buf = .ok () b) :
    b.pos = buf.pos + (opcSize (requestWord d.opc mnem) + d.immsz) ∧
      ¬(has mnem jumpLong = true ∧ d.alt ≠ 0) := by
  obtain ⟨rfl, himm⟩ := prepare_jump hty hp
  obtain ⟨hlong, rfl, hfit⟩ := immediateOf_jump himm
  rw [emitDesc_jump hfit buf] at hw
  cases hw
  refine ⟨?_, hlong⟩
  rw [Buffer.writeAll_pos, List.length_append, length_opcBytes, length_leBytes]

/-! ## What the table promises -/

/-- The promise of an encoder table about relative jumps: a jump needs no operand class and its
opcode word has no 67 prefix or segment of its own (a request adds them), a jump falls back only
to a jump no shorter than itself, and only a jump falls back to a jump. So a chain with a jump on
it is made of jumps, shortest first. -/
def Tables.JumpChains (t : Tables) : Prop :=
  ∀ d ∈ t.descs.toList,
    (d.encoding = some .d → d.tys = 0 ∧ d.opc < Opc.p67 ∧
      (d.alt ≠ 0 → (t.desc d.alt).encoding = some .d ∧
        opcSize d.opc + d.immsz ≤ opcSize (t.desc d.alt).opc + (t.desc d.alt).immsz)) ∧
    (d.alt ≠ 0 → (t.desc d.alt).encoding = some .d → d.encoding = some .d)

instance (t : Tables) : Decidable t.JumpChains :=
  inferInstanceAs (Decidable (∀ d ∈ t.descs.toList,
    (d.encoding = some .d → d.tys = 0 ∧ d.opc < Opc.p67 ∧
      (d.alt ≠ 0 → (t.desc d.alt).encoding = some .d ∧
        opcSize d.opc + d.immsz ≤ opcSize (t.desc d.alt).opc + (t.desc d.alt).immsz)) ∧
    (d.alt ≠ 0 → (t.desc d.alt).encoding = some .d → d.encoding = some .d)))

/-- a place that falls back to another holds one of the table's descriptors -/
theorem Tables.desc_mem_of_alt {t : Tables} {i : Nat} (h : (t.desc i).alt ≠ 0) :
    t.desc i ∈ t.descs.toList := by
  unfold Tables.desc at h ⊢
  rw [Array.getD_eq_getD_getElem?] at h ⊢
  cases hi : t.descs[i]? with
  | none =>
    rw [hi] at h
    exact absurd rfl h
  | some d =>
    rw [Option.getD_some]
    exact Array.mem_toList_iff.2 (Array.mem_of_getElem? hi)

namespace Tables.JumpChains

variable {t : Tables} (ht : t.JumpChains) {i j : Nat}
include ht

/-- a jump needs no operand class and has no 67 prefix or segment of its own -/
theorem plain (hi : (t.desc i).encoding = some .d) :
    (t.desc i).tys = 0 ∧ (t.desc i).opc < Opc.p67 :=
  have h := (ht _ (Tables.desc_mem hi)).1 hi
  ⟨h.1, h.2.1⟩

/-- a jump falls back to a jump no shorter than itself -/
theorem next (hi : (t.desc i).encoding = some .d) (halt : (t.desc i).alt ≠ 0) :
    (t.desc (t.desc i).alt).encoding = some .d ∧
      opcSize (t.desc i).opc + (t.desc i).immsz ≤
        opcSize (t.desc (t.desc i).alt).opc + (t.desc (t.desc i).alt).immsz :=
  ((ht _ (Tables.desc_mem hi)).1 hi).2.2 halt

/-- only a jump falls back to a jump -/
theorem prev (halt : (t.desc i).alt ≠ 0) (hnext : (t.desc (t.desc i).alt).encoding = some .d) :
    (t.desc i).encoding = some .d :=
  (ht _ (Tables.desc_mem_of_alt halt)).2 halt hnext

/-- the chain from a jump is made of jumps -/
theorem onChain_jump (hi : (t.desc i).encoding = some .d) (hij : t.OnChain i j) :
    (t.desc j).encoding = some .d := by
  induction hij with
  | here => exact hi
  | next halt _ ih => exact ih (ht.next hi halt).1

/-- a chain with a jump on it starts with a jump -/
theorem jump_of_onChain (hij : t.OnChain i j) (hj : (t.desc j).encoding = some .d) :
    (t.desc i).encoding = some .d := by
  induction hij with
  | here => exact hj
  | next halt _ ih => exact ht.prev halt (ih hj)

/-- along a chain of jumps the opcode word and the offset grow no shorter -/
theorem size_le (hi : (t.desc i).encoding = some .d) (hij : t.OnChain i j) :
    opcSize (t.desc i).opc + (t.desc i).immsz ≤ opcSize (t.desc j).opc + (t.desc j).immsz := by
  induction hij with
  | here => exact le_rfl
  | next halt _ ih =>
    obtain ⟨hnext, hle⟩ := ht.next hi halt
    exact hle.trans (ih hnext)

end Tables.JumpChains

/-! ## Encoding a jump -/

/-- a request whose chain starts with a jump is written as a jump on its chain, with the
request's 67 prefix and segment, and no jump on the chain before it passes its checks; under
the long form, that jump has no longer variant after it -/
theorem encodeInto_jump {t : Tables} (ht : t.JumpChains) {mnem : Nat}
    (hstart : (t.desc (mnem % 65536)).encoding = some .d) {ops : Vector Nat 4} {buf b : Buffer}
    (h : (encodeInto t mnem ops).run buf = .ok () b) :
    ∃ j, t.OnChain (mnem % 65536) j ∧
      b.pos = buf.pos + (opcSize (requestWord (t.desc j).opc mnem) + (t.desc j).immsz) ∧
      ¬(has mnem jumpLong = true ∧ (t.desc j).alt ≠ 0) ∧
      ∀ k opc imm sz, t.OnChain (mnem % 65536) k →
        prepare (t.desc k) .d mnem ops buf.pos = some (opc, imm, sz) → t.OnChain j k := by
  obtain ⟨j, e, opc, imm, sz, hj, hje, hp, hw, hfirst⟩ := tryChain_ok (encodeInto_ok h)
  -- the descriptor written is on a chain of jumps, so it is a jump
  have hjump := ht.onChain_jump hstart hj
  rw [hjump] at hje
  cases hje
  obtain ⟨hpos, hlong⟩ := jump_written (ht.plain hjump).1 hp hw
  refine ⟨j, hj, hpos, hlong, fun k opc' imm' sz' hk hpk => ?_⟩
  exact hfirst k .d hk (ht.onChain_jump hstart hk) (by rw [hpk]; rfl)

/-- **Relative jumps keep their length.** For a mnemonic whose chain has a jump on it, under the
table's promise: with the long form asked for, every request that is written is written in the
same number of bytes, whatever its operands (the target) and the buffer's address; and any
request is written in no more bytes than a variant of its chain whose checks pass there (one
that reaches the target) would be. -/
theorem jump_lengths {t : Tables} (ht : t.JumpChains) {mnem : Nat}
    (hjump : ∃ j, t.OnChain (mnem % 65536) j ∧ (t.desc j).encoding = some .d) :
    (has mnem jumpLong = true → ∀ (ops₁ ops₂ : Vector Nat 4) (buf₁ buf₂ b₁ b₂ : Buffer),
      (encodeInto t mnem ops₁).run buf₁ = .ok () b₁ →
      (encodeInto t mnem ops₂).run buf₂ = .ok () b₂ → b₁.pos - buf₁.pos = b₂.pos - buf₂.pos) ∧
    ∀ (ops : Vector Nat 4) (buf b : Buffer), (encodeInto t mnem ops).run buf = .ok () b →
      ∀ k opc imm sz b', t.OnChain (mnem % 65536) k →
        prepare (t.desc k) .d mnem ops buf.pos = some (opc, imm, sz) →
        (emitDesc (encodingInfo .d) opc ops imm sz).run buf = .ok () b' → b.pos ≤ b'.pos := by
  obtain ⟨j₀, hj₀, hd₀⟩ := hjump
  have hstart := ht.jump_of_onChain hj₀ hd₀
  constructor
  · -- under the long form both requests are written with the chain's last jump
    intro hlong ops₁ ops₂ buf₁ buf₂ b₁ b₂ h₁ h₂
    obtain ⟨j₁, hj₁, hpos₁, hl₁, -⟩ := encodeInto_jump ht hstart h₁
    obtain ⟨j₂, hj₂, hpos₂, hl₂, -⟩ := encodeInto_jump ht hstart h₂
    have hlast₁ : (t.desc j₁).alt = 0 := by
      by_contra hne
      exact hl₁ ⟨hlong, hne⟩
    have hlast₂ : (t.desc j₂).alt = 0 := by
      by_contra hne
      exact hl₂ ⟨hlong, hne⟩
    obtain rfl := hj₁.eq_of_last hlast₁ hj₂ hlast₂
    omega
  · -- the jump written comes first among those that pass, and the chain grows no shorter
    intro ops buf b h k opc imm sz b' hk hp hw
    obtain ⟨j, hj, hpos, -, hfirst⟩ := encodeInto_jump ht hstart h
    have hjk := hfirst k opc imm sz hk hp
    have hjumpj := ht.onChain_jump hstart hj
    have hjumpk := ht.onChain_jump hstart hk
    obtain ⟨hpos', -⟩ := jump_written (ht.plain hjumpk).1 hp hw
    have hle := ht.size_le hjumpj hjk
    rw [opcSize_requestWord mnem (ht.plain hjumpj).2] at hpos
    rw [opcSize_requestWord mnem (ht.plain hjumpk).2] at hpos'
    omega

/-- the encoder's tables for `JMP` to a target: a jump with a one-byte offset (opcode byte EB)
that falls back to one with a four-byte offset (E9), as the listing gives them -/
def Tables.jmp : Tables :=
  { names := #["FE_JMP"], numbers := {},
    descs := #[{ opc := 0xeb, encoding := some .d, immsz := 1, alt := 1 },
      { opc := 0xe9, encoding := some .d, immsz := 4 }] }

theorem jmp_jumpChains : Tables.jmp.JumpChains := by decide

theorem jmp_jump_lengths :
    Tables.jmp.JumpChains ∧
    (∃ j, Tables.jmp.OnChain (jumpLong % 65536) j ∧ (Tables.jmp.desc j).encoding = some .d) ∧
    (has jumpLong jumpLong = true → ∀ (ops₁ ops₂ : Vector Nat 4) (buf₁ buf₂ b₁ b₂ : Buffer),
      (encodeInto Tables.jmp jumpLong ops₁).run buf₁ = .ok () b₁ →
      (encodeInto Tables.jmp jumpLong ops₂).run buf₂ = .ok () b₂ →
      b₁.pos - buf₁.pos = b₂.pos - buf₂.pos) ∧
    ∀ (ops : Vector Nat 4) (buf b : Buffer), (encodeInto Tables.jmp jumpLong ops).run buf = .ok () b →
      ∀ k opc imm sz b', Tables.jmp.OnChain (jumpLong % 65536) k →
        prepare (Tables.jmp.desc k) .d jumpLong ops buf.pos = some (opc, imm, sz) →
        (emitDesc (encodingInfo .d) opc ops imm sz).run buf = .ok () b' → b.pos ≤ b'.pos :=
  ⟨jmp_jumpChains, ⟨0, .here 0, rfl⟩, jump_lengths jmp_jumpChains ⟨0, .here 0, rfl⟩⟩

-- a jump to itself, and one 129 bytes on, take the short form; one 130 bytes on does not fit it
example : encode Tables.jmp 0 #v[0, 0, 0, 0] = some [0xeb, 0xfe] := by decide
example : encode Tables.jmp 0 #v[130, 0, 0, 0] = some [0xe9, 0x7d, 0, 0, 0] := by decide
-- the long form asked for
example : encode Tables.jmp jumpLong #v[0, 0, 0, 0] = some [0xe9, 0xfb, 0xff, 0xff, 0xff] := by
  decide

end X86Codec.Encoder
