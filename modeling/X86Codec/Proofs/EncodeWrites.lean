import Mathlib.Tactic
import X86Codec.Encoder.OpcodeSize
/-!
Encoding a request into a buffer is all or nothing.

`encodeInto` either writes between one and fifteen bytes at the buffer's position and steps
past them, or fails and leaves the buffer as it was, position and memory alike
(`encodeInto_all_or_nothing`). Three facts carry it:

- every check that can fail comes before the first byte is written (`emitModrm_writes`,
  `emitInOpcode_writes`), and the writes after the checks cannot fail: the displacement fits
  the width its ModRM form chose (`memForm_disp_fits`) and the immediate was checked when the
  descriptor was chosen (`immediateOf_some`);
- a descriptor that is skipped leaves the buffer alone, so trying the chain is all or nothing
  (`tryChain_writes`), and the handler only puts back a position that a failure never moved;
- an instruction with a ModRM byte has its length checked before it is written. One without
  has no such check, so its length is what the table promises: `Tables.ShortForms` says that
  such a descriptor, with every prefix a request may add and its widest immediate, fits in
  fifteen bytes. Any other word a request makes from it is no longer (`opcSize_le_widest`).

The size the encoder counts for an opcode word before writing it, to place a RIP-relative
displacement or a jump target, is the number of bytes writing the word puts into the buffer
(`emitOpcode_writes_opcSize`). With that count a memory operand based on the instruction
pointer is written as the distance from the end of the instruction to the address it names
(`emitModrm_ip_relative`).
-/

namespace X86Codec.Encoder

/-! ## Writing bytes -/

namespace Buffer

/-- write bytes one after another from the position -/
def writeAll (buf : Buffer) (bs : List UInt8) : Buffer := bs.foldl write buf

variable {buf : Buffer} {bs cs : List UInt8}

theorem writeAll_append : buf.writeAll (bs ++ cs) = (buf.writeAll bs).writeAll cs :=
  List.foldl_append

theorem writeAll_pos : (buf.writeAll bs).pos = buf.pos + bs.length := by
  induction bs generalizing buf with
  | nil => rfl
  | cons b bs ih =>
    show ((buf.write b).writeAll bs).pos = _
    rw [ih, List.length_cons]
    simp only [write]
    omega

/-- the bytes land from the position on, and the rest of the memory is kept -/
theorem writeAll_mem (i : Nat) : (buf.writeAll bs).mem i =
    if buf.pos ≤ i ∧ i < buf.pos + bs.length then bs.getD (i - buf.pos) 0 else buf.mem i := by
  induction bs generalizing buf with
  | nil => simp [writeAll]
  | cons b bs ih =>
    show ((buf.write b).writeAll bs).mem i = _
    rw [ih]
    simp only [write, List.length_cons]
    rcases Nat.lt_trichotomy i buf.pos with hi | rfl | hi
    · simp [show ¬buf.pos + 1 ≤ i by omega, show ¬buf.pos ≤ i by omega, Nat.ne_of_lt hi]
    · simp
    · have hsub : i - buf.pos = i - (buf.pos + 1) + 1 := by omega
      simp only [hsub, List.getD_cons_succ, Nat.ne_of_gt hi, if_false,
        show buf.pos + 1 ≤ i by omega, show buf.pos ≤ i by omega, true_and]
      rw [show buf.pos + 1 + bs.length = buf.pos + (bs.length + 1) by omega]

/-- the bytes from the old position up to the new one are the bytes written -/
theorem written_writeAll : (buf.writeAll bs).written buf.pos = bs := by
  have hlen : (buf.writeAll bs).pos - buf.pos = bs.length := by
    rw [writeAll_pos]
    omega
  apply List.ext_getElem
  · simp only [written, List.length_map, List.length_range', hlen]
  · intro j hj _
    have hj' : j < bs.length := by simpa [written, hlen] using hj
    simp only [written, List.getElem_map, List.getElem_range', writeAll_mem]
    rw [if_pos (by omega)]
    simp [hj']

/-- rewriting the low three bits of the last byte written is writing the rewritten byte -/
theorem write_setLow (c : Buffer) (x v : UInt8) :
    ({ c.write x with
      mem := fun i => if i + 1 = (c.write x).pos then ((c.write x).mem i &&& 0xf8) ||| v
        else (c.write x).mem i } : Buffer) = c.write ((x &&& 0xf8) ||| v) := by
  simp only [write, Buffer.mk.injEq, and_true]
  funext i
  by_cases hi : i = c.pos <;> simp [hi]

end Buffer

/-- a write that cannot fail: from any buffer it writes `bs` at the position -/
def Writes (m : EncM Unit) (bs : List UInt8) : Prop := ∀ buf, m.run buf = .ok () (buf.writeAll bs)

section Writes

variable {m : EncM Unit} {k : Unit → EncM Unit} {bs cs : List UInt8}

theorem writes_emit (bs : List UInt8) : Writes (emit bs) bs := by
  intro buf
  induction bs generalizing buf with
  | nil => rfl
  | cons b bs ih => exact ih (buf.write b)

theorem Writes.bind (h₁ : Writes m bs) (h₂ : Writes (k ()) cs) : Writes (m >>= k) (bs ++ cs) := by
  intro buf
  simp only [EStateM.run_bind, h₁ buf, h₂ _, Buffer.writeAll_append]

theorem Writes.ite {c : Prop} [Decidable c] {m' : EncM Unit} (h₁ : Writes m bs)
    (h₂ : Writes m' cs) : Writes (if c then m else m') (if c then bs else cs) := by
  split
  · exact h₁
  · exact h₂

theorem length_leBytes (v n : Nat) : (leBytes v n).length = n := by
  induction n generalizing v with
  | zero => rfl
  | succ n ih => simp [leBytes, ih]

theorem writes_emitImm {imm : Int} {size : Nat} (h : fits imm size = true) :
    Writes (emitImm imm size) (leBytes (Word.ofSigned imm) size) := by
  simp only [emitImm, h, if_true]
  exact writes_emit _

end Writes

/-! ## All or nothing -/

/-- what a write into `buf` may do: write some bytes, as many as `ok` allows, at the position
and step past them, or fail and leave the buffer as it was -/
def AllOrNothing (ok : Nat → Prop) (m : EncM Unit) (buf : Buffer) : Prop :=
  (∃ bs : List UInt8, ok bs.length ∧ m.run buf = .ok () (buf.writeAll bs)) ∨
    m.run buf = .error () buf

namespace AllOrNothing

variable {p q : Nat → Prop} {m : EncM Unit} {buf : Buffer}

theorem fail : AllOrNothing p (throw ()) buf := .inr rfl

theorem of_writes {bs : List UInt8} (h : Writes m bs) (hp : p bs.length) :
    AllOrNothing p m buf :=
  .inl ⟨bs, hp, h buf⟩

/-- a check that fails before anything is written -/
theorem guard {c : Prop} [Decidable c] {k : Unit → EncM Unit} {m' : EncM Unit}
    (h : ¬c → AllOrNothing p m' buf) : AllOrNothing p (if c then throw () >>= k else m') buf := by
  split
  · exact .inr rfl
  · exact h ‹_›

/-- writes that cannot fail may follow -/
theorem bind {k : Unit → EncM Unit} {cs : List UInt8} (h : AllOrNothing p m buf)
    (hk : Writes (k ()) cs) (hq : ∀ n, p n → q (n + cs.length)) :
    AllOrNothing q (m >>= k) buf := by
  rcases h with ⟨bs, hp, hm⟩ | hm
  · refine .inl ⟨bs ++ cs, by simpa using hq _ hp, ?_⟩
    simp only [EStateM.run_bind, hm, hk _, Buffer.writeAll_append]
  · exact .inr (by simp only [EStateM.run_bind, hm])

/-- reading the buffer changes nothing -/
theorem get_bind {k : Buffer → EncM Unit} (h : AllOrNothing p (k buf) buf) :
    AllOrNothing p (get >>= k) buf :=
  h

end AllOrNothing

theorem run_tryCatch_ok {x : EncM Unit} {handle : Unit → EncM Unit} {buf b : Buffer}
    (h : x.run buf = .ok () b) : (tryCatch x handle).run buf = .ok () b := by
  simp only [EStateM.run] at h ⊢
  simp only [tryCatch, tryCatchThe, MonadExceptOf.tryCatch, EStateM.tryCatch, h]

theorem run_tryCatch_error {x : EncM Unit} {handle : Unit → EncM Unit} {buf b : Buffer}
    (h : x.run buf = .error () b) : (tryCatch x handle).run buf = (handle ()).run b := by
  simp only [EStateM.run] at h ⊢
  simp only [tryCatch, tryCatchThe, MonadExceptOf.tryCatch, EStateM.tryCatch, h]
  rfl

/-! ## Opcode sizes

The size of an opcode word counts its VEX prefix or its legacy prefixes and escape bytes, its
REX prefix, segment override, 67 prefix and second opcode byte. A request adds to a word only
REX bits, 67, a segment and bits of the opcode byte, none of which the size counts more than
once, so the word with all of them at once is the longest it can make.
-/

theorem opcBytes_ne_nil (opc : Nat) : opcBytes opc ≠ [] := by
  simp [opcBytes]

theorem one_le_opcSize (opc : Nat) : 1 ≤ opcSize opc := by
  rw [← length_opcBytes]
  exact List.length_pos_of_ne_nil (opcBytes_ne_nil opc)

/-- the bits of an opcode word whose presence the size counts, apart from REX, 67 and the
segment: VEX, the escape, the second opcode byte, lock and the 66, F2 and F3 prefixes -/
def countedBits : Nat :=
  Opc.vex ||| Opc.escapeMask ||| 0xc000 ||| Opc.lock ||| Opc.p66 ||| Opc.f2 ||| Opc.f3

/-- the bits a request may add to a word without a ModRM byte: REX with REX.B, 67 and a
segment -/
def requestBits : Nat := Opc.rex ||| Opc.rexB ||| Opc.p67 ||| 7 <<< Opc.segShift

theorem and_eq_zero_of_testBit {x y : Nat} (h : ∀ i, x.testBit i = true → y.testBit i = false) :
    x &&& y = 0 :=
  Nat.eq_of_testBit_eq fun i => by
    rw [Nat.testBit_and, Nat.zero_testBit]
    cases hx : x.testBit i
    · rfl
    · rw [h i hx]
      rfl

theorem or_counted {x z : Nat} (hz : z &&& countedBits = 0) :
    (x ||| z) &&& countedBits = x &&& countedBits := by
  rw [Nat.and_or_distrib_right, hz, Nat.or_zero]

theorem and_eq_of_counted {x w m : Nat} (h : x &&& countedBits = w &&& countedBits)
    (hm : countedBits &&& m = m) : x &&& m = w &&& m := by
  rw [← hm, ← Nat.and_assoc, ← Nat.and_assoc, h]

theorem testBit_countedBits_high {i : Nat} (hi : 25 ≤ i) : countedBits.testBit i = false :=
  Nat.testBit_lt_two_pow (Nat.lt_of_lt_of_le (by decide) (Nat.pow_le_pow_right (by decide) hi))

theorem testBit_countedBits_low {i : Nat} (hi : i < 14) : countedBits.testBit i = false := by
  have h := Nat.testBit_mod_two_pow countedBits 14 i
  rw [show countedBits % 2 ^ 14 = 0 by decide, Nat.zero_testBit] at h
  simpa [hi] using h.symm

/-- a segment override lands from bit 31 on, past every counted bit -/
theorem seg_counted (mnem : Nat) :
    ((mnem &&& segMask) <<< (Opc.segShift - 16)) &&& countedBits = 0 :=
  and_eq_zero_of_testBit fun i hi => by
    have hseg : segMask = 7 <<< 16 := rfl
    simp only [Nat.testBit_shiftLeft, Nat.testBit_and, hseg, Bool.and_eq_true,
      decide_eq_true_eq] at hi
    exact testBit_countedBits_high (by simp [Opc.segShift] at hi; omega)

/-- a register number in the opcode byte stays below the counted bits -/
theorem regBits_counted (op : Nat) : (Operand.regIdx op <<< 3) &&& countedBits = 0 :=
  and_eq_zero_of_testBit fun i hi => by
    simp only [Nat.testBit_shiftLeft, Operand.regIdx, Bool.and_eq_true, decide_eq_true_eq] at hi
    obtain ⟨h3, hbit⟩ := hi
    rw [show (256 : Nat) = 2 ^ 8 from rfl, Nat.testBit_mod_two_pow, Bool.and_eq_true,
      decide_eq_true_eq] at hbit
    exact testBit_countedBits_low (by omega)

theorem has_of_testBit {x m : Nat} (i : Nat) (hx : x.testBit i = true) (hm : m.testBit i = true) :
    has x m = true := by
  simp only [has, ne_eq, decide_eq_true_eq]
  intro h0
  have := congrArg (Nat.testBit · i) h0
  simp [hx, hm] at this

theorem testBit_or_requestBits (c : Nat) {i : Nat} (hi : requestBits.testBit i = true) :
    (c ||| requestBits).testBit i = true := by
  rw [Nat.testBit_or, hi, Bool.or_true]

theorem vex3_or_requestBits (c : Nat) : vex3 (c ||| requestBits) = true := by
  simp only [vex3, ne_eq, decide_eq_true_eq]
  intro h
  have := congrArg (Nat.testBit · 26) h
  simp only [Nat.testBit_and, testBit_or_requestBits c (i := 26) (by decide)] at this
  revert this
  decide

theorem segOf_or_requestBits (c : Nat) : segOf (c ||| requestBits) ≠ 0 := by
  have h := testBit_or_requestBits c (i := 31) (by decide)
  rw [show 31 = Opc.segShift + 0 from rfl, ← Nat.testBit_shiftRight, Nat.testBit_zero,
    decide_eq_true_eq] at h
  simp only [segOf]
  omega

/-- a word is no longer than one with the same counted bits and REX, 67, a segment and a
three-byte VEX prefix -/
theorem opcSize_le_of_counted {x w : Nat} (hx : x &&& countedBits = w &&& countedBits)
    (hrex : has w Opc.anyRex = true) (h67 : has w Opc.p67 = true) (hseg : segOf w ≠ 0)
    (hv3 : vex3 w = true) : opcSize x ≤ opcSize w := by
  have hhas : ∀ m, countedBits &&& m = m → has x m = has w m := fun m hm => by
    simp only [has, and_eq_of_counted hx hm]
  have hesc := and_eq_of_counted hx (m := Opc.escapeMask) (by decide)
  have htwo : twoByte x = twoByte w := by
    simp only [twoByte, and_eq_of_counted hx (m := 0xc000) (by decide)]
  -- the parts the two words share are equal; the others are at most what `w` has
  have b3 : (if vex3 x = true then 4 else 3) ≤ 4 := by split <;> omega
  have brex : (if has x Opc.anyRex = true then 1 else 0) ≤ 1 := by split <;> omega
  have bseg : (if segOf x ≠ 0 then 1 else 0) ≤ 1 := by split <;> omega
  have b67 : (if has x Opc.p67 = true then 1 else 0) ≤ 1 := by split <;> omega
  simp only [opcSize, hhas Opc.vex (by decide), hhas Opc.lock (by decide),
    hhas Opc.p66 (by decide), hhas Opc.f2 (by decide), hhas Opc.f3 (by decide), hesc, htwo,
    hrex, h67, if_pos hseg, hv3, if_true]
  split <;> omega

/-- every word with the counted bits of `c` is no longer than `c` with all the request bits -/
theorem opcSize_le_widest {x c : Nat} (hx : x &&& countedBits = c &&& countedBits) :
    opcSize x ≤ opcSize (c ||| requestBits) := by
  refine opcSize_le_of_counted ?_ (has_of_testBit 29 (testBit_or_requestBits c (by decide))
    (by decide)) (has_of_testBit 30 (testBit_or_requestBits c (by decide)) (by decide))
    (segOf_or_requestBits c) (vex3_or_requestBits c)
  rw [or_counted (by decide), hx]

/-! ## The checks -/

theorem fits_signed32 (v : Nat) : fits (Word.signed 32 v) 4 = true := by
  have hl : v % 4294967296 < 4294967296 := Nat.mod_lt _ (by decide)
  simp only [Word.signed, Word.low, show (1 <<< 32 : Nat) = 4294967296 from rfl,
    show (1 <<< (32 - 1) : Nat) = 2147483648 from rfl]
  split <;> simp [fits] <;> omega

/-- the displacement width a ModRM form gives its offset: one byte when it fits one, four
bytes for a larger offset or one that stands alone, none for a zero offset -/
theorem fits_dispSize {off : Int} {md : Nat} {mod0off : Bool} (h4 : fits off 4 = true)
    (hmd : md = 0 ∨ (md = 1 ∧ mod0off = false)) :
    let md' := if off ≠ 0 ∧ fits off 1 = true ∧ (!mod0off) = true then 1
      else if off ≠ 0 ∧ (!mod0off) = true then 2 else md
    fits off (if md' = 1 then 1 else if md' = 2 ∨ mod0off = true then 4 else 0) = true := by
  intro md'
  by_cases h1 : off ≠ 0 ∧ fits off 1 = true ∧ (!mod0off) = true
  · simp only [md', if_pos h1, if_true]
    exact h1.2.1
  by_cases h2 : off ≠ 0 ∧ (!mod0off) = true
  · simp only [md', if_neg h1, if_pos h2]
    simpa using h4
  -- the mode stays: a zero offset, or one that stands alone after a mode-0 byte
  simp only [md', if_neg h1, if_neg h2]
  cases mod0off
  · have hoff : off = 0 := by simpa using h2
    subst hoff
    split_ifs <;> decide
  · rcases hmd with rfl | ⟨_, h⟩
    · simpa using h4
    · cases h

/-- the displacement of a memory operand's ModRM form fits the width it is written in -/
theorem memForm_disp_fits {opc op0 opcsz immsz : Nat} {f : ModrmForm}
    (h : memForm opc op0 opcsz immsz = some f) : fits f.disp f.dispSize = true := by
  unfold memForm at h
  obtain ⟨sib, -, h⟩ := Option.bind_eq_some_iff.1 h
  extract_lets withSib off b rm at h
  split at h
  extract_lets form at h
  -- every base gives a 32-bit offset and a mode that asks for no displacement on its own
  have hform : ∀ rm md off mod0off ws, fits off 4 = true → (md = 0 ∨ md = 1 ∧ mod0off = false) →
      form (rm, md, off, mod0off, ws) = some f → fits f.disp f.dispSize = true := by
    intro rm md off mod0off ws h4 hmd hf
    simp only [form] at hf
    generalize (if ws = true ∨ rm = 4 then (4, rm) else (rm, 0)) = p at hf
    obtain ⟨rm', base⟩ := p
    injection hf with hf
    subst hf
    exact fits_dispSize h4 hmd
  split at h
  · exact hform 5 0 off true true (fits_signed32 op0) (.inl rfl) h
  split at h
  · -- the instruction pointer as base takes no index
    split at h
    · cases h
    · exact hform 5 0 _ true withSib (fits_signed32 _) (.inl rfl) h
  split at h
  · cases h
  · exact hform rm _ off false withSib (fits_signed32 op0) (by split <;> simp) h

/-- an offset from the instruction pointer, with no index, takes the mode-0 form with rm 5 and
four displacement bytes, moved back by the length of the instruction -/
theorem memForm_ip {opc op0 opcsz immsz : Nat} (hbase : Operand.base op0 = regIp)
    (hidx : Operand.index op0 = 0) (hscale : Operand.scale op0 = 0)
    (hvsib : has opc Opc.vsib = false) :
    memForm opc op0 opcsz immsz = some
      { md := 0, rm := 5, dispSize := 4,
        disp := Word.signed 32 (Word.ofSigned (Operand.offset op0 - (opcsz + 5 + immsz))) } := by
  have hsib : indexForm opc op0 = some none := by
    simp [indexForm, hidx, hscale, hvsib]
  simp [memForm, hsib, hbase, show regIp ≠ 0 by decide]

/-- the ModRM form an operand gets, as a register or in memory, has a displacement that fits -/
theorem modrmForm_disp_fits {opc op0 opcsz immsz : Nat} {f : ModrmForm}
    (h : (if Operand.isReg op0 = true then some { md := 3, rm := Operand.regIdx op0 % 8 }
      else memForm opc op0 opcsz immsz) = some f) : fits f.disp f.dispSize = true := by
  split at h
  · injection h with h
    subst h
    rfl
  · exact memForm_disp_fits h

/-- the last checks of an immediate: what passes is the immediate with its width, and fits it -/
theorem immediate_checks {ctl : Nat} {x imm : Int} {s size : Nat} (hctl : 2 ≤ ctl)
    (h : (if ctl = 1 ∧ x ≠ 1 then none
      else if ctl ≥ 2 ∧ (!fits x s) = true then none else pure (x, s)) = some (imm, size)) :
    imm = x ∧ size = s ∧ fits x s = true := by
  rw [if_neg (by omega)] at h
  split at h
  · cases h
  · rename_i hfit
    injection h with h
    injection h with h₁ h₂
    exact ⟨h₁.symm, h₂.symm, by simpa [hctl] using hfit⟩

/-- a written immediate fits its width, which is at most eight bytes for an address and the
descriptor's width otherwise -/
theorem immediateOf_some {d : EncDesc} {info : EncodingInfo} {mnem opc : Nat}
    {ops : Vector Nat 4} {origin : Nat} {imm : Int} {size : Nat}
    (h : immediateOf d info mnem opc ops origin = some (imm, size)) (hctl : info.immCtl ≥ 2) :
    fits imm size = true ∧ size ≤ (if info.immCtl = 2 then 8 else d.immsz) := by
  unfold immediateOf at h
  extract_lets raw at h
  rw [if_neg (by omega)] at h
  split at h
  rename_i imm₀ size₀ hpair
  have hsize : size₀ ≤ if info.immCtl = 2 then 8 else d.immsz := by
    split at hpair
    · rename_i h2
      rw [if_pos h2]
      split at hpair <;> (injection hpair with _ hs; omega)
    · rw [if_neg (by omega)]
      injection hpair with _ hs
      omega
    · rename_i h2 _
      rw [if_neg h2]
      injection hpair with _ hs
      omega
  split_ifs at h
  · cases h
  · obtain ⟨rfl, rfl, hfit⟩ := immediate_checks hctl h
    exact ⟨hfit, hsize⟩
  · obtain ⟨rfl, rfl, hfit⟩ := immediate_checks hctl h
    exact ⟨hfit, hsize⟩

/-- the checks of a descriptor that pass give a word with the descriptor's counted bits, read
with an immediate that passed its own checks; without a VEX operand that word is written -/
theorem prepare_some {d : EncDesc} {e : Encoding} {mnem : Nat} {ops : Vector Nat 4}
    {origin opc : Nat} {imm : Int} {immsz : Nat}
    (h : prepare d e mnem ops origin = some (opc, imm, immsz)) :
    ∃ w, w &&& countedBits = d.opc &&& countedBits ∧
      immediateOf d (encodingInfo e) mnem w ops origin = some (imm, immsz) ∧
      ((encodingInfo e).vexreg = none → opc = w) := by
  unfold prepare at h
  extract_lets info w₁ w₂ w₃ op0 tail body at h
  -- the descriptor's word with REX, 67 and the segment
  have hw₃ : w₃ &&& countedBits = d.opc &&& countedBits := by
    simp only [w₃, w₂, w₁, or_counted (seg_counted mnem)]
    split_ifs <;> simp only [or_counted (show Opc.rex &&& countedBits = 0 by decide),
      or_counted (show Opc.p67 &&& countedBits = 0 by decide)]
  have htail : ∀ x, x &&& countedBits = d.opc &&& countedBits → tail x = some (opc, imm, immsz) →
      ∃ w, w &&& countedBits = d.opc &&& countedBits ∧
        immediateOf d (encodingInfo e) mnem w ops origin = some (imm, immsz) ∧
        ((encodingInfo e).vexreg = none → opc = w) := by
    intro x hx ht
    simp only [tail] at ht
    split at ht
    · rename_i imm' immsz' himm
      split at ht
      · cases ht
      · injection ht with ht
        injection ht with hopc ht
        injection ht with h₁ h₂
        subst h₁ h₂
        exact ⟨x, hx, himm, fun hv => by rw [← hopc]; simp only [info, hv]⟩
    · cases ht
  have hbody : body () = some (opc, imm, immsz) → ∃ w, w &&& countedBits = d.opc &&& countedBits ∧
        immediateOf d (encodingInfo e) mnem w ops origin = some (imm, immsz) ∧
        ((encodingInfo e).vexreg = none → opc = w) := by
    intro hb
    simp only [body] at hb
    split at hb
    · cases hb
    · split at hb
      · -- an S encoding puts the segment register in the opcode byte
        split at hb
        · cases hb
        · exact htail (w₃ ||| Operand.regIdx op0 <<< 3)
            (by rw [or_counted (regBits_counted op0)]; exact hw₃) hb
      · exact htail w₃ hw₃ hb
  simp only [Id.run] at h
  split at h
  · split at h
    · cases h
    · exact hbody h
  · exact hbody h

/-- an encoding without a ModRM byte has no VEX operand either -/
theorem vexreg_of_modrm {e : Encoding} (h : (encodingInfo e).modrm = none) :
    (encodingInfo e).vexreg = none := by
  cases e <;> simp_all [encodingInfo]

/-! ## The writes -/

theorem writes_emitOpcode (opc : Nat) : Writes (emitOpcode opc) (opcBytes opc) :=
  writes_emit _

/-- writing an opcode word cannot fail, from any buffer: it puts the word's bytes at the
position, as many as `opcSize` counts, steps past them and keeps the rest of memory. The
encoder places displacements and relative targets by that count before it writes the word. -/
theorem emitOpcode_writes_opcSize (opc : Nat) (buf : Buffer) :
    ∃ b, (emitOpcode opc).run buf = .ok () b ∧ b.pos = buf.pos + opcSize opc ∧
      b.written buf.pos = opcBytes opc ∧
      ∀ i, i < buf.pos ∨ buf.pos + opcSize opc ≤ i → b.mem i = buf.mem i := by
  refine ⟨buf.writeAll (opcBytes opc), writes_emitOpcode opc buf, ?_, Buffer.written_writeAll, ?_⟩
  · rw [Buffer.writeAll_pos, length_opcBytes]
  · intro i hi
    -- the bytes land in the `opcSize opc` addresses from the position, and `i` is outside them
    rw [Buffer.writeAll_mem, if_neg (by rw [length_opcBytes]; omega)]

/-- a ModRM instruction fails before it writes, or writes its opcode word, its ModRM and SIB
bytes and its displacement: at least two bytes, and with the immediate at most fifteen -/
theorem emitModrm_writes (opc op0 op1 immsz : Nat) (buf : Buffer) :
    AllOrNothing (fun n => 2 ≤ n ∧ n + immsz ≤ 15) (emitModrm opc op0 op1 immsz) buf := by
  unfold emitModrm
  extract_lets w₁ w₂ w₃ w opcsz rest
  clear_value w
  refine AllOrNothing.guard fun _ => ?_
  simp only [rest]
  split
  · rename_i f hf
    have hfit := modrmForm_disp_fits hf
    refine AllOrNothing.guard fun hlen => ?_
    refine AllOrNothing.of_writes ((writes_emitOpcode w).bind ((writes_emit _).bind
      (Writes.ite ((writes_emit _).bind (writes_emitImm hfit)) (writes_emitImm hfit)))) ?_
    simp only [opcsz] at hlen
    have := one_le_opcSize w
    split at hlen <;> simp [length_opcBytes, length_leBytes, *] <;> omega
  · exact .fail

/-- **Offsets from the instruction pointer.** A memory operand based on the instruction pointer,
with no index, is written after the opcode word (REX.R added for a reg operand from r8 on) as a
ModRM byte of mode 0 and rm 5 and four displacement bytes. The displacement is the distance from
the end of the instruction, after the `immsz` bytes of its immediate, to the address the
operand's offset names from its start, cut to 32 bits: the encoder counts the opcode word's
bytes before it writes them, and writes as many as it counted. -/
theorem emitModrm_ip_relative {opc op0 op1 immsz : Nat} {buf b : Buffer}
    (hmem : Operand.isMem op0 = true) (hbase : Operand.base op0 = regIp)
    (hidx : Operand.index op0 = 0) (hscale : Operand.scale op0 = 0)
    (hvsib : has opc Opc.vsib = false)
    (h : (emitModrm opc op0 op1 immsz).run buf = .ok () b) :
    ∃ w disp, (w = opc ∨ w = opc ||| Opc.rexR) ∧
      b.written buf.pos =
        opcBytes w ++ UInt8.ofNat (op1 % 8 * 8 + 5) :: leBytes (Word.ofSigned disp) 4 ∧
      disp = Word.signed 32 (Word.ofSigned (buf.pos + Operand.offset op0 - (b.pos + immsz : Nat))) := by
  have hreg : Operand.isReg op0 = false := by
    simp only [Operand.isMem, Operand.isReg] at hmem ⊢
    simpa using hmem
  unfold emitModrm at h
  extract_lets w₁ w₂ w₃ w opcsz rest at h
  -- the base and the index add no REX bit; only the reg operand may
  have hw₃ : w₃ = opc := by
    simp [w₃, w₂, w₁, hreg, hbase, hidx, has, show regIp &&& 8 = 0 by decide]
  have hw : (w = opc ∨ w = opc ||| Opc.rexR) ∧ has w Opc.vsib = false := by
    simp only [w, hw₃]
    split
    · refine ⟨.inr rfl, ?_⟩
      simp only [has, Nat.and_or_distrib_right] at hvsib ⊢
      simpa [show Opc.rexR &&& Opc.vsib = 0 by decide] using hvsib
    · exact ⟨.inl rfl, hvsib⟩
  clear_value w
  simp only [rest, hreg, memForm_ip hbase hidx hscale hw.2, Bool.false_eq_true, if_false] at h
  have hnoSib : ¬((0 : Nat) ≠ 3 ∧ (5 : Nat) = 4) := by decide
  simp only [if_neg hnoSib, Nat.add_zero] at h
  split at h
  · cases h
  split at h
  · cases h
  set disp := Word.signed 32 (Word.ofSigned (Operand.offset op0 - (opcsz + 5 + immsz)))
  have hwrites : Writes (do
      emitOpcode w
      emit [UInt8.ofNat (0 * 64 + op1 % 8 * 8 + 5)]
      emitImm disp 4)
      (opcBytes w ++ ([UInt8.ofNat (0 * 64 + op1 % 8 * 8 + 5)] ++ leBytes (Word.ofSigned disp) 4)) :=
    (writes_emitOpcode w).bind ((writes_emit _).bind (writes_emitImm (fits_signed32 _)))
  rw [hwrites buf] at h
  cases h
  refine ⟨w, disp, hw.1, ?_, ?_⟩
  · rw [Buffer.written_writeAll]
    simp
  · -- the instruction ends `opcsz + 5 + immsz` bytes after the position, as many as were
    -- taken off the offset
    simp only [disp, opcsz, Buffer.writeAll_pos, List.length_append, length_opcBytes,
      List.length_singleton, length_leBytes]
    congr 2
    push_cast
    omega

/-- a register in the opcode byte: the instruction fails before it writes, or writes an opcode
word with the counted bits of `opc`, the register in the low bits of its last byte -/
theorem emitInOpcode_writes (opc op0 : Nat) (buf : Buffer) :
    AllOrNothing (fun n => ∃ w, w &&& countedBits = opc &&& countedBits ∧ n = opcSize w)
      (emitInOpcode opc op0) buf := by
  unfold emitInOpcode
  extract_lets w rest
  have hw : w &&& countedBits = opc &&& countedBits := by
    simp only [w]
    split
    · exact or_counted (by decide)
    · rfl
  clear_value w
  refine AllOrNothing.guard fun _ => ?_
  -- the last byte of the word is rewritten once it is written
  obtain ⟨cs, x, hcs⟩ := (List.eq_nil_or_concat (opcBytes w)).resolve_left (opcBytes_ne_nil w)
  rw [List.concat_eq_append] at hcs
  refine .inl ⟨cs ++ [(x &&& 0xf8) ||| UInt8.ofNat (Operand.regIdx op0 % 8)], ⟨w, hw, ?_⟩, ?_⟩
  · rw [← length_opcBytes, hcs]
    simp
  · simp only [rest, EStateM.run_bind, writes_emitOpcode w buf, hcs, Buffer.writeAll_append,
      EStateM.run_modify]
    exact congrArg _ (Buffer.write_setLow _ _ _)

/-- a chosen descriptor is written all or nothing, in one to fifteen bytes, when its immediate
fits and, without a ModRM byte, its widest word and immediate fit fifteen bytes -/
theorem emitDesc_writes {info : EncodingInfo} {opc : Nat} {imm : Int} {immsz : Nat}
    (hfit : info.immCtl ≥ 2 → fits imm immsz = true)
    (hshort : info.modrm = none →
      opcSize (opc ||| requestBits) + (if info.immCtl ≥ 2 then immsz else 0) ≤ 15)
    (ops : Vector Nat 4) (buf : Buffer) :
    AllOrNothing (fun n => 1 ≤ n ∧ n ≤ 15) (emitDesc info opc ops imm immsz) buf := by
  unfold emitDesc
  extract_lets tail
  -- the immediate comes last, and cannot fail
  have htail : Writes (tail ())
      (if info.immCtl ≥ 2 then leBytes (Word.ofSigned imm) immsz else []) := by
    simp only [tail]
    split
    · exact writes_emitImm (hfit ‹_›)
    · exact fun _ => rfl
  have hlen : (if info.immCtl ≥ 2 then leBytes (Word.ofSigned imm) immsz else []).length =
      if info.immCtl ≥ 2 then immsz else 0 := by
    split <;> simp [length_leBytes]
  have himm : (if info.immCtl ≥ 2 then immsz else 0) ≤ immsz := by
    split <;> omega
  -- without a ModRM byte, the widest word bounds every word with the same counted bits
  have hword : info.modrm = none → ∀ w, w &&& countedBits = opc &&& countedBits →
      opcSize w + (if info.immCtl ≥ 2 then immsz else 0) ≤ 15 := fun hm w hw =>
    (Nat.add_le_add_right (opcSize_le_widest hw) _).trans (hshort hm)
  split
  · exact (emitModrm_writes _ _ _ _ buf).bind htail fun n hn => by rw [hlen]; omega
  · exact (emitModrm_writes _ _ _ _ buf).bind htail fun n hn => by rw [hlen]; omega
  · rename_i hm _
    refine (emitInOpcode_writes _ _ buf).bind htail fun n hn => ?_
    obtain ⟨w, hw, rfl⟩ := hn
    have := one_le_opcSize w
    have := hword hm w hw
    rw [hlen]
    omega
  · rename_i hm _
    refine (AllOrNothing.of_writes (p := fun n => n = opcSize opc) (writes_emitOpcode opc)
      (length_opcBytes opc)).bind htail fun n hn => ?_
    have := one_le_opcSize opc
    have := hword hm opc rfl
    rw [hlen]
    omega

/-! ## Tables -/

/-- the widest immediate an encoding writes for a descriptor: none when its immediate is not
written, eight bytes for an address, else the descriptor's width -/
def immWidth (e : Encoding) (d : EncDesc) : Nat :=
  if (encodingInfo e).immCtl = 2 then 8 else if (encodingInfo e).immCtl ≥ 2 then d.immsz else 0

/-- The promise of an encoder table that an instruction without a ModRM byte fits in fifteen
bytes: each such descriptor's word with every bit a request may add to it, and its widest
immediate. An instruction with a ModRM byte needs no promise, as its length is checked before
it is written. -/
def Tables.ShortForms (t : Tables) : Prop :=
  ∀ d ∈ t.descs.toList, ∀ e ∈ d.encoding, (encodingInfo e).modrm = none →
    opcSize (d.opc ||| requestBits) + immWidth e d ≤ 15

instance (t : Tables) : Decidable t.ShortForms :=
  inferInstanceAs (Decidable (∀ d ∈ t.descs.toList, ∀ e ∈ d.encoding,
    (encodingInfo e).modrm = none → opcSize (d.opc ||| requestBits) + immWidth e d ≤ 15))

/-- a place with an encoding holds one of the table's descriptors -/
theorem Tables.desc_mem {t : Tables} {i : Nat} {e : Encoding}
    (h : (t.desc i).encoding = some e) : t.desc i ∈ t.descs.toList := by
  unfold Tables.desc at h ⊢
  rw [Array.getD_eq_getD_getElem?] at h ⊢
  cases hi : t.descs[i]? with
  | none =>
    rw [hi] at h
    cases h
  | some d =>
    rw [Option.getD_some]
    exact Array.mem_toList_iff.2 (Array.mem_of_getElem? hi)

/-- trying the chain from any place is all or nothing: a skipped descriptor leaves the buffer
alone -/
theorem tryChain_writes {t : Tables} (ht : t.ShortForms) (mnem : Nat) (ops : Vector Nat 4)
    (fuel i : Nat) (buf : Buffer) :
    AllOrNothing (fun n => 1 ≤ n ∧ n ≤ 15) (tryChain t mnem ops fuel i) buf := by
  induction fuel generalizing i with
  | zero => exact .fail
  | succ fuel ih =>
    simp only [tryChain]
    split
    · rename_i e he
      refine AllOrNothing.get_bind ?_
      split
      · rename_i opc imm immsz hprep
        obtain ⟨w, hw, himm, hvex⟩ := prepare_some hprep
        refine emitDesc_writes (fun hctl => (immediateOf_some himm hctl).1) (fun hm => ?_) ops buf
        -- the promise bounds the word written and its immediate
        have hpromise := ht _ (Tables.desc_mem he) e he hm
        have hsize : opcSize (w ||| requestBits) ≤ opcSize ((t.desc i).opc ||| requestBits) :=
          opcSize_le_widest (by rw [or_counted (by decide), hw])
        have hwidth : (if (encodingInfo e).immCtl ≥ 2 then immsz else 0) ≤
            immWidth e (t.desc i) := by
          by_cases hctl : (encodingInfo e).immCtl ≥ 2
          · have := (immediateOf_some himm hctl).2
            rw [if_pos hctl]
            unfold immWidth
            split_ifs at this ⊢ <;> omega
          · simp [hctl]
        rw [hvex (vexreg_of_modrm hm)]
        omega
      · split
        · exact .fail
        · exact ih _
    · exact .fail

/-- Encoding a request into a buffer is all or nothing: it writes between one and fifteen
bytes at the position and steps past them, or it fails and leaves the buffer as it was. -/
theorem encodeInto_all_or_nothing {t : Tables} (ht : t.ShortForms) (mnem : Nat)
    (ops : Vector Nat 4) (buf : Buffer) :
    (∃ bytes : List UInt8, 1 ≤ bytes.length ∧ bytes.length ≤ 15 ∧
      (encodeInto t mnem ops).run buf = .ok () (buf.writeAll bytes)) ∨
    (encodeInto t mnem ops).run buf = .error () buf := by
  have hbody : AllOrNothing (fun n => 1 ≤ n ∧ n ≤ 15)
      (if mnem % 65536 ≥ t.count then throw ()
        else tryChain t mnem ops (t.descs.size + 1) (mnem % 65536)) buf := by
    split
    · exact .fail
    · exact tryChain_writes ht mnem ops _ _ buf
  simp only [encodeInto, EStateM.run_bind, EStateM.run_get]
  -- the handler puts back the position, which a failed attempt never moved
  rcases hbody with ⟨bs, ⟨h1, h15⟩, hrun⟩ | hrun
  · exact .inl ⟨bs, h1, h15, run_tryCatch_ok hrun⟩
  · exact .inr (by rw [run_tryCatch_error hrun]; rfl)

/-- the encoder's tables for `RET` and `RET imm16` (opcode bytes C3 and C2), as the listing
gives them -/
def Tables.ret : Tables :=
  { names := #["FE_RET", "FE_RETi"], numbers := {},
    descs := #[{ opc := 0xc3, encoding := some .np },
      { opc := 0xc2, encoding := some .i, immsz := 2 }] }

theorem ret_shortForms : Tables.ret.ShortForms := by decide

theorem ret_all_or_nothing :
    Tables.ret.ShortForms ∧
      ((∃ bytes : List UInt8, 1 ≤ bytes.length ∧ bytes.length ≤ 15 ∧
        (encodeInto Tables.ret 1 (Vector.replicate 4 8)).run Buffer.empty =
          .ok () (Buffer.empty.writeAll bytes)) ∨
      (encodeInto Tables.ret 1 (Vector.replicate 4 8)).run Buffer.empty = .error () Buffer.empty) :=
  ⟨ret_shortForms, encodeInto_all_or_nothing ret_shortForms 1 _ _⟩

example : encode Tables.ret 1 (Vector.replicate 4 8) = some [0xc2, 8, 0] := by decide

end X86Codec.Encoder
