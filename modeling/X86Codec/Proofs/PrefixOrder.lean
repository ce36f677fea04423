import X86Codec.Proofs.AfterPrefixes
/-!
The order of the prefixes.

A run of prefix bytes means, to the decoder, only what `prefixEffect` keeps of it: whether 66,
67 and F0 occur, the last repeat prefix, the last segment override that takes effect in the mode
(in 64-bit mode 26, 2E, 36 and 3E are read and ignored), and in 64-bit mode the REX byte the run
ends with, if it ends with one (a REX byte with other prefixes after it does not count). Two runs
of one length with the same effect, followed by the same bytes that start with no prefix byte,
decode alike, cut to any length.

Main statements:
- `scan_append`, `scan_stop`: the prefix scan reads a run of prefix bytes one by one
  (`Prefixes.push`) and stops at the first byte that is no prefix;
- `readPrefixes_run`: the prefixes read from a window that starts with a run of prefix bytes
  end after the run and, but for where a REX byte stood, are the run's effect;
- `decode_prefix_order`: under the promise about the roots (`Tables.RootsRead`), the order of
  the prefixes matters only through their effect.
-/

namespace X86Codec.Decoder

/-! ## What a run of prefixes means -/

/-- the segment override bytes that take effect in a mode -/
def segmentOverrides : Mode → List Nat
  | .bits32 => [0x26, 0x2e, 0x36, 0x3e, 0x64, 0x65]
  | .bits64 => [0x64, 0x65]

/-- a REX byte -/
def isRex (b : Nat) : Bool := 0x40 ≤ b && b < 0x50

/-- the prefix bytes of a mode: REX only in 64-bit mode, the other segment overrides in both -/
def isPrefixByte (mode : Mode) (b : Nat) : Bool :=
  b ∈ [0x66, 0x67, 0xf0, 0xf2, 0xf3, 0x26, 0x2e, 0x36, 0x3e, 0x64, 0x65] ||
    (mode = .bits64 && isRex b)

/-- what a run of prefixes says to the decoder -/
structure PrefixEffect where
  operandSize : Bool
  addressSize : Bool
  lock : Bool
  repeatPrefix : Option Nat
  segment : Option Nat
  rex : Option Nat
  deriving DecidableEq, Repr

/-- the effect of a run of prefix bytes of a mode: the last repeat prefix and the last segment
override win, and a REX byte counts only at the end of the run -/
def prefixEffect (mode : Mode) (P : List Nat) : PrefixEffect where
  operandSize := 0x66 ∈ P
  addressSize := 0x67 ∈ P
  lock := 0xf0 ∈ P
  repeatPrefix := (P.filter (· ∈ [0xf2, 0xf3])).getLast?
  segment := (P.filter (· ∈ segmentOverrides mode)).getLast?
  rex := match mode with
    | .bits32 => none
    | .bits64 => P.getLast?.filter isRex

/-- the effect of a run with one more prefix byte after it -/
def PrefixEffect.push (mode : Mode) (e : PrefixEffect) (b : Nat) : PrefixEffect where
  operandSize := e.operandSize || b = 0x66
  addressSize := e.addressSize || b = 0x67
  lock := e.lock || b = 0xf0
  repeatPrefix := if b ∈ [0xf2, 0xf3] then some b else e.repeatPrefix
  segment := if b ∈ segmentOverrides mode then some b else e.segment
  rex := if mode = .bits64 ∧ isRex b then some b else none

theorem prefixEffect_snoc (mode : Mode) (P : List Nat) (b : Nat) :
    prefixEffect mode (P ++ [b]) = (prefixEffect mode P).push mode b := by
  cases mode <;>
    simp [prefixEffect, PrefixEffect.push, List.filter_append, List.getLast?_append,
      Option.filter] <;>
    split_ifs <;> simp_all [eq_comm]

theorem prefixEffect_rex_ne_nil {mode : Mode} {A : List Nat} {r : Nat}
    (h : (prefixEffect mode A).rex = some r) : A ≠ [] := by
  rintro rfl
  cases mode <;> cases h

/-- the segment register a segment override names -/
def segmentNumber (b : Nat) : Nat :=
  match b with
  | 0x26 => 0 | 0x2e => 1 | 0x36 => 2 | 0x3e => 3 | 0x64 => 4 | _ => 5

/-- the repeat index a repeat prefix sets: 2 for F3, 3 for F2 -/
def repeatNumber (b : Nat) : Nat := if b = 0xf3 then 2 else 3

/-- the prefix state that stands for an effect, with no REX position, escape or VEX operand -/
def PrefixEffect.state (e : PrefixEffect) : Prefixes where
  segment := e.segment.elim noReg segmentNumber
  p66 := e.operandSize
  p67 := e.addressSize
  lock := e.lock
  rep := e.repeatPrefix.elim 0 repeatNumber
  rex := e.rex.getD 0

/-! ## The prefix scan, one byte at a time -/

/-- the prefixes with the prefix byte `b` at `off` read -/
def Prefixes.push (mode : Mode) (q : Prefixes) (off b : Nat) : Prefixes :=
  { q with
    segment := if b ∈ segmentOverrides mode then segmentNumber b else q.segment
    p66 := q.p66 || b = 0x66
    p67 := q.p67 || b = 0x67
    lock := q.lock || b = 0xf0
    rep := if b ∈ [0xf2, 0xf3] then repeatNumber b else q.rep
    rex := if mode = .bits64 ∧ isRex b then b else q.rex
    rexAt := if mode = .bits64 ∧ isRex b then some off else q.rexAt }

theorem add_eq_push {mode : Mode} {b : Nat} (hb : isPrefixByte mode b) (q : Prefixes)
    (off : Nat) : q.add mode off b = some (q.push mode off b) := by
  simp only [isPrefixByte, isRex, List.mem_cons, List.not_mem_nil, or_false, Bool.or_eq_true,
    decide_eq_true_eq, Bool.and_eq_true] at hb
  unfold Prefixes.add
  split
  -- 66, 67, F0, F3, F2, 64 and 65 are prefixes in both modes; the eighth case is the rest
  on_goal 8 =>
    cases mode with
    | bits32 =>
      dsimp only
      split
      on_goal 5 => simp_all
      all_goals simp [Prefixes.push, segmentOverrides, segmentNumber]
    | bits64 =>
      dsimp only
      split_ifs with hseg hrex
      · -- ES, CS, SS and DS are read and ignored
        rcases hseg with rfl | rfl | rfl | rfl <;> simp [Prefixes.push, segmentOverrides, isRex]
      · -- REX
        have : ¬ (b = 0x64 ∨ b = 0x65) := by omega
        simp [Prefixes.push, segmentOverrides, isRex, hrex, this, show b ≠ 0x66 by omega,
          show b ≠ 0x67 by omega, show b ≠ 0xf0 by omega, show ¬ (b = 0xf2 ∨ b = 0xf3) by omega]
      · simp_all
  all_goals
    cases mode <;> simp [Prefixes.push, segmentOverrides, isRex, segmentNumber, repeatNumber]

theorem add_eq_none {mode : Mode} {b : Nat} (hb : isPrefixByte mode b = false) (q : Prefixes)
    (off : Nat) : q.add mode off b = none := by
  simp only [isPrefixByte, isRex, List.mem_cons, List.not_mem_nil, or_false,
    Bool.or_eq_false_iff, decide_eq_false_iff_not, Bool.and_eq_false_iff] at hb
  unfold Prefixes.add
  split
  on_goal 8 =>
    cases mode with
    | bits32 =>
      dsimp only
      split
      on_goal 5 => rfl
      all_goals simp at hb
    | bits64 =>
      dsimp only
      split_ifs with hseg hrex
      · simp_all
      · simp at hb; omega
      · rfl
  all_goals simp at hb

/-- the scan over a run of prefix bytes and then more bytes goes on from where the run left it -/
theorem scan_append (mode : Mode) :
    ∀ (A B : List Nat) (off : Nat) (q : Prefixes), (∀ b ∈ A, isPrefixByte mode b) →
      Prefixes.scan mode (A ++ B) off q =
        Prefixes.scan mode B (off + A.length) (Prefixes.scan mode A off q).1
  | [], _, _, _, _ => rfl
  | b :: A, B, off, q, hA => by
    simp only [List.cons_append, Prefixes.scan, add_eq_push (hA b List.mem_cons_self),
      List.length_cons]
    rw [scan_append mode A B (off + 1) _ fun b hb => hA b (List.mem_cons_of_mem _ hb)]
    congr 1
    omega

/-- the scan stops at a byte that is no prefix -/
theorem scan_stop (mode : Mode) :
    ∀ (B : List Nat) (off : Nat) (q : Prefixes), (∀ b ∈ B.head?, isPrefixByte mode b = false) →
      Prefixes.scan mode B off q = (q, off)
  | [], _, _, _ => rfl
  | b :: _, off, q, hB => by
    simp only [Prefixes.scan, add_eq_none (hB b rfl)]

/-- the scan over a run of prefix bytes ends after the run -/
theorem scan_off {mode : Mode} {A : List Nat} (hA : ∀ b ∈ A, isPrefixByte mode b) (off : Nat)
    (q : Prefixes) :
    Prefixes.scan mode A off q = ((Prefixes.scan mode A off q).1, off + A.length) := by
  have h := scan_append mode A [] off q hA
  rwa [List.append_nil] at h

/-- the prefixes read from a run of prefix bytes, against the run's effect: the REX position
lies in the run, and is its last byte exactly when the run ends with a REX byte -/
structure Scanned (mode : Mode) (A : List Nat) (q : Prefixes) : Prop where
  segment : q.segment = (prefixEffect mode A).segment.elim noReg segmentNumber
  p66 : q.p66 = (prefixEffect mode A).operandSize
  p67 : q.p67 = (prefixEffect mode A).addressSize
  lock : q.lock = (prefixEffect mode A).lock
  rep : q.rep = (prefixEffect mode A).repeatPrefix.elim 0 repeatNumber
  escape : q.escape = 0
  vexOperand : q.vexOperand = 0
  rexAt_lt : ∀ j, q.rexAt = some j → j < A.length
  last : ∀ r, (prefixEffect mode A).rex = some r → q.rexAt = some (A.length - 1) ∧ q.rex = r
  inner : (prefixEffect mode A).rex = none → ∀ j, q.rexAt = some j → j + 1 < A.length

theorem Scanned.nil (mode : Mode) : Scanned mode [] {} where
  segment := rfl
  p66 := rfl
  p67 := rfl
  lock := rfl
  rep := rfl
  escape := rfl
  vexOperand := rfl
  rexAt_lt := fun _ h => by cases h
  last := fun r h => by cases mode <;> cases h
  inner := fun _ _ h => by cases h

/-- one more prefix byte keeps the prefixes read in step with the effect -/
theorem Scanned.push {mode : Mode} {A : List Nat} {q : Prefixes} {b : Nat}
    (h : Scanned mode A q) : Scanned mode (A ++ [b]) (q.push mode A.length b) := by
  have he := prefixEffect_snoc mode A b
  constructor
  · rw [he]; simp only [Prefixes.push, PrefixEffect.push, h.segment]; split_ifs <;> rfl
  · rw [he]; simp [Prefixes.push, PrefixEffect.push, h.p66]
  · rw [he]; simp [Prefixes.push, PrefixEffect.push, h.p67]
  · rw [he]; simp [Prefixes.push, PrefixEffect.push, h.lock]
  · rw [he]; simp only [Prefixes.push, PrefixEffect.push, h.rep]; split_ifs <;> rfl
  · exact h.escape
  · exact h.vexOperand
  · intro j hj
    simp only [Prefixes.push] at hj
    split_ifs at hj
    · cases hj; simp
    · have := h.rexAt_lt j hj; simp; omega
  · intro r hr
    rw [he] at hr
    simp only [PrefixEffect.push] at hr
    split_ifs at hr with hrex
    cases hr
    simp [Prefixes.push, hrex]
  · -- a run that does not end with REX: the last REX byte, if any, has a byte after it
    intro hr j hj
    rw [he] at hr
    simp only [PrefixEffect.push] at hr
    split_ifs at hr with hrex
    simp only [Prefixes.push, if_neg hrex] at hj
    have := h.rexAt_lt j hj
    simp; omega

theorem scan_scanned {mode : Mode} {A : List Nat} (hA : ∀ b ∈ A, isPrefixByte mode b) :
    Scanned mode A (Prefixes.scan mode A 0 {}).1 := by
  induction A using List.reverseRecOn with
  | nil => exact Scanned.nil mode
  | append_singleton A b ih =>
    have hA' : ∀ b ∈ A, isPrefixByte mode b := fun b hb => hA b (List.mem_append_left _ hb)
    rw [scan_append mode A [b] 0 {} hA', scan_off hA', Nat.zero_add]
    simp only [Prefixes.scan, add_eq_push (hA b (by simp))]
    exact (ih hA').push

/-- **Reading the prefixes.** From a window that starts with a run of prefix bytes followed by
no prefix byte, the prefixes end after the run and, but for where a REX byte stood, are the
run's effect. -/
theorem readPrefixes_run {mode : Mode} {w : Window} {A B : List Nat}
    (hw : w.bytes.toList.map (·.toNat) = A ++ B) (hA : ∀ b ∈ A, isPrefixByte mode b)
    (hB : ∀ b ∈ B.head?, isPrefixByte mode b = false) :
    (readPrefixes mode w).2 = A.length ∧
      { (readPrefixes mode w).1 with rexAt := none } = (prefixEffect mode A).state := by
  have hscan : Prefixes.scan mode (w.bytes.toList.map (·.toNat)) 0 {} =
      ((Prefixes.scan mode A 0 {}).1, A.length) := by
    rw [hw, scan_append mode A B 0 {} hA, scan_stop mode B _ _ hB, Nat.zero_add]
  have h := scan_scanned hA
  unfold readPrefixes
  rw [hscan]
  generalize (Prefixes.scan mode A 0 {}).1 = q at h
  obtain ⟨seg, p66, p67, lock, rep, rex, rexAt, esc, vex⟩ := q
  obtain ⟨hseg, h66, h67, hlock, hrep, hesc, hvex, hlt, hlast, hinner⟩ := h
  dsimp only at *
  subst hseg h66 h67 hlock hrep hesc hvex
  split
  · next hr =>
    -- the run ends with a REX byte, which counts
    obtain ⟨j, rfl, hj⟩ : ∃ j, rexAt = some j ∧ j + 1 = A.length := by
      cases rexAt with
      | none => simp at hr
      | some j => exact ⟨j, rfl, by simpa using hr⟩
    cases he : (prefixEffect mode A).rex with
    | none => have := hinner he j rfl; omega
    | some r =>
      obtain ⟨-, rfl⟩ := hlast r he
      simp [PrefixEffect.state, he]
  · next hr =>
    -- a REX byte before other prefixes does not count
    cases he : (prefixEffect mode A).rex with
    | none => simp [PrefixEffect.state, he]
    | some r =>
      obtain ⟨rfl, -⟩ := hlast r he
      have := List.length_pos_of_ne_nil (prefixEffect_rex_ne_nil he)
      simp at hr
      omega

/-! ## Runs of prefixes with one effect -/

/-- **Prefix order.** Two runs of prefix bytes of one length with the same effect, followed by
the same bytes that do not start with a prefix byte, decode alike when cut to any length. -/
theorem decode_prefix_order {t : Tables} (ht : t.RootsRead) (prior : Instr) {modeNum : Int}
    {mode : Mode} (hmode : Mode.ofInt? modeNum = some mode) (address : UInt64)
    {P Q S : List UInt8} (hP : ∀ b ∈ P, isPrefixByte mode b.toNat)
    (hQ : ∀ b ∈ Q, isPrefixByte mode b.toNat) (hlen : P.length = Q.length)
    (heff : prefixEffect mode (P.map (·.toNat)) = prefixEffect mode (Q.map (·.toNat)))
    (hS : ∀ b ∈ S.head?, isPrefixByte mode b.toNat = false) (n : Nat) :
    decodeInto t prior ((P ++ S).take n) modeNum address =
      decodeInto t prior ((Q ++ S).take n) modeNum address := by
  unfold decodeInto
  -- the window holds the first bytes of the run, then the first bytes of the rest
  have hbytes : ∀ X : List UInt8, (Window.of ((X ++ S).take n)).bytes.toList =
      X.take (min n 15) ++ S.take (min n 15 - X.length) := by
    intro X
    rw [Window.of, List.toList_toArray, List.take_take, Nat.min_comm 15 n, List.take_append]
  have hrun : ∀ X : List UInt8, (∀ b ∈ X, isPrefixByte mode b.toNat) →
      (readPrefixes mode (Window.of ((X ++ S).take n))).2 = (X.take (min n 15)).length ∧
        { (readPrefixes mode (Window.of ((X ++ S).take n))).1 with rexAt := none } =
          (prefixEffect mode ((X.take (min n 15)).map (·.toNat))).state := by
    intro X hX
    have h := @readPrefixes_run mode _ ((X.take (min n 15)).map (·.toNat))
      ((S.take (min n 15 - X.length)).map (·.toNat)) (by rw [hbytes, List.map_append]) ?_ ?_
    · rw [List.length_map] at h
      exact h
    · intro b hb
      obtain ⟨b', hb', rfl⟩ := List.mem_map.1 hb
      exact hX b' (List.mem_of_mem_take hb')
    · intro b hb
      simp only [List.head?_map, List.head?_take, Option.mem_def] at hb
      split at hb
      · cases hb
      · obtain ⟨b', hb', rfl⟩ := Option.map_eq_some_iff.1 hb
        exact hS b' hb'
  have hk : (P.take (min n 15)).length = (Q.take (min n 15)).length := by simp [hlen]
  apply decodeWindow_sameFrom ht prior hmode address (k := (P.take (min n 15)).length)
  · exact Window.sameFrom_of_append (hbytes P) (by rw [hbytes Q, hlen]) hk rfl
  · exact (hrun P hP).1
  · exact (hrun Q hQ).1.trans hk.symm
  · intro hlt
    -- something follows the prefixes, so the window holds both runs whole
    have hlt' : P.length < min n 15 := by
      simp only [Window.len, ← Array.length_toList, hbytes P, List.length_append,
        List.length_take] at hlt
      omega
    have hPm : P.take (min n 15) = P := List.take_of_length_le (by omega)
    have hQm : Q.take (min n 15) = Q := List.take_of_length_le (by omega)
    have h₁ := (hrun P hP).2
    have h₂ := (hrun Q hQ).2
    rw [hPm] at h₁
    rw [hQm] at h₂
    exact h₁.trans (heff ▸ h₂.symm)

/-- `RET` in 64-bit mode after CS, REX.B, 66, F2, F3 and REX.W, and after F3, DS, 66, REX.X,
66 and REX.W: both runs set 66 and end with F3 and REX.W, and the segment overrides and the
inner REX bytes are ignored -/
theorem ret_prefix_order :
    Tables.ret.RootsRead ∧
      (∀ b ∈ [0x2e, 0x41, 0x66, 0xf2, 0xf3, 0x48], isPrefixByte .bits64 (UInt8.toNat b)) ∧
      (∀ b ∈ [0xf3, 0x3e, 0x66, 0x44, 0x66, 0x48], isPrefixByte .bits64 (UInt8.toNat b)) ∧
      prefixEffect .bits64 ([0x2e, 0x41, 0x66, 0xf2, 0xf3, 0x48].map UInt8.toNat) =
        prefixEffect .bits64 ([0xf3, 0x3e, 0x66, 0x44, 0x66, 0x48].map UInt8.toNat) ∧
      ∀ n, decodeInto Tables.ret Instr.zero
          (([0x2e, 0x41, 0x66, 0xf2, 0xf3, 0x48] ++ [0xc3] : List UInt8).take n) 64 0 =
        decodeInto Tables.ret Instr.zero
          (([0xf3, 0x3e, 0x66, 0x44, 0x66, 0x48] ++ [0xc3] : List UInt8).take n) 64 0 := by
  have hP : ∀ b ∈ ([0x2e, 0x41, 0x66, 0xf2, 0xf3, 0x48] : List UInt8),
      isPrefixByte .bits64 b.toNat := by
    simp [isPrefixByte, isRex]
  have hQ : ∀ b ∈ ([0xf3, 0x3e, 0x66, 0x44, 0x66, 0x48] : List UInt8),
      isPrefixByte .bits64 b.toNat := by
    simp [isPrefixByte, isRex]
  have heff : prefixEffect .bits64 ([0x2e, 0x41, 0x66, 0xf2, 0xf3, 0x48].map UInt8.toNat) =
      prefixEffect .bits64 ([0xf3, 0x3e, 0x66, 0x44, 0x66, 0x48].map UInt8.toNat) := by
    decide
  have hS : ∀ b ∈ ([0xc3] : List UInt8).head?, isPrefixByte .bits64 b.toNat = false := by
    simp [isPrefixByte, isRex]
  exact ⟨ret_peeksRead.rootsRead, hP, hQ, heff,
    decode_prefix_order ret_peeksRead.rootsRead Instr.zero rfl 0 hP hQ rfl heff hS⟩

end X86Codec.Decoder
