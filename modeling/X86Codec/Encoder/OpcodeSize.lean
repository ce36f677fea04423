import X86Codec.Encoder.Encode
/-!
Lengths of the bytes of an opcode word: the segment override, the 67 prefix, a VEX prefix of
two or three bytes or the lock, repeat, 66, REX and escape bytes, the opcode byte and a second
opcode byte. `length_opcBytes` says that they are as many as `opcSize` counts for every word;
the encoder counts them before it writes them, to place what follows the word.
-/
namespace X86Codec.Encoder

/-- a conditional byte is one byte when the condition holds -/
theorem length_byteIf (c : Bool) (b : UInt8) : (byteIf c b).length = if c then 1 else 0 := by
  cases c <;> rfl

/-- a VEX prefix is three bytes in its long form and two otherwise -/
theorem length_vexBytes (opc : Nat) : (vexBytes opc).length = if vex3 opc then 3 else 2 := by
  by_cases h : vex3 opc = true <;> simp [vexBytes, h]

/-- the legacy prefix bytes: one per prefix present, one for REX, one or two for the escape -/
theorem length_legacyBytes (opc : Nat) : (legacyBytes opc).length =
    (if has opc Opc.lock then 1 else 0) + (if has opc Opc.p66 then 1 else 0) +
      (if has opc Opc.f2 then 1 else 0) + (if has opc Opc.f3 then 1 else 0) +
      (if has opc Opc.anyRex then 1 else 0) + (if opc &&& Opc.escapeMask ≠ 0 then 1 else 0) +
      (if opc &&& Opc.escapeMask = Opc.esc0f38 then 1 else 0) +
      (if opc &&& Opc.escapeMask = Opc.esc0f3a then 1 else 0) := by
  simp only [legacyBytes, List.length_append, length_byteIf, decide_eq_true_eq]

/-- the two three-byte escapes are counted once each, and never together -/
theorem escape_count (x : Nat) :
    (if x = Opc.esc0f38 then 1 else 0) + (if x = Opc.esc0f3a then 1 else 0) =
      if x = Opc.esc0f38 ∨ x = Opc.esc0f3a then 1 else 0 := by
  have hne : Opc.esc0f38 ≠ Opc.esc0f3a := by decide
  by_cases h1 : x = Opc.esc0f38
  · rw [if_pos h1, if_neg (fun h2 => hne (h1 ▸ h2)), if_pos (Or.inl h1)]
  · by_cases h2 : x = Opc.esc0f3a
    · rw [if_neg h1, if_pos h2, if_pos (Or.inr h2)]
    · rw [if_neg h1, if_neg h2, if_neg (fun h => h.elim h1 h2)]

/-- the counted size of an opcode word is the number of its bytes -/
theorem length_opcBytes (opc : Nat) : (opcBytes opc).length = opcSize opc := by
  simp only [opcBytes, opcSize, List.length_append, length_byteIf, List.length_singleton,
    decide_eq_true_eq]
  by_cases hv : has opc Opc.vex = true
  · rw [if_pos hv, if_pos hv, length_vexBytes]
    by_cases h3 : vex3 opc = true
    · rw [if_pos h3, if_pos h3]
      omega
    · rw [if_neg h3, if_neg h3]
      omega
  · rw [if_neg hv, if_neg hv, length_legacyBytes]
    have := escape_count (opc &&& Opc.escapeMask)
    omega

end X86Codec.Encoder
