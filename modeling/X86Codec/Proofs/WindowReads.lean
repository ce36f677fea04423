import X86Codec.Proofs.PrefixClosed
/-!
What decoding reads, and how long a decoded instruction is.

A window holds the bytes the decoder may read, at most fifteen, and the memory that follows
them. Decoding never looks at that memory: every read is checked against the window's end, and
the two places that look at a byte without reading it (the ModRM byte in the table walk, and
the byte after the opcode when there is no ModRM byte) look only below it. So a window decodes
alike whatever follows it (`decodeWindow_past`), which is what the prefix lemmas already give
once the memory after the window is part of it: a window and the same bytes followed by other
memory are each a prefix of the other.

A decoded instruction ends inside its window (`size_le_len`). It starts with an opcode byte
when each root leads to tables of opcode bytes (`Tables.RootsRead`, the part of the tables'
promise about the roots): then the walk reads an opcode byte before it can find an
instruction (`one_le_size`).

Main statement:
* `decode_within_window`: decoding `n` bytes reads only the first `min n 15` of them, and a
  decoded instruction takes between one and `min n 15` of them.
-/

namespace X86Codec.Decoder

variable {α : Type}

/-- two results, each the other or truncated, are the same -/
theorem SameOrTruncated.antisymm {r' r : Except DecodeError α} (h : SameOrTruncated r' r)
    (h' : SameOrTruncated r r') : r' = r := by
  rcases h with h | h
  · exact h
  · rcases h' with h' | h'
    · exact h'.symm
    · rw [h, h']

/-- the bytes of a window with other memory after them are each a prefix of the other -/
theorem Window.isPrefix_past (w : Window) (past : Nat → UInt8) :
    ({ w with past } : Window).IsPrefix w ∧ w.IsPrefix { w with past } :=
  ⟨List.prefix_refl _, List.prefix_refl _⟩

/-- **Nothing past the window is read.** A window decodes alike whatever memory follows it. -/
theorem decodeWindow_past (t : Tables) (prior : Instr) (w : Window) (past : Nat → UInt8)
    (modeNum : Int) (address : UInt64) :
    decodeWindow t prior { w with past } modeNum address =
      decodeWindow t prior w modeNum address :=
  (decodeWindow_shorter t prior (w.isPrefix_past past).1 modeNum address).antisymm
    (decodeWindow_shorter t prior (w.isPrefix_past past).2 modeNum address)

/-- **At least the opcode byte.** When each root leads to tables of opcode bytes, a decoded
instruction is at least one byte long. -/
theorem one_le_size {t : Tables} (ht : t.RootsRead) {prior : Instr} {w : Window} {modeNum : Int}
    {address : UInt64} {r : Instr} (h : decodeWindow t prior w modeNum address = .ok r) :
    1 ≤ r.size := by
  unfold decodeWindow at h
  split at h
  next mode _ =>
    split at h
    next root hroot =>
      obtain ⟨⟨p, off₁⟩, hop, h⟩ := ok_of_bind_eq_ok h
      obtain ⟨⟨d, off₂⟩, hwalk, h⟩ := ok_of_bind_eq_ok h
      obtain ⟨⟨opByte, off₃⟩, hmb, h⟩ := ok_of_bind_eq_ok h
      obtain ⟨s, hops, hfin⟩ := ok_of_bind_eq_ok h
      -- the walk read the opcode byte, and every later stage ends no earlier than it started
      have h₂ : off₂ = off₁ + 1 := (walk_opcode ht hroot (opening_escape mode hop) hwalk).2.2
      have h₃ : off₂ ≤ off₃ := (modrmByte_off hmb).1
      have h₄ : off₃ ≤ s.off := (readOperands_kept hops).start_le
      rw [finish_size hfin]
      omega
    next => cases h
  next => cases h

/-- **Decoding stays inside its window.** Under the promise about the roots: decoding a byte
string gives the same result whatever memory follows its first `min n 15` bytes, and a decoded
instruction takes between one and `min n 15` bytes. -/
theorem decode_within_window {t : Tables} (ht : t.RootsRead) (prior : Instr) (modeNum : Int)
    (address : UInt64) :
    (∀ (s : List UInt8) (past : Nat → UInt8),
      decodeWindow t prior { Window.of s with past } modeNum address =
        decodeInto t prior s modeNum address) ∧
    ∀ (s : List UInt8) (r : Instr), decodeInto t prior s modeNum address = .ok r →
      1 ≤ r.size ∧ r.size ≤ min s.length 15 := by
  refine ⟨fun s past => decodeWindow_past t prior (Window.of s) past modeNum address,
    fun s r h => ⟨one_le_size ht h, ?_⟩⟩
  rw [← Window.len_of]
  exact size_le_len h

theorem ret_within_window :
    Tables.ret.RootsRead ∧
      ((∀ (s : List UInt8) (past : Nat → UInt8),
        decodeWindow Tables.ret Instr.zero { Window.of s with past } 64 0 =
          decodeInto Tables.ret Instr.zero s 64 0) ∧
      ∀ (s : List UInt8) (r : Instr), decodeInto Tables.ret Instr.zero s 64 0 = .ok r →
        1 ≤ r.size ∧ r.size ≤ min s.length 15) :=
  ⟨ret_peeksRead.rootsRead, decode_within_window ret_peeksRead.rootsRead Instr.zero 64 0⟩

end X86Codec.Decoder
