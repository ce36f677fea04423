import Mathlib.Data.List.TakeWhile
import Mathlib.Tactic.SplitIfs
import Mathlib.Tactic.Set
import X86Codec.Decoder.Format
/-!
Writing an instruction's text into a buffer that may be too short for it.

The pieces of a text are copied one after another, each from the place where the last one
stopped, as long as more than one place of the buffer is left; a NUL then ends the text where
the copy stopped. Together the pieces leave in the buffer the first `len - 1` characters of the
whole text (or all of it when it fits) followed by a NUL, and write no place outside the
buffer. A buffer of no places is not written at all.

On memory this is laying a list of characters over the memory from the buffer's start
(`Text.lay`): `copyInto_lay` says it of one piece, `writePieces_lay` of a list of them.

Main statements:
* `Text.copyPieces_eq_take`: the text copied into `room` places is the whole text cut to
  `room - 1` characters.
* `Text.write_lay`: writing pieces into a buffer of at least one place lays the cut text and a NUL
  over the memory from the buffer's start.
* `Text.fill_eq_read`: the text of `Text.fill` is what a cleared buffer holds up to its first NUL.
* `Decoder.formatAbsInto_truncates`: formatting an instruction into a buffer leaves the first
  `len - 1` characters of its whole text and a NUL, and writes nothing outside the buffer.
-/

namespace X86Codec.Text

/-! ## Copied text -/

/-- the characters a copy into `room` places keeps: those before the last place -/
theorem copyChars_eq_take : ∀ (room : Nat) (cs : List Char),
    copyChars room cs = (cs.take (room - 1), room - (cs.take (room - 1)).length)
  | room, [] => by simp [copyChars]
  | room, c :: cs => by
    rw [copyChars]
    split_ifs with h
    · rw [copyChars_eq_take (room - 1) cs]
      obtain ⟨r, rfl⟩ : ∃ r, room = r + 2 := ⟨room - 2, by omega⟩
      simp
    · obtain rfl | rfl : room = 0 ∨ room = 1 := by omega
      all_goals simp

/-- the text copied into `room` places is the whole text cut before the last place -/
theorem copyPieces_eq_take : ∀ (room : Nat) (ps : List String),
    copyPieces room ps = (ps.flatMap pieceChars).take (room - 1)
  | _, [] => by simp [copyPieces]
  | room, p :: ps => by
    rw [copyPieces, copyChars_eq_take]
    dsimp only
    rw [copyPieces_eq_take _ ps, List.flatMap_cons, List.take_append]
    congr 2
    have := List.length_take_le (room - 1) (pieceChars p)
    rw [List.length_take] at this ⊢
    omega

/-- a copied piece holds no NUL -/
theorem not_nul_of_mem_flatMap {c : Char} {ps : List String} (h : c ∈ ps.flatMap pieceChars) :
    c ≠ '\x00' := by
  obtain ⟨p, -, hc⟩ := List.mem_flatMap.1 h
  simpa using List.mem_takeWhile_imp hc

/-! ## Characters laid over memory -/

/-- memory with the characters `xs` laid over it from place `pos` -/
def lay (mem : Nat → Char) (pos : Nat) (xs : List Char) : Nat → Char :=
  fun a => if pos ≤ a then xs[a - pos]?.getD (mem a) else mem a

section Lay

variable {mem : Nat → Char} {pos : Nat} {xs : List Char}

theorem lay_of_lt {a : Nat} (h : a < pos) : lay mem pos xs a = mem a := by
  simp [lay, Nat.not_le.2 h]

theorem lay_of_le {a : Nat} (h : pos + xs.length ≤ a) : lay mem pos xs a = mem a := by
  simp only [lay, if_pos (show pos ≤ a by omega)]
  rw [List.getElem?_eq_none (by omega), Option.getD_none]

theorem lay_add {j : Nat} (h : j < xs.length) : lay mem pos xs (pos + j) = xs[j] := by
  simp [lay, h]

@[simp] theorem lay_nil : lay mem pos [] = mem := by
  funext a; simp [lay]

theorem lay_cons (c : Char) (xs : List Char) : lay mem pos (c :: xs) = lay (put mem pos c) (pos + 1) xs := by
  funext a
  unfold lay put
  rcases Nat.lt_trichotomy a pos with h | rfl | h
  · simp [Nat.not_le.2 h, show ¬ pos + 1 ≤ a by omega, show a ≠ pos by omega]
  · simp [show ¬ a + 1 ≤ a by omega]
  · rw [if_pos (Nat.le_of_lt h), if_pos (by omega), if_neg (by omega),
      show a - pos = (a - (pos + 1)) + 1 by omega, List.getElem?_cons_succ]

/-- laying characters over a laid list, from a place inside it, keeps its start and replaces the
rest when the new characters cover it -/
theorem lay_lay {zs ys : List Char} (h : zs.length ≤ ys.length) :
    lay (lay mem pos (xs ++ zs)) (pos + xs.length) ys = lay mem pos (xs ++ ys) := by
  funext a
  unfold lay
  by_cases ha : pos + xs.length ≤ a
  · rw [if_pos ha, if_pos (by omega), if_pos (by omega),
      List.getElem?_append_right (by omega), List.getElem?_append_right (by omega),
      show a - pos - xs.length = a - (pos + xs.length) by omega]
    rcases Nat.lt_or_ge (a - (pos + xs.length)) ys.length with hy | hy
    · simp [List.getElem?_eq_getElem hy]
    · rw [List.getElem?_eq_none hy, List.getElem?_eq_none (by omega), Option.getD_none,
        Option.getD_none]
  · rw [if_neg ha]
    by_cases hp : pos ≤ a
    · rw [if_pos hp, if_pos hp, List.getElem?_append_left (by omega),
        List.getElem?_append_left (by omega)]
    · rw [if_neg hp, if_neg hp]

end Lay

/-! ## Writing pieces -/

theorem endAt_pos {room : Nat} (mem : Nat → Char) (pos : Nat) (h : 0 < room) :
    endAt mem pos room = lay mem pos ['\x00'] := by
  rw [endAt, if_neg (by omega), lay_cons, lay_nil]

/-- copying into no places writes nothing -/
theorem copyInto_zero : ∀ (mem : Nat → Char) (pos : Nat) (cs : List Char),
    copyInto mem pos 0 cs = (mem, pos)
  | _, _, [] => rfl
  | _, _, _ :: _ => rfl

/-- **One piece.** Copying into `room > 0` places lays the characters before the last place and a
NUL over the memory, and stops after those characters. -/
theorem copyInto_lay : ∀ (mem : Nat → Char) (pos room : Nat) (cs : List Char), 0 < room →
    copyInto mem pos room cs =
      (lay mem pos (cs.take (room - 1) ++ ['\x00']), pos + (cs.take (room - 1)).length)
  | mem, pos, room, [], h => by simp [copyInto, endAt_pos mem pos h]
  | mem, pos, room, c :: cs, h => by
    rw [copyInto]
    split_ifs with h1
    · -- a character is written and the copy goes on one place further
      obtain ⟨r, rfl⟩ : ∃ r, room = r + 2 := ⟨room - 2, by omega⟩
      rw [copyInto_lay _ _ _ cs (by omega)]
      simp only [show r + 2 - 1 = r + 1 from rfl, Nat.add_sub_cancel, List.take_succ_cons,
        List.cons_append, lay_cons, List.length_cons, Prod.mk.injEq, true_and]
      omega
    · obtain rfl : room = 1 := by omega
      simp [endAt_pos mem pos h]

/-- writing into a buffer of no places left writes nothing -/
theorem writePieces_full (stop : Nat) : ∀ (mem : Nat → Char) (pos : Nat) (ps : List String),
    stop ≤ pos → writePieces stop mem pos ps = mem
  | _, _, [], _ => rfl
  | mem, pos, p :: ps, h => by
    rw [writePieces, Nat.sub_eq_zero_of_le h, copyInto_zero]
    exact writePieces_full stop mem pos ps h

/-- **A list of pieces.** Writing pieces from a place before `stop` lays the first
`stop - pos - 1` characters of their whole text and a NUL over the memory. -/
theorem writePieces_lay (stop : Nat) (p : String) (ps : List String) :
    ∀ (mem : Nat → Char) (pos : Nat), pos < stop →
      writePieces stop mem pos (p :: ps) =
        lay mem pos (((p :: ps).flatMap pieceChars).take (stop - pos - 1) ++ ['\x00']) := by
  induction ps generalizing p with
  | nil =>
    intro mem pos h
    simp [writePieces, copyInto_lay mem pos (stop - pos) _ (by omega)]
  | cons q ps ih =>
    intro mem pos h
    -- the first piece is laid down, and the others go on from where it stopped
    have hfirst := copyInto_lay mem pos (stop - pos) (pieceChars p) (by omega)
    set first := (pieceChars p).take (stop - pos - 1) with hfirst_def
    have hlen : first.length = min (stop - pos - 1) (pieceChars p).length := List.length_take
    have hsplit : (p :: q :: ps).flatMap pieceChars = pieceChars p ++ (q :: ps).flatMap pieceChars :=
      List.flatMap_cons
    rw [writePieces, hfirst]
    dsimp only
    rw [ih q _ _ (by omega), lay_lay (by simp), hsplit, List.take_append, ← hfirst_def,
      List.append_assoc, show stop - (pos + first.length) - 1 =
        stop - pos - 1 - (pieceChars p).length by omega]

/-- writing into a buffer of at least one place lays the whole text, cut before the buffer's
last place, and a NUL over the memory from the buffer's start -/
theorem write_lay (mem : Nat → Char) (base : Nat) {len : Nat} {ps : List String} (hlen : 0 < len)
    (hps : ps ≠ []) :
    write mem base len ps = lay mem base ((ps.flatMap pieceChars).take (len - 1) ++ ['\x00']) := by
  obtain ⟨p, ps, rfl⟩ := List.exists_cons_of_ne_nil hps
  rw [write, writePieces_lay _ p ps mem base (by omega), Nat.add_sub_cancel_left]

/-- a buffer of no places is not written -/
theorem write_zero (mem : Nat → Char) (base : Nat) (ps : List String) : write mem base 0 ps = mem :=
  writePieces_full _ mem base ps (by omega)

/-- the places `base, base + 1, …` of memory with characters laid from `base` read them back,
then the memory's own -/
theorem range_map_lay (mem : Nat → Char) (base : Nat) (xs : List Char) :
    (List.range xs.length).map (fun j => lay mem base xs (base + j)) = xs := by
  refine List.ext_getElem (by simp) fun j h1 h2 => ?_
  simp only [List.getElem_map, List.getElem_range]
  exact lay_add h2

/-- a buffer holding characters without NUL and then a NUL from its start reads back those
characters up to the NUL -/
theorem takeWhile_range_lay (mem : Nat → Char) {xs : List Char} {len : Nat}
    (hx : ∀ c ∈ xs, c ≠ '\x00') (hlen : xs.length < len) :
    ((List.range len).map (lay mem 0 (xs ++ ['\x00']))).takeWhile (· ≠ '\x00') = xs := by
  obtain ⟨k, rfl⟩ : ∃ k, len = (xs ++ ['\x00']).length + k :=
    ⟨len - (xs.length + 1), by simp; omega⟩
  have hfront := range_map_lay mem 0 (xs ++ ['\x00'])
  simp only [Nat.zero_add] at hfront
  rw [List.range_add, List.map_append, hfront, List.append_assoc,
    List.takeWhile_append_of_pos (by simpa using hx)]
  simp

/-- **The text a cleared buffer holds.** The text that pieces leave in a buffer of `len`
places is what the places of a cleared buffer hold, after the pieces are written, up to the
first NUL. -/
theorem fill_eq_read (len : Nat) (ps : List String) :
    fill len ps =
      String.ofList (((List.range len).map (write (fun _ => '\x00') 0 len ps)).takeWhile
        (· ≠ '\x00')) := by
  rw [fill, copyPieces_eq_take]
  rcases Nat.eq_zero_or_pos len with rfl | hlen
  · simp
  rcases eq_or_ne ps [] with rfl | hps
  · -- nothing is written: the cleared buffer reads as the empty text
    rw [write, writePieces]
    simp
  · -- the cut text holds no NUL and is shorter than the buffer
    rw [write_lay _ 0 hlen hps, takeWhile_range_lay _ (fun c hc =>
      not_nul_of_mem_flatMap (List.mem_of_mem_take hc))]
    have := List.length_take_le (len - 1) (ps.flatMap pieceChars)
    omega

end X86Codec.Text

namespace X86Codec.Decoder

open Text

theorem pieces_ne_nil (t : Tables) (i : Instr) (addr : UInt64) : pieces t i addr ≠ [] := by
  simp [pieces, headPieces]

/-- **Formatting into a short buffer truncates the text.** For every instruction, address,
memory and buffer of `len` places from `base`, with `T` the text the formatter gives in any
buffer longer than it: writing changes no place outside the buffer; a buffer of no places is
not written at all; and a buffer of `len > 0` places holds, from its start, the first
`min (len - 1) |T|` characters of `T` and a NUL, with the places after the NUL as they were. -/
theorem formatAbsInto_truncates (t : Tables) (i : Instr) (addr : UInt64) (mem : Nat → Char)
    (base len : Nat) :
    ∃ T : List Char, (∀ n, T.length < n → formatAbs t i addr n = String.ofList T) ∧
      (∀ a, a < base ∨ base + len ≤ a → formatAbsInto t i addr mem base len a = mem a) ∧
      (len = 0 → formatAbsInto t i addr mem base len = mem) ∧
      (0 < len →
        (List.range (min (len - 1) T.length + 1)).map
            (fun j => formatAbsInto t i addr mem base len (base + j)) =
          T.take (len - 1) ++ ['\x00'] ∧
        ∀ a, base + min (len - 1) T.length < a → formatAbsInto t i addr mem base len a = mem a) := by
  refine ⟨(pieces t i addr).flatMap pieceChars, fun n hn => ?_, fun a ha => ?_, fun h0 => ?_,
    fun hlen => ?_⟩
  · rw [formatAbs, fill, copyPieces_eq_take, List.take_of_length_le (by omega)]
  · rcases Nat.eq_zero_or_pos len with rfl | hlen
    · rw [formatAbsInto, write_zero]
    · rw [formatAbsInto, write_lay _ base hlen (pieces_ne_nil t i addr)]
      rcases ha with ha | ha
      · exact lay_of_lt ha
      · refine lay_of_le ?_
        have := List.length_take_le (len - 1) ((pieces t i addr).flatMap pieceChars)
        simp only [List.length_append, List.length_singleton]
        omega
  · subst h0
    exact write_zero mem base _
  · -- the buffer holds the cut text and its NUL, and nothing after them changes
    have hlay := write_lay mem base hlen (pieces_ne_nil t i addr)
    have hcut : (((pieces t i addr).flatMap pieceChars).take (len - 1)).length =
        min (len - 1) ((pieces t i addr).flatMap pieceChars).length := List.length_take
    refine ⟨?_, fun a ha => ?_⟩
    · simp only [formatAbsInto, hlay]
      rw [← hcut]
      simpa using range_map_lay mem base
        (((pieces t i addr).flatMap pieceChars).take (len - 1) ++ ['\x00'])
    · rw [formatAbsInto, hlay]
      exact lay_of_le (by simp only [List.length_append, List.length_singleton]; omega)

end X86Codec.Decoder
