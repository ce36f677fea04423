import X86Codec.Decoder.Format
/-!
Which registers the formatter names.

The formatter names a register by its type, number and size from a table of names. A number
past the table's end, a size the type has no names for, a type without names and the holes of
the tables (high byte registers 0 to 3, control registers 1, 5, 6 and 7) print as markers
instead (`invalidNames`).

Main statements:
- `Nameable.named`: general purpose registers of one to eight bytes and vector registers of up
  to 32 bytes below 16, x87 and MMX registers below 8, segment registers below 6 and bound
  registers below 4 have names at every such size (`Nameable` says which);
- `named_gph`, `named_cr`, `named_dr`, `named_base`: the high byte registers 4 to 7, the
  control registers 0, 2, 3, 4 and 8, the debug registers below 8, and the bases of memory
  operands, the instruction pointer included, at an address size of two, four or eight;
- `operandPieces_valid`: an operand whose registers have names (`OperandNamed`), in an
  instruction whose segment has one, prints no marker.
-/

namespace X86Codec.Decoder

/-- the texts the formatter prints for a register it has no name for -/
def invalidNames : List String := ["(inv-ty)", "(inv-sz)", "(inv-idx)", "(inv)"]

/-- the formatter has a name for the register of a type and number at a size -/
def Named (rt ri size : Nat) : Prop := regName rt ri size ∉ invalidNames

/-! ## Tables of names -/

theorem pick_valid {names : List String} {ri : Nat} (h : ∀ s ∈ names, s ∉ invalidNames)
    (hi : ri < names.length) : pick names ri ∉ invalidNames := by
  unfold pick
  rw [List.getD_eq_getElem?_getD, List.getElem?_eq_getElem hi, Option.getD_some]
  exact h _ (List.getElem_mem hi)

theorem getD_valid {l : List String} {d : String} (n : Nat) (hl : ∀ s ∈ l, s ∉ invalidNames)
    (hd : d ∉ invalidNames) : l.getD n d ∉ invalidNames := by
  rw [List.getD_eq_getElem?_getD]
  cases h : l[n]? with
  | none => exact hd
  | some s => exact hl s (List.mem_of_getElem? h)

theorem hex_valid (v : Nat) : hex v ∉ invalidNames := by
  simp only [hex, invalidNames, List.mem_cons, List.not_mem_nil, or_false]
  rintro (h | h | h | h) <;> simpa using congrArg String.toList h

theorem gplNames_valid {size : Nat} {names : List String} (h : gplNames size = some names) :
    ∀ s ∈ names, s ∉ invalidNames := by
  unfold gplNames at h
  split at h <;> cases h <;> decide

theorem vecNames_valid {size : Nat} {names : List String} (h : vecNames size = some names) :
    ∀ s ∈ names, s ∉ invalidNames := by
  unfold vecNames at h
  split at h <;> cases h <;> decide

theorem ptrName_valid {n : Nat} {p : String} (h : ptrName n = some p) : p ∉ invalidNames := by
  unfold ptrName at h
  split at h <;> cases h <;> decide

/-! ## Named registers -/

theorem regName_of_fixed {rt ri size : Nat} {names : List String}
    (hn : fixedNames rt = some names) (hg : rt ≠ RegType.gpl) (hv : rt ≠ RegType.vec) :
    regName rt ri size = pick names ri := by
  unfold regName
  rw [if_neg hg, if_neg hv, hn]

theorem named_fixed {rt ri size : Nat} {names : List String} (hn : fixedNames rt = some names)
    (hg : rt ≠ RegType.gpl) (hv : rt ≠ RegType.vec) (hvalid : ∀ s ∈ names, s ∉ invalidNames)
    (hi : ri < names.length) : Named rt ri size := by
  rw [Named, regName_of_fixed hn hg hv]
  exact pick_valid hvalid hi

theorem named_gpl_of {ri size : Nat} {names : List String} (hn : gplNames size = some names)
    (hi : ri < names.length) : Named RegType.gpl ri size := by
  rw [Named, regName, if_pos rfl, hn]
  exact pick_valid (gplNames_valid hn) hi

theorem named_gpl {ri size : Nat} (hi : ri < 16)
    (hs : size = 1 ∨ size = 2 ∨ size = 4 ∨ size = 8) : Named RegType.gpl ri size := by
  rcases hs with rfl | rfl | rfl | rfl <;> exact named_gpl_of rfl (by simp; omega)

/-- a base register, the instruction pointer (16) included, at an address size -/
theorem named_base {ri size : Nat} (hi : ri ≤ 16) (hs : size = 2 ∨ size = 4 ∨ size = 8) :
    Named RegType.gpl ri size := by
  rcases hs with rfl | rfl | rfl <;> exact named_gpl_of rfl (by simp; omega)

theorem named_vec {ri size : Nat} (hi : ri < 16)
    (hs : size = 1 ∨ size = 2 ∨ size = 4 ∨ size = 8 ∨ size = 16 ∨ size = 32) :
    Named RegType.vec ri size := by
  have hn : ∃ names, vecNames size = some names ∧ names.length = 16 := by
    rcases hs with rfl | rfl | rfl | rfl | rfl | rfl <;> exact ⟨_, rfl, by simp⟩
  obtain ⟨names, hn, hlen⟩ := hn
  rw [Named, regName, if_neg (by decide), if_pos rfl, hn]
  exact pick_valid (vecNames_valid hn) (by omega)

theorem named_gph {ri size : Nat} (h4 : 4 ≤ ri) (h8 : ri < 8) : Named RegType.gph ri size := by
  rw [Named, regName_of_fixed rfl (by decide) (by decide)]
  have key : ∀ ri, ri < 8 → 4 ≤ ri →
      pick ["(inv)", "(inv)", "(inv)", "(inv)", "ah", "ch", "dh", "bh"] ri ∉ invalidNames := by
    decide
  exact key ri h8 h4

/-- the control registers 0, 2, 3, 4 and 8, the set bits of 0x011d -/
theorem named_cr {ri size : Nat} (hi : ri < 16) (h : (0x011d >>> ri) % 2 = 1) :
    Named RegType.cr ri size := by
  rw [Named, regName_of_fixed rfl (by decide) (by decide)]
  have key : ∀ ri, ri < 16 → (0x011d >>> ri) % 2 = 1 →
      pick ["cr0", "(inv)", "cr2", "cr3", "cr4", "(inv)", "(inv)", "(inv)", "cr8"] ri ∉
        invalidNames := by
    decide
  exact key ri hi h

theorem named_dr {ri size : Nat} (hi : ri < 8) : Named RegType.dr ri size :=
  named_fixed rfl (by decide) (by decide) (by decide) (by simpa using hi)

theorem named_seg {ri size : Nat} (hi : ri < 6) : Named RegType.seg ri size :=
  named_fixed rfl (by decide) (by decide) (by decide) (by simpa using hi)

/-- registers of a type below a bound have names at each of the sizes: general purpose
registers of one to eight bytes and vector registers of up to 32 bytes, sixteen of each; eight
x87 and eight MMX registers; six segment registers; four bound registers -/
def Nameable (rt bound : Nat) (sizes : List Nat) : Prop :=
  (rt = RegType.gpl ∧ bound ≤ 16 ∧ ∀ s ∈ sizes, s = 1 ∨ s = 2 ∨ s = 4 ∨ s = 8) ∨
  (rt = RegType.vec ∧ bound ≤ 16 ∧
    ∀ s ∈ sizes, s = 1 ∨ s = 2 ∨ s = 4 ∨ s = 8 ∨ s = 16 ∨ s = 32) ∨
  (rt = RegType.fpu ∧ bound ≤ 8) ∨ (rt = RegType.mmx ∧ bound ≤ 8) ∨
  (rt = RegType.seg ∧ bound ≤ 6) ∨ (rt = RegType.bnd ∧ bound ≤ 4)

instance (rt bound : Nat) (sizes : List Nat) : Decidable (Nameable rt bound sizes) :=
  inferInstanceAs (Decidable (_ ∨ _))

theorem Nameable.named {rt bound ri size : Nat} {sizes : List Nat} (h : Nameable rt bound sizes)
    (hi : ri < bound) (hs : size ∈ sizes) : Named rt ri size := by
  rcases h with ⟨rfl, hb, hsz⟩ | ⟨rfl, hb, hsz⟩ | ⟨rfl, hb⟩ | ⟨rfl, hb⟩ | ⟨rfl, hb⟩ | ⟨rfl, hb⟩
  · exact named_gpl (by omega) (hsz size hs)
  · exact named_vec (by omega) (hsz size hs)
  · exact named_fixed rfl (by decide) (by decide) (by decide) (by simp; omega)
  · exact named_fixed rfl (by decide) (by decide) (by decide) (by simp; omega)
  · exact named_seg (by omega)
  · exact named_fixed rfl (by decide) (by decide) (by decide) (by simp; omega)

example : Nameable RegType.seg 6 [2] ∧ ¬Nameable RegType.seg 7 [2] ∧
    ¬Nameable RegType.gpl 16 [16] := by decide

/-! ## Operands -/

/-- the registers an operand prints have names: a register at its size, or the base of a
memory operand at the address size and its index at the type and size the formatter gives it -/
def OperandNamed (t : Tables) (i : Instr) (o : Operand) : Prop :=
  (o.type = .reg → Named o.misc o.reg o.size) ∧
  (o.type = .mem → (o.reg ≠ noReg → Named RegType.gpl o.reg i.addrsz) ∧
    (o.index ≠ noReg → Named (memShape t i o.size).2.1 o.index (memShape t i o.size).2.2))

theorem dispPieces_valid (addrsz : Nat) (disp : UInt64) (hasBase hasIdx : Bool) :
    ∀ s ∈ dispPieces addrsz disp hasBase hasIdx, s ∉ invalidNames := by
  intro s hs
  simp only [dispPieces, List.mem_append] at hs
  rcases hs with hs | hs
  · split at hs
    · split at hs <;> simp only [List.mem_singleton] at hs <;> (subst hs; decide)
    · cases hs
  · simp only [List.mem_ite_nil_right, List.mem_singleton] at hs
    obtain ⟨-, rfl⟩ := hs
    exact hex_valid _

theorem memPieces_valid {t : Tables} {i : Instr} {o : Operand}
    (hb : o.reg ≠ noReg → Named RegType.gpl o.reg i.addrsz)
    (hx : o.index ≠ noReg → Named (memShape t i o.size).2.1 o.index (memShape t i o.size).2.2)
    (hseg : i.segment ≠ noReg → Named RegType.seg i.segment 2) :
    ∀ s ∈ memPieces t i o, s ∉ invalidNames := by
  intro s hs
  simp only [memPieces, List.mem_append, List.mem_ite_nil_right, List.mem_cons,
    List.not_mem_nil, or_false] at hs
  -- size, segment, bracket, base, scaled index, displacement, bracket
  rcases hs with (((((hs | ⟨hne, rfl | rfl⟩) | rfl) | ⟨hne, rfl⟩) | ⟨hne, hs⟩) | hs) | rfl
  · split at hs
    · next p hp =>
      simp only [List.mem_cons, List.not_mem_nil, or_false] at hs
      rcases hs with rfl | rfl
      · exact ptrName_valid hp
      · decide
    · cases hs
  · exact hseg hne
  · decide
  · decide
  · exact hb hne
  · rcases hs with (⟨-, rfl⟩ | rfl | rfl)
    · decide
    · exact getD_valid _ (by decide) (by decide)
    · exact hx hne
  · exact dispPieces_valid _ _ _ _ s hs
  · decide

theorem immPieces_valid (t : Tables) (i : Instr) (o : Operand) (addr : UInt64) :
    ∀ s ∈ immPieces t i o addr, s ∉ invalidNames := by
  intro s hs
  simp only [immPieces, List.mem_append, List.mem_singleton] at hs
  rcases hs with hs | rfl
  · -- the part printed before the last: a number and a separator
    split at hs <;> simp only [List.mem_cons, List.not_mem_nil, or_false] at hs <;>
      rcases hs with rfl | rfl <;> first | exact hex_valid _ | decide
  · exact hex_valid _

/-- **No marker.** An operand whose registers have names, in an instruction whose segment has
one, prints no marker. -/
theorem operandPieces_valid {t : Tables} {i : Instr} {o : Operand} (h : OperandNamed t i o)
    (hseg : i.segment ≠ noReg → Named RegType.seg i.segment 2) (addr : UInt64) :
    ∀ s ∈ operandPieces t i addr o, s ∉ invalidNames := by
  intro s hs
  unfold operandPieces at hs
  split at hs
  · next hr =>
    rw [List.mem_singleton] at hs
    subst hs
    exact h.1 hr
  · next hm => exact memPieces_valid (h.2 hm).1 (h.2 hm).2 hseg s hs
  · exact immPieces_valid t i o addr s hs
  · exact immPieces_valid t i o addr s hs
  · cases hs

end X86Codec.Decoder
