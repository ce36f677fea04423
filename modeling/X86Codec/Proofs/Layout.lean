import Mathlib.Tactic
import X86Codec.Listing.Layout
/-!
Reading fields back from a packed layout.

Fields are packed from the highest bits to the lowest, so a field's lowest bit sits at the
total width of the fields listed after it (`Field.offset`). Packing keeps the low bits of
each value, and shifting the packed value right by the offset and keeping the field's width
gives those bits back. A layout whose fields all fit their widths (`Layout.Fits`) therefore
reads back exactly.

Main statements:
- `packFields_append`: packing a list of fields is packing its front shifted over its back;
- `field_pack`: the bits of a field in the packed value are the low bits of its value;
- `field_pack_of_fits`: for a layout that fits, they are the value itself.
-/

namespace X86Codec

namespace Field

/-- the position of a field's lowest bit in a packed layout: the total width of the fields
after it -/
def offset (f : Field) : Nat := Layout.totalWidth (Field.all.dropWhile (· ≠ f)).tail

/-- the field list cut at a field: the fields before it, the field, the fields after it -/
theorem all_split (f : Field) :
    Field.all = Field.all.takeWhile (· ≠ f) ++ f :: (Field.all.dropWhile (· ≠ f)).tail := by
  have hhead : Field.all.dropWhile (· ≠ f) = f :: (Field.all.dropWhile (· ≠ f)).tail := by
    cases f <;> rfl
  conv_lhs => rw [← List.takeWhile_append_dropWhile (p := (· ≠ f)) (l := Field.all)]
  congr 1

example : offset .modrmIdx = 0 ∧ offset .immControl = 12 ∧ offset .opsize = 24 ∧
    offset .op0Regty = 32 ∧ offset .ign66 = 47 := by decide

theorem width_opSize (i : Nat) : (opSize i).width = 2 := by
  unfold opSize; split <;> rfl

theorem width_opRegty (i : Nat) : (opRegty i).width = 3 := by
  unfold opRegty; split <;> rfl

theorem opRegty_ne_opSize (i j : Nat) : opRegty i ≠ opSize j := by
  unfold opRegty opSize; split <;> split <;> simp

theorem opSize_inj : ∀ i < 4, ∀ j < 4, opSize i = opSize j → i = j := by decide

theorem opSize_cases (i : Nat) : opSize i = .op0Size ∨ opSize i = .op1Size ∨
    opSize i = .op2Size ∨ opSize i = .op3Size := by
  unfold opSize; split <;> simp

theorem opRegty_cases (i : Nat) : opRegty i = .op0Regty ∨ opRegty i = .op1Regty ∨
    opRegty i = .op2Regty := by
  unfold opRegty; split <;> simp

theorem offset_opSize : ∀ i < 4, (opSize i).offset = 16 + 2 * i := by decide

theorem offset_opRegty : ∀ i < 3, (opRegty i).offset = 32 + 3 * i := by decide

end Field

namespace Layout

/-- the step that packs one more field below the ones already packed -/
theorem foldl_pack (l : Layout) (fs : List Field) (acc : Nat) :
    fs.foldl (fun acc f => (acc <<< f.width) + lowBits f.width (l.get f)) acc =
      (acc <<< totalWidth fs) + l.packFields fs := by
  induction fs generalizing acc with
  | nil => simp [packFields, totalWidth]
  | cons f fs ih =>
    simp only [List.foldl_cons, packFields] at ih ⊢
    rw [ih, ih (0 <<< f.width + lowBits f.width (l.get f))]
    simp only [Nat.shiftLeft_eq, totalWidth, List.foldr_cons, Nat.zero_mul, Nat.zero_add,
      Nat.pow_add]
    ring

/-- **Packing splits.** The packed fields of `fs ++ gs` are those of `fs` shifted over the
width of `gs`, with those of `gs` below. -/
theorem packFields_append (l : Layout) (fs gs : List Field) :
    l.packFields (fs ++ gs) = (l.packFields fs <<< totalWidth gs) + l.packFields gs := by
  rw [packFields, List.foldl_append]
  exact foldl_pack l gs _

theorem packFields_lt (l : Layout) (fs : List Field) : l.packFields fs < 1 <<< totalWidth fs := by
  simpa [packFields] using packFields_go_lt (n := 0) l fs 0 (by decide)

theorem packFields_singleton (l : Layout) (f : Field) :
    l.packFields [f] = lowBits f.width (l.get f) := by
  simp [packFields]

/-- the bits of a field in a packed value -/
def field (v : Nat) (f : Field) : Nat := (v >>> f.offset) % (1 <<< f.width)

/-- the arithmetic behind a read: shifting `x * 2^w + y` right by `w` leaves `x` when
`y < 2^w`, and keeping `w'` bits of `x * 2^w' + y` leaves `y` when `y < 2^w'` -/
theorem shift_mod_pack (x y z w w' : Nat) (hy : y < 1 <<< w') (hz : z < 1 <<< w) :
    ((((x <<< w') + y) <<< w) + z) >>> w % (1 <<< w') = y := by
  rw [Nat.shiftLeft_eq] at hy hz
  rw [Nat.shiftRight_eq_div_pow, Nat.shiftLeft_eq, Nat.shiftLeft_eq, Nat.shiftLeft_eq,
    Nat.one_mul]
  rw [Nat.one_mul] at hy hz
  have hpos : 0 < 2 ^ w := Nat.two_pow_pos w
  rw [Nat.add_comm _ z, Nat.add_mul_div_right _ _ hpos, Nat.div_eq_of_lt hz, Nat.zero_add,
    Nat.add_comm, Nat.add_mul_mod_self_right, Nat.mod_eq_of_lt hy]

/-- **Read-back.** The bits of a field in a packed layout are the low bits of its value. -/
theorem field_pack (l : Layout) (f : Field) : field l.pack f = lowBits f.width (l.get f) := by
  have hsplit := Field.all_split f
  set before := Field.all.takeWhile (· ≠ f)
  set after := (Field.all.dropWhile (· ≠ f)).tail
  have hpack : l.pack =
      (((l.packFields before <<< f.width) + lowBits f.width (l.get f)) <<< totalWidth after) +
        l.packFields after := by
    rw [pack, hsplit, ← List.singleton_append, ← List.append_assoc, packFields_append,
      packFields_append, packFields_singleton]
    simp [totalWidth]
  rw [field, hpack]
  exact shift_mod_pack _ _ _ _ _ (lowBits_lt _ _) (packFields_lt l after)

/-- every field holds a value that fits its width -/
def Fits (l : Layout) : Prop := ∀ f, 0 ≤ l.get f ∧ l.get f < ((1 <<< f.width : Nat) : Int)

theorem lowBits_of_fits {w : Nat} {v : Int} (h0 : 0 ≤ v) (h1 : v < ((1 <<< w : Nat) : Int)) :
    lowBits w v = v.toNat := by
  rw [lowBits, Int.emod_eq_of_lt h0 h1]

/-- for a layout that fits, a field reads back as its value -/
theorem field_pack_of_fits {l : Layout} (h : l.Fits) (f : Field) :
    field l.pack f = (l.get f).toNat := by
  rw [field_pack, lowBits_of_fits (h f).1 (h f).2]

theorem one_shiftLeft_pos (w : Nat) : 0 < 1 <<< w := by
  rw [Nat.shiftLeft_eq, Nat.one_mul]
  exact Nat.two_pow_pos w

theorem zero_fits : Layout.zero.Fits := fun f =>
  ⟨le_refl 0, by simp only [zero]; exact_mod_cast one_shiftLeft_pos f.width⟩

theorem Fits.set {l : Layout} (h : l.Fits) {f : Field} {v : Int} (h0 : 0 ≤ v)
    (h1 : v < ((1 <<< f.width : Nat) : Int)) : (l.set f v).Fits := by
  intro g
  by_cases hg : g = f
  · subst hg; simpa using And.intro h0 h1
  · simpa [hg] using h g

theorem Fits.ite_set {l : Layout} (h : l.Fits) (c : Bool) {f : Field} {v : Int} (h0 : 0 ≤ v)
    (h1 : v < ((1 <<< f.width : Nat) : Int)) : (if c then l.set f v else l).Fits := by
  cases c
  · exact h
  · exact h.set h0 h1

@[simp] theorem get_ite_set (l : Layout) (c : Bool) (f g : Field) (v : Int) :
    (if c then l.set f v else l).get g = if c = true ∧ g = f then v else l.get g := by
  cases c <;> simp

end Layout

end X86Codec
