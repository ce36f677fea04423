import Mathlib.Tactic
import X86Codec.Proofs.Layout
import X86Codec.Proofs.SizeSet
import X86Codec.Listing.Descriptor
import X86Codec.Decoder.Decode
/-!
The descriptor words the generator packs are read back by the decoder as the generator meant.

The generator packs a descriptor's layout into three 16-bit words; the decoder reads each field
back with its own shift and mask (`Decoder.DescWords`). The layout of a listing descriptor
fits its widths: the encoding's role fields are small, the size fields hold positions in the
four-entry size table, and the flags are single bits. So every field reads back exactly.

The operand sizes go through one more table. The fixed sizes of the operands take the two
fixed slots of the size table (a size the second slot cannot hold comes first), the operand
size and the vector size the other two, and each operand names its slot. The decoder's table
turns the codes back into bytes: the first slot as `(1 << code) >> 1`, the second as
`1 << (code - 1)`. Both give the bytes of the size the listing wrote, except the 10 bytes of an
x87 register, which read as 0.

Main statements:
- `layout_fits`: the layout of a descriptor fits its widths;
- `reads_of_fits`: every decoder accessor reads its field from the words of such a layout;
- `descriptor_words_read_back`: for every descriptor text, the accessors give the fields the
  generator set, and every operand's size reads back as the listing's size.
-/

namespace X86Codec

/-! ## The descriptor's layout -/

namespace Encoding

theorem roles_bounds (e : Encoding) :
    e.roles.modrm ≤ 1 ∧ e.roles.modrmIdx ≤ 3 ∧ e.roles.modregIdx ≤ 3 ∧ e.roles.vexregIdx ≤ 3 ∧
      e.roles.zeroregIdx ≤ 3 ∧ e.roles.zeroregVal ≤ 1 ∧ e.roles.immIdx ≤ 3 ∧
      e.roles.immControl ≤ 7 := by
  cases e <;> decide

theorem layout_fits (e : Encoding) : e.layout.Fits := by
  obtain ⟨h1, h2, h3, h4, h5, h6, h7, h8⟩ := roles_bounds e
  unfold layout
  refine ((((((((Layout.zero_fits.set ?_ ?_).set ?_ ?_).set ?_ ?_).set ?_ ?_).set ?_ ?_).set
    ?_ ?_).set ?_ ?_).set ?_ ?_) <;> simp [Field.width] <;> omega

end Encoding

/-- a successful `mapM` relates each element to its result -/
theorem mapM_ok_forall₂ {α β ε : Type} {f : α → Except ε β} :
    ∀ {xs : List α} {ys : List β}, xs.mapM f = .ok ys → List.Forall₂ (fun x y => f x = .ok y) xs ys
  | [], ys, h => by
    simp only [List.mapM_nil, pure, Except.pure, Except.ok.injEq] at h
    subst h; exact List.Forall₂.nil
  | x :: xs, ys, h => by
    simp only [List.mapM_cons, bind, Except.bind] at h
    cases hx : f x with
    | error e => simp [hx] at h
    | ok y =>
      cases hxs : xs.mapM f with
      | error e => simp [hx, hxs] at h
      | ok ys' =>
        simp only [hx, hxs, pure, Except.pure, Except.ok.injEq] at h
        subst h
        exact List.Forall₂.cons hx (mapM_ok_forall₂ hxs)

theorem forall₂_mem_left {α β : Type} {R : α → β → Prop} {xs : List α} {ys : List β}
    (h : List.Forall₂ R xs ys) {x : α} (hx : x ∈ xs) : ∃ y ∈ ys, R x y := by
  induction h with
  | nil => simp at hx
  | cons hab _ ih =>
    rcases List.mem_cons.1 hx with rfl | hx
    · exact ⟨_, List.mem_cons_self, hab⟩
    · obtain ⟨y, hy, hr⟩ := ih hx
      exact ⟨y, List.mem_cons_of_mem _ hy, hr⟩

theorem forall₂_mem_right {α β : Type} {R : α → β → Prop} {xs : List α} {ys : List β}
    (h : List.Forall₂ R xs ys) {y : β} (hy : y ∈ ys) : ∃ x ∈ xs, R x y := by
  induction h with
  | nil => simp at hy
  | cons hab _ ih =>
    rcases List.mem_cons.1 hy with rfl | hy
    · exact ⟨_, List.mem_cons_self, hab⟩
    · obtain ⟨x, hx, hr⟩ := ih hy
      exact ⟨x, List.mem_cons_of_mem _ hx, hr⟩

namespace Descriptor

/-- the size codes: the operand size, the vector size, or a fixed size code of three bits -/
theorem sizeCode_cases {n c : Int} (h : sizeCode n = some c) :
    (n = -1 ∧ c = -2) ∨ (n = -2 ∧ c = -3) ∨ (0 ≤ c ∧ c ≤ 7) := by
  unfold sizeCode at h
  split at h <;> simp only [Option.some.injEq, reduceCtorEq] at h <;> subst h <;> simp_all

/-- a fixed size code turns back into the bytes it was made from, the 10 bytes of an x87
register apart -/
theorem bytes_of_sizeCode {n c : Int} (h : sizeCode n = some c) (hc : 0 ≤ c) :
    ((((1 <<< c.toNat) >>> 1 : Nat)) : Int) = if n = 10 then 0 else n := by
  unfold sizeCode at h
  split at h <;> simp only [Option.some.injEq, reduceCtorEq] at h <;> subst h <;> simp_all

theorem operandSizeCode_cases {k : OperandKind} {c : Int} (h : operandSizeCode k = .ok c) :
    (k.size = .op ∧ c = -2) ∨ (k.size = .vec ∧ c = -3) ∨
      (∃ n, k.size = .fixed n ∧ sizeCode n = some c ∧ 0 ≤ c ∧ c ≤ 7) := by
  unfold operandSizeCode at h
  split at h
  · rename_i c' hc
    simp only [Except.ok.injEq] at h
    subst h
    rcases sizeCode_cases hc with ⟨hn, rfl⟩ | ⟨hn, rfl⟩ | ⟨h0, h7⟩
    · left
      cases hk : k.size <;> simp_all [OperandSize.code]
    · right; left
      cases hk : k.size <;> simp_all [OperandSize.code]
    · right; right
      cases hk : k.size with
      | fixed n => exact ⟨n, rfl, by simpa [hk, OperandSize.code] using hc, h0, h7⟩
      | op => simp [hk, OperandSize.code, sizeCode] at hc; omega
      | vec => simp [hk, OperandSize.code, sizeCode] at hc; omega
  · cases h

/-! ### The size table -/

/-- the size table a descriptor's layout is built with -/
def sizeTableOf (codes : List Int) : List Int := (fixedSizes codes ++ [1, 1]).take 2 ++ [-2, -3]

/-- the size table of a layout: two fixed slots, then the operand size and the vector size;
the second slot holds a size of 1 to 8 bytes -/
structure SizeTable (sizes : List Int) (s0 s1 : Int) : Prop where
  shape : sizes = [s0, s1, -2, -3]
  first : 0 ≤ s0 ∧ s0 ≤ 7
  second : 1 ≤ s1 ∧ s1 ≤ 4

/-- **The size table.** When the fixed sizes pass the generator's check, the table has two
fixed slots and every operand's size code is in one of the four slots. -/
theorem sizeTable_of_codes (codes : List Int) (hlen : codes.length ≤ 8)
    (hrange : ∀ c ∈ codes, c = -2 ∨ c = -3 ∨ (0 ≤ c ∧ c ≤ 7))
    (hcheck : ¬ ((fixedSizes codes).length > 2 ∨
      ((fixedSizes codes).length = 2 ∧ narrow ((fixedSizes codes).getD 1 0) = false))) :
    ∃ s0 s1, SizeTable (sizeTableOf codes) s0 s1 ∧
      ∀ c ∈ codes, c = -2 ∨ c = -3 ∨ (0 ≤ c ∧ (c = s0 ∨ c = s1)) := by
  -- a nonnegative code is one of the fixed sizes, which are the nonnegative codes
  have hfixed : ∀ c, c ∈ fixedSizes codes ↔ c ∈ codes ∧ 0 ≤ c := by
    intro c
    simp only [fixedSizes, List.mem_append, List.mem_filter, SizeSet.mem_ofList codes hlen]
    cases narrow c <;> simp [and_comm]
  have hbound : ∀ c ∈ fixedSizes codes, 0 ≤ c ∧ c ≤ 7 := by
    intro c hc
    obtain ⟨hc, h0⟩ := (hfixed c).1 hc
    rcases hrange c hc with rfl | rfl | h <;> omega
  have hcodes : ∀ c ∈ codes, c = -2 ∨ c = -3 ∨ (0 ≤ c ∧ c ∈ fixedSizes codes) := by
    intro c hc
    rcases hrange c hc with h | h | ⟨h0, -⟩
    · exact Or.inl h
    · exact Or.inr (Or.inl h)
    · exact Or.inr (Or.inr ⟨h0, (hfixed c).2 ⟨hc, h0⟩⟩)
  unfold sizeTableOf
  generalize fixedSizes codes = fixed at hcheck hbound hcodes
  match fixed, hcheck, hbound, hcodes with
  | [], _, _, hcodes =>
    refine ⟨1, 1, ⟨rfl, by omega, by omega⟩, fun c hc => ?_⟩
    rcases hcodes c hc with h | h | ⟨-, h⟩ <;> simp_all
  | [a], _, hbound, hcodes =>
    refine ⟨a, 1, ⟨rfl, hbound a (by simp), by omega⟩, fun c hc => ?_⟩
    rcases hcodes c hc with h | h | ⟨h0, h⟩ <;> simp_all
  | [a, b], hcheck, hbound, hcodes =>
    have hb : narrow b = true := by simpa using hcheck
    simp only [narrow, Bool.and_eq_true, decide_eq_true_eq] at hb
    refine ⟨a, b, ⟨rfl, hbound a (by simp), hb⟩, fun c hc => ?_⟩
    rcases hcodes c hc with h | h | ⟨h0, h⟩ <;> simp_all
  | _ :: _ :: _ :: _, hcheck, _, _ => simp at hcheck

theorem firstIndex_lt_of_mem {α : Type} [BEq α] [LawfulBEq α] {a : α} :
    ∀ {xs : List α}, a ∈ xs → firstIndex xs a < xs.length
  | [], h => by simp at h
  | x :: xs, h => by
    unfold firstIndex
    by_cases hx : (x == a) = true
    · simp [hx]
    · have ha : a ∈ xs := by
        rcases List.mem_cons.1 h with rfl | h
        · simp at hx
        · exact h
      simp only [hx, Bool.false_eq_true, ↓reduceIte, List.length_cons]
      exact Nat.succ_lt_succ (firstIndex_lt_of_mem ha)

theorem getD_firstIndex {α : Type} [BEq α] [LawfulBEq α] {a d : α} :
    ∀ {xs : List α}, a ∈ xs → xs.getD (firstIndex xs a) d = a
  | [], h => by simp at h
  | x :: xs, h => by
    unfold firstIndex
    by_cases hx : (x == a) = true
    · simpa [hx] using (beq_iff_eq.1 hx)
    · have ha : a ∈ xs := by
        rcases List.mem_cons.1 h with rfl | h
        · simp at hx
        · exact h
      simp only [hx, Bool.false_eq_true, ↓reduceIte, List.getD_cons_succ]
      exact getD_firstIndex ha

/-- what a successful layout is made of: the encoding, the size codes, the operand fields
over the size slots, the flags and the one-byte immediate -/
theorem layout_eq_ok {d : Descriptor} {a b : Bool} {l : Layout} (h : d.layout a b = .ok l) :
    ∃ enc codes l₁ w, Encoding.lookup d.encoding = .ok enc ∧
      d.operands.mapM operandSizeCode = .ok codes ∧
      ¬ ((fixedSizes codes).length > 2 ∨
        ((fixedSizes codes).length = 2 ∧ narrow ((fixedSizes codes).getD 1 0) = false)) ∧
      operandFields (sizeTableOf codes) d.operands.zipIdx
        ((enc.layout.set .sizeFix1 ((sizeTableOf codes).getD 0 0)).set .sizeFix2
          ((sizeTableOf codes).getD 1 0 - 1)) = .ok l₁ ∧
      d.immWidth (some (if d.has "SIZE_8" then 1 else 8)) = .ok w ∧
      l = if w = 1 then (d.flagFields a b l₁).set .immControl (enc.roles.immControl ||| 1 : Nat)
        else d.flagFields a b l₁ := by
  unfold layout at h
  cases henc : Encoding.lookup d.encoding with
  | error e => simp [henc, bind, Except.bind] at h
  | ok enc =>
    cases hcodes : d.operands.mapM operandSizeCode with
    | error e => simp [henc, hcodes, bind, Except.bind] at h
    | ok codes =>
      simp only [henc, hcodes, bind, Except.bind] at h
      split at h
      · simp [throw, throwThe, MonadExceptOf.throw] at h
      · rename_i hcheck
        split at h
        · cases h
        · rename_i l₁ hl₁
          split at h
          · cases h
          · rename_i w hw
            refine ⟨enc, codes, l₁, w, rfl, rfl, by simpa using hcheck, hl₁, hw, ?_⟩
            split at h <;> simp_all [pure, Except.pure]

/-! ### The operand fields -/

theorem decodeClass_le (c : OperandClass) : decodeClass c ≤ 7 := by cases c <;> decide

variable {sizes : List Int}

theorem operandFields_fits :
    ∀ {ks : List OperandKind} {n : Nat} {l l' : Layout},
      (∀ k ∈ ks, ∀ c, operandSizeCode k = .ok c → firstIndex sizes c < 4) →
      l.Fits → operandFields sizes (ks.zipIdx n) l = .ok l' → l'.Fits
  | [], n, l, l', _, hl, h => by
    simp only [List.zipIdx_nil, operandFields, Except.ok.injEq] at h
    exact h ▸ hl
  | k :: ks, n, l, l', hfound, hl, h => by
    simp only [List.zipIdx_cons, operandFields, bind, Except.bind] at h
    cases hc : operandSizeCode k with
    | error e => simp [hc] at h
    | ok c =>
      simp only [hc] at h
      have hrest : ∀ k ∈ ks, ∀ c, operandSizeCode k = .ok c → firstIndex sizes c < 4 :=
        fun k' hk' => hfound k' (List.mem_cons_of_mem _ hk')
      have hl₁ : (l.set (Field.opSize n) (firstIndex sizes c)).Fits :=
        hl.set (Int.natCast_nonneg _) (by
          rw [Field.width_opSize]; exact_mod_cast hfound k List.mem_cons_self c hc)
      split at h
      · refine operandFields_fits hrest (hl₁.set (Int.natCast_nonneg _) ?_) h
        rw [Field.width_opRegty]
        have := decodeClass_le k.cls
        exact_mod_cast (show decodeClass k.cls < 1 <<< 3 by simp only [Nat.reduceShiftLeft]; omega)
      · split at h
        · simp [throw, throwThe, MonadExceptOf.throw] at h
        · exact operandFields_fits hrest hl₁ h

/-- the operand fields change only the size choices of their own positions and the register
classes -/
theorem operandFields_get_of_ne :
    ∀ {ks : List OperandKind} {n : Nat} {l l' : Layout},
      operandFields sizes (ks.zipIdx n) l = .ok l' → ∀ g : Field,
      (∀ i, n ≤ i → i < n + ks.length → g ≠ Field.opSize i) → (∀ i, g ≠ Field.opRegty i) →
      l'.get g = l.get g
  | [], n, l, l', h, g, _, _ => by
    simp only [List.zipIdx_nil, operandFields, Except.ok.injEq] at h
    rw [h]
  | k :: ks, n, l, l', h, g, hsize, hregty => by
    simp only [List.zipIdx_cons, operandFields, bind, Except.bind] at h
    cases hc : operandSizeCode k with
    | error e => simp [hc] at h
    | ok c =>
      simp only [hc] at h
      have hrest : ∀ i, n + 1 ≤ i → i < n + 1 + ks.length → g ≠ Field.opSize i :=
        fun i h1 h2 => hsize i (by omega) (by simp; omega)
      have hn : g ≠ Field.opSize n := hsize n (le_refl n) (by simp)
      split at h
      · rw [operandFields_get_of_ne h g hrest hregty]
        simp [hregty n, hn]
      · split at h
        · simp [throw, throwThe, MonadExceptOf.throw] at h
        · rw [operandFields_get_of_ne h g hrest hregty]
          simp [hn]

/-- each operand's size choice is the slot of its size code -/
theorem operandFields_get_opSize :
    ∀ {ks : List OperandKind} {n : Nat} {l l' : Layout},
      operandFields sizes (ks.zipIdx n) l = .ok l' → n + ks.length ≤ 4 →
      ∀ j (hj : j < ks.length), ∃ c, operandSizeCode ks[j] = .ok c ∧
        l'.get (Field.opSize (n + j)) = firstIndex sizes c
  | [], _, _, _, _, _, j, hj => absurd hj (by simp)
  | k :: ks, n, l, l', h, hlen, j, hj => by
    simp only [List.zipIdx_cons, operandFields, bind, Except.bind] at h
    simp only [List.length_cons] at hlen hj
    cases hc : operandSizeCode k with
    | error e => simp [hc] at h
    | ok c =>
      simp only [hc] at h
      -- the rest of the operands set the size choices of the later positions only
      have hkeep : ∀ {l₁ : Layout}, operandFields sizes (ks.zipIdx (n + 1)) l₁ = .ok l' →
          l'.get (Field.opSize n) = l₁.get (Field.opSize n) := by
        intro l₁ h₁
        refine operandFields_get_of_ne h₁ _ (fun i h1 h2 heq => ?_)
          (fun i heq => Field.opRegty_ne_opSize i n heq.symm)
        have := Field.opSize_inj n (by omega) i (by omega) heq
        omega
      have hnext : ∀ {l₁ : Layout}, l₁.get (Field.opSize n) = firstIndex sizes c →
          operandFields sizes (ks.zipIdx (n + 1)) l₁ = .ok l' →
          ∃ c, operandSizeCode (k :: ks)[j] = .ok c ∧
            l'.get (Field.opSize (n + j)) = firstIndex sizes c := by
        intro l₁ hget₁ h₁
        cases j with
        | zero => exact ⟨c, hc, by rw [Nat.add_zero, hkeep h₁, hget₁]⟩
        | succ j =>
          obtain ⟨c', hc', hget⟩ := operandFields_get_opSize h₁ (by omega) j (by omega)
          exact ⟨c', hc', by rw [← hget]; congr 2; omega⟩
      split at h
      · exact hnext (by simp [(Field.opRegty_ne_opSize n n).symm]) h
      · split at h
        · simp [throw, throwThe, MonadExceptOf.throw] at h
        · exact hnext (by simp) h

/-! ### The flags -/

theorem flagFields_fits (d : Descriptor) (a b : Bool) {l : Layout} (h : l.Fits) :
    (d.flagFields a b l).Fits := by
  unfold flagFields
  exact ((((((((h.ite_set _ (by decide) (by decide)).ite_set _ (by decide) (by decide)).ite_set _
    (by decide) (by decide)).ite_set _ (by decide) (by decide)).ite_set _ (by decide)
    (by decide)).ite_set _ (by decide) (by decide)).ite_set _ (by decide) (by decide)).ite_set _
    (by decide) (by decide))

theorem flagFields_get (d : Descriptor) (a b : Bool) (l : Layout) (g : Field)
    (hg : g ≠ .opsize ∧ g ≠ .instrWidth ∧ g ≠ .lock ∧ g ≠ .vsib ∧ g ≠ .modrm ∧ g ≠ .ign66) :
    (d.flagFields a b l).get g = l.get g := by
  obtain ⟨h1, h2, h3, h4, h5, h6⟩ := hg
  simp only [flagFields, Layout.get_ite_set, h1, h2, h3, h4, h5, h6, and_false, ↓reduceIte]

/-! ### The whole layout -/

/-- the layout before the operand fields: the encoding's roles and the two fixed sizes, with
every operand's size code in one of the four slots -/
theorem layout_base {d : Descriptor} {a b : Bool} {l : Layout} (h : d.layout a b = .ok l)
    (hlen : d.operands.length ≤ 4) :
    ∃ (enc : Encoding) (s0 s1 : Int) (l₀ l₁ : Layout) (w : Int), l₀.Fits ∧
      l₀.get .sizeFix1 = s0 ∧ l₀.get .sizeFix2 = s1 - 1 ∧ 0 ≤ s0 ∧ 1 ≤ s1 ∧ s1 ≤ 4 ∧
      (∀ k ∈ d.operands, ∀ c, operandSizeCode k = .ok c →
        c = -2 ∨ c = -3 ∨ (0 ≤ c ∧ (c = s0 ∨ c = s1))) ∧
      operandFields [s0, s1, -2, -3] d.operands.zipIdx l₀ = .ok l₁ ∧
      l = if w = 1 then (d.flagFields a b l₁).set .immControl (enc.roles.immControl ||| 1 : Nat)
        else d.flagFields a b l₁ := by
  obtain ⟨enc, codes, l₁, w, -, hcodes, hcheck, hl₁, -, hl⟩ := layout_eq_ok h
  have hrel := mapM_ok_forall₂ hcodes
  have hrange : ∀ c ∈ codes, c = -2 ∨ c = -3 ∨ (0 ≤ c ∧ c ≤ 7) := by
    intro c hc
    obtain ⟨k, -, hk⟩ := forall₂_mem_right hrel hc
    rcases operandSizeCode_cases hk with ⟨-, rfl⟩ | ⟨-, rfl⟩ | ⟨-, -, -, h0, h7⟩ <;> omega
  obtain ⟨s0, s1, ⟨hshape, hs0, hs1⟩, hslot⟩ :=
    sizeTable_of_codes codes (by rw [← hrel.length_eq]; omega) hrange hcheck
  rw [hshape] at hl₁
  refine ⟨enc, s0, s1, _, l₁, w, ?_, by simp, by simp, hs0.1, hs1.1, hs1.2, ?_, hl₁, hl⟩
  · refine (enc.layout_fits.set ?_ ?_).set ?_ ?_ <;> simp [Field.width] <;> omega
  · intro k hk c hc
    obtain ⟨c', hc', hkc'⟩ := forall₂_mem_left hrel hk
    rw [hc] at hkc'
    cases hkc'
    exact hslot c hc'

/-- the size choices a slot table of two fixed slots gives -/
theorem firstIndex_slots {s0 s1 c : Int} (h0 : 0 ≤ s0) (h1 : 0 ≤ s1) :
    firstIndex [s0, s1, -2, -3] c =
      if c = s0 then 0 else if c = s1 then 1 else if c = -2 then 2 else if c = -3 then 3 else 4 := by
  simp only [firstIndex, beq_iff_eq]
  split_ifs <;> omega

theorem firstIndex_slots_lt {s0 s1 c : Int} (h0 : 0 ≤ s0) (h1 : 0 ≤ s1)
    (hc : c = -2 ∨ c = -3 ∨ (0 ≤ c ∧ (c = s0 ∨ c = s1))) : firstIndex [s0, s1, -2, -3] c < 4 := by
  rw [firstIndex_slots h0 h1]
  split_ifs <;> omega

/-- **The layout fits.** Every field of a descriptor's layout fits its width. -/
theorem layout_fits {d : Descriptor} {a b : Bool} {l : Layout} (h : d.layout a b = .ok l)
    (hlen : d.operands.length ≤ 4) : l.Fits := by
  obtain ⟨enc, s0, s1, l₀, l₁, w, hl₀, -, -, hs0, hs1, -, hslot, hl₁, rfl⟩ := layout_base h hlen
  have hfits₁ : l₁.Fits :=
    operandFields_fits (fun k hk c hc => firstIndex_slots_lt hs0 (by omega) (hslot k hk c hc))
      hl₀ hl₁
  have hflags := flagFields_fits d a b hfits₁
  split
  · refine hflags.set (Int.natCast_nonneg _) ?_
    have hctl := (Encoding.roles_bounds enc).2.2.2.2.2.2.2
    have hor : enc.roles.immControl ||| 1 < 2 ^ 3 :=
      Nat.or_lt_two_pow (by omega) (by decide)
    simp only [Field.width]
    exact_mod_cast hor
  · exact hflags

/-- the size fields of a layout for the operands \x60ks\x60: two fixed slots, the second
holding a size of one to eight bytes, and each operand choosing the slot of its size code -/
structure SizeSlots (l : Layout) (ks : List OperandKind) : Prop where
  fix1 : 0 ≤ l.get .sizeFix1
  fix2 : 0 ≤ l.get .sizeFix2 ∧ l.get .sizeFix2 ≤ 3
  slot : ∀ j (hj : j < ks.length), ∃ code, operandSizeCode ks[j] = .ok code ∧
    l.get (Field.opSize j) = firstIndex [l.get .sizeFix1, l.get .sizeFix2 + 1, -2, -3] code ∧
    (code = -2 ∨ code = -3 ∨
      (0 ≤ code ∧ (code = l.get .sizeFix1 ∨ code = l.get .sizeFix2 + 1)))

/-- the fields the flags and the immediate leave alone -/
theorem layout_get_of_ne {d : Descriptor} {a b : Bool} {enc : Encoding} {l₁ : Layout} {w : Int}
    (g : Field) (hg : g ≠ .opsize ∧ g ≠ .instrWidth ∧ g ≠ .lock ∧ g ≠ .vsib ∧ g ≠ .modrm ∧
      g ≠ .ign66 ∧ g ≠ .immControl) :
    (if w = 1 then (d.flagFields a b l₁).set .immControl (enc.roles.immControl ||| 1 : Nat)
      else d.flagFields a b l₁).get g = l₁.get g := by
  obtain ⟨h1, h2, h3, h4, h5, h6, h7⟩ := hg
  split <;> simp [h7, flagFields_get d a b l₁ g ⟨h1, h2, h3, h4, h5, h6⟩]

/-- **The size slots.** Every operand of a descriptor's layout chooses the slot of its size
code, and the fixed slots hold the fixed sizes. -/
theorem layout_sizeSlots {d : Descriptor} {a b : Bool} {l : Layout} (h : d.layout a b = .ok l)
    (hlen : d.operands.length ≤ 4) : SizeSlots l d.operands := by
  obtain ⟨enc, s0, s1, l₀, l₁, w, -, hfix1, hfix2, hs0, hs1, hs1', hslot, hl₁, rfl⟩ :=
    layout_base h hlen
  -- the fixed size fields are no operand fields, so the operands leave them alone
  have hkeep : ∀ g, (∀ i, g ≠ Field.opSize i) → (∀ i, g ≠ Field.opRegty i) →
      l₁.get g = l₀.get g :=
    fun g hs hr => operandFields_get_of_ne hl₁ g (fun i _ _ => hs i) hr
  have h1 : l₁.get .sizeFix1 = s0 := by
    rw [hkeep _ (fun i => by rcases Field.opSize_cases i with h | h | h | h <;> simp [h])
      (fun i => by rcases Field.opRegty_cases i with h | h | h <;> simp [h]), hfix1]
  have h2 : l₁.get .sizeFix2 = s1 - 1 := by
    rw [hkeep _ (fun i => by rcases Field.opSize_cases i with h | h | h | h <;> simp [h])
      (fun i => by rcases Field.opRegty_cases i with h | h | h <;> simp [h]), hfix2]
  set l := if w = 1 then (d.flagFields a b l₁).set .immControl (enc.roles.immControl ||| 1 : Nat)
    else d.flagFields a b l₁ with hl
  have e1 : l.get .sizeFix1 = s0 := by rw [hl, layout_get_of_ne .sizeFix1 (by simp), h1]
  have e2 : l.get .sizeFix2 + 1 = s1 := by
    rw [hl, layout_get_of_ne .sizeFix2 (by simp), h2, sub_add_cancel]
  refine ⟨by omega, by omega, fun j hj => ?_⟩
  obtain ⟨c, hc, hget⟩ := operandFields_get_opSize hl₁ (by omega) j hj
  refine ⟨c, hc, ?_, ?_⟩
  · rw [e1, e2, hl, layout_get_of_ne (Field.opSize j)
      (by rcases Field.opSize_cases j with h | h | h | h <;> simp [h]), ← hget, Nat.zero_add]
  · rw [e1, e2]
    exact hslot _ (List.getElem_mem hj) c hc

end Descriptor

/-! ## Reading the words back -/

/-- a window of a 16-bit word: shifting the word right by \x60s\x60 and keeping \x60w\x60 bits reads
the bits from \x60a + s\x60 of the value the word was cut from at \x60a\x60, when the window ends
inside the word -/
theorem read_window (v a s w : Nat) (h : s + w ≤ 16) :
    (Word.low 16 (v >>> a) >>> s) % (1 <<< w) = (v >>> (a + s)) % (1 <<< w) := by
  unfold Word.low
  rw [Nat.shiftRight_add]
  generalize v >>> a = x
  simp only [Nat.shiftRight_eq_div_pow, Nat.shiftLeft_eq, Nat.one_mul]
  have hsplit : 2 ^ 16 = 2 ^ s * 2 ^ (16 - s) := by rw [← Nat.pow_add]; congr 1; omega
  rw [hsplit, Nat.mod_mul_right_div_self, Nat.mod_mod_of_dvd _ (Nat.pow_dvd_pow 2 (by omega))]

/-- a field read from the word cut at \x60a\x60 with the accessor's shift \x60s\x60 and mask \x60m\x60 -/
theorem read_word {l : Layout} (hl : l.Fits) (f : Field) (a s m : Nat)
    (hoff : a + s = f.offset) (hm : 1 <<< f.width = m) (hw : s + f.width ≤ 16) :
    (Word.low 16 (l.pack >>> a) >>> s) % m = (l.get f).toNat := by
  rw [← hm, read_window _ _ _ _ hw, hoff]
  exact Layout.field_pack_of_fits hl f

theorem read_word_zero {l : Layout} (hl : l.Fits) (f : Field) (s m : Nat)
    (hoff : s = f.offset) (hm : 1 <<< f.width = m) (hw : s + f.width ≤ 16) :
    (Word.low 16 l.pack >>> s) % m = (l.get f).toNat := by
  have h := read_word hl f 0 s m (by omega) hm hw
  rwa [Nat.shiftRight_zero] at h

theorem xor_three : ∀ x < 4, 3 - x = x ^^^ 3 := by decide

namespace Decoder.DescWords

/-- the decoder's accessors read the fields of a layout: a position field is nonzero when
the operand is there and names position \x60field ^^^ 3\x60, a flag reads as the bit being one,
and the other fields read as their values -/
structure Reads (D : DescWords) (l : Layout) : Prop where
  hasModrm : D.hasModrm = decide (l.get .modrmIdx ≠ 0)
  modrmIdx : (D.modrmIdx : Nat) = (l.get .modrmIdx).toNat ^^^ 3
  hasModreg : D.hasModreg = decide (l.get .modregIdx ≠ 0)
  modregIdx : (D.modregIdx : Nat) = (l.get .modregIdx).toNat ^^^ 3
  hasVexreg : D.hasVexreg = decide (l.get .vexregIdx ≠ 0)
  vexregIdx : (D.vexregIdx : Nat) = (l.get .vexregIdx).toNat ^^^ 3
  hasImplicit : D.hasImplicit = decide (l.get .zeroregIdx ≠ 0)
  implicitIdx : (D.implicitIdx : Nat) = (l.get .zeroregIdx).toNat ^^^ 3
  immIdx : (D.immIdx : Nat) = (l.get .immIdx).toNat ^^^ 3
  implicitVal : D.implicitVal = (l.get .zeroregVal).toNat
  lockable : D.lockable = decide (l.get .lock = 1)
  immControl : D.immControl = (l.get .immControl).toNat
  vsib : D.vsib = decide (l.get .vsib = 1)
  opsize : D.opsize = (l.get .opsize).toNat
  sizeFix1 : D.sizeFix1 = (l.get .sizeFix1).toNat
  sizeFix2 : D.sizeFix2 = (l.get .sizeFix2).toNat
  instrWidth : D.instrWidth = decide (l.get .instrWidth = 1)
  sizeChoice : ∀ i < 4, D.sizeChoice i = (l.get (Field.opSize i)).toNat
  regTypeField : ∀ i < 3, D.regTypeField i = (l.get (Field.opRegty i)).toNat
  modrm : D.modrm = decide (l.get .modrm = 1)
  ign66 : D.ign66 = decide (l.get .ign66 = 1)

variable {l : Layout}

theorem has_slot {w s : Nat} {f : Field} (hl : l.Fits) (h : (w >>> s) % 4 = (l.get f).toNat) :
    decide (slotField w s ≠ 0) = decide (l.get f ≠ 0) := by
  have := (hl f).1
  simp only [slotField, h, decide_eq_decide]
  omega

theorem slotAt_val {w s : Nat} {f : Field} (h : (w >>> s) % 4 = (l.get f).toNat) :
    (slotAt w s : Nat) = (l.get f).toNat ^^^ 3 := by
  have hlt : (w >>> s) % 4 < 4 := Nat.mod_lt _ (by decide)
  simp only [slotAt, slotField]
  rw [← h]
  exact xor_three _ hlt

theorem bit_read {w s : Nat} {f : Field} (hl : l.Fits) (h : (w >>> s) % 2 = (l.get f).toNat) :
    decide ((w >>> s) % 2 = 1) = decide (l.get f = 1) := by
  have := (hl f).1
  simp only [h, decide_eq_decide]
  omega

/-- **Read-back.** The decoder's accessors, applied to the three words of a layout that fits,
read the layout's fields. -/
theorem reads_of_fits (hl : l.Fits) (ty : Nat) :
    (DescWords.mk ty (Word.low 16 l.pack) (Word.low 16 (l.pack >>> 16))
      (Word.low 16 (l.pack >>> 32))).Reads l where
  hasModrm := has_slot hl (read_word_zero hl .modrmIdx 0 4 (by decide) rfl (by decide))
  modrmIdx := slotAt_val (read_word_zero hl .modrmIdx 0 4 (by decide) rfl (by decide))
  hasModreg := has_slot hl (read_word_zero hl .modregIdx 2 4 (by decide) rfl (by decide))
  modregIdx := slotAt_val (read_word_zero hl .modregIdx 2 4 (by decide) rfl (by decide))
  hasVexreg := has_slot hl (read_word_zero hl .vexregIdx 4 4 (by decide) rfl (by decide))
  vexregIdx := slotAt_val (read_word_zero hl .vexregIdx 4 4 (by decide) rfl (by decide))
  hasImplicit := has_slot hl (read_word_zero hl .zeroregIdx 6 4 (by decide) rfl (by decide))
  implicitIdx := slotAt_val (read_word_zero hl .zeroregIdx 6 4 (by decide) rfl (by decide))
  immIdx := slotAt_val (read_word_zero hl .immIdx 8 4 (by decide) rfl (by decide))
  implicitVal := read_word_zero hl .zeroregVal 10 2 (by decide) rfl (by decide)
  lockable := bit_read hl (read_word_zero hl .lock 11 2 (by decide) rfl (by decide))
  immControl := read_word_zero hl .immControl 12 8 (by decide) rfl (by decide)
  vsib := bit_read hl (read_word_zero hl .vsib 15 2 (by decide) rfl (by decide))
  opsize := read_word hl .opsize 16 8 4 (by decide) rfl (by decide)
  sizeFix1 := read_word hl .sizeFix1 16 10 8 (by decide) rfl (by decide)
  sizeFix2 := read_word hl .sizeFix2 16 13 4 (by decide) rfl (by decide)
  instrWidth := bit_read hl (read_word hl .instrWidth 16 15 2 (by decide) rfl (by decide))
  sizeChoice i hi := read_word hl (Field.opSize i) 16 (2 * i) 4 (Field.offset_opSize i hi).symm
    (by rw [Field.width_opSize]; rfl) (by rw [Field.width_opSize]; omega)
  regTypeField i hi := read_word hl (Field.opRegty i) 32 (3 * i) 8 (Field.offset_opRegty i hi).symm
    (by rw [Field.width_opRegty]; rfl) (by rw [Field.width_opRegty]; omega)
  modrm := bit_read hl (read_word hl .modrm 32 14 2 (by decide) rfl (by decide))
  ign66 := bit_read hl (read_word hl .ign66 32 15 2 (by decide) rfl (by decide))

end Decoder.DescWords

/-! ## Operand sizes -/

namespace Descriptor

/-- a parsed descriptor has at most four operands -/
theorem parse_operands_length {s : String} {d : Descriptor} (h : parse s = .ok d) :
    d.operands.length ≤ 4 := by
  unfold parse at h
  simp only [bind, Except.bind] at h
  split at h
  · cases h
  · rename_i ops hops
    split at h
    · simp only [pure, Except.pure, Except.ok.injEq] at h
      subst h
      calc ops.length = _ := (mapM_ok_forall₂ hops).length_eq.symm
        _ ≤ _ := List.length_filter_le _ _
        _ ≤ 4 := List.length_take_le _ _
    · simp [throw, throwThe, MonadExceptOf.throw] at h

theorem shiftLeft_pred (m : Nat) (h : 1 ≤ m) : 1 <<< (m - 1) = (1 <<< m) >>> 1 := by
  obtain ⟨k, rfl⟩ : ∃ k, m = k + 1 := ⟨m - 1, by omega⟩
  simp [Nat.shiftLeft_eq, Nat.shiftRight_eq_div_pow, Nat.pow_succ]

/-- **Operand sizes.** At the slot an operand chose, the decoder's size table holds the
operand's size in bytes, the 10 bytes of an x87 register as 0. -/
theorem sizeTable_slot (c : Decoder.Context) (k : OperandKind) {code s0 s1 : Int}
    (hk : operandSizeCode k = .ok code) (hs0 : 0 ≤ s0) (hs1 : 1 ≤ s1)
    (hin : code = -2 ∨ code = -3 ∨ (0 ≤ code ∧ (code = s0 ∨ code = s1)))
    (hfix1 : c.desc.sizeFix1 = s0.toNat) (hfix2 : c.desc.sizeFix2 = (s1 - 1).toNat)
    (hop : (c.opSize : Int) ≠ 10) (hvec : (c.vecSize : Int) ≠ 10) :
    ∃ n, k.absSize (some c.opSize) (some c.vecSize) = .ok n ∧
      (Decoder.sizeTable c (firstIndex [s0, s1, -2, -3] code) : Int) =
        if n = 10 then 0 else n := by
  rw [firstIndex_slots hs0 (by omega)]
  rcases operandSizeCode_cases hk with ⟨hsize, rfl⟩ | ⟨hsize, rfl⟩ | ⟨n, hsize, hn, h0, -⟩
  · -- the operand size: the third slot
    refine ⟨c.opSize, by simp [OperandKind.absSize, hsize], ?_⟩
    have h2s0 : ¬ (-2 : Int) = s0 := by omega
    have h2s1 : ¬ (-2 : Int) = s1 := by omega
    simp [Decoder.sizeTable, h2s0, h2s1, hop]
  · -- the vector size: the fourth slot
    refine ⟨c.vecSize, by simp [OperandKind.absSize, hsize], ?_⟩
    have h3s0 : ¬ (-3 : Int) = s0 := by omega
    have h3s1 : ¬ (-3 : Int) = s1 := by omega
    simp [Decoder.sizeTable, h3s0, h3s1, hvec]
  · -- a fixed size: the first slot, or else the second
    refine ⟨n, by simp [OperandKind.absSize, hsize], ?_⟩
    rw [← bytes_of_sizeCode hn h0]
    by_cases hc0 : code = s0
    · simp [Decoder.sizeTable, hc0, hfix1]
    · have hc1 : code = s1 := by omega
      subst hc1
      have hshift := shiftLeft_pred code.toNat (by omega)
      simp only [hc0, ↓reduceIte, Decoder.sizeTable, hfix2]
      rw [show (code - 1).toNat = code.toNat - 1 by omega, hshift]

end Descriptor

/-- **Descriptor words read back.** For every descriptor text whose words the generator
computes, the decoder's accessors read the fields of the layout it packed; and for an operand
size of 1, 2, 4 or 8 bytes and a vector size of 16 or 32 bytes, the decoder's size table at
each operand's size choice holds the operand's size in bytes (the 10 bytes of an x87
register as 0). -/
theorem descriptor_words_read_back (s : String) (ign66 modrm : Bool) (w0 w1 w2 ty : Nat)
    (h : (Descriptor.parse s >>= fun d => d.words ign66 modrm) = .ok (w0, w1, w2)) :
    ∃ d l, Descriptor.parse s = .ok d ∧ d.layout ign66 modrm = .ok l ∧
      (Decoder.DescWords.mk ty w0 w1 w2).Reads l ∧
      ∀ c : Decoder.Context, c.desc = ⟨ty, w0, w1, w2⟩ → c.opSize ∈ [1, 2, 4, 8] →
        c.vecSize ∈ [16, 32] → ∀ i (hi : i < d.operands.length),
        ∃ n, d.operands[i].absSize (some c.opSize) (some c.vecSize) = .ok n ∧
          (Decoder.sizeTable c (c.desc.sizeChoice i) : Int) = if n = 10 then 0 else n := by
  cases hp : Descriptor.parse s with
  | error e => simp [hp, bind, Except.bind] at h
  | ok d =>
    cases hl : d.layout ign66 modrm with
    | error e => simp [hp, hl, bind, Except.bind, Descriptor.words] at h
    | ok l =>
      simp only [hp, hl, bind, Except.bind, Descriptor.words, pure, Except.pure,
        Except.ok.injEq, Prod.mk.injEq] at h
      obtain ⟨rfl, rfl, rfl⟩ := h
      have hlen := Descriptor.parse_operands_length hp
      have hreads := Decoder.DescWords.reads_of_fits (Descriptor.layout_fits hl hlen) ty
      refine ⟨d, l, rfl, hl, hreads, fun c hc hop hvec i hi => ?_⟩
      have hslots := Descriptor.layout_sizeSlots hl hlen
      obtain ⟨code, hcode, hget, hin⟩ := hslots.slot i hi
      have hfix2 := hslots.fix2
      rw [hc, hreads.sizeChoice i (by omega), hget, Int.toNat_natCast]
      refine Descriptor.sizeTable_slot c _ hcode hslots.fix1 (by omega) hin ?_ ?_ ?_ ?_
      · rw [hc]; exact hreads.sizeFix1
      · rw [hc, hreads.sizeFix2]; congr 1; omega
      · simp only [List.mem_cons, List.not_mem_nil, or_false] at hop; omega
      · simp only [List.mem_cons, List.not_mem_nil, or_false] at hvec; omega

/-- the words of the listing's scalar \x60VADDSD\x60, whose two fixed sizes take both slots -/
theorem vaddsd_words_read_back :
    (Descriptor.parse "RVM   XMM128 XMM128 XMM64  -      VADDSD" >>= fun d =>
        d.words false true) = .ok (45, 29712, 16530) ∧
      ∃ d l, Descriptor.parse "RVM   XMM128 XMM128 XMM64  -      VADDSD" = .ok d ∧
        d.layout false true = .ok l ∧ (Decoder.DescWords.mk 0 45 29712 16530).Reads l ∧
        ∀ c : Decoder.Context, c.desc = ⟨0, 45, 29712, 16530⟩ → c.opSize ∈ [1, 2, 4, 8] →
          c.vecSize ∈ [16, 32] → ∀ i (hi : i < d.operands.length),
          ∃ n, d.operands[i].absSize (some c.opSize) (some c.vecSize) = .ok n ∧
            (Decoder.sizeTable c (c.desc.sizeChoice i) : Int) = if n = 10 then 0 else n := by
  have h : (Descriptor.parse "RVM   XMM128 XMM128 XMM64  -      VADDSD" >>= fun d =>
      d.words false true) = .ok (45, 29712, 16530) := by
    have ho : (Descriptor.parse "RVM   XMM128 XMM128 XMM64  -      VADDSD" >>= fun d =>
        d.words false true).toOption = some (45, 29712, 16530) := by decide +kernel
    revert ho
    cases (Descriptor.parse "RVM   XMM128 XMM128 XMM64  -      VADDSD" >>= fun d =>
      d.words false true) <;> simp [Except.toOption]
  exact ⟨h, descriptor_words_read_back _ _ _ _ _ _ 0 h⟩

end X86Codec
