import X86Codec.Proofs.TrieUpdate
import X86Codec.Listing.Entry
/-!
The keys an opcode pattern covers, read off the pattern's fields.

A pattern covers a key when the key's opcode map is the pattern's escape (plus 4 for VEX), its
byte is the pattern's byte (or one of the eight from it, when the low three bits name a
register), its mandatory prefix is one the pattern allows, its ModRM byte is the fixed one or
has the pattern's reg field and form, and its W and L bits are those the pattern fixes
(`Opcode.covers`). The listing's reader makes only patterns whose fixed ModRM byte is one of
c0..ff and whose reg digit is below 8 (`Opcode.Sane`).

Main statements:
* `Opcode.matches_iff_covers`: for such a pattern, the keys its path admits at every level are
  exactly the keys it covers.
* `Opcode.parse_sane`, `Entry.ofLines_sane`: the patterns the reader makes are sane.
-/

namespace X86Codec

namespace Opcode

/-- whether a W or L switch of a pattern admits a bit: a fixed switch only its value, an ignored
or absent one both -/
def switchAdmits : Option Switch → Bool → Bool
  | some .clear, b => !b
  | some .set, b => b
  | _, _ => true

/-- whether a mandatory prefix of a pattern admits a prefix index (none, 66, F3, F2): `NFx`
admits none and 66, an absent prefix all four -/
def mandatoryAdmits : Option Mandatory → Nat → Bool
  | none, _ => true
  | some .nfx, p => p < 2
  | some .np, p => p == 0
  | some .p66, p => p == 1
  | some .f3, p => p == 2
  | some .f2, p => p == 3

/-- whether the ModRM part of a pattern admits a ModRM byte: a fixed byte admits itself, and a
reg digit with a form admits the bytes with that reg field in that form -/
def modrmAdmits (fixed : Option Nat) (modrm : Option (Option Nat × ModForm)) (m : Nat) : Bool :=
  match fixed, modrm with
  | some x, _ => m == x
  | none, some (reg, form) =>
    reg.all (· == (m >>> 3) % 8) &&
      match form with
      | .mem => m < 0xc0
      | .reg => 0xc0 ≤ m
      | .both => true
  | none, none => true

/-- the keys a pattern covers -/
def covers (o : Opcode) (k : TableKey) : Bool :=
  k.map == (o.escape ||| if o.vex then 4 else 0) &&
    (if o.extended then o.byte ≤ k.byte && k.byte < o.byte + 8 else k.byte == o.byte) &&
    mandatoryAdmits o.mandatory k.mandatory && modrmAdmits o.fixedModrm o.modrm k.modrm &&
    switchAdmits o.rexw k.w && switchAdmits o.vexl k.l

/-- the patterns the listing's reader makes: a fixed ModRM byte is one of c0..ff, and a reg
digit is below 8 -/
structure Sane (o : Opcode) : Prop where
  fixed : ∀ x, o.fixedModrm = some x → 0xc0 ≤ x ∧ x < 0x100
  reg : ∀ r form, o.modrm = some (some r, form) → r < 8

/-! ## Paths and fields -/

/-- a path admits a key when each level it does not skip lists the key's slot -/
theorem admits_levels {p : Path} {k : TableKey} :
    Trie.Admits p.levels k ↔ k.map ∈ p.root ∧ k.byte ∈ p.byte ∧
      (∀ es, p.mandatory = some es → k.mandatory ∈ es) ∧
      (∀ es, p.modrm = some es → TableKey.modrmSlot k.modrm ∈ es) ∧
      (∀ es, p.modrmLow = some es → k.modrm % 8 ∈ es) ∧
      (∀ es, p.vex = some es → k.vexSlot ∈ es) := by
  simp only [Trie.Admits, Path.levels, List.mem_cons, List.mem_nil_iff, or_false, Prod.mk.injEq]
  constructor
  · intro h
    refine ⟨h _ _ (.inl ⟨rfl, rfl⟩), h _ _ (.inr (.inl ⟨rfl, rfl⟩)), fun es he => ?_,
      fun es he => ?_, fun es he => ?_, fun es he => ?_⟩
    · exact h _ _ (.inr (.inr (.inl ⟨rfl, he.symm⟩)))
    · exact h _ _ (.inr (.inr (.inr (.inl ⟨rfl, he.symm⟩))))
    · exact h _ _ (.inr (.inr (.inr (.inr (.inl ⟨rfl, he.symm⟩)))))
    · exact h _ _ (.inr (.inr (.inr (.inr (.inr ⟨rfl, he.symm⟩)))))
  · rintro ⟨hr, hb, hm, hmo, hlo, hv⟩ c es (⟨rfl, he⟩ | ⟨rfl, he⟩ | ⟨rfl, he⟩ | ⟨rfl, he⟩ |
      ⟨rfl, he⟩ | ⟨rfl, he⟩)
    · cases he; exact hr
    · cases he; exact hb
    · exact hm es he.symm
    · exact hmo es he.symm
    · exact hlo es he.symm
    · exact hv es he.symm

theorem mem_byteSlots {o : Opcode} {b : Nat} :
    b ∈ o.path.byte ↔ (if o.extended then o.byte ≤ b && b < o.byte + 8 else b == o.byte) = true := by
  simp only [path]
  split_ifs
  · simp only [List.mem_map, List.mem_range, Bool.and_eq_true, decide_eq_true_eq]
    constructor
    · rintro ⟨i, hi, rfl⟩
      omega
    · rintro ⟨h₁, h₂⟩
      exact ⟨b - o.byte, by omega, by omega⟩
  · simp

theorem mem_mandatorySlots {o : Opcode} {p : Nat} :
    (∀ es, o.path.mandatory = some es → p ∈ es) ↔ mandatoryAdmits o.mandatory p = true := by
  rcases hm : o.mandatory with _ | (_ | _ | _ | _ | _) <;> simp [path, hm, mandatoryAdmits]
  omega

/-- a fixed ModRM byte in c0..ff is the one byte whose reg and rm slots it names -/
theorem fixedSlots_iff {x m : Nat} (hx : 0xc0 ≤ x ∧ x < 0x100) :
    (TableKey.modrmSlot m = ((x - 0xc0) >>> 3) ||| 8 ∧ m % 8 = x &&& 7) ↔ m = x := by
  have hor : ∀ y < 8, y ||| 8 = y + 8 := by decide
  have hlow : x &&& 7 = x % 8 := Nat.and_two_pow_sub_one_eq_mod x 3
  have hshift : (x - 0xc0) >>> 3 = (x - 0xc0) / 8 := Nat.shiftRight_eq_div_pow _ 3
  rw [hshift, hor _ (by omega), hlow]
  simp only [TableKey.modrmSlot, Nat.shiftRight_eq_div_pow]
  split_ifs <;> omega

/-- a register-form slot is one of the eight past the memory-form slots -/
theorem exists_lt_eight_add {s : Nat} : (∃ a, a < 8 ∧ 8 + a = s) ↔ 8 ≤ s ∧ s < 16 :=
  ⟨fun ⟨a, ha, h⟩ => by omega, fun h => ⟨s - 8, by omega, by omega⟩⟩

theorem mem_modrmSlots {o : Opcode} (ho : o.Sane) {m : Nat} (hm : m < 256) :
    ((∀ es, o.path.modrm = some es → TableKey.modrmSlot m ∈ es) ∧
      (∀ es, o.path.modrmLow = some es → m % 8 ∈ es)) ↔
      modrmAdmits o.fixedModrm o.modrm m = true := by
  rcases hf : o.fixedModrm with _ | x
  · rcases hmo : o.modrm with _ | ⟨reg, form⟩
    · simp [path, hf, hmo, modrmAdmits]
    -- the reg slots are the reg field, plus 8 for the register form
    simp only [path, hf, hmo, modrmAdmits, Option.some.injEq, forall_eq', reduceCtorEq,
      IsEmpty.forall_iff, implies_true, and_true]
    rcases reg with _ | r
    · cases form <;> simp [TableKey.modrmSlot, Nat.shiftRight_eq_div_pow, exists_lt_eight_add] <;>
        split_ifs <;> omega
    · have hr := ho.reg r form hmo
      cases form <;> simp [TableKey.modrmSlot, Nat.shiftRight_eq_div_pow] <;> split_ifs <;> omega
  · simp only [path, hf, modrmAdmits, Option.some.injEq, forall_eq', List.mem_singleton,
      beq_iff_eq]
    exact fixedSlots_iff (ho.fixed x hf)

theorem mem_vexSlots {o : Opcode} {k : TableKey} :
    (∀ es, o.path.vex = some es → k.vexSlot ∈ es) ↔
      (switchAdmits o.rexw k.w && switchAdmits o.vexl k.l) = true := by
  obtain ⟨_, _, _, _, w, l⟩ := k
  simp only [path, TableKey.vexSlot]
  rcases o.rexw with _ | (_ | _ | _) <;> rcases o.vexl with _ | (_ | _ | _) <;>
    cases w <;> cases l <;> simp [switchSlots, switchAdmits]

/-- **A sane pattern's path admits exactly the keys the pattern covers.** -/
theorem matches_iff_covers {o : Opcode} (ho : o.Sane) {k : TableKey} (hk : k.Valid) :
    o.Matches k ↔ o.covers k = true := by
  have hroot : k.map ∈ o.path.root ↔ k.map = (o.escape ||| if o.vex then 4 else 0) :=
    List.mem_singleton
  rw [Matches, admits_levels, hroot, mem_byteSlots, mem_mandatorySlots, mem_vexSlots]
  simp only [covers, Bool.and_eq_true, beq_iff_eq, ← mem_modrmSlots ho hk.modrm_lt, and_assoc]

/-! ## The patterns the reader makes -/

/-- characters are ordered by their code points -/
theorem char_le_iff {a b : Char} : a ≤ b ↔ a.toNat ≤ b.toNat := Iff.rfl

/-- the suffixes the reader makes: a fixed ModRM byte is one of c0..ff, and a reg digit is
below 8 -/
def Suffix.Sane (s : Suffix) : Prop :=
  (∀ x, s.fixedModrm = some x → 0xc0 ≤ x ∧ x < 0x100) ∧ ∀ r form, s.modrm = some (some r, form) → r < 8

theorem hexValue_lt {c : Char} {v : Nat} (h : hexValue c = some v) : v < 16 := by
  unfold hexValue at h
  split_ifs at h with h₁ h₂ <;> cases h
  · simp only [Bool.and_eq_true, decide_eq_true_eq, char_le_iff, Char.reduceToNat] at h₁ ⊢
    omega
  · simp only [Bool.and_eq_true, decide_eq_true_eq, char_le_iff, Char.reduceToNat] at h₂ ⊢
    omega

/-- a reg digit `0`..`7` names a reg field below 8 -/
theorem Suffix.sane_digit {d : Char} (hd : (decide ('0' ≤ d) && decide (d ≤ '7')) = true)
    (form : ModForm) : Suffix.Sane { modrm := some (some (d.toNat - '0'.toNat), form) } := by
  simp only [Bool.and_eq_true, decide_eq_true_eq, char_le_iff, Char.reduceToNat] at hd
  exact ⟨by simp, fun r f hr => by simp at hr; omega⟩

/-- a second byte whose first hex digit is c to f is one of c0..ff -/
theorem Suffix.sane_fixed {c₁ c₂ : Char} {h₁ h₂ : Nat} (hh₁ : hexValue c₁ = some h₁)
    (hh₂ : hexValue c₂ = some h₂) {rest : Bool} (hc : (decide (12 ≤ h₁) && rest) = true) :
    Suffix.Sane { fixedModrm := some (16 * h₁ + h₂) } := by
  simp only [Bool.and_eq_true, decide_eq_true_eq] at hc
  have := hexValue_lt hh₁
  have := hexValue_lt hh₂
  exact ⟨fun x hx => by simp at hx; omega, by simp⟩

/-- every suffix the reader makes is sane -/
theorem suffix_sane {cs : List Char} {s : Suffix} (h : suffix? cs = some s) : s.Sane := by
  unfold suffix? at h
  repeat' first | (split_ifs at h) | (split at h)
  all_goals cases h
  all_goals first
    | exact Suffix.sane_digit ‹_› _
    | exact Suffix.sane_fixed ‹_› ‹_› ‹_›
    | exact ⟨by simp, by simp⟩

theorem byteAndSuffix_sane {cs : List Char} {b : Nat} {s : Suffix}
    (h : byteAndSuffix? cs = some (b, s)) : s.Sane := by
  unfold byteAndSuffix? at h
  repeat' split at h
  all_goals cases h
  exact suffix_sane ‹_›

theorem orElse_eq_some_cases {α : Type} {a : Option α} {f : Unit → Option α} {x : α}
    (h : a.orElse f = some x) : a = some x ∨ f () = some x := by
  cases a <;> simp_all [Option.orElse]

/-- every alternative of `body?` reads the byte and the suffix after its escape -/
theorem body_byteAndSuffix {cs : List Char} {esc b : Nat} {s : Suffix}
    (h : body? cs = some (esc, b, s)) : ∃ r, byteAndSuffix? r = some (b, s) := by
  have hattempt : ∀ e r, (byteAndSuffix? r).map (fun x => (e, x.1, x.2)) = some (esc, b, s) →
      ∃ r, byteAndSuffix? r = some (b, s) := fun e r h => by
    obtain ⟨⟨b', s'⟩, hb, he⟩ := Option.map_eq_some_iff.1 h
    cases he
    exact ⟨r, hb⟩
  unfold body? at h
  simp only [HOrElse.hOrElse, OrElse.orElse] at h
  rcases orElse_eq_some_cases h with h | h
  · split at h
    · exact hattempt _ _ h
    · cases h
  rcases orElse_eq_some_cases h with h | h
  · split at h
    · exact hattempt _ _ h
    · cases h
  rcases orElse_eq_some_cases h with h | h
  · split at h
    · exact hattempt _ _ h
    · cases h
  · exact hattempt _ _ h

theorem body_sane {cs : List Char} {esc b : Nat} {s : Suffix} (h : body? cs = some (esc, b, s)) :
    s.Sane := by
  obtain ⟨r, hr⟩ := body_byteAndSuffix h
  exact byteAndSuffix_sane hr

/-- an opcode whose ModRM part comes from a sane suffix is sane -/
theorem Suffix.Sane.opcode {s : Suffix} (hs : s.Sane) {o : Opcode}
    (hf : o.fixedModrm = s.fixedModrm) (hm : o.modrm = s.modrm) : o.Sane :=
  ⟨fun x h => hs.1 x (hf ▸ h), fun r f h => hs.2 r f (hm ▸ h)⟩

/-- a pattern read is an escape, a byte and a suffix that `body?` reads, with its ModRM part
taken from the suffix -/
theorem parse_body {str : String} {o : Opcode} (h : parse str = .ok o) :
    ∃ cs s, body? cs = some (o.escape, o.byte, s) ∧ o.fixedModrm = s.fixedModrm ∧
      o.modrm = s.modrm := by
  -- with a prefix part or without, the pattern is `body?`'s reading with its fields copied
  have hmap : ∀ (f : Nat × Nat × Suffix → Opcode) cs,
      (∀ x, (f x).escape = x.1 ∧ (f x).byte = x.2.1 ∧ (f x).fixedModrm = x.2.2.fixedModrm ∧
        (f x).modrm = x.2.2.modrm) → (body? cs).map f = some o →
      ∃ cs s, body? cs = some (o.escape, o.byte, s) ∧ o.fixedModrm = s.fixedModrm ∧
        o.modrm = s.modrm := fun f cs hf h => by
    obtain ⟨⟨e, b, s⟩, hb, rfl⟩ := Option.map_eq_some_iff.1 h
    obtain ⟨he, hb', hx, hm⟩ := hf (e, b, s)
    exact ⟨cs, s, by rw [he, hb']; exact hb, hx, hm⟩
  unfold parse at h
  split at h
  · rename_i o' ho
    cases h
    simp only [HOrElse.hOrElse, OrElse.orElse] at ho
    rcases orElse_eq_some_cases ho with ho | ho
    · unfold withPrefix? at ho
      repeat' split at ho
      · cases ho
      · exact hmap _ _ (fun _ => ⟨rfl, rfl, rfl, rfl⟩) ho
    · exact hmap _ _ (fun _ => ⟨rfl, rfl, rfl, rfl⟩) ho
  · cases h

/-- **The reader makes sane patterns.** -/
theorem parse_sane {s : String} {o : Opcode} (h : parse s = .ok o) : o.Sane := by
  obtain ⟨cs, sfx, hb, hf, hm⟩ := parse_body h
  exact (body_sane hb).opcode hf hm

end Opcode

namespace Entry

/-- a line read is a pattern read and a descriptor read -/
theorem ofLine_parts {line : String} {e : Entry} (h : ofLine line = .ok e) :
    ∃ p c, Opcode.parse p = .ok e.opcode ∧ Descriptor.parse c = .ok e.desc := by
  unfold ofLine at h
  split at h
  split at h
  · simp only [bind, Except.bind, pure, Except.pure] at h
    split at h
    · cases h
    · rename_i o ho
      split at h
      · cases h
      · rename_i d hd
        cases h
        exact ⟨_, _, ho, hd⟩
  · cases h

theorem ofLine_sane {line : String} {e : Entry} (h : ofLine line = .ok e) : e.opcode.Sane := by
  obtain ⟨p, c, hp, -⟩ := ofLine_parts h
  exact Opcode.parse_sane hp

/-- every result of a mapping that went through has a property every single result has -/
theorem mapM_ok_forall {α β : Type} {f : α → Except Failure β} {P : β → Prop}
    (hf : ∀ x y, f x = .ok y → P y) : ∀ {xs : List α} {ys : List β}, xs.mapM f = .ok ys →
      ∀ y ∈ ys, P y := by
  intro xs
  induction xs with
  | nil =>
    intro ys h
    cases h
    simp
  | cons x xs ih =>
    intro ys h
    simp only [List.mapM_cons, bind, Except.bind, pure, Except.pure] at h
    split at h
    · cases h
    · rename_i y hy
      split at h
      · cases h
      · rename_i ys' hys
        cases h
        intro z hz
        rcases List.mem_cons.1 hz with rfl | hz
        · exact hf x z hy
        · exact ih hys z hz

/-- **The entries the reader makes have sane patterns.** -/
theorem ofLines_sane {lines : List String} {withUndoc : Bool} {entries : List Entry}
    (h : ofLines lines withUndoc = .ok entries) : ∀ e ∈ entries, e.opcode.Sane := by
  unfold ofLines at h
  simp only [bind, Except.bind, pure, Except.pure] at h
  split at h
  · cases h
  · rename_i es hes
    cases h
    intro e he
    exact mapM_ok_forall (fun _ _ h => ofLine_sane h) hes e (List.mem_filter.1 he).1

end Entry

end X86Codec
