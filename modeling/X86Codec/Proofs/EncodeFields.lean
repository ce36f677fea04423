import X86Codec.Proofs.EncodeDescs
import X86Codec.Proofs.PatternKeys
import X86Codec.Proofs.DescriptorWords
/-!
The values of the encoder's descriptors fit their bit-fields.

A descriptor of the encoder packs its opcode word into 26 bits, its encoding into 5, its
immediate width into 4, the register classes of its operands into 16 and its alternative into
13. The values come from the variants of the entries, and the entries from the listing's reader:

* a variant takes its encoding from its entry's descriptor, its immediate width and register
  classes from the descriptor for one operand size and one set of role letters, and the bytes
  of its opcode word from the entry's pattern (`Variant.MadeFrom`, `variantsOf_madeFrom`);
* the reader makes opcode bytes below 256, sane ModRM parts and at most four operands
  (`Entry.Bounded`, `Entry.ofLines_bounded`);
* so the opcode word stays below bit 26 (two bytes under flags up to bit 25), the encoding is
  one of the thirty the encoder numbers 1 to 30, the immediate width is 0 to 8 bytes and the
  classes take four bits for each of at most four operands (`Variant.Fits`).

Main statements:
* `lines_fit`: every descriptor line of the variant map of bounded entries fits, so the
  encoder's tables hold its values as they are (`descOf_of_fits`);
* `encode_chains_well_formed`: with `variantMap_chained`, the chains of every variant map and
  the fields of its lines. The alternative is the one field that can overflow
  (`Tables.alts_exact_iff`).
-/

namespace X86Codec

/-! ## Widths and classes of a descriptor -/

namespace Descriptor

/-- a size resolved with a known operand size and no vector size is not negative -/
theorem absSize_nonneg {k : OperandKind} {n : Nat} {s : Int}
    (h : k.absSize (some (n : Int)) none = .ok s) : 0 ≤ s := by
  unfold OperandKind.absSize at h
  split at h
  · cases h
    omega
  · cases h
    omega
  · cases h

/-- the immediate width of a known encoding for a known operand size is zero to eight bytes -/
theorem immWidth_bounds {d : Descriptor} {n : Nat} {w : Int}
    (h : d.immWidth (some (n : Int)) = .ok w) :
    (Encoding.ofName? d.encoding).isSome ∧ 0 ≤ w ∧ w ≤ 8 := by
  unfold immWidth at h
  rcases hl : Encoding.lookup d.encoding with _ | enc <;> simp only [hl, bind, Except.bind] at h
  · cases h
  · have hknown : (Encoding.ofName? d.encoding).isSome := by
      unfold Encoding.lookup at hl
      split at hl <;> simp_all
    refine ⟨hknown, ?_⟩
    -- no immediate, one byte, three for `ENTER`, one for `IMM_8`, or a capped operand size
    split_ifs at h
    any_goals (cases h; omega)
    all_goals
      split at h
      · cases h
      · split at h
        · cases h
        · rename_i s hs
          cases h
          have := absSize_nonneg hs
          omega

theorem classCode_le {c : OperandClass} {n : Nat} (h : classCode c = some n) : n ≤ 10 := by
  cases c <;> simp only [classCode, Option.some.injEq, reduceCtorEq] at h <;> omega

/-- an operand's class code takes four bits -/
theorem operandCode_lt {d : Descriptor} {o : Option Int} {r : Char} {k : OperandKind} {c : Nat}
    (h : d.operandCode o r k = .ok c) : c < 16 := by
  unfold operandCode at h
  -- a memory form, an immediate, a general-purpose code or another class's code
  split_ifs at h
  any_goals (cases h; omega)
  · simp only [bind, Except.bind] at h
    split at h
    · cases h
    · cases h
      split_ifs <;> omega
  · split at h
    · cases h
      exact Nat.lt_of_le_of_lt (classCode_le ‹_›) (by decide)
    · cases h

/-- codes below 16 packed four bits apart from the `n`-th place on leave room for one more code
after the last -/
theorem pack_add_le : ∀ (codes : List Nat) (n : Nat), (∀ c ∈ codes, c < 16) →
    (codes.zipIdx n).foldr (fun p total => (p.1 <<< (4 * p.2)) + total) 0 + (1 <<< (4 * n)) ≤
      1 <<< (4 * (n + codes.length))
  | [], n, _ => by simp
  | c :: codes, n, hc => by
    have ih := pack_add_le codes (n + 1) fun x hx => hc x (List.mem_cons_of_mem _ hx)
    have hc0 := hc c List.mem_cons_self
    -- the first code and the room after it fill the place the rest starts from
    have hfirst : (c <<< (4 * n)) + (1 <<< (4 * n)) ≤ 1 <<< (4 * (n + 1)) := by
      rw [Nat.shiftLeft_eq, Nat.one_shiftLeft, Nat.one_shiftLeft, Nat.mul_add, pow_add]
      calc c * 2 ^ (4 * n) + 2 ^ (4 * n) = (c + 1) * 2 ^ (4 * n) := by ring
        _ ≤ 16 * 2 ^ (4 * n) := Nat.mul_le_mul_right _ (by omega)
        _ = 2 ^ (4 * n) * 2 ^ (4 * 1) := by ring
    rw [List.zipIdx_cons, List.foldr_cons, List.length_cons,
      show n + (codes.length + 1) = n + 1 + codes.length by omega]
    dsimp only
    omega

/-- **The register classes of at most four operands take 16 bits.** -/
theorem registerClasses_lt {d : Descriptor} {roles : String} {o : Option Int} {c : Nat}
    (h : d.registerClasses roles o = .ok c) (hd : d.operands.length ≤ 4) : c < 1 <<< 16 := by
  unfold registerClasses at h
  simp only [bind, Except.bind] at h
  split at h
  · cases h
  · rename_i codes hcodes
    cases h
    have hall := mapM_ok_forall₂ hcodes
    have hlt : ∀ c ∈ codes, c < 16 := fun c hc => by
      obtain ⟨⟨r, k⟩, -, hrk⟩ := forall₂_mem_right hall hc
      exact operandCode_lt hrk
    -- one code for each operand that has a role letter, so at most four
    have hlen : codes.length ≤ 4 := by
      rw [← hall.length_eq, List.length_zip]
      omega
    have hpack := pack_add_le codes 0 hlt
    have hmono : 1 <<< (4 * (0 + codes.length)) ≤ 1 <<< 16 := by
      rw [Nat.one_shiftLeft, Nat.one_shiftLeft]
      exact Nat.pow_le_pow_right (by decide) (by omega)
    have hone : 0 < 1 <<< (4 * 0) := by decide
    exact Nat.lt_of_lt_of_le (by omega) hmono

end Descriptor

/-! ## What the reader makes -/

namespace Opcode

theorem byteAndSuffix_byte_lt {cs : List Char} {b : Nat} {s : Suffix}
    (h : byteAndSuffix? cs = some (b, s)) : b < 256 := by
  unfold byteAndSuffix? at h
  repeat' split at h
  all_goals cases h
  rename_i _ _ _ hv₁ hv₂ _
  have := hexValue_lt hv₁
  have := hexValue_lt hv₂
  omega

/-- **The reader makes opcode bytes below 256.** -/
theorem parse_byte_lt {str : String} {o : Opcode} (h : parse str = .ok o) : o.byte < 256 := by
  obtain ⟨cs, s, hb, -, -⟩ := parse_body h
  obtain ⟨r, hr⟩ := body_byteAndSuffix hb
  exact byteAndSuffix_byte_lt hr

end Opcode

namespace Entry

/-- what the listing's reader makes of an entry: an opcode byte below 256, a sane ModRM part
and at most four operands -/
structure Bounded (e : Entry) : Prop where
  byte : e.opcode.byte < 256
  sane : e.opcode.Sane
  operands : e.desc.operands.length ≤ 4

theorem ofLine_bounded {line : String} {e : Entry} (h : ofLine line = .ok e) : e.Bounded := by
  obtain ⟨p, c, hp, hc⟩ := ofLine_parts h
  exact ⟨Opcode.parse_byte_lt hp, Opcode.parse_sane hp, Descriptor.parse_operands_length hc⟩

/-- **The entries the reader makes are bounded.** -/
theorem ofLines_bounded {lines : List String} {withUndoc : Bool} {entries : List Entry}
    (h : ofLines lines withUndoc = .ok entries) : ∀ e ∈ entries, e.Bounded := by
  unfold ofLines at h
  simp only [bind, Except.bind, pure, Except.pure] at h
  split at h
  · cases h
  · rename_i es hes
    cases h
    intro e he
    exact mapM_ok_forall (fun _ _ h => ofLine_bounded h) hes e (List.mem_filter.1 he).1

end Entry

/-! ## Opcode words -/

theorem OpcFlag.bits_lt (f : OpcFlag) : f.bits < 1 <<< 26 := by
  cases f <;> decide

/-- or-ing in flags keeps a word below bit 26: every flag sits below it -/
theorem OpcFlag.foldl_bits_lt (fs : List OpcFlag) {v : Nat} (hv : v < 1 <<< 26) :
    fs.foldl (fun v f => v ||| f.bits) v < 1 <<< 26 := by
  induction fs generalizing v with
  | nil => exact hv
  | cons f fs ih =>
    rw [List.foldl_cons]
    apply ih
    rw [Nat.one_shiftLeft] at hv ⊢
    exact Nat.or_lt_two_pow hv (Nat.one_shiftLeft 26 ▸ f.bits_lt)

theorem OpcWord.value_lt {o : OpcWord} (h : o.base < 1 <<< 26) : o.value < 1 <<< 26 :=
  OpcFlag.foldl_bits_lt o.flags h

namespace EncodeTable

/-- the opcode bytes of a sane pattern whose byte is below 256 take two bytes -/
theorem opcBase_lt {o : Opcode} (hb : o.byte < 256) (hs : o.Sane) : opcBase o < 1 <<< 16 := by
  have hhigh : ∀ x, x < 256 → x <<< 8 < 2 ^ 16 := fun x hx => by
    rw [Nat.shiftLeft_eq]
    omega
  have hfixed : ∀ x, o.fixedModrm = some x → o.byte ||| (x <<< 8) < 2 ^ 16 := fun x hx =>
    Nat.or_lt_two_pow (by omega) (hhigh x (hs.fixed x hx).2)
  unfold opcBase
  rw [Nat.one_shiftLeft]
  dsimp only
  -- a reg digit above the byte, or not; a fixed ModRM byte above the byte, or not
  split <;> split
  · rename_i r f hr _ x hx
    exact Nat.or_lt_two_pow (hfixed x hx) (hhigh r (by have := hs.reg r f hr; omega))
  · rename_i r f hr _ _
    exact Nat.or_lt_two_pow (by omega) (hhigh r (by have := hs.reg r f hr; omega))
  · rename_i x hx
    exact hfixed x hx
  · omega

end EncodeTable

/-! ## Variants -/

/-- what a variant takes from the entry it is made from: the encoding, the immediate width and
register classes for some operand size and role letters, and the opcode bytes -/
structure Variant.MadeFrom (v : Variant) (e : Entry) : Prop where
  encoding : v.encoding = e.desc.encoding
  immWidth : ∃ n : Nat, e.desc.immWidth (some (n : Int)) = .ok v.immWidth
  classes : ∃ (roles : String) (n : Nat),
    e.desc.registerClasses roles (some (n : Int)) = .ok v.classes
  base : v.opc.base = EncodeTable.opcBase e.opcode

/-- the values of a variant fit the bit-fields of the encoder's descriptors: the opcode word
26 bits, the encoding is one of the thirty the encoder numbers 1 to 30 (5 bits), the immediate
width 4 bits and the register classes 16 bits -/
structure Variant.Fits (v : Variant) : Prop where
  opc : v.opc.value < 1 <<< 26
  enc : (Encoding.ofName? v.encoding).isSome
  immsz : 0 ≤ v.immWidth ∧ v.immWidth < 16
  tys : v.classes < 1 <<< 16

/-- a variant made from a bounded entry fits -/
theorem Variant.MadeFrom.fits {v : Variant} {e : Entry} (hv : v.MadeFrom e) (he : e.Bounded) :
    v.Fits := by
  obtain ⟨henc, ⟨n, himm⟩, ⟨roles, n', hcls⟩, hbase⟩ := hv
  obtain ⟨hknown, h0, h8⟩ := Descriptor.immWidth_bounds himm
  have hopc : v.opc.base < 1 <<< 26 := by
    rw [hbase]
    exact Nat.lt_of_lt_of_le (EncodeTable.opcBase_lt he.byte he.sane) (by decide)
  exact ⟨OpcWord.value_lt hopc, henc ▸ hknown, ⟨h0, by omega⟩,
    Descriptor.registerClasses_lt hcls he.operands⟩

namespace EncodeTable

/-- the variant of `FE_NOP` every map starts with fits -/
theorem nop_fits : (⟨"NP", 0, 0, ⟨0x90, []⟩⟩ : Variant).Fits :=
  ⟨by decide, rfl, by decide, by decide⟩

theorem variantAt_madeFrom {e : Entry} {s : Shape} {mnemonic : String} {opsize vecsize : Nat}
    {pfx : String × Option OpcFlag} {roles : String} {n : String} {v : Variant}
    (h : variantAt e s mnemonic opsize vecsize pfx roles = .ok (some (n, v))) :
    v.MadeFrom e := by
  unfold variantAt at h
  extract_lets d opc jp at h
  -- past the lock check, the variant is built from the descriptor's widths and classes
  have hjp : ∀ u, jp u = .ok (some (n, v)) → v.MadeFrom e := by
    intro u hu
    simp only [jp, bind, Except.bind] at hu
    split at hu
    · cases hu
    rename_i imm himm
    split at hu
    · cases hu
    rename_i cls hcls
    split at hu
    · cases hu
    cases hu
    exact ⟨rfl, ⟨_, himm⟩, ⟨_, _, hcls⟩, rfl⟩
  split_ifs at h
  · split at h
    · cases h
    · split_ifs at h
      · cases h
      · exact hjp () h
  · exact hjp () h

/-- every variant of an entry is made from it -/
theorem variantsOf_madeFrom {e : Entry} {vs : List (String × Variant)}
    (h : variantsOf e = .ok vs) : ∀ p ∈ vs, p.2.MadeFrom e := by
  unfold variantsOf at h
  simp only [bind, Except.bind] at h
  split at h
  · cases h
  split at h
  · cases h
  -- the loop over the combinations adds what `variantAt` makes, one at a time
  refine VariantMap.foldlM_keeps (P := fun out => ∀ p ∈ out, p.2.MadeFrom e) _
    (fun out c out' _ hout hstep => ?_) [] vs (by simp) h
  split at hstep
  · cases hstep
  rename_i v? hv
  cases hstep
  intro p hp
  rcases List.mem_append.1 hp with hp | hp
  · exact hout p hp
  · cases v? with
    | none => cases hp
    | some q =>
      rw [Option.toList_some, List.mem_singleton] at hp
      subst hp
      exact variantAt_madeFrom hv

end EncodeTable

/-! ## Maps and lines -/

namespace VariantMap

/-- every variant of a map has a property -/
def AllVariants (Q : Variant → Prop) (m : VariantMap) : Prop :=
  ∀ (i : Nat) (vs : Array Variant), m.variants[i]? = some vs → ∀ v ∈ vs.toList, Q v

variable {Q : Variant → Prop} {m : VariantMap}

theorem AllVariants.add (hm : m.AllVariants Q) (name : String) {v : Variant} (hv : Q v) :
    (m.add name v).AllVariants Q := by
  unfold VariantMap.add
  split
  · -- a known name: its variants grow by `v`
    intro j vs h w hw
    rw [Array.getElem?_modify] at h
    split_ifs at h
    · obtain ⟨ws, hws, rfl⟩ := Option.map_eq_some_iff.1 h
      rw [Array.toList_push, List.mem_append, List.mem_singleton] at hw
      rcases hw with hw | rfl
      · exact hm j ws hws w hw
      · exact hv
    · exact hm j vs h w hw
  · -- a new name: it goes last, with `v` alone
    intro j vs h w hw
    rw [Array.getElem?_push] at h
    split_ifs at h
    · cases h
      have hwv : w = v := by simpa using hw
      exact hwv ▸ hv
    · exact hm j vs h w hw

theorem AllVariants.foldl_add (hm : m.AllVariants Q) (vs : List (String × Variant))
    (hvs : ∀ p ∈ vs, Q p.2) : (vs.foldl (fun m p => m.add p.1 p.2) m).AllVariants Q := by
  induction vs generalizing m with
  | nil => exact hm
  | cons p vs ih =>
    exact ih (hm.add p.1 (hvs p List.mem_cons_self))
      (fun q hq => hvs q (List.mem_cons_of_mem _ hq))

/-- **Every variant of a map the entries give is `FE_NOP`'s or made from one of them.** -/
theorem variantMap_all {entries : List Entry}
    (h0 : Q ⟨"NP", 0, 0, ⟨0x90, []⟩⟩) (he : ∀ e ∈ entries, ∀ v, v.MadeFrom e → Q v)
    (h : EncodeTable.variantMap entries = .ok m) : m.AllVariants Q := by
  have hinit : initial.AllVariants Q := by
    intro i vs hi v hv
    rcases i with _ | i <;> simp [initial] at hi
    subst hi
    have hnop : v = ⟨"NP", 0, 0, ⟨0x90, []⟩⟩ := by simpa using hv
    exact hnop ▸ h0
  refine foldlM_keeps entries (fun m₀ e m' hmem h₀ h => ?_) _ _ hinit h
  -- an entry left out keeps the map, and one taken in adds variants made from it
  split at h
  · cases h
    exact h₀
  · rcases hv : EncodeTable.variantsOf e with _ | vs <;> rw [hv] at h
    · cases h
    · cases h
      exact h₀.foldl_add vs fun p hp => he e hmem p.2 (EncodeTable.variantsOf_madeFrom hv p hp)

end VariantMap

namespace EncodeTable

theorem variant_mem_of_mem_chain {name : String} {first : Nat} {K : List Variant} {l : Line}
    (hl : l ∈ chain name first K) : l.variant ∈ K := by
  obtain ⟨k, hk, rfl⟩ := List.getElem_of_mem hl
  rw [getElem_chain]
  exact List.getElem_mem _

theorem variant_mem_of_mem_chainsFrom {l : Line} :
    ∀ {named : List (String × Array Variant)} {a : Nat}, l ∈ chainsFrom a named →
      ∃ p ∈ named, l.variant ∈ p.2.toList := by
  intro named
  induction named with
  | nil =>
    intro a hl
    cases hl
  | cons p named ih =>
    intro a hl
    obtain ⟨name, vs⟩ := p
    rw [chainsFrom, List.mem_append] at hl
    rcases hl with hl | hl
    · exact ⟨(name, vs), List.mem_cons_self, mem_ordered (variant_mem_of_mem_chain hl)⟩
    · obtain ⟨q, hq, hv⟩ := ih hl
      exact ⟨q, List.mem_cons_of_mem _ hq, hv⟩

/-- the variant of a descriptor line is one of its map's -/
theorem variant_mem_of_mem_lines {m : VariantMap} {l : Line} (hl : l ∈ lines m) :
    ∃ (i : Nat) (vs : Array Variant), m.variants[i]? = some vs ∧ l.variant ∈ vs.toList := by
  rw [lines_eq] at hl
  obtain ⟨p, hp, hv⟩ := variant_mem_of_mem_chainsFrom hl
  obtain ⟨i, hi, hvs⟩ := List.getElem_of_mem (List.of_mem_zip hp).2
  exact ⟨i, p.2, by simp [← hvs], hv⟩

/-- **Every descriptor line of the map of bounded entries fits.** -/
theorem lines_fit {entries : List Entry} {m : VariantMap} (h : variantMap entries = .ok m)
    (hb : ∀ e ∈ entries, e.Bounded) : ∀ l ∈ lines m, l.variant.Fits := by
  have hall := VariantMap.variantMap_all nop_fits (fun e he v hv => hv.fits (hb e he)) h
  intro l hl
  obtain ⟨i, vs, hvs, hv⟩ := variant_mem_of_mem_lines hl
  exact hall i vs hvs l.variant hv

end EncodeTable

namespace Encoder.Tables

/-- a line that fits is written into its descriptor as it is: no field but the alternative is
cut -/
theorem descOf_of_fits {numbers : Std.HashMap String Nat} {count : Nat} {l : EncodeTable.Line}
    (hv : l.variant.Fits) :
    (descOf numbers count l).opc = l.variant.opc.value ∧
      (descOf numbers count l).encoding.isSome ∧
      (descOf numbers count l).immsz = l.variant.immWidth.toNat ∧
      (descOf numbers count l).tys = l.variant.classes := by
  obtain ⟨hopc, henc, ⟨h0, h16⟩, htys⟩ := hv
  refine ⟨Nat.mod_eq_of_lt hopc, henc, ?_, Nat.mod_eq_of_lt htys⟩
  simp only [descOf]
  rw [Int.emod_eq_of_lt h0 h16]

end Encoder.Tables

namespace Encoder

open EncodeTable in
/-- **The encoder's descriptors are well formed** for the variant map of every list of entries:
each name heads the chain of its kept variants, distinct by key and ordered by immediate width,
at its slot and then at its own places after all names, which together are
`0 .. altCount - 1`; the encoder's tables hold the chain's descriptors from the name's number
on; every alternative is the next place of its chain exactly when there are none or the places
after all names end by 8192, and then the encoder tries exactly the chain, in order, and stops.
For entries the reader makes, every other field of every line fits its bits. -/
theorem encode_chains_well_formed {entries : List Entry} {m : VariantMap}
    (h : variantMap entries = .ok m) :
    Chained m ∧ ((∀ e ∈ entries, e.Bounded) → ∀ l ∈ lines m, l.variant.Fits) :=
  ⟨variantMap_chained h, lines_fit h⟩

end Encoder

/-! ## The chain of a jump -/

theorem eq_ok_of_toOption {ε α : Type} {x : Except ε α} {a : α} (h : x.toOption = some a) :
    x = .ok a := by
  cases x <;> simp_all [Except.toOption]

namespace EncodeTable

/-- `JMP` to a target as the listing gives it: opcode byte E9 with an immediate of the operand
size, and EB with one of a byte -/
def jmpEntries : List Entry :=
  [{ weak := false,
     opcode := { mandatory := none, escape := 0, byte := 0xe9, extended := false, modrm := none,
                 fixedModrm := none, vex := false, vexl := none, rexw := none },
     desc := { mnemonic := "JMP", encoding := "D", operands := [⟨.op, .imm⟩], flags := ["FORCE64"] } },
   { weak := false,
     opcode := { mandatory := none, escape := 0, byte := 0xeb, extended := false, modrm := none,
                 fixedModrm := none, vex := false, vexl := none, rexw := none },
     desc := { mnemonic := "JMP", encoding := "D", operands := [⟨.op, .imm⟩],
               flags := ["FORCE64", "IMM_8"] } }]

/-- the variant map of `jmpEntries`: each entry gives its variant twice, once for each of the
two role letters of a form without a ModRM byte -/
def jmpMap : VariantMap :=
  { names := #["FE_NOP", "FE_JMP"],
    variants := #[#[⟨"NP", 0, 0, ⟨0x90, []⟩⟩],
      #[⟨"D", 4, 0, ⟨0xe9, []⟩⟩, ⟨"D", 4, 0, ⟨0xe9, []⟩⟩, ⟨"D", 1, 0, ⟨0xeb, []⟩⟩, ⟨"D", 1, 0, ⟨0xeb, []⟩⟩]],
    index := VariantMap.initial.index.insert "FE_JMP" 1 }

theorem variantMap_jmp : variantMap jmpEntries = .ok jmpMap := by
  have h₀ : variantsOf jmpEntries[0] =
      .ok [("FE_JMP", ⟨"D", 4, 0, ⟨0xe9, []⟩⟩), ("FE_JMP", ⟨"D", 4, 0, ⟨0xe9, []⟩⟩)] :=
    eq_ok_of_toOption (by decide +kernel)
  have h₁ : variantsOf jmpEntries[1] =
      .ok [("FE_JMP", ⟨"D", 1, 0, ⟨0xeb, []⟩⟩), ("FE_JMP", ⟨"D", 1, 0, ⟨0xeb, []⟩⟩)] :=
    eq_ok_of_toOption (by decide +kernel)
  have hkeep₀ : (jmpEntries[0].desc.has "ONLY32" ||
      jmpEntries[0].desc.mnemonic.startsWith "RESERVED_") = false := by
    decide +kernel
  have hkeep₁ : (jmpEntries[1].desc.has "ONLY32" ||
      jmpEntries[1].desc.mnemonic.startsWith "RESERVED_") = false := by
    decide +kernel
  have hnew : VariantMap.initial.index["FE_JMP"]? = none := by
    simp [VariantMap.initial]
  -- the first variant adds the name, the other three find it
  unfold variantMap
  rw [show jmpEntries = [jmpEntries[0], jmpEntries[1]] from rfl]
  simp only [List.foldlM_cons, List.foldlM_nil, hkeep₀, hkeep₁, Bool.false_eq_true, if_false, h₀, h₁,
    bind, Except.bind, pure, Except.pure, List.foldl_cons, List.foldl_nil, VariantMap.add, hnew,
    Std.HashMap.getElem?_insert_self]
  rfl

/-- the short jump sorts before the long one; each is kept once -/
theorem jmp_lines :
    (lines jmpMap).map (fun l => (l.slot, l.variant.opc.base, l.alt)) =
      [(.named "FE_NOP", 0x90, none), (.named "FE_JMP", 0xeb, some (.extra 0)),
        (.extra 0, 0xe9, none)] := by
  have hnop : ordered #[⟨"NP", 0, 0, ⟨0x90, []⟩⟩] = [⟨"NP", 0, 0, ⟨0x90, []⟩⟩] :=
    ordered_eq_of_perm (by decide +kernel) (by decide) (by decide)
  have hjmp : ordered #[⟨"D", 4, 0, ⟨0xe9, []⟩⟩, ⟨"D", 4, 0, ⟨0xe9, []⟩⟩, ⟨"D", 1, 0, ⟨0xeb, []⟩⟩,
      ⟨"D", 1, 0, ⟨0xeb, []⟩⟩] = [⟨"D", 1, 0, ⟨0xeb, []⟩⟩, ⟨"D", 4, 0, ⟨0xe9, []⟩⟩] := by
    have hkept : (#[⟨"D", 4, 0, ⟨0xe9, []⟩⟩, ⟨"D", 4, 0, ⟨0xe9, []⟩⟩, ⟨"D", 1, 0, ⟨0xeb, []⟩⟩,
        ⟨"D", 1, 0, ⟨0xeb, []⟩⟩] : Array Variant).toList.foldl keepStep [] =
        [⟨"D", 4, 0, ⟨0xe9, []⟩⟩, ⟨"D", 1, 0, ⟨0xeb, []⟩⟩] := by
      decide +kernel
    exact ordered_eq_of_perm (hkept ▸ List.Perm.swap _ _ []) (by decide) (by decide)
  rw [lines_eq]
  simp only [jmpMap, List.toList_toArray, List.zip_cons_cons, List.zip_nil_right, chainsFrom,
    hnop, hjmp]
  decide +kernel

theorem jmpEntries_bounded : ∀ e ∈ jmpEntries, e.Bounded := by
  intro e he
  simp only [jmpEntries, List.mem_cons, List.not_mem_nil, or_false] at he
  -- neither opcode has a ModRM byte
  rcases he with rfl | rfl <;>
    exact ⟨by decide, ⟨fun _ h => (by cases h), fun _ _ h => (by cases h)⟩, by decide⟩

end EncodeTable

namespace Encoder

open EncodeTable in
/-- the two entries of `JMP` give it a chain of two descriptors: EB, with the shorter immediate,
at the name's slot, falling back to E9 at the first place after all names -/
theorem jmp_chains_well_formed :
    variantMap jmpEntries = .ok jmpMap ∧
      (lines jmpMap).map (fun l => (l.slot, l.variant.opc.base, l.alt)) =
        [(.named "FE_NOP", 0x90, none), (.named "FE_JMP", 0xeb, some (.extra 0)),
          (.extra 0, 0xe9, none)] ∧
      Chained jmpMap ∧ ∀ l ∈ lines jmpMap, l.variant.Fits := by
  obtain ⟨hchained, hfits⟩ := encode_chains_well_formed variantMap_jmp
  exact ⟨variantMap_jmp, jmp_lines, hchained, hfits jmpEntries_bounded⟩

end Encoder

end X86Codec
