import X86Codec.Proofs.TrieImage
import X86Codec.Proofs.PrefixClosed
/-!
The decoder's walk over the words of a laid-out trie.

The decoder reads a table entry as a word at the table's offset plus the index: the kind in the
three low bits and, above them, half an offset or twice a descriptor number (`wordEntry`). From a
root table it reads the opcode map's entry, then enters the table the entry names: for the
opcode byte, the mandatory prefix, the ModRM reg field and register form (and then, if that
names one, the ModRM rm field) and VEX.W and VEX.L, each only where the entry met is a table of
that kind (`walkWords`).

The words of laid-out tables hold each placed table's slots (`Laid`): an empty slot is kind 0,
a descriptor kind 1 with four times its number, and a link its kind's code with its target's
offset (`Encodes`). On a trie whose links lead to tables of their kind's length, from tables of
earlier kinds (`Ranked`), a walk over the words reads only inside them and ends on the entry of
what the key finds.

Main statements:
* `Encodes.enter`: one level of the walk over words follows one level of the walk over slots.
* `walkWords_lookup`: the walk over words from a root table's offset ends on the entry of the
  key's lookup.
* `layout_laid`: laying out writes the words `Laid` asks for, and gives one root offset per
  root slot, the offset of the table it names.
* `walk_eq_instrAt`: the decoder, reading the words kept to 16 bits, walks as the words do
  where they fit.
-/

namespace X86Codec

open Decoder

/-- the kind of a table as the low bits of a word name it -/
def TableKind.wordKind (c : TableKind) : Nat := (c.code % 8).toNat

theorem TableKind.wordKind_inj {a c : TableKind} (h : a.wordKind = c.wordKind) : a = c := by
  cases a <;> cases c <;> first | rfl | exact absurd h (by decide)

/-- no table kind is the kind of an empty entry or of a descriptor -/
theorem TableKind.wordKind_ne (c : TableKind) : c.wordKind ≠ 0 ∧ c.wordKind ≠ 1 := by
  cases c <;> decide

namespace Trie

variable {t u : Trie} {k : TableKey}

/-! ## Words and entries -/

/-- the entry at position `idx` of the table at offset `table`, as the decoder reads it: the kind
in the three low bits and, above them, half the rest; nothing past the words' end -/
def wordEntry (words : Array Int) (table idx : Nat) : Option (Nat × Nat) :=
  words[table + idx]?.map fun w => ((w % 8).toNat, (w / 8 * 4).toNat)

/-- one level of the walk over words: an entry of kind `kind` leads to the entry at `idx` of
the table it names, and any other entry stays -/
def stepWord (words : Array Int) (kind idx : Nat) (e : Nat × Nat) : Option (Nat × Nat) :=
  if e.1 = kind then wordEntry words e.2 idx else some e

/-- the ModRM levels of the walk over words: an entry naming a reg-field table leads to the
entry of the ModRM byte's reg field and form, and on to its rm field's where that names an rm
table -/
def modrmWords (words : Array Int) (m : Nat) (e : Nat × Nat) : Option (Nat × Nat) :=
  if e.1 = WordKind.modrm then
    wordEntry words e.2 (TableKey.modrmSlot m) >>= stepWord words WordKind.modrmLow (m % 8)
  else some e

/-- the decoder's walk over the words for a key, from the root table at offset `root`: the
opcode map, then the opcode byte, the mandatory prefix, the ModRM byte and VEX.W and VEX.L
where the entry met is a table of that kind; nothing when a read falls past the words' end -/
def walkWords (words : Array Int) (root : Nat) (k : TableKey) : Option (Nat × Nat) :=
  wordEntry words root k.map >>= stepWord words WordKind.byte k.byte >>=
    stepWord words WordKind.mandatory k.mandatory >>= modrmWords words k.modrm >>=
    stepWord words WordKind.vex k.vexSlot

/-- the entry a content is written as, given the tables' offsets: nothing is kind 0, a
descriptor kind 1 with four times its number, a link its kind's code with its target's offset -/
def Encodes (offs : Array (Option Nat)) : Option Slot → Nat × Nat → Prop
  | none, e => e = (0, 0)
  | some (.instr d), e => e = (1, (d * 4).toNat)
  | some (.weak d), e => e = (1, (d * 4).toNat)
  | some (.table c m), e => ∃ o, offs[m]? = some (some o) ∧ e = ((c.code % 8).toNat, o)

/-! ## The trie's shape and its words -/

/-- what the walk needs of a trie's links: a link leads to a table noted under its kind and of
its kind's length, and from a table of an earlier kind -/
structure Ranked (u : Trie) : Prop where
  noted : ∀ p b m, u.slot p = some (.table b m) → m ∈ u.tablesOf b
  size : ∀ p b m (tab : Array (Option Slot)), u.slot p = some (.table b m) → u.tables[m]? = some (some tab) →
    tab.size = b.length
  above : ∀ K n j b m, n ∈ u.tablesOf K → u.slot (n, j) = some (.table b m) → K.Above b

/-- the words of the tables of `u` laid out at offsets `offs`: a placed table is present and
ends within the words, and each of its slots is written as its entry -/
structure Laid (u : Trie) (offs : Array (Option Nat)) (words : Array Int) : Prop where
  present : ∀ (n : Nat) o, offs[n]? = some (some o) →
    ∃ tab : Array (Option Slot), u.tables[n]? = some (some tab) ∧ o + tab.size ≤ words.size
  entry : ∀ (n : Nat) o (tab : Array (Option Slot)) q, offs[n]? = some (some o) → u.tables[n]? = some (some tab) →
    q < tab.size → ∃ e, wordEntry words o q = some e ∧ Encodes offs (u.slot (n, q)) e

variable {offs : Array (Option Nat)} {words : Array Int}

/-- **One level.** Where a content is written as entry `e`, the walk over words at level `a`
reads the entry of what entering the level makes of the content. -/
theorem Encodes.enter (hr : u.Ranked) (hl : Laid u offs words) (hk : k.Valid) {x : Option Slot}
    {e : Nat × Nat} (hx : Encodes offs x e) (hslot : ∃ p, u.slot p = x) (a : TableKind) :
    ∃ e', stepWord words a.wordKind (k.index a) e = some e' ∧
      Encodes offs (u.enter k a x) e' ∧ ∃ p, u.slot p = u.enter k a x := by
  rcases x with _ | (d | d | ⟨c, m⟩)
  · -- nothing stays nothing
    cases hx
    exact ⟨_, if_neg (TableKind.wordKind_ne a).1.symm, rfl, hslot⟩
  · cases hx
    exact ⟨_, if_neg (TableKind.wordKind_ne a).2.symm, rfl, hslot⟩
  · cases hx
    exact ⟨_, if_neg (TableKind.wordKind_ne a).2.symm, rfl, hslot⟩
  · obtain ⟨o, ho, rfl⟩ := hx
    obtain ⟨p, hp⟩ := hslot
    by_cases hc : c = a
    · -- a link of the level's kind: the entry of the key's slot in its target
      subst hc
      obtain ⟨tab, htab, -⟩ := hl.present m o ho
      have hlen := hr.size p c m tab hp htab
      obtain ⟨e', he', hx'⟩ := hl.entry m o tab (k.index c) ho htab (hlen ▸ hk.index_lt c)
      exact ⟨e', by unfold stepWord; exact (if_pos rfl).trans he', by simpa using hx',
        (m, k.index c), by simp⟩
    · have hne : (c.code % 8).toNat ≠ a.wordKind := fun h => hc (TableKind.wordKind_inj h)
      exact ⟨_, if_neg hne, by simpa [hc] using ⟨o, ho, rfl⟩, p, by simp [hc, hp]⟩

/-- what a root slot's key finds: the walk below the root table, from the key's slot in it -/
theorem lookup_of_root {r n : Nat} (hroot : u.slot (0, r) = some (.table .root n)) :
    u.lookup r k = u.walk k [.byte, .mandatory, .modrm, .modrmLow, .vex] (u.slot (n, k.map)) := by
  simp only [lookup, TableKind.order, hroot, walk_cons, enter_table]
  rfl

/-- the word of a slot is written as its entry, at offsets that are multiples of four -/
theorem encodes_slotWord {j last : Nat} (hp : Placed u j offs last) {s : Slot} {w : Int}
    (hw : slotWord offs s = .ok w) : Encodes offs (some s) ((w % 8).toNat, (w / 8 * 4).toNat) := by
  rcases s with d | d | ⟨c, m⟩
  · cases hw
    simp only [Encodes, Prod.mk.injEq]
    omega
  · cases hw
    simp only [Encodes, Prod.mk.injEq]
    omega
  · simp only [slotWord] at hw
    split at hw
    · rename_i o ho
      cases hw
      have h4 := (hp.placed m o ho).2.1
      refine ⟨o, ho, ?_⟩
      simp only [Prod.mk.injEq]
      cases c <;> simp only [TableKind.code] <;> omega
    · cases hw

/-- a mapping in which each step fails or gives a value without changing the trie gives, when
it goes through, each element's value -/
theorem mapM_run_ok {α β : Type} {f : α → TrieM β} :
    ∀ {L : List α} {ys : List β} {t t' : Trie}, (L.mapM f).run t = .ok ys t' →
      (∀ x y t t', (f x).run t = .ok y t' → t' = t) →
      t' = t ∧ List.Forall₂ (fun x y => (f x).run t = .ok y t) L ys := by
  intro L
  induction L with
  | nil =>
    intro ys t t' h _
    cases h
    exact ⟨rfl, .nil⟩
  | cons x L ih =>
    intro ys t t' h hf
    rw [List.mapM_cons] at h
    obtain ⟨y, t₁, hx, h⟩ := TrieM.bind_ok h
    obtain ⟨ys', t₂, hL, h⟩ := TrieM.bind_ok h
    cases h
    obtain rfl := hf x y t t₁ hx
    obtain ⟨rfl, hall⟩ := ih hL hf
    exact ⟨rfl, .cons hx hall⟩

/-- an element of the right of two related lists has one of the left at its position -/
theorem forall₂_getElem?_right {α β : Type} {R : α → β → Prop} :
    ∀ {l₁ : List α} {l₂ : List β}, List.Forall₂ R l₁ l₂ → ∀ {i : Nat} {b : β}, l₂[i]? = some b →
      ∃ a, l₁[i]? = some a ∧ R a b
  | _, _, .nil, _, _, h => by cases h
  | _, _, .cons hab _, 0, _, h => by cases h; exact ⟨_, rfl, hab⟩
  | _, _, .cons _ hrest, i + 1, _, h => forall₂_getElem?_right hrest h

/-- **Laying out.** Laying out a trie writes the words `Laid` asks for at the offsets it places
the tables at, and gives one root offset per root slot: the offset of the table the slot names. -/
theorem layout_laid {img : Image} {u' : Trie} (h : layout.run u = .ok img u') :
    Laid u (offsets u).1 img.words ∧ (∀ w, u.tableSize 0 = some w → img.roots.length = w) ∧
      ∀ r x, img.roots[r]? = some x → ∃ s i, u.slot (0, r) = some s ∧
        seqIndex (offsets u).1.size s.value = some i ∧ x = (offsets u).1[i]?.join := by
  have hp := offsets_placed u
  unfold layout at h
  obtain ⟨x, t₁, hget, h⟩ := TrieM.bind_ok h
  cases hget
  rcases hoffs : u.offsets with ⟨offs, size⟩
  rw [hoffs] at h hp
  dsimp only at h
  split_ifs at h with hsize
  · obtain ⟨_, _, h₀, -⟩ := TrieM.bind_ok h
    cases h₀
  split at h
  rotate_left
  · obtain ⟨_, _, h₀, -⟩ := TrieM.bind_ok h
    cases h₀
  rename_i words hw
  rw [pure_bind] at h
  obtain ⟨roots, t₂, hroots, h⟩ := TrieM.bind_ok h
  cases h
  have hwr := writeTables_ok hp (List.range u.tables.size) List.nodup_range hw
  -- each root offset is read off its root slot without changing the trie
  obtain ⟨-, hall⟩ := mapM_run_ok hroots fun x y t t' h => by
    split at h
    · cases h
    · split at h
      · cases h; rfl
      · cases h
  refine ⟨⟨fun n o ho => ?_, fun n o tab q ho htab hq => ?_⟩, fun w hw0 => ?_, fun r x hx => ?_⟩
  · obtain ⟨-, -, tab, htab, hle⟩ := hp.placed n o ho
    exact ⟨tab, htab, by simpa [hwr.size] using hle⟩
  · -- a slot's word, or zero for an empty slot
    have hn : n ∈ List.range u.tables.size :=
      List.mem_range.2 (Array.getElem?_eq_some_iff.1 htab).1
    obtain ⟨-, -, tab', htab', hle⟩ := hp.placed n o ho
    rw [htab] at htab'
    cases htab'
    have hin : o + q < size := by omega
    rcases hq' : tab[q]? with _ | _ | s
    · exact absurd hq' (by simp [hq])
    · refine ⟨(0, 0), ?_, ?_⟩
      · rw [wordEntry, hwr.empty n hn o tab ho htab q hq']
        simp [hin]
      · rw [slot_of_getElem? htab, hq']
        rfl
    · obtain ⟨w, hw', hwq⟩ := hwr.full n hn o tab ho htab q s hq'
      refine ⟨_, by rw [wordEntry, hwq (by simpa using hin)]; rfl, ?_⟩
      rw [slot_of_getElem? htab, hq']
      exact encodes_slotWord hp hw'
  · -- one root offset per root slot
    obtain ⟨tab0, h0, rfl⟩ := Option.map_eq_some_iff.1 hw0
    rw [h0] at hall
    simpa using hall.length_eq.symm
  · -- the root slot the offset was read off
    obtain ⟨y, hy, hrel⟩ := forall₂_getElem?_right hall hx
    rcases h0 : u.tables[0]?.join with _ | tab0
    · rw [h0] at hy
      simp at hy
    rw [h0, Option.getD_some, Array.getElem?_toList] at hy
    have hslot : u.slot (0, r) = y := by
      rcases h1 : u.tables[0]? with _ | _ | tab1 <;> rw [h1] at h0 <;> cases h0
      rw [slot_of_getElem? h1, hy]
      rfl
    split at hrel
    · cases hrel
    · rename_i s
      split at hrel
      · rename_i i hi
        cases hrel
        exact ⟨s, i, hslot, hi, rfl⟩
      · cases hrel

/-! ## The decoder's reading of the words

The decoder keeps the words to 16 bits and reads a missing word as 0 (`Decoder.Tables.step`).
Where the words fit, it reads every entry `wordEntry` reads, and its walk from a root whose
entry for the opcode map is empty or a table of opcode bytes is the walk over words, for the
key made of the prefixes, the opcode byte and the byte after it. -/

end Trie

/-- the key the decoder walks the tables with for the opcode byte at `off`: the opcode map and
mandatory prefix of the prefixes, the opcode byte, the byte after it as ModRM byte, and REX.W
and VEX.L -/
def Decoder.Prefixes.tableKey (p : Prefixes) (w : Window) (off : Nat) : TableKey :=
  { map := p.escape, byte := w.byte off, mandatory := p.mandatory, modrm := w.byte (off + 1),
    w := hasBit p.rex Rex.w, l := hasBit p.rex Rex.vexL }

namespace Trie

section Decoder

variable {T : Tables} {words : Array Int}

/-- tables holding the words kept to 16 bits read, where the words fit, every entry `wordEntry`
reads -/
theorem step_eq_of_wordEntry (hT : T.words = words.map fun x => (x % 65536).toNat)
    (hfit : ∀ x ∈ words, 0 ≤ x ∧ x < 65536) {table idx : Nat} {e : Nat × Nat}
    (h : wordEntry words table idx = some e) : T.step table idx = e := by
  obtain ⟨x, hx, rfl⟩ := Option.map_eq_some_iff.1 h
  obtain ⟨h0, h1⟩ := hfit x (Array.mem_of_getElem? hx)
  simp only [Tables.step, hT, Array.getD_eq_getD_getElem?, Array.getElem?_map, hx, Option.map_some,
    Option.getD_some, Prod.mk.injEq]
  omega

/-- one level: the decoder's choice between entering a table and keeping the entry -/
theorem ite_step_eq (hstep : ∀ table idx e, wordEntry words table idx = some e → T.step table idx = e)
    {kind idx : Nat} {e e' : Nat × Nat} (h : stepWord words kind idx e = some e') :
    (if e.1 = kind then T.step e.2 idx else e) = e' := by
  unfold stepWord at h
  split_ifs at h ⊢
  · exact hstep _ _ _ h
  · exact Option.some.inj h

/-- the levels after the opcode byte: the mandatory prefix, the ModRM byte at `off` and VEX.W
and VEX.L -/
theorem walkEntry_eq (hstep : ∀ table idx e, wordEntry words table idx = some e → T.step table idx = e)
    {w : Window} {p : Prefixes} {off : Nat} (hoff : off < w.len) {e₁ e₂ e₄ e : Nat × Nat}
    (h₂ : stepWord words WordKind.mandatory p.mandatory e₁ = some e₂)
    (h₄ : modrmWords words (w.byte off) e₂ = some e₄)
    (h₅ : stepWord words WordKind.vex p.vexIndex e₄ = some e) : walkEntry T w p e₁ off = e := by
  have hm₄ : (if e₂.1 = WordKind.modrm ∧ off < w.len then T.modrmEntry e₂.2 (w.byte off) else e₂) =
      e₄ := by
    unfold modrmWords at h₄
    by_cases hk : e₂.1 = WordKind.modrm
    · -- the reg-field table, and below it the rm table where its entry names one
      rw [if_pos hk, Option.bind_eq_bind, Option.bind_eq_some_iff] at h₄
      obtain ⟨⟨k₃, i₃⟩, h₃, h₄⟩ := h₄
      have hs₃ : T.step e₂.2 (TableKey.modrmSlot (w.byte off)) = (k₃, i₃) := hstep _ _ _ h₃
      unfold TableKey.modrmSlot at hs₃
      rw [if_pos ⟨hk, hoff⟩, Tables.modrmEntry, hs₃]
      exact ite_step_eq hstep h₄
    · rw [if_neg hk] at h₄
      rw [if_neg fun h => hk h.1]
      exact Option.some.inj h₄
  unfold walkEntry Tables.vexEntry
  dsimp only
  rw [ite_step_eq hstep h₂, hm₄]
  exact ite_step_eq hstep h₅

/-- **The decoder's walk is the walk over words.** Tables holding words that fit in 16 bits,
such as the tables the decoder reads from built tables (`Decoder.Tables.ofBuilt`), walk as the
words do: where the opcode byte and the byte after it are in the window and the root's entry for
the opcode map is empty or a table of opcode bytes, the decoder's walk ends on the descriptor of
the entry the walk over words ends on. -/
theorem walk_eq_instrAt (hT : T.words = words.map fun x => (x % 65536).toNat)
    (hfit : ∀ x ∈ words, 0 ≤ x ∧ x < 65536) {root : Nat} {w : Window} {p : Prefixes} {off : Nat}
    (hoff : off + 1 < w.len)
    (hroot : (T.step root p.escape).1 = WordKind.empty ∨ (T.step root p.escape).1 = WordKind.byte)
    {e : Nat × Nat} (h : walkWords words root (p.tableKey w off) = some e) :
    Prod.fst <$> Decoder.walk T root w p off = T.instrAt e := by
  have hstep : ∀ table idx e, wordEntry words table idx = some e → T.step table idx = e :=
    fun _ _ _ => step_eq_of_wordEntry hT hfit
  simp only [walkWords, Option.bind_eq_bind, Option.bind_eq_some_iff] at h
  obtain ⟨e₄, ⟨e₂, ⟨e₁, ⟨e₀, h₀, h₁⟩, h₂⟩, h₄⟩, h₅⟩ := h
  have hs₀ : T.step root p.escape = e₀ := hstep _ _ _ h₀
  unfold Decoder.walk
  dsimp only
  rcases hroot with hk | hk
  · -- an empty entry: nothing is entered, and the decoder stops at it
    have hne : ∀ kind, kind ≠ WordKind.empty → e₀.1 ≠ kind := fun kind hne h =>
      hne (h.symm.trans (hs₀ ▸ hk))
    simp only [stepWord] at h₁ h₂ h₅
    rw [if_neg (hne _ (by decide))] at h₁
    cases h₁
    rw [if_neg (hne _ (by decide))] at h₂
    cases h₂
    rw [modrmWords, if_neg (hne _ (by decide))] at h₄
    cases h₄
    rw [if_neg (hne _ (by decide))] at h₅
    cases h₅
    rw [hs₀, if_neg fun h => hne _ (by decide) h.1]
    have he : e = (WordKind.empty, e.2) := Prod.ext (hs₀ ▸ hk) rfl
    rw [he, walkEntry_empty, ← comp_map]
    exact id_map _
  · -- a table of opcode bytes: the decoder reads the opcode byte and walks on from its entry
    rw [hs₀] at hk
    rw [stepWord, if_pos hk] at h₁
    have hs₁ : T.step e₀.2 (w.byte off) = e₁ := hstep _ _ _ h₁
    rw [hs₀, if_pos ⟨hk, by omega⟩, hs₁,
      walkEntry_eq hstep hoff h₂ h₄ h₅, ← comp_map]
    exact id_map _

end Decoder

end Trie

end X86Codec
