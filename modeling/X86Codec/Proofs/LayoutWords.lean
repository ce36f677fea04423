import X86Codec.Proofs.BuiltTables
/-!
The words of a laid-out trie, and when laying out goes through.

Laying out gives an offset to each table past table 0 that is present and has slots
(`LaidOut`), a multiple of four, with no two tables' words overlapping. It fails at once when
the words reach 0x8000, and it fails when a root slot is empty, since each root slot names the
offset of its root table. On a trie whose root slots hold links to root tables and whose links
lead to laid-out tables (`Resolved`) those are its only failures. Every trie made by additions
and merged at most once, with its links leading to present tables, is resolved.

The words it gives (`Packed`) are zero exactly at empty slots and padding, hold each slot's
entry as the decoder reads it (`Laid`), and fit in 16 bits when every descriptor number is
below 8192. Descriptor numbers are not checked: descriptor 8192 makes the word 65537.

Main statements:
* `offsets_laidOut`: the tables given an offset are exactly the laid-out ones.
* `layout_isOk_iff`: a resolved trie lays out exactly when its words stay below 0x8000 and its
  root slots are full.
* `layout_packed`: the words of a layout that goes through are `Packed`.
* `layout_packs`: for tries made by additions and at most one merge, with links to present
  tables, when laying out fails and what its words hold.
-/

namespace X86Codec

namespace TrieM

variable {α β : Type} {t u : Trie}

theorem run_get_bind {k : Trie → TrieM α} : (get >>= k).run t = (k t).run t := rfl

/-- a computation that gives a value and keeps the trie, followed by one that does the same
for every value, does the same -/
theorem bind_isOk {x : TrieM α} {f : α → TrieM β} (hx : ∃ a, x.run t = .ok a t)
    (hf : ∀ a, ∃ b, (f a).run t = .ok b t) : ∃ b, (x >>= f).run t = .ok b t := by
  obtain ⟨a, ha⟩ := hx
  rw [run_bind_of_ok ha]
  exact hf a

/-- a mapping in which every step gives a value and keeps the trie goes through -/
theorem mapM_isOk {f : α → TrieM β} :
    ∀ (L : List α), (∀ x ∈ L, ∃ y, (f x).run t = .ok y t) → ∃ ys, (L.mapM f).run t = .ok ys t := by
  intro L
  induction L with
  | nil => exact fun _ => ⟨[], rfl⟩
  | cons x L ih =>
    intro h
    rw [List.mapM_cons]
    refine bind_isOk (h x (.head _)) fun y => bind_isOk (ih fun x' hx' => h x' (.tail _ hx'))
      fun ys => ⟨y :: ys, rfl⟩

end TrieM

namespace Trie

variable {t u : Trie}

/-! ## Tables that are laid out -/

/-- a table that laying out places: present, with slots, and not table 0 of the root slots -/
def LaidOut (u : Trie) (m : Nat) : Prop :=
  0 < m ∧ ∃ tab : Array (Option Slot), u.tables[m]? = some (some tab) ∧ 0 < tab.size

/-- every link leads to a present table -/
def LinksLive (u : Trie) : Prop :=
  ∀ p b m, u.slot p = some (.table b m) → ∃ tab, u.tables[m]? = some (some tab)

theorem LaidOut.lt_size {m : Nat} (h : u.LaidOut m) : m < u.tables.size := by
  obtain ⟨-, tab, htab, -⟩ := h
  exact (Array.getElem?_eq_some_iff.1 htab).1

/-- a link of a shaped trie leads to a laid-out table, of its kind's length -/
theorem Shaped.link_laidOut (hs : u.Shaped) {p : Nat × Nat} {b : TableKind} {m : Nat}
    (h : u.slot p = some (.table b m)) : u.LaidOut m := by
  obtain ⟨hm, hsize⟩ := hs.noted_table b m (hs.link_noted p b m h)
  obtain ⟨tab, htab, hlen⟩ := tables_of_tableSize hsize
  exact ⟨hm, tab, htab, by have := b.four_le_length; omega⟩

theorem Shaped.linksLive (hs : u.Shaped) : u.LinksLive := fun _ _ _ h =>
  (hs.link_laidOut h).2.imp fun _ htab => htab.1

theorem size_place (x : Array (Option Nat) × Nat) (j : Nat) : (t.place x j).1.size = x.1.size := by
  rcases x with ⟨offs, last⟩
  simp only [place]
  split_ifs
  · rfl
  · split
    · split_ifs
      · rfl
      · exact Array.size_setIfInBounds
    · rfl

/-- placing table `j` gives it an offset exactly when it is laid out, and keeps the others' -/
theorem placed_place_iff {x : Array (Option Nat) × Nat} {j : Nat} (hj : j < x.1.size) (m : Nat) :
    (∃ o, (t.place x j).1[m]? = some (some o)) ↔
      (∃ o, x.1[m]? = some (some o)) ∨ (m = j ∧ t.LaidOut j) := by
  rcases x with ⟨offs, last⟩
  -- a table that is not laid out is passed over
  have hkeep : ¬ t.LaidOut j → ((∃ o, offs[m]? = some (some o)) ↔
      (∃ o, offs[m]? = some (some o)) ∨ (m = j ∧ t.LaidOut j)) := fun hl =>
    ⟨.inl, fun h => h.resolve_right fun h' => hl h'.2⟩
  simp only [place]
  split_ifs with h0
  · exact hkeep fun hl => absurd hl.1 (by omega)
  split
  · rename_i tab htab
    split_ifs with hempty
    · exact hkeep fun hl => by
        obtain ⟨-, tab', htab', hpos⟩ := hl
        rw [htab] at htab'
        cases htab'
        exact absurd (Array.isEmpty_iff_size_eq_zero.1 hempty) (by omega)
    · have hl : t.LaidOut j := ⟨Nat.pos_of_ne_zero h0, tab, htab,
        Nat.pos_of_ne_zero fun h => hempty (Array.isEmpty_iff_size_eq_zero.2 h)⟩
      rw [Array.getElem?_setIfInBounds]
      by_cases hm : m = j
      · subst hm
        simp [hj, hl]
      · simp [Ne.symm hm, hm]
  · rename_i hne
    exact hkeep fun hl => by
      obtain ⟨-, tab, htab, -⟩ := hl
      exact hne tab htab

/-- **Which tables are placed.** The offsets give a table an offset exactly when it is laid
out. -/
theorem offsets_laidOut (u : Trie) (m : Nat) :
    (∃ o, (offsets u).1[m]? = some (some o)) ↔ u.LaidOut m := by
  -- after the tables before `j`, the tables with an offset are the laid-out ones before `j`
  have hfold : ∀ j ≤ u.tables.size,
      ((List.range j).foldl u.place (Array.replicate u.tables.size none, 0)).1.size =
        u.tables.size ∧
      ∀ m, (∃ o, ((List.range j).foldl u.place
        (Array.replicate u.tables.size none, 0)).1[m]? = some (some o)) ↔ m < j ∧ u.LaidOut m := by
    intro j hj
    induction j with
    | zero => exact ⟨Array.size_replicate, fun m => by simp [Array.getElem?_replicate]⟩
    | succ j ih =>
      obtain ⟨hsize, hiff⟩ := ih (by omega)
      rw [List.range_succ, List.foldl_append, List.foldl_cons, List.foldl_nil]
      refine ⟨(size_place _ j).trans hsize, fun m => ?_⟩
      rw [placed_place_iff (by omega) m, hiff m]
      constructor
      · rintro (⟨hm, hl⟩ | ⟨rfl, hl⟩)
        · exact ⟨by omega, hl⟩
        · exact ⟨by omega, hl⟩
      · rintro ⟨hm, hl⟩
        rcases Nat.lt_succ_iff_lt_or_eq.1 hm with hm | rfl
        · exact .inl ⟨hm, hl⟩
        · exact .inr ⟨rfl, hl⟩
  rw [offsets, (hfold _ le_rfl).2 m]
  exact ⟨And.right, fun hl => ⟨hl.lt_size, hl⟩⟩

/-! ## Words of slots -/

/-- a slot's word is never zero: a descriptor's is odd, and a link's has its kind's code, which
is not zero, in the three low bits -/
theorem slotWord_ne_zero {offs : Array (Option Nat)} {s : Slot} {w : Int}
    (h : slotWord offs s = .ok w) : w ≠ 0 := by
  rcases s with d | d | ⟨c, m⟩
  · cases h; omega
  · cases h; omega
  · simp only [slotWord] at h
    split at h
    · cases h
      cases c <;> simp only [TableKind.code] <;> omega
    · cases h

/-- a slot's word fits in 16 bits when its descriptor number is below 8192, or when its target
is at a multiple of four below 0x8000 -/
theorem slotWord_bounds {offs : Array (Option Nat)} {s : Slot} {w : Int}
    (h : slotWord offs s = .ok w) (hdesc : ∀ d, s = .instr d ∨ s = .weak d → 0 ≤ d ∧ d < 8192)
    (htarget : ∀ c m o, s = .table c m → offs[m]? = some (some o) → o % 4 = 0 ∧ o < 0x8000) :
    0 ≤ w ∧ w < 0x10000 := by
  rcases s with d | d | ⟨c, m⟩
  · cases h
    have := hdesc d (.inl rfl)
    omega
  · cases h
    have := hdesc d (.inr rfl)
    omega
  · simp only [slotWord] at h
    split at h
    · rename_i o ho
      cases h
      have := htarget c m o rfl ho
      cases c <;> simp only [TableKind.code] <;> omega
    · cases h

/-- a slot has a word when it is a descriptor or links to a table with an offset -/
theorem slotWord_isOk {offs : Array (Option Nat)} {s : Slot}
    (h : ∀ c m, s = .table c m → ∃ o, offs[m]? = some (some o)) : ∃ w, slotWord offs s = .ok w := by
  rcases s with d | d | ⟨c, m⟩
  · exact ⟨_, rfl⟩
  · exact ⟨_, rfl⟩
  · obtain ⟨o, ho⟩ := h c m rfl
    refine ⟨o * 2 + c.code % 8, ?_⟩
    simp only [slotWord, ho]

/-! ## Writing goes through -/

/-- writing slots goes through when every full slot has a word -/
theorem writeSlots_isOk {offs : Array (Option Nat)} (off : Nat) (xs : List (Option Slot))
    (h : ∀ s, some s ∈ xs → ∃ w, slotWord offs s = .ok w) :
    ∀ (i : Nat) (words : Array Int), ∃ words', writeSlots offs off (xs.zipIdx i) words = .ok words' := by
  induction xs with
  | nil => exact fun _ words => ⟨words, rfl⟩
  | cons x xs ih =>
    intro i words
    have hrest := ih fun s hs => h s (.tail _ hs)
    rw [List.zipIdx_cons]
    rcases x with _ | s
    · exact hrest (i + 1) words
    · obtain ⟨w, hw⟩ := h s (.head _)
      simp only [writeSlots, hw, bind, Except.bind]
      exact hrest (i + 1) _

/-- writing tables goes through when every full slot has a word -/
theorem writeTables_isOk {offs : Array (Option Nat)}
    (h : ∀ n q s, t.slot (n, q) = some s → ∃ w, slotWord offs s = .ok w) :
    ∀ (L : List Nat) (words : Array Int), ∃ words', writeTables t offs L words = .ok words' := by
  intro L
  induction L with
  | nil => exact fun words => ⟨words, rfl⟩
  | cons num rest ih =>
    intro words
    unfold writeTables
    split
    · rename_i off tab ho htab
      -- a full slot of the table is a slot of the trie
      obtain ⟨words₁, h₁⟩ := writeSlots_isOk off tab.toList (fun s hs => by
        obtain ⟨q, hq⟩ := List.mem_iff_getElem?.1 hs
        exact h num q s (by rw [slot_of_getElem? htab, ← Array.getElem?_toList, hq]; rfl)) 0 words
      simp only [h₁, bind, Except.bind]
      exact ih words₁
    · exact ih words

/-! ## The words written over zeros -/

section Written

variable {j last size : Nat} {offs : Array (Option Nat)} {L : List Nat} {words : Array Int}

/-- a full slot of a placed table has its word at its position -/
theorem Written.full_word (hp : Placed u j offs last)
    (hw : Written u offs L (Array.replicate size 0) words)
    (hL : ∀ m o, offs[m]? = some (some o) → m ∈ L) {m o q : Nat} {s : Slot}
    (ho : offs[m]? = some (some o)) (hs : u.slot (m, q) = some s) (hin : o + q < size) :
    ∃ w, slotWord offs s = .ok w ∧ words[o + q]? = some w := by
  obtain ⟨-, -, tab, htab, -⟩ := hp.placed m o ho
  have hq : tab[q]? = some (some s) := by
    rw [slot_of_getElem? htab] at hs
    exact Option.join_eq_some_iff.1 hs
  obtain ⟨w, hw', hin'⟩ := hw.full m (hL m o ho) o tab ho htab q s hq
  exact ⟨w, hw', hin' (by simpa using hin)⟩

/-- **What a word is.** A word written over zeros is zero, or the word of the full slot of a
placed table at its position. -/
theorem Written.word_cases (hp : Placed u j offs last)
    (hw : Written u offs L (Array.replicate size 0) words)
    (hL : ∀ m o, offs[m]? = some (some o) → m ∈ L) {p : Nat} (hp' : p < size) :
    words[p]? = some 0 ∨ ∃ m o q s w, offs[m]? = some (some o) ∧ p = o + q ∧
      u.slot (m, q) = some s ∧ slotWord offs s = .ok w ∧ words[p]? = some w := by
  have hzero : (Array.replicate size (0 : Int))[p]? = some 0 := by
    simp [hp']
  by_cases hin : ∃ m o : Nat, ∃ tab : Array (Option Slot), offs[m]? = some (some o) ∧
      u.tables[m]? = some (some tab) ∧ o ≤ p ∧ p < o + tab.size
  · obtain ⟨m, o, tab, ho, htab, hle, hlt⟩ := hin
    obtain ⟨q, rfl⟩ := Nat.exists_eq_add_of_le hle
    rcases hq : tab[q]? with _ | _ | s
    · exact absurd (Array.getElem?_eq_none_iff.1 hq) (by omega)
    · -- an empty slot keeps its zero
      left
      rw [hw.empty m (hL m o ho) o tab ho htab q hq]
      exact hzero
    · right
      have hs : u.slot (m, q) = some s := by rw [slot_of_getElem? htab, hq]; rfl
      obtain ⟨w, hw', hpw⟩ := hw.full_word hp hL ho hs hp'
      exact ⟨m, o, q, s, w, ho, rfl, hs, hw', hpw⟩
  · -- outside every placed table the word stays zero
    left
    rw [hw.frame p fun n _ o tab ho htab => ?_]
    · exact hzero
    · by_contra hc
      exact hin ⟨n, o, tab, ho, htab, by omega, by omega⟩

/-- a word written over zeros is zero exactly where no placed table has a full slot -/
theorem Written.zero_iff (hp : Placed u j offs last)
    (hw : Written u offs L (Array.replicate size 0) words)
    (hL : ∀ m o, offs[m]? = some (some o) → m ∈ L) {p : Nat} (hp' : p < size) :
    words[p]? = some 0 ↔ ∀ m o q, offs[m]? = some (some o) → p = o + q → u.slot (m, q) = none := by
  constructor
  · intro h0 m o q ho hpq
    rcases hs : u.slot (m, q) with _ | s
    · rfl
    · subst hpq
      obtain ⟨w, hw', hpw⟩ := hw.full_word hp hL ho hs hp'
      rw [h0] at hpw
      cases hpw
      exact absurd rfl (slotWord_ne_zero hw')
  · intro hnone
    rcases hw.word_cases hp hL hp' with h0 | ⟨m, o, q, s, w, ho, hpq, hs, -, -⟩
    · exact h0
    · rw [hnone m o q ho hpq] at hs
      cases hs

end Written

/-! ## Laying out -/

/-- what laying out needs of a trie to go through: its root slots hold nothing or links to root
tables, and its links lead to laid-out tables -/
structure Resolved (u : Trie) : Prop where
  roots : u.RootsLinked
  links : ∀ p b m, u.slot p = some (.table b m) → u.LaidOut m

/-- laying out fails at once when the words reach 0x8000 -/
theorem layout_tooLarge (h : 0x8000 ≤ (offsets u).2) :
    layout.run u = .error (.tableTooLarge (offsets u).2) u := by
  unfold layout
  rw [TrieM.run_get_bind]
  rcases hoffs : u.offsets with ⟨offs, size⟩
  rw [hoffs] at h
  dsimp only
  rw [if_pos h]
  rfl

/-- laying out goes through only below 0x8000 words, and its words are the placed tables'
written over zeros -/
theorem layout_ok_words {img : Image} {u' : Trie} (h : layout.run u = .ok img u') :
    (offsets u).2 < 0x8000 ∧
      writeTables u (offsets u).1 (List.range u.tables.size) (Array.replicate (offsets u).2 0) =
        .ok img.words := by
  unfold layout at h
  rw [TrieM.run_get_bind] at h
  rcases hoffs : u.offsets with ⟨offs, size⟩
  rw [hoffs] at h
  dsimp only at h
  split_ifs at h with hsize
  · obtain ⟨_, _, h₀, -⟩ := TrieM.bind_ok h
    cases h₀
  split at h
  rotate_left
  · obtain ⟨_, _, h₀, -⟩ := TrieM.bind_ok h
    cases h₀
  rename_i words hw
  rw [pure_bind] at h
  obtain ⟨roots, t₂, hroots, h⟩ := TrieM.bind_ok h
  cases h
  exact ⟨by omega, hw⟩

theorem seqIndex_of_lt {n j : Nat} (h : j < n) : seqIndex n j = some j := by
  simp [seqIndex, h]

/-- a resolved trie below 0x8000 words with its root slots full lays out, keeping the trie -/
theorem layout_ok_of_resolved (hr : u.Resolved) (hsize : (offsets u).2 < 0x8000) {w : Nat}
    (h0 : u.tableSize 0 = some w) (hfull : ∀ r < w, u.slot (0, r) ≠ none) :
    ∃ img, layout.run u = .ok img u := by
  -- every link leads to a placed table, so every slot has a word
  have hword : ∀ n q s, u.slot (n, q) = some s → ∃ w, slotWord (offsets u).1 s = .ok w :=
    fun n q s hs => slotWord_isOk fun c m hc =>
      (offsets_laidOut u m).2 (hr.links _ c m (hc ▸ hs))
  obtain ⟨words, hw⟩ := writeTables_isOk hword (List.range u.tables.size)
    (Array.replicate (offsets u).2 0)
  obtain ⟨tab0, htab0, rfl⟩ := tables_of_tableSize h0
  have hsz := (offsets_placed u).size
  unfold layout
  rw [TrieM.run_get_bind]
  rcases hoffs : u.offsets with ⟨offs, size⟩
  rw [hoffs] at hsize hw hsz
  dsimp only at hsize hw hsz ⊢
  rw [if_neg (by omega), hw]
  dsimp only
  rw [pure_bind, htab0, Option.join_some, Option.getD_some]
  refine TrieM.bind_isOk (TrieM.mapM_isOk _ fun x hx => ?_) fun roots => ⟨_, rfl⟩
  -- each root slot links to a laid-out root table, whose offset is read
  obtain ⟨r, hr'⟩ := List.mem_iff_getElem?.1 hx
  rw [Array.getElem?_toList] at hr'
  have hslot : u.slot (0, r) = x := by rw [slot_of_getElem? htab0, hr']; rfl
  have hlt : r < tab0.size := (Array.getElem?_eq_some_iff.1 hr').1
  rcases hr.roots r with hnone | ⟨m, hm⟩
  · exact absurd hnone (hfull r hlt)
  rw [hslot] at hm
  subst hm
  have hm' : m < offs.size := hsz ▸ (hr.links _ _ m hslot).lt_size
  simp only [Slot.value, seqIndex_of_lt hm']
  exact ⟨_, rfl⟩

/-- laying out goes through only below 0x8000 words and with every root slot full, since each
root slot gives its table's offset -/
theorem layout_ok_full {img : Image} {u' : Trie} (h : layout.run u = .ok img u') {w : Nat}
    (h0 : u.tableSize 0 = some w) : (offsets u).2 < 0x8000 ∧ ∀ r < w, u.slot (0, r) ≠ none := by
  obtain ⟨-, hlen, hroots⟩ := layout_laid h
  refine ⟨(layout_ok_words h).1, fun r hr hnone => ?_⟩
  have hr' : r < img.roots.length := by rw [hlen w h0]; exact hr
  obtain ⟨s, i, hs, -⟩ := hroots r _ (List.getElem?_eq_getElem hr')
  rw [hnone] at hs
  cases hs

/-- **When laying out goes through.** A resolved trie with `w` root slots lays out exactly when
its words stay below 0x8000 and its root slots are full. -/
theorem layout_isOk_iff (hr : u.Resolved) {w : Nat} (h0 : u.tableSize 0 = some w) :
    (∃ img u', layout.run u = .ok img u') ↔
      (offsets u).2 < 0x8000 ∧ ∀ r < w, u.slot (0, r) ≠ none := by
  constructor
  · rintro ⟨img, u', h⟩
    exact layout_ok_full h h0
  · rintro ⟨hsize, hfull⟩
    obtain ⟨img, h⟩ := layout_ok_of_resolved hr hsize h0 hfull
    exact ⟨img, u, h⟩

/-! ## The words -/

/-- the words of the trie `u` laid out at `offs`, as the decoder reads them back: fewer than
0x8000; an offset for exactly the laid-out tables, a multiple of four, with each table's words
inside and apart from the others'; a zero word exactly where no placed table has a full slot,
so at empty slots and padding; each placed table's slots written as their entries; and every
word in 16 bits when every descriptor number is below 8192 -/
structure Packed (u : Trie) (offs : Array (Option Nat)) (words : Array Int) : Prop where
  small : words.size < 0x8000
  placed : ∀ m, (∃ o, offs[m]? = some (some o)) ↔ u.LaidOut m
  aligned : ∀ (m o : Nat) (tab : Array (Option Slot)), offs[m]? = some (some o) →
    u.tables[m]? = some (some tab) → o % 4 = 0 ∧ o + tab.size ≤ words.size
  apart : ∀ (m m' o o' : Nat) (tab tab' : Array (Option Slot)), offs[m]? = some (some o) →
    offs[m']? = some (some o') → u.tables[m]? = some (some tab) →
    u.tables[m']? = some (some tab') → m ≠ m' → o + tab.size ≤ o' ∨ o' + tab'.size ≤ o
  zero : ∀ p < words.size, words[p]? = some 0 ↔
    ∀ m o q : Nat, offs[m]? = some (some o) → p = o + q → u.slot (m, q) = none
  laid : Laid u offs words
  fits : (∀ p d, u.slot p = some (.instr d) ∨ u.slot p = some (.weak d) → 0 ≤ d ∧ d < 8192) →
    ∀ w ∈ words, 0 ≤ w ∧ w < 0x10000

/-- **The words of a layout.** The words of a layout that goes through are packed. -/
theorem layout_packed {img : Image} {u' : Trie} (h : layout.run u = .ok img u') :
    Packed u (offsets u).1 img.words := by
  obtain ⟨hsmall, hw⟩ := layout_ok_words h
  have hp := offsets_placed u
  have hwr := writeTables_ok hp (List.range u.tables.size) List.nodup_range hw
  have hsize : img.words.size = (offsets u).2 := by rw [hwr.size, Array.size_replicate]
  have hL : ∀ m o, (offsets u).1[m]? = some (some o) → m ∈ List.range u.tables.size :=
    fun m o ho => List.mem_range.2 (hp.placed m o ho).1
  -- a placed table's words end below the words' end
  have hend : ∀ (m o : Nat) (tab : Array (Option Slot)), (offsets u).1[m]? = some (some o) →
      u.tables[m]? = some (some tab) → o % 4 = 0 ∧ o + tab.size ≤ img.words.size := by
    intro m o tab ho htab
    obtain ⟨-, h4, tab', htab', hle⟩ := hp.placed m o ho
    rw [htab] at htab'
    cases htab'
    exact ⟨h4, hsize ▸ hle⟩
  refine ⟨hsize ▸ hsmall, offsets_laidOut u, hend,
    fun m m' o o' tab tab' ho ho' ht ht' hne => hp.disjoint ho ho' ht ht' hne,
    fun p hp' => hwr.zero_iff hp hL (hsize ▸ hp'), (layout_laid h).1, fun hdesc w hw' => ?_⟩
  obtain ⟨p, hpw⟩ := Array.mem_iff_getElem?.1 hw'
  have hp' : p < (offsets u).2 := hsize ▸ (Array.getElem?_eq_some_iff.1 hpw).1
  rcases hwr.word_cases hp hL hp' with h0 | ⟨m, o, q, s, w', ho, -, hs, hsw, hpw'⟩
  · rw [hpw] at h0
    cases h0
    omega
  rw [hpw] at hpw'
  cases hpw'
  -- a descriptor's number is bounded, and a link's target is a laid-out table below the end
  refine slotWord_bounds hsw (fun d hd => hdesc (m, q) d ?_) fun c m' o' _ ho' => ?_
  · rcases hd with rfl | rfl
    · exact .inl hs
    · exact .inr hs
  obtain ⟨-, tab', htab', hpos⟩ := (offsets_laidOut u m').1 ⟨o', ho'⟩
  have := hend m' o' tab' ho' htab'
  omega

end Trie

/-! ## Tries made by additions and a merge -/

section Reachable

variable {t u : Trie}

open Trie in
/-- the root slots of a trie made by additions hold nothing or links to root tables, whether
each addition went through or failed part-way -/
theorem Reachable.rootsLinked {n : Int} (h : Reachable n t) : t.RootsLinked := by
  induction h with
  | empty => exact rootsLinked_empty n
  | added o d root weak ht hu ih =>
    have hb := ht.built
    rw [add_root hb.roots] at hu
    rcases hi : seqIndex n.toNat root with _ | i <;> simp only [hi] at hu
    · cases hu
    · exact (add_ok hu hb.shaped hb.once o.path_sound).rootsLinked ih
  | failed o d root weak e ht hu ih =>
    have hb := ht.built
    rw [add_root hb.roots] at hu
    rcases hi : seqIndex n.toNat root with _ | i <;> simp only [hi] at hu
    · cases hu
      exact ih
    · intro r
      rcases add_error_root hu hb.shaped hb.once o.path_sound r with he | ⟨-, m, hm⟩
      · rw [he]
        exact ih r
      · exact .inr ⟨m, hm⟩

open Trie in
/-- **Ready to lay out.** A trie made by additions with `n` root slots and then merged at most
once, whose links lead to present tables, is resolved and keeps its `n` root slots. Before a
merge every link leads to a present table anyway; a merge drops tables. -/
theorem Reachable.resolved {n : Int} (ht : Reachable n t) (hu : u = t ∨ merge.run t = .ok () u)
    (hlive : u.LinksLive) : u.Resolved ∧ u.tableSize 0 = some n.toNat := by
  have hb := ht.built
  rcases hu with rfl | hm
  · exact ⟨⟨ht.rootsLinked, fun _ _ _ h => hb.shaped.link_laidOut h⟩, hb.roots⟩
  obtain ⟨syn, hmerged⟩ := merge_ok hm hb.shaped
  have h0 : u.tables[0]? = t.tables[0]? := merge_table_zero hm hb.shaped
  refine ⟨⟨fun r => ?_, fun p b m h => ?_⟩, ?_⟩
  · rw [slot_congr h0]
    exact ht.rootsLinked r
  · -- a link leads to a table noted under its kind, which kept its kind's length
    obtain ⟨hnoted, -, -⟩ := hmerged.links p.1 p.2 b m h
    obtain ⟨hpos, hsize⟩ := hb.shaped.noted_table b m hnoted
    obtain ⟨tab, htab⟩ := hlive p b m h
    have hlen : tab.size = b.length := by
      rw [hmerged.sizes m tab htab] at hsize
      exact Option.some.inj hsize
    exact ⟨hpos, tab, htab, by have := b.four_le_length; omega⟩
  · show (u.tables[0]?.join).map Array.size = _
    rw [h0]
    exact hb.roots

end Reachable

namespace Trie

/-- **Laying out a built trie.** Take a trie made from an empty trie with `n` root slots by
additions, each going through or failing part-way, and then merged at most once, with every
link leading to a present table. Laying it out fails with the size error when its words reach
0x8000, and it fails exactly when they do or a root slot is empty. When it goes through, its
words are packed: the laid-out tables sit at multiples of four, apart, inside fewer than 0x8000
words; a word is zero exactly at empty slots and padding; every slot is written as the entry
the decoder reads; and every word fits in 16 bits when every descriptor number is below 8192. -/
theorem layout_packs {n : Int} {t u : Trie} (ht : Reachable n t)
    (hu : u = t ∨ merge.run t = .ok () u) (hlive : u.LinksLive) :
    (0x8000 ≤ (offsets u).2 → layout.run u = .error (.tableTooLarge (offsets u).2) u) ∧
    ((∃ e u', layout.run u = .error e u') ↔
      0x8000 ≤ (offsets u).2 ∨ ∃ r < n.toNat, u.slot (0, r) = none) ∧
    ∀ img u', layout.run u = .ok img u' → Packed u (offsets u).1 img.words := by
  obtain ⟨hr, h0⟩ := ht.resolved hu hlive
  refine ⟨layout_tooLarge, ?_, fun img u' h => layout_packed h⟩
  -- a run fails exactly when it does not go through
  have herr : (∃ e u', layout.run u = .error e u') ↔ ¬ ∃ img u', layout.run u = .ok img u' := by
    cases layout.run u <;> simp
  rw [herr, layout_isOk_iff hr h0, not_and_or, not_lt]
  simp only [not_forall, not_not, exists_prop]

/-- the trie adding the pattern `90` for descriptor 0 under the first of two root slots makes:
the second root slot stays empty -/
def nopFirstOfTwo : Trie :=
  { tables := #[some #[some (.table .root 1), none],
      some ((Array.replicate 8 none).setIfInBounds 0 (some (.table .byte 2))),
      some ((Array.replicate 256 none).setIfInBounds 0x90 (some (.instr 0)))],
    kinds := #[(.root, #[1]), (.byte, #[2])] }

/-- the trie adding the pattern `90` for descriptor 8192 under one root slot makes -/
def nopWide : Trie :=
  { tables := #[some #[some (.table .root 1)],
      some ((Array.replicate 8 none).setIfInBounds 0 (some (.table .byte 2))),
      some ((Array.replicate 256 none).setIfInBounds 0x90 (some (.instr 8192)))],
    kinds := #[(.root, #[1]), (.byte, #[2])] }

set_option maxRecDepth 20000 in
/-- Laying out fails short of 0x8000 words, and a word can leave 16 bits. With two root slots
and the pattern `90` added under the first only, the words number 264, but laying out fails on
the empty second root slot. With descriptor 8192, the pattern's word is 65537. Both tries are
made by one addition and link only to present tables. -/
theorem layout_fails_below_limit_and_overflows :
    (Reachable 2 nopFirstOfTwo ∧ nopFirstOfTwo.LinksLive ∧ (offsets nopFirstOfTwo).2 = 264 ∧
      layout.run nopFirstOfTwo = .error .emptyRoot nopFirstOfTwo) ∧
    (Reachable 1 nopWide ∧ nopWide.LinksLive ∧
      ∃ img, layout.run nopWide = .ok img nopWide ∧ img.words[152]? = some 65537) := by
  have h₂ : Reachable 2 nopFirstOfTwo := .added Opcode.nop 0 0 false .empty (by with_unfolding_all rfl)
  have h₁ : Reachable 1 nopWide := .added Opcode.nop 8192 0 false .empty (by with_unfolding_all rfl)
  refine ⟨⟨h₂, h₂.built.shaped.linksLive, by decide, by with_unfolding_all rfl⟩,
    h₁, h₁.built.shaped.linksLive, _, by with_unfolding_all rfl, by with_unfolding_all rfl⟩

/-- the trie of a weak and then a strong entry for the pattern `90` under one root slot is made
by two additions, and laying it out goes through with packed words -/
theorem strong_over_weak_layout_packs :
    Reachable 1 strongOverWeakTrie ∧
      (strongOverWeakTrie = strongOverWeakTrie ∨
        merge.run strongOverWeakTrie = .ok () strongOverWeakTrie) ∧
      strongOverWeakTrie.LinksLive ∧
      (0x8000 ≤ (offsets strongOverWeakTrie).2 → layout.run strongOverWeakTrie =
        .error (.tableTooLarge (offsets strongOverWeakTrie).2) strongOverWeakTrie) ∧
      ((∃ e u', layout.run strongOverWeakTrie = .error e u') ↔
        0x8000 ≤ (offsets strongOverWeakTrie).2 ∨
          ∃ r < (1 : Int).toNat, strongOverWeakTrie.slot (0, r) = none) ∧
      ∀ img u', layout.run strongOverWeakTrie = .ok img u' →
        Packed strongOverWeakTrie (offsets strongOverWeakTrie).1 img.words := by
  have ht : Reachable 1 strongOverWeakTrie :=
    .added Opcode.nop 1 0 false weakNopTrie_reachable add_strong_over_weak
  exact ⟨ht, .inl rfl, ht.built.shaped.linksLive,
    layout_packs ht (.inl rfl) ht.built.shaped.linksLive⟩

end Trie

end X86Codec
