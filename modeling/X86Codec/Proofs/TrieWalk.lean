import Mathlib.Tactic
import X86Codec.DecodeTable.Trie
/-!
Keys and walks in the decoder's trie, and what each primitive update of a trie does to it.

A key names one slot at every level of the tables: the opcode map, the opcode byte, the
mandatory prefix, the ModRM byte (its reg field and register form, then its rm field) and the
W and L bits. A key's walk visits the levels in order. At each level a slot holding a table of
the level's kind is entered at the key's slot for the level, and anything else is kept. The
walk is given on slot contents (`Trie.walk`) and on positions (`Trie.pos`); `Trie.lookup` is
what a key finds under a root slot.

`Trie.Shaped` gathers the shape of every trie that paths are added to: each table is noted
under one kind, with a table of that kind's length; links carry their target's kind; a table
only links to tables of later kinds; and the root slots hold root tables. Between updates, also
no table is linked from two slots (`Trie.LinksOnce`).

Main statements:
* `Trie.slot_pos`: the content at the end of a walk over positions is the walk over contents.
* `Trie.walk_congr`: tries that agree on a set of tables closed under links walk alike from any
  content leading into the set.
* `Trie.kindList_noteKind`: noting a table appends it to its kind's list and no other.
* the inversion lemmas `addTable_ok`, `setSlot_ok`, `setTable_ok`, `slotsOf_ok`, `position_ok`
  and `kindTables_ok`, and the slot lemmas `slot_push`, `slot_setSlot` and `slot_setTable`.
-/

namespace X86Codec

namespace TableKind

/-- the place of a kind in `order` -/
def rank : TableKind → Nat
  | root => 0 | byte => 1 | mandatory => 2 | modrm => 3 | modrmLow => 4 | vex => 5

/-- a table of kind `a` may hold a link to a table of kind `b`: `b` comes later, a table of
ModRM rm fields only sits in a table of ModRM reg fields, and a table of mandatory prefixes only
in a table of opcode bytes -/
def Above (a b : TableKind) : Prop :=
  a.rank < b.rank ∧ (b = modrmLow → a = modrm) ∧ (b = mandatory → a = byte)

theorem rank_inj {a b : TableKind} (h : a.rank = b.rank) : a = b := by
  cases a <;> cases b <;> simp_all [rank]

/-- a kind ranked between the two ends of a link may hold the link too: the kinds that only sit
in one other kind sit right below it -/
theorem Above.between {a b c : TableKind} (h : a.Above b) (hac : a.rank < c.rank)
    (hcb : c.rank < b.rank) : c.Above b := by
  obtain ⟨-, hlow, hman⟩ := h
  refine ⟨hcb, fun hb => ?_, fun hb => ?_⟩
  · subst hb
    obtain rfl := hlow rfl
    cases c <;> simp_all [rank]
  · subst hb
    obtain rfl := hman rfl
    cases c <;> simp_all [rank]

theorem rank_lt_six (a : TableKind) : a.rank < 6 := by cases a <;> simp [rank]

theorem mem_order (a : TableKind) : a ∈ order := by cases a <;> simp [order]

theorem four_le_length (a : TableKind) : 4 ≤ a.length := by cases a <;> simp [length]

/-- the kinds `order` lists before position `j` have rank below `j` -/
theorem rank_lt_of_mem_take {a : TableKind} {j : Nat} (h : a ∈ order.take j) : a.rank < j := by
  cases a <;> cases j with
  | zero => simp at h
  | succ j => rcases j with _ | _ | _ | _ | _ | j <;> simp_all [order, rank]

/-- the levels from a kind's on start with the kind -/
theorem drop_rank (a : TableKind) : order.drop a.rank = a :: order.drop (a.rank + 1) := by
  cases a <;> rfl

/-- the levels from the `i`-th on, for `i` below six, start with the kind of rank `i` -/
theorem drop_of_lt_six {i : Nat} (h : i < 6) :
    ∃ b : TableKind, b.rank = i ∧ order.drop i = b :: order.drop (i + 1) := by
  rcases i with _ | _ | _ | _ | _ | _ | i
  · exact ⟨root, rfl, rfl⟩
  · exact ⟨byte, rfl, rfl⟩
  · exact ⟨mandatory, rfl, rfl⟩
  · exact ⟨modrm, rfl, rfl⟩
  · exact ⟨modrmLow, rfl, rfl⟩
  · exact ⟨vex, rfl, rfl⟩
  · omega

/-- the levels before a kind's, and the kind -/
theorem take_rank_succ (a : TableKind) : order.take (a.rank + 1) = order.take a.rank ++ [a] := by
  cases a <;> rfl

theorem take_of_six_le {j : Nat} (h : 6 ≤ j) : order.take j = order :=
  List.take_of_length_le (by simp [order]; omega)

end TableKind

/-- the slots the decoder's walk takes at the levels of the tables: the opcode map (the
escape, plus 4 for VEX), the opcode byte, the mandatory prefix (none, 66, F3, F2), the ModRM
byte, and the W and L bits -/
structure TableKey where
  map : Nat
  byte : Nat
  mandatory : Nat
  modrm : Nat
  w : Bool
  l : Bool
  deriving DecidableEq, Repr

namespace TableKey

/-- the slot of a ModRM byte in a table of reg fields: the reg field, plus 8 for the register
form -/
def modrmSlot (m : Nat) : Nat := (m >>> 3) % 8 + (if m / 64 = 3 then 8 else 0)

/-- the slot of W and L in a VEX table -/
def vexSlot (k : TableKey) : Nat := (if k.w then 1 else 0) + (if k.l then 2 else 0)

/-- the key's slot at a level -/
def index (k : TableKey) : TableKind → Nat
  | .root => k.map
  | .byte => k.byte
  | .mandatory => k.mandatory
  | .modrm => modrmSlot k.modrm
  | .modrmLow => k.modrm % 8
  | .vex => k.vexSlot

/-- a key within the ranges of the decoder: an opcode map below 8 and bytes below 256 -/
structure Valid (k : TableKey) : Prop where
  map_lt : k.map < 8
  byte_lt : k.byte < 256
  mandatory_lt : k.mandatory < 4
  modrm_lt : k.modrm < 256

theorem Valid.index_lt {k : TableKey} (hk : k.Valid) (a : TableKind) : k.index a < a.length := by
  cases a with
  | root => exact hk.map_lt
  | byte => exact hk.byte_lt
  | mandatory => exact hk.mandatory_lt
  | modrm =>
    simp only [index, TableKind.length, modrmSlot]
    split_ifs <;> omega
  | modrmLow => exact Nat.mod_lt _ (by decide)
  | vex =>
    simp only [index, TableKind.length, vexSlot]
    split_ifs <;> decide

end TableKey

namespace Trie

/-! ## Walks -/

/-- the content of a slot; nothing when the table is absent or the index past its end -/
def slot (t : Trie) (p : Nat × Nat) : Option Slot :=
  match t.tables[p.1]? with
  | some (some tab) => tab[p.2]?.join
  | _ => none

/-- one level of a key's walk over slot contents: a table of the level's kind is entered at
the key's slot for the level; any other content is kept -/
def enter (t : Trie) (k : TableKey) (a : TableKind) : Option Slot → Option Slot
  | some (.table b n) => if b = a then t.slot (n, k.index a) else some (.table b n)
  | s => s

/-- a key's walk over slot contents through levels -/
def walk (t : Trie) (k : TableKey) (ks : List TableKind) (s : Option Slot) : Option Slot :=
  ks.foldl (fun s a => t.enter k a s) s

/-- one level of a key's walk over positions -/
def advance (t : Trie) (k : TableKey) (a : TableKind) (p : Nat × Nat) : Nat × Nat :=
  match t.slot p with
  | some (.table b n) => if b = a then (n, k.index a) else p
  | _ => p

/-- a key's walk over positions through levels -/
def pos (t : Trie) (k : TableKey) (ks : List TableKind) (p : Nat × Nat) : Nat × Nat :=
  ks.foldl (fun p a => t.advance k a p) p

/-- what a key finds under root slot `r` -/
def lookup (t : Trie) (r : Nat) (k : TableKey) : Option Slot :=
  t.walk k TableKind.order (t.slot (0, r))

variable {t u : Trie} {k : TableKey}

@[simp] theorem walk_nil (s : Option Slot) : t.walk k [] s = s := rfl

@[simp] theorem walk_cons (a : TableKind) (ks : List TableKind) (s : Option Slot) :
    t.walk k (a :: ks) s = t.walk k ks (t.enter k a s) := rfl

@[simp] theorem pos_nil (p : Nat × Nat) : t.pos k [] p = p := rfl

@[simp] theorem pos_cons (a : TableKind) (ks : List TableKind) (p : Nat × Nat) :
    t.pos k (a :: ks) p = t.pos k ks (t.advance k a p) := rfl

theorem pos_append (ks ks' : List TableKind) (p : Nat × Nat) :
    t.pos k (ks ++ ks') p = t.pos k ks' (t.pos k ks p) := List.foldl_append ..

@[simp] theorem enter_table (a b : TableKind) (n : Nat) :
    t.enter k a (some (.table b n)) = if b = a then t.slot (n, k.index a) else some (.table b n) :=
  rfl

/-- content that is no link of the level's kind stays where it is -/
theorem enter_of_ne {a : TableKind} {s : Option Slot} (hs : ∀ n, s ≠ some (.table a n)) :
    t.enter k a s = s := by
  rcases s with _ | (_ | _ | ⟨b, n⟩)
  · rfl
  · rfl
  · rfl
  · rw [enter_table, if_neg fun (hb : b = a) => hs n (hb ▸ rfl)]

theorem enter_of_ne_table {s : Option Slot} (hs : ∀ b n, s ≠ some (.table b n)) (a : TableKind) :
    t.enter k a s = s :=
  enter_of_ne fun n => hs a n

/-- content that is no link stays where it is -/
theorem walk_of_ne_table {s : Option Slot} (hs : ∀ b n, s ≠ some (.table b n))
    (ks : List TableKind) : t.walk k ks s = s := by
  induction ks with
  | nil => rfl
  | cons a ks ih => rw [walk_cons, enter_of_ne_table hs, ih]

@[simp] theorem walk_none (ks : List TableKind) : t.walk k ks none = none :=
  walk_of_ne_table (fun _ _ h => by cases h) ks

theorem advance_of_ne {a : TableKind} {p : Nat × Nat} (h : ∀ n, t.slot p ≠ some (.table a n)) :
    t.advance k a p = p := by
  unfold advance
  rcases hp : t.slot p with _ | (_ | _ | ⟨b, m⟩) <;> try rfl
  simp only [if_neg fun (hb : b = a) => h m (hb ▸ hp)]

theorem advance_of_link {a : TableKind} {p : Nat × Nat} {m : Nat}
    (h : t.slot p = some (.table a m)) : t.advance k a p = (m, k.index a) := by
  simp [advance, h]

theorem slot_advance (a : TableKind) (p : Nat × Nat) :
    t.slot (t.advance k a p) = t.enter k a (t.slot p) := by
  unfold advance
  rcases h : t.slot p with _ | (_ | _ | ⟨b, n⟩)
  · exact h
  · exact h
  · exact h
  · by_cases hb : b = a
    · simp [hb]
    · simp [hb, h]

/-- the content at the end of a walk over positions is the walk over contents -/
theorem slot_pos (ks : List TableKind) (p : Nat × Nat) :
    t.slot (t.pos k ks p) = t.walk k ks (t.slot p) := by
  induction ks generalizing p with
  | nil => rfl
  | cons a ks ih => rw [pos_cons, walk_cons, ih, slot_advance]

/-- content that links, if at all, to a table of a kind from the `i`-th level on -/
def Enters (i : Nat) (x : Option Slot) : Prop := ∀ c n, x = some (.table c n) → i ≤ c.rank

/-- the levels before a kind's own pass by content that links only to that kind or later ones -/
theorem walk_skip {c : TableKind} {i : Nat} {s : Option Slot} (hi : i ≤ c.rank)
    (hs : Enters c.rank s) (k : TableKey) :
    t.walk k (TableKind.order.drop i) s = t.walk k (TableKind.order.drop c.rank) s := by
  induction h : c.rank - i generalizing i with
  | zero =>
    obtain rfl : i = c.rank := by omega
    rfl
  | succ d ih =>
    obtain ⟨b, hb, hdrop⟩ := TableKind.drop_of_lt_six (i := i) (by have := c.rank_lt_six; omega)
    have hpass : ∀ n, s ≠ some (.table b n) := fun n he => by
      have := hs b n he
      omega
    rw [hdrop, walk_cons, enter_of_ne hpass]
    exact ih (by omega) (by omega)

/-- a link of kind `c`, walked over levels from before `c` on, walks on from the slot it leads
to over the levels after `c` -/
theorem walk_table {c : TableKind} {i n : Nat} (hi : i ≤ c.rank) (k : TableKey) :
    t.walk k (TableKind.order.drop i) (some (.table c n)) =
      t.walk k (TableKind.order.drop (c.rank + 1)) (t.slot (n, k.index c)) := by
  rw [walk_skip hi (fun _ _ h => by cases h; exact le_rfl), TableKind.drop_rank, walk_cons,
    enter_table, if_pos rfl]

/-- content linking only to kind `c` or later kinds, walked over levels from before `c` on, is
entered at `c` and walked on over the levels after it -/
theorem walk_enter {c : TableKind} {i : Nat} {s : Option Slot} (hi : i ≤ c.rank)
    (hs : Enters c.rank s) (k : TableKey) :
    t.walk k (TableKind.order.drop i) s =
      t.walk k (TableKind.order.drop (c.rank + 1)) (t.enter k c s) := by
  rw [walk_skip hi hs, TableKind.drop_rank, walk_cons]

/-- two links of one kind walk alike over the levels from the `i`-th on, up to their kind, when
the slots they lead to walk alike over the levels after the kind -/
theorem walk_link {c : TableKind} {m n i : Nat} (hi : i ≤ c.rank)
    (h : ∀ k, u.walk k (TableKind.order.drop (c.rank + 1)) (u.slot (m, k.index c)) =
      t.walk k (TableKind.order.drop (c.rank + 1)) (t.slot (n, k.index c)))
    (k : TableKey) :
    u.walk k (TableKind.order.drop i) (some (.table c m)) =
      t.walk k (TableKind.order.drop i) (some (.table c n)) := by
  rw [walk_table hi, walk_table hi]
  exact h k

/-- tries that agree on the tables of a set closed under links walk alike from any content
leading into the set -/
theorem walk_congr {S : Nat → Prop}
    (hS : ∀ n, S n → ∀ j b m, t.slot (n, j) = some (.table b m) → S m)
    (hagree : ∀ n, S n → ∀ j, u.slot (n, j) = t.slot (n, j))
    (ks : List TableKind) {s : Option Slot} (hs : ∀ b m, s = some (.table b m) → S m) :
    u.walk k ks s = t.walk k ks s := by
  induction ks generalizing s with
  | nil => rfl
  | cons a ks ih =>
    rw [walk_cons, walk_cons]
    by_cases hlink : ∃ b n, s = some (.table b n)
    · obtain ⟨b, n, rfl⟩ := hlink
      have hn : S n := hs b n rfl
      by_cases hb : b = a
      · simp only [enter_table, if_pos hb, hagree n hn]
        exact ih fun c m h => hS n hn _ c m h
      · simp only [enter_table, if_neg hb]
        exact ih hs
    · simp only [not_exists] at hlink
      rw [enter_of_ne_table hlink, enter_of_ne_table hlink]
      exact ih hs

/-! ## Tables and kinds -/

/-- the number of slots of a table, when it is present -/
def tableSize (t : Trie) (n : Nat) : Option Nat := (t.tables[n]?.join).map Array.size

/-- the table numbers a kind list notes under a kind -/
def kindList (ks : Array (TableKind × Array Nat)) (a : TableKind) : List Nat :=
  ((ks.find? (·.1 == a)).map (·.2.toList)).getD []

/-- the tables noted under a kind -/
def tablesOf (t : Trie) (a : TableKind) : List Nat := kindList t.kinds a

/-- finding an entry of a kind after changing, kinds kept, the first entry of kind `a` -/
private theorem find?_modify_first {a b : TableKind}
    {f : TableKind × Array Nat → TableKind × Array Nat} (hf : ∀ x, (f x).1 = x.1) :
    ∀ {l : List (TableKind × Array Nat)} {i : Nat}, l.findIdx? (·.1 == a) = some i →
      (l.modify i f).find? (·.1 == b) =
        if b = a then (l.find? (·.1 == b)).map f else l.find? (·.1 == b)
  | [], _, h => by simp at h
  | x :: xs, i, h => by
    rw [List.findIdx?_cons] at h
    by_cases hx : x.1 = a
    · simp only [hx, BEq.rfl, if_true, Option.some.injEq] at h
      subst h
      by_cases hb : b = a
      · subst hb; simp [hf, hx]
      · simp [hf, hx, hb, Ne.symm hb]
    · simp only [beq_iff_eq, hx, if_false, Option.map_eq_some_iff] at h
      obtain ⟨i', hi', rfl⟩ := h
      rw [List.modify_succ_cons, List.find?_cons, List.find?_cons, find?_modify_first hf hi']
      by_cases hxb : x.1 = b
      · have hba : b ≠ a := hxb ▸ hx
        simp [hxb, hba]
      · have hxb' : (x.1 == b) = false := by simpa using hxb
        simp [hxb']

/-- noting a table appends it to its kind's list and leaves the other lists alone -/
theorem kindList_noteKind (ks : Array (TableKind × Array Nat)) (a b : TableKind) (n : Nat) :
    kindList (noteKind ks a n) b = if b = a then kindList ks b ++ [n] else kindList ks b := by
  rcases ks with ⟨l⟩
  unfold noteKind kindList
  rw [List.findIdx?_toArray]
  split
  next i hi =>
    -- the kind's list is the first entry of the kind
    simp only [List.modify_toArray, List.find?_toArray]
    rw [find?_modify_first (f := fun x => (x.1, x.2.push n)) (fun _ => rfl) hi]
    split_ifs with hb
    · subst hb
      rcases hx : l.find? (·.1 == b) with _ | x
      · rw [List.find?_eq_none] at hx
        rw [List.findIdx?_eq_none_iff.2 (fun y hy => by simpa using hx y hy)] at hi
        cases hi
      · simp [hx]
    · rfl
  next hi =>
    -- no list for the kind yet: a new one goes at the end
    have hnone : l.find? (·.1 == a) = none := by
      rw [List.find?_eq_none]
      intro x hx
      simpa using List.findIdx?_eq_none_iff.1 hi x hx
    simp only [List.push_toArray, List.find?_toArray, List.find?_append]
    by_cases hb : b = a
    · subst hb; simp [hnone]
    · simp [hb, Ne.symm hb]

/-- the shape of every trie that paths are added to, also part-way through an update -/
structure Shaped (t : Trie) : Prop where
  /-- a noted table is present, past table 0, with its kind's length -/
  noted_table : ∀ a n, n ∈ t.tablesOf a → 0 < n ∧ t.tableSize n = some a.length
  /-- a table is noted under one kind -/
  noted_once : ∀ a b n, n ∈ t.tablesOf a → n ∈ t.tablesOf b → a = b
  /-- and once -/
  noted_nodup : ∀ a, (t.tablesOf a).Nodup
  /-- a link names its target's kind -/
  link_noted : ∀ p a n, t.slot p = some (.table a n) → n ∈ t.tablesOf a
  /-- a table links only to tables of later kinds -/
  link_above : ∀ a n j b m, n ∈ t.tablesOf a → t.slot (n, j) = some (.table b m) → a.Above b
  /-- the root slots link only to root tables -/
  root_link : ∀ j b m, t.slot (0, j) = some (.table b m) → b = .root
  /-- table 0, of the root slots, is there -/
  size_pos : 0 < t.tables.size

/-- no table is linked from two slots -/
def LinksOnce (t : Trie) : Prop :=
  ∀ p q a b n, t.slot p = some (.table a n) → t.slot q = some (.table b n) → p = q

theorem slot_congr {p : Nat × Nat} (h : u.tables[p.1]? = t.tables[p.1]?) : u.slot p = t.slot p := by
  unfold slot; rw [h]

theorem slot_of_tableSize_eq_none {p : Nat × Nat} (h : t.tableSize p.1 = none) : t.slot p = none := by
  unfold slot
  unfold tableSize at h
  rcases ht : t.tables[p.1]? with _ | _ | tab <;> simp_all

theorem lt_size_of_tableSize {n w : Nat} (h : t.tableSize n = some w) : n < t.tables.size := by
  unfold tableSize at h
  rcases ht : t.tables[n]? with _ | _ | tab
  · simp [ht] at h
  · simp [ht] at h
  · exact (Array.getElem?_eq_some_iff.1 ht).1

theorem slot_eq_none_of_le {p : Nat × Nat} {w : Nat} (h : t.tableSize p.1 = some w)
    (hw : w ≤ p.2) : t.slot p = none := by
  unfold slot
  unfold tableSize at h
  rcases ht : t.tables[p.1]? with _ | _ | tab
  · simp [ht] at h
  · simp [ht] at h
  · simp only [ht, Option.join_some, Option.map_some, Option.some.injEq] at h ⊢
    simp [Array.getElem?_eq_none (h ▸ hw)]

/-- a slot holding something lies inside a present table -/
theorem tableSize_of_slot {p : Nat × Nat} {s : Slot} (h : t.slot p = some s) :
    ∃ w, t.tableSize p.1 = some w ∧ p.2 < w := by
  rcases hw : t.tableSize p.1 with _ | w
  · rw [slot_of_tableSize_eq_none hw] at h; cases h
  · refine ⟨w, rfl, Nat.lt_of_not_le fun hle => ?_⟩
    rw [slot_eq_none_of_le hw hle] at h; cases h

theorem tables_of_tableSize {n w : Nat} (h : t.tableSize n = some w) :
    ∃ tab, t.tables[n]? = some (some tab) ∧ tab.size = w := by
  obtain ⟨tab, htab, rfl⟩ := Option.map_eq_some_iff.1 h
  exact ⟨tab, Option.join_eq_some_iff.1 htab, rfl⟩

end Trie

/-! ## Updates -/

namespace TrieM

variable {α β : Type} {t u : Trie}

theorem bind_ok {x : TrieM α} {f : α → TrieM β} {b : β} (h : (x >>= f).run t = .ok b u) :
    ∃ a t₁, x.run t = .ok a t₁ ∧ (f a).run t₁ = .ok b u := by
  rw [EStateM.run_bind] at h
  split at h
  next a t₁ hx => exact ⟨a, t₁, hx, h⟩
  next => cases h

theorem run_bind_of_ok {x : TrieM α} {f : α → TrieM β} {a : α} (h : x.run t = .ok a u) :
    (x >>= f).run t = (f a).run u := by
  rw [EStateM.run_bind, h]

theorem map_ok {x : TrieM α} {f : α → β} {b : β} (h : (f <$> x).run t = .ok b u) :
    ∃ a, x.run t = .ok a u ∧ b = f a := by
  rw [map_eq_pure_bind] at h
  obtain ⟨a, t₁, hx, hp⟩ := bind_ok h
  cases hp
  exact ⟨a, hx, rfl⟩

theorem pure_ok {a b : α} (h : (pure a : TrieM α).run t = .ok b u) : b = a ∧ u = t := by
  cases h; exact ⟨rfl, rfl⟩

theorem throw_ok {e : Failure} {b : α} (h : (throw e : TrieM α).run t = .ok b u) : False := by
  cases h

theorem modifyGet_run (f : Trie → α × Trie) :
    (modifyGet f : TrieM α).run t = .ok (f t).1 (f t).2 := rfl

end TrieM

namespace Trie

variable {t u : Trie}

theorem addTable_ok {a : TableKind} {n : Nat} (h : (addTable a).run t = .ok n u) :
    n = t.tables.size ∧ u.tables = t.tables.push (some (Array.replicate a.length none)) ∧
      u.kinds = noteKind t.kinds a t.tables.size := by
  cases h; exact ⟨rfl, rfl, rfl⟩

theorem setSlot_ok {num i : Nat} {s : Option Slot} {x : Unit} (h : (setSlot num i s).run t = .ok x u) :
    u.tables = t.tables.modify num (Option.map (·.setIfInBounds i s)) ∧ u.kinds = t.kinds := by
  cases h; exact ⟨rfl, rfl⟩

theorem setTable_ok {num : Nat} {tab : Option (Array (Option Slot))} {x : Unit}
    (h : (setTable num tab).run t = .ok x u) :
    u.tables = t.tables.modify num (fun _ => tab) ∧ u.kinds = t.kinds := by
  cases h; exact ⟨rfl, rfl⟩

theorem slotsOf_ok {num : Nat} {e : Failure} {tab : Array (Option Slot)}
    (h : (slotsOf num e).run t = .ok tab u) : u = t ∧ t.tables[num]? = some (some tab) := by
  unfold slotsOf at h
  obtain ⟨t', t₁, hget, hrest⟩ := TrieM.bind_ok h
  cases hget
  split at hrest
  next tab' heq => obtain ⟨rfl, rfl⟩ := TrieM.pure_ok hrest; exact ⟨rfl, heq⟩
  next => exact (TrieM.throw_ok hrest).elim

theorem seqIndex_natCast {n j i : Nat} (h : seqIndex n j = some i) : i = j ∧ j < n := by
  unfold seqIndex at h
  simp only [Int.natCast_nonneg, if_true, Int.ofNat_lt] at h
  split_ifs at h with hj
  cases h; exact ⟨by simp, hj⟩

theorem position_ok {num : Nat} {idx : Int} {tab : Array (Option Slot)} {i : Nat}
    (h : (position num idx).run t = .ok (tab, i) u) :
    u = t ∧ t.tables[num]? = some (some tab) ∧ seqIndex tab.size idx = some i := by
  unfold position at h
  obtain ⟨tab', t₁, hs, hrest⟩ := TrieM.bind_ok h
  obtain ⟨rfl, htab⟩ := slotsOf_ok hs
  split at hrest
  next i' hi => cases hrest; exact ⟨rfl, htab, hi⟩
  next => exact (TrieM.throw_ok hrest).elim

theorem kindTables_ok {a : TableKind} {ns : Array Nat} (h : (kindTables a).run t = .ok ns u) :
    ns.toList = t.tablesOf a ∧ u.tables = t.tables ∧ ∀ b, u.tablesOf b = t.tablesOf b := by
  unfold kindTables at h
  rw [TrieM.modifyGet_run] at h
  rcases hf : t.kinds.find? (·.1 == a) with _ | ⟨a', ns'⟩
  · simp only [hf, EStateM.Result.ok.injEq] at h
    obtain ⟨rfl, rfl⟩ := h
    refine ⟨by simp [tablesOf, kindList, hf], rfl, fun b => ?_⟩
    simp only [tablesOf, kindList, Array.find?_push]
    by_cases hb : b = a
    · subst hb; simp [hf]
    · have : ¬ (a == b) = true := by simpa using Ne.symm hb
      simp [this]
  · simp only [hf, EStateM.Result.ok.injEq] at h
    obtain ⟨rfl, rfl⟩ := h
    exact ⟨by simp [tablesOf, kindList, hf], rfl, fun _ => rfl⟩

/-! ## Slots after updates -/

/-- a pushed empty table holds nothing and leaves the other tables alone -/
theorem slot_push {a : TableKind} (h : u.tables = t.tables.push (some (Array.replicate a.length none)))
    (p : Nat × Nat) : u.slot p = if p.1 = t.tables.size then none else t.slot p := by
  split_ifs with hp
  · unfold slot
    rw [h, hp, Array.getElem?_push_size]
    simp only [Array.getElem?_replicate]
    split <;> rfl
  · exact slot_congr (by rw [h, Array.getElem?_push, if_neg hp])

theorem tableSize_push {a : TableKind}
    (h : u.tables = t.tables.push (some (Array.replicate a.length none))) (n : Nat) :
    u.tableSize n = if n = t.tables.size then some a.length else t.tableSize n := by
  unfold tableSize
  rw [h, Array.getElem?_push]
  split_ifs <;> simp

theorem slot_setSlot {num i w : Nat} {s : Option Slot}
    (h : u.tables = t.tables.modify num (Option.map (·.setIfInBounds i s)))
    (hw : t.tableSize num = some w) (hi : i < w) (p : Nat × Nat) :
    u.slot p = if p = (num, i) then s else t.slot p := by
  unfold tableSize at hw
  rcases ht : t.tables[num]? with _ | _ | tab
  · simp [ht] at hw
  · simp [ht] at hw
  simp only [ht, Option.join_some, Option.map_some, Option.some.injEq] at hw
  subst hw
  by_cases hp : p.1 = num
  · obtain ⟨p1, p2⟩ := p
    simp only at hp
    subst hp
    unfold slot
    rw [h, Array.getElem?_modify, if_pos rfl, ht]
    simp only [Option.map_some, Array.getElem?_setIfInBounds, hi, if_true, Prod.mk.injEq,
      true_and]
    by_cases h2 : i = p2
    · subst h2; simp
    · simp [h2, Ne.symm h2]
  · rw [if_neg (fun he => hp (by rw [he]))]
    exact slot_congr (by rw [h, Array.getElem?_modify, if_neg (Ne.symm hp)])

theorem tableSize_setSlot {num i : Nat} {s : Option Slot}
    (h : u.tables = t.tables.modify num (Option.map (·.setIfInBounds i s))) (n : Nat) :
    u.tableSize n = t.tableSize n := by
  unfold tableSize
  rw [h, Array.getElem?_modify]
  split_ifs with hn
  · subst hn
    rcases t.tables[num]? with _ | _ | tab <;> simp
  · rfl

theorem slot_setTable {num : Nat} {tab : Option (Array (Option Slot))}
    (h : u.tables = t.tables.modify num (fun _ => tab)) (hn : num < t.tables.size)
    (p : Nat × Nat) : u.slot p = if p.1 = num then (tab.bind fun a => a[p.2]?).join else t.slot p := by
  split_ifs with hp
  · unfold slot
    rw [h, Array.getElem?_modify, if_pos hp.symm, hp, Array.getElem?_eq_getElem hn]
    rcases tab with _ | a <;> simp
  · exact slot_congr (by rw [h, Array.getElem?_modify, if_neg (Ne.symm hp)])

theorem tableSize_setTable {num : Nat} {tab : Option (Array (Option Slot))}
    (h : u.tables = t.tables.modify num (fun _ => tab)) (hn : num < t.tables.size) (n : Nat) :
    u.tableSize n = if n = num then tab.map Array.size else t.tableSize n := by
  unfold tableSize
  rw [h, Array.getElem?_modify]
  split_ifs with h1 h2 h2
  · subst h2; rw [Array.getElem?_eq_getElem hn]; simp
  · exact absurd h1.symm h2
  · exact absurd h2.symm h1
  · rfl

/-! ## The shape after updates -/

namespace Shaped

variable {p : Nat × Nat} {a : TableKind} {n : Nat}

theorem link_lt (hs : t.Shaped) (h : t.slot p = some (.table a n)) : n < t.tables.size :=
  lt_size_of_tableSize (hs.noted_table a n (hs.link_noted p a n h)).2

theorem noted_lt (hs : t.Shaped) (h : n ∈ t.tablesOf a) : n < t.tables.size :=
  lt_size_of_tableSize (hs.noted_table a n h).2

/-- a walk from content leading into the tables of `t` reads only those tables -/
theorem walk_old (hs : t.Shaped) (hold : ∀ m < t.tables.size, u.tables[m]? = t.tables[m]?)
    {s : Option Slot} (hsl : ∀ b m, s = some (.table b m) → m < t.tables.size)
    (k : TableKey) (ks : List TableKind) : u.walk k ks s = t.walk k ks s :=
  walk_congr (S := (· < t.tables.size)) (fun _ _ _ _ _ h => hs.link_lt h)
    (fun m hm _ => slot_congr (hold m hm)) ks hsl

theorem advance_lt (hs : t.Shaped) {k : TableKey} {p : Nat × Nat} (hp : p.1 < t.tables.size) :
    (t.advance k a p).1 < t.tables.size := by
  by_cases hl : ∃ n, t.slot p = some (.table a n)
  · obtain ⟨n, hn⟩ := hl
    rw [advance_of_link hn]
    exact hs.link_lt hn
  · rw [advance_of_ne fun n h => hl ⟨n, h⟩]
    exact hp

/-- a walk over positions from a present table stays among present tables -/
theorem pos_lt (hs : t.Shaped) {k : TableKey} (ks : List TableKind) {p : Nat × Nat}
    (hp : p.1 < t.tables.size) : (t.pos k ks p).1 < t.tables.size := by
  induction ks generalizing p with
  | nil => exact hp
  | cons a ks ih => exact ih (hs.advance_lt hp)

/-- after the first `j` levels a walk from a root slot is in table 0 or in a table of an
earlier kind -/
theorem pos_home (hs : t.Shaped) (k : TableKey) (r j : Nat) :
    (t.pos k (TableKind.order.take j) (0, r)).1 = 0 ∨
      ∃ b, (t.pos k (TableKind.order.take j) (0, r)).1 ∈ t.tablesOf b ∧ b.rank < j := by
  induction j with
  | zero => exact .inl rfl
  | succ j ih =>
    by_cases hj : j < 6
    · obtain ⟨b, hb, -⟩ := TableKind.drop_of_lt_six hj
      subst hb
      rw [TableKind.take_rank_succ, pos_append, pos_cons, pos_nil]
      by_cases hl : ∃ m, t.slot (t.pos k (TableKind.order.take b.rank) (0, r)) = some (.table b m)
      · obtain ⟨m, hm⟩ := hl
        rw [advance_of_link hm]
        exact .inr ⟨b, hs.link_noted _ b m hm, by omega⟩
      · rw [advance_of_ne fun m h => hl ⟨m, h⟩]
        rcases ih with h0 | ⟨c, hc, hlt⟩
        · exact .inl h0
        · exact .inr ⟨c, hc, by omega⟩
    · rw [TableKind.take_of_six_le (by omega : 6 ≤ j + 1)]
      rw [TableKind.take_of_six_le (by omega : 6 ≤ j)] at ih
      rcases ih with h0 | ⟨c, hc, hlt⟩
      · exact .inl h0
      · exact .inr ⟨c, hc, by omega⟩

/-- two tries whose old slots hold the same links of the levels' kinds walk alike over
positions from an old slot -/
theorem pos_congr (hs : t.Shaped) {k : TableKey} {ks : List TableKind}
    (hagree : ∀ x, x.1 < t.tables.size → ∀ a ∈ ks, ∀ n,
      u.slot x = some (.table a n) ↔ t.slot x = some (.table a n))
    {p : Nat × Nat} (hp : p.1 < t.tables.size) : u.pos k ks p = t.pos k ks p := by
  induction ks generalizing p with
  | nil => rfl
  | cons a ks ih =>
    have hag := hagree p hp a List.mem_cons_self
    have hadv : u.advance k a p = t.advance k a p := by
      by_cases hl : ∃ n, t.slot p = some (.table a n)
      · obtain ⟨n, hn⟩ := hl
        rw [advance_of_link hn, advance_of_link ((hag n).2 hn)]
      · have ht : ∀ n, t.slot p ≠ some (.table a n) := fun n h => hl ⟨n, h⟩
        rw [advance_of_ne ht, advance_of_ne fun n h => ht n ((hag n).1 h)]
    rw [pos_cons, pos_cons, hadv]
    exact ih (fun x hx b hb n => hagree x hx b (List.mem_cons_of_mem a hb) n) (hs.advance_lt hp)

/-- tries that agree on every old slot but `q` walk alike from old content over the levels from
the `j`-th on, when walking on from `q` agrees over the levels from any place up to a kind `c`
after the kind of `q`'s table; `n` bounds the levels left -/
theorem walk_congr_at {k : TableKey} {q : Nat × Nat} {c : TableKind} (hs : t.Shaped)
    (hagree : ∀ x, x.1 < t.tables.size → x ≠ q → u.slot x = t.slot x)
    (hfits : ∀ b, q.1 ∈ t.tablesOf b → b.rank < c.rank)
    (hq : ∀ j ≤ c.rank, u.walk k (TableKind.order.drop j) (u.slot q) =
      t.walk k (TableKind.order.drop j) (t.slot q)) (n : Nat) :
    ∀ j (s : Option Slot), 6 - j ≤ n → Enters j s →
      (∀ b m, s = some (.table b m) → m ∈ t.tablesOf b) →
      u.walk k (TableKind.order.drop j) s = t.walk k (TableKind.order.drop j) s := by
  induction n with
  | zero =>
    intro j s hj _ _
    rw [List.drop_eq_nil_of_le (by simp [TableKind.order]; omega)]
    rfl
  | succ n ih =>
    intro j s hj hen hnoted
    by_cases hl : ∃ b m, s = some (.table b m)
    · obtain ⟨b, m, rfl⟩ := hl
      have hjb := hen b m rfl
      have hm := hnoted b m rfl
      rw [walk_table hjb, walk_table hjb]
      by_cases hx : (m, k.index b) = q
      · -- the walk reads the slot that changed
        have hq1 : q.1 ∈ t.tablesOf b := by rw [← hx]; exact hm
        rw [hx]
        exact hq _ (hfits b hq1)
      · rw [hagree _ (hs.noted_lt hm) hx]
        refine ih _ _ (by have := b.rank_lt_six; omega) (fun c' m' h => ?_)
          (fun c' m' h => hs.link_noted _ c' m' h)
        exact (hs.link_above b m _ c' m' hm h).1
    · simp only [not_exists] at hl
      rw [walk_of_ne_table hl, walk_of_ne_table hl]

/-- tries that agree on every old slot but `q`, where walking on agrees, look every key up
alike -/
theorem lookup_congr_at {k : TableKey} {q : Nat × Nat} {c : TableKind} (hs : t.Shaped)
    (hagree : ∀ x, x.1 < t.tables.size → x ≠ q → u.slot x = t.slot x)
    (hfits : ∀ b, q.1 ∈ t.tablesOf b → b.rank < c.rank)
    (hq : ∀ j ≤ c.rank, u.walk k (TableKind.order.drop j) (u.slot q) =
      t.walk k (TableKind.order.drop j) (t.slot q)) (r : Nat) :
    u.lookup r k = t.lookup r k := by
  unfold lookup
  by_cases hr : (0, r) = q
  · subst hr
    exact hq 0 (Nat.zero_le _)
  · rw [hagree _ hs.size_pos hr]
    exact hs.walk_congr_at hagree hfits hq 6 0 _ le_rfl (fun _ _ _ => Nat.zero_le _)
      (fun b m h => hs.link_noted _ b m h)

end Shaped

theorem tablesOf_push {a : TableKind} (hk : u.kinds = noteKind t.kinds a t.tables.size)
    (b : TableKind) :
    u.tablesOf b = if b = a then t.tablesOf b ++ [t.tables.size] else t.tablesOf b := by
  unfold tablesOf; rw [hk, kindList_noteKind]

theorem mem_tablesOf_push {a b : TableKind} {n : Nat}
    (hk : u.kinds = noteKind t.kinds a t.tables.size) :
    n ∈ u.tablesOf b ↔ n ∈ t.tablesOf b ∨ (b = a ∧ n = t.tables.size) := by
  rw [tablesOf_push hk]
  split_ifs with hb <;> simp [hb]

/-- a new empty table keeps the shape -/
theorem Shaped.push {a : TableKind} (hs : t.Shaped)
    (ht : u.tables = t.tables.push (some (Array.replicate a.length none)))
    (hk : u.kinds = noteKind t.kinds a t.tables.size) : u.Shaped := by
  have hslot := slot_push ht
  have hsize := tableSize_push ht
  have hold : ∀ {b : TableKind} {n : Nat}, n ∈ t.tablesOf b → n ≠ t.tables.size :=
    fun h => (hs.noted_lt h).ne
  have hnew : ∀ {p : Nat × Nat} {s : Slot}, u.slot p = some s → p.1 ≠ t.tables.size ∧ t.slot p = some s := by
    intro p s h
    rw [hslot] at h
    split_ifs at h with hp
    exact ⟨hp, h⟩
  refine ⟨fun b n hn => ?_, fun b c n hb hc => ?_, fun b => ?_, fun p b n h => ?_,
    fun b n j c m hn h => ?_, fun j b m h => ?_, ?_⟩
  · rw [mem_tablesOf_push hk] at hn
    rcases hn with hn | ⟨rfl, rfl⟩
    · rw [hsize, if_neg (hold hn)]; exact hs.noted_table b n hn
    · rw [hsize, if_pos rfl]; exact ⟨hs.size_pos, rfl⟩
  · rw [mem_tablesOf_push hk] at hb hc
    rcases hb with hb | ⟨rfl, rfl⟩ <;> rcases hc with hc | ⟨rfl, hc⟩
    · exact hs.noted_once b c _ hb hc
    · exact absurd hc (hold hb)
    · exact absurd rfl (hold hc)
    · rfl
  · rw [tablesOf_push hk]
    split_ifs
    · exact (hs.noted_nodup b).append (List.nodup_singleton _)
        (fun x hx hy => hold hx (List.mem_singleton.1 hy))
    · exact hs.noted_nodup b
  · exact (mem_tablesOf_push hk).2 (.inl (hs.link_noted p b n (hnew h).2))
  · obtain ⟨hn', h'⟩ := hnew h
    rcases (mem_tablesOf_push hk).1 hn with hn | ⟨-, rfl⟩
    · exact hs.link_above b n j c m hn h'
    · exact absurd rfl hn'
  · exact hs.root_link j b m (hnew h).2
  · rw [ht, Array.size_push]; omega

/-- writing a slot keeps the shape when a link written names its target's kind, a later kind
than the table's, and the root kind in table 0 -/
theorem Shaped.setSlot {num i w : Nat} {s : Option Slot} (hs : t.Shaped)
    (ht : u.tables = t.tables.modify num (Option.map (·.setIfInBounds i s)))
    (hk : u.kinds = t.kinds) (hw : t.tableSize num = some w) (hi : i < w)
    (hlink : ∀ c y, s = some (.table c y) →
      y ∈ t.tablesOf c ∧ (num = 0 → c = .root) ∧ ∀ a, num ∈ t.tablesOf a → a.Above c) :
    u.Shaped := by
  have hslot := slot_setSlot ht hw hi
  have hsize := tableSize_setSlot ht
  have hof : ∀ b, u.tablesOf b = t.tablesOf b := fun b => by unfold tablesOf; rw [hk]
  refine ⟨fun b n hn => ?_, fun b c n hb hc => ?_, fun b => ?_, fun p b n h => ?_,
    fun b n j c m hn h => ?_, fun j b m h => ?_, ?_⟩
  · rw [hsize]; exact hs.noted_table b n (hof b ▸ hn)
  · exact hs.noted_once b c n (hof b ▸ hb) (hof c ▸ hc)
  · rw [hof]; exact hs.noted_nodup b
  · rw [hof]
    rw [hslot] at h
    split_ifs at h
    · exact (hlink b n h).1
    · exact hs.link_noted p b n h
  · rw [hof] at hn
    rw [hslot] at h
    split_ifs at h with hp
    · exact (hlink c m h).2.2 b (by simp only [Prod.mk.injEq] at hp; exact hp.1 ▸ hn)
    · exact hs.link_above b n j c m hn h
  · rw [hslot] at h
    split_ifs at h with hp
    · simp only [Prod.mk.injEq] at hp
      exact (hlink b m h).2.1 hp.1.symm
    · exact hs.root_link j b m h
  · rw [ht, Array.size_modify]; exact hs.size_pos

/-- replacing a noted table by one of the same length keeps the shape when each link it holds
names its target's kind, a later kind than the table's -/
theorem Shaped.setTable {num : Nat} {tab : Array (Option Slot)} (hs : t.Shaped)
    (ht : u.tables = t.tables.modify num (fun _ => some tab)) (hk : u.kinds = t.kinds)
    (hw : t.tableSize num = some tab.size) (h0 : num ≠ 0)
    (hlink : ∀ (j : Nat) c y, tab[j]? = some (some (Slot.table c y)) →
      y ∈ t.tablesOf c ∧ ∀ a, num ∈ t.tablesOf a → a.Above c) :
    u.Shaped := by
  have hnum := lt_size_of_tableSize hw
  have hslot := slot_setTable ht hnum
  have hsize := tableSize_setTable ht hnum
  have hof : ∀ b, u.tablesOf b = t.tablesOf b := fun b => by unfold tablesOf; rw [hk]
  have hlink' : ∀ p c y, u.slot p = some (.table c y) →
      (p.1 = num ∧ tab[p.2]? = some (some (Slot.table c y))) ∨
        (p.1 ≠ num ∧ t.slot p = some (.table c y)) := by
    intro p c y h
    rw [hslot] at h
    split_ifs at h with hp
    · exact .inl ⟨hp, Option.join_eq_some_iff.1 (by simpa using h)⟩
    · exact .inr ⟨hp, h⟩
  refine ⟨fun b n hn => ?_, fun b c n hb hc => ?_, fun b => ?_, fun p b n h => ?_,
    fun b n j c m hn h => ?_, fun j b m h => ?_, ?_⟩
  · rw [hof] at hn
    rw [hsize]
    split_ifs with he
    · subst he; exact ⟨Nat.pos_of_ne_zero h0, by simpa [hw] using (hs.noted_table b n hn).2⟩
    · exact hs.noted_table b n hn
  · exact hs.noted_once b c n (hof b ▸ hb) (hof c ▸ hc)
  · rw [hof]; exact hs.noted_nodup b
  · rw [hof]
    rcases hlink' p b n h with ⟨_, h⟩ | ⟨_, h⟩
    · exact (hlink p.2 b n h).1
    · exact hs.link_noted p b n h
  · rw [hof] at hn
    rcases hlink' (n, j) c m h with ⟨he, h⟩ | ⟨_, h⟩
    · exact (hlink j c m h).2 b (he ▸ hn)
    · exact hs.link_above b n j c m hn h
  · rcases hlink' (0, j) b m h with ⟨he, _⟩ | ⟨_, h⟩
    · exact absurd he.symm h0
    · exact hs.root_link j b m h
  · rw [ht, Array.size_modify]; exact hs.size_pos

end Trie

end X86Codec
