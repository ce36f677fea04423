import X86Codec.Proofs.TrieUpdate
/-!
Every table of a trie made by additions is noted under a kind.

A trie makes a table only through `addTable`, which notes it under its kind, and otherwise
changes slots and tables in place. So every table past table 0 is noted (`AllNoted`), before
and after any addition, whether it goes through or fails part-way. A computation keeps a
property of the trie (`Keeps`) when it stops, either way, at a trie with the property; `Keeps`
goes through binds, maps and loops, and each step of an addition keeps `AllNoted`.

Main statements:
* `add_keeps_allNoted`: an addition keeps every table past table 0 noted.
* `Reachable.allNoted`: every table past table 0 of a trie made by additions is noted.
-/

namespace X86Codec

namespace TrieM

variable {α β : Type} {P : Trie → Prop}

/-- a computation keeps `P`: run from a trie with `P`, it stops, going through or failing, at a
trie with `P` -/
def Keeps (P : Trie → Prop) (x : TrieM α) : Prop :=
  ∀ t, P t → (∀ a u, x.run t = .ok a u → P u) ∧ (∀ e u, x.run t = .error e u → P u)

theorem Keeps.pure (a : α) : Keeps P (pure a : TrieM α) := fun _ ht =>
  ⟨fun _ _ h => by cases h; exact ht, fun _ _ h => (by cases h)⟩

theorem Keeps.throw (e : Failure) : Keeps P (throw e : TrieM α) := fun _ ht =>
  ⟨fun _ _ h => (by cases h), fun _ _ h => by cases h; exact ht⟩

theorem Keeps.get : Keeps P (get : TrieM Trie) := fun _ ht =>
  ⟨fun _ _ h => by cases h; exact ht, fun _ _ h => (by cases h)⟩

theorem Keeps.modify {f : Trie → Trie} (hf : ∀ t, P t → P (f t)) :
    Keeps P (modify f : TrieM Unit) := fun t ht =>
  ⟨fun _ _ h => by cases h; exact hf t ht, fun _ _ h => (by cases h)⟩

theorem Keeps.modifyGet {f : Trie → α × Trie} (hf : ∀ t, P t → P (f t).2) :
    Keeps P (modifyGet f : TrieM α) := fun t ht =>
  ⟨fun _ _ h => by cases h; exact hf t ht, fun _ _ h => (by cases h)⟩

theorem Keeps.bind {x : TrieM α} {f : α → TrieM β} (hx : Keeps P x)
    (hf : ∀ a, Keeps P (f a)) : Keeps P (x >>= f) := by
  intro t ht
  constructor
  · intro b u h
    obtain ⟨a, t₁, h₁, h₂⟩ := bind_ok h
    exact ((hf a) t₁ ((hx t ht).1 a t₁ h₁)).1 b u h₂
  · intro e u h
    rcases bind_error h with h₁ | ⟨a, t₁, h₁, h₂⟩
    · exact (hx t ht).2 e u h₁
    · exact ((hf a) t₁ ((hx t ht).1 a t₁ h₁)).2 e u h₂

theorem Keeps.mapM {f : α → TrieM β} :
    ∀ (L : List α), (∀ a ∈ L, Keeps P (f a)) → Keeps P (L.mapM f) := by
  intro L
  induction L with
  | nil => exact fun _ => Keeps.pure _
  | cons a L ih =>
    intro h
    rw [List.mapM_cons]
    exact (h a (.head _)).bind fun _ =>
      (ih fun b hb => h b (.tail _ hb)).bind fun _ => Keeps.pure _

theorem Keeps.forM {f : α → TrieM PUnit} :
    ∀ (L : List α), (∀ a ∈ L, Keeps P (f a)) → Keeps P (L.forM f) := by
  intro L
  induction L with
  | nil => exact fun _ => Keeps.pure _
  | cons a L ih =>
    intro h
    simp only [List.forM]
    exact (h a (.head _)).bind fun _ => ih fun b hb => h b (.tail _ hb)

end TrieM

namespace Trie

open TrieM

/-- every table past table 0 is noted under a kind -/
def AllNoted (t : Trie) : Prop := ∀ n, 0 < n → n < t.tables.size → ∃ a, n ∈ t.tablesOf a

theorem allNoted_empty (n : Int) : (Trie.empty n).AllNoted := fun m hm hlt => by
  simp [Trie.empty] at hlt
  omega

/-! ## The steps of an addition -/

/-- changing tables in place keeps every table noted -/
theorem AllNoted.of_tables {t u : Trie} (h : t.AllNoted) (hsize : u.tables.size = t.tables.size)
    (hkinds : u.kinds = t.kinds) : u.AllNoted := fun n hn hlt => by
  obtain ⟨a, ha⟩ := h n hn (hsize ▸ hlt)
  exact ⟨a, by unfold tablesOf; rw [hkinds]; exact ha⟩

theorem addTable_keeps (a : TableKind) : Keeps AllNoted (addTable a) :=
  Keeps.modifyGet fun t ht n hn hlt => by
    dsimp only at hlt ⊢
    rw [Array.size_push] at hlt
    -- the new table is noted under its kind, and the old ones stay noted
    rcases Nat.lt_succ_iff_lt_or_eq.1 hlt with hlt | rfl
    · obtain ⟨b, hb⟩ := ht n hn hlt
      exact ⟨b, (mem_tablesOf_push rfl).2 (.inl hb)⟩
    · exact ⟨a, (mem_tablesOf_push rfl).2 (.inr ⟨rfl, rfl⟩)⟩

theorem setTable_keeps (num : Nat) (tab : Option (Array (Option Slot))) :
    Keeps AllNoted (setTable num tab) :=
  Keeps.modify fun _ ht => ht.of_tables Array.size_modify rfl

theorem setSlot_keeps (num i : Nat) (s : Option Slot) : Keeps AllNoted (setSlot num i s) :=
  Keeps.modify fun _ ht => ht.of_tables Array.size_modify rfl

theorem slotsOf_keeps (num : Nat) (e : Failure) : Keeps AllNoted (slotsOf num e) := by
  unfold slotsOf
  refine Keeps.get.bind fun t => ?_
  split
  · exact Keeps.pure _
  · exact Keeps.throw _

theorem position_keeps (num : Nat) (idx : Int) : Keeps AllNoted (position num idx) := by
  unfold position
  refine (slotsOf_keeps num _).bind fun tab => ?_
  split
  · exact Keeps.pure _
  · exact Keeps.throw _

/-- copying a slot makes its tables through `addTable` -/
theorem copySlot_keeps :
    ∀ (depth : Nat) (s : Option Slot), Keeps AllNoted (copySlot depth s) := by
  intro depth
  induction depth with
  | zero => exact fun s => Keeps.pure s
  | succ depth ih =>
    intro s
    unfold copySlot
    split
    · refine (addTable_keeps _).bind fun fresh => (slotsOf_keeps _ _).bind fun src => ?_
      rw [Array.mapM_eq_mapM_toList]
      refine ((Keeps.mapM _ fun x _ => ih x).bind fun ys => Keeps.pure _).bind fun copies => ?_
      exact (setTable_keeps _ _).bind fun _ => Keeps.pure _
    · exact Keeps.pure _

theorem pushDown_keeps (kind : TableKind) (num i : Nat) (cur : Option Slot) :
    Keeps AllNoted (pushDown kind num i cur) := by
  unfold pushDown
  refine (addTable_keeps kind).bind fun fresh => (setSlot_keeps _ _ _).bind fun _ => ?_
  refine (Keeps.forM _ fun j _ => ?_).bind fun _ => (setSlot_keeps _ _ _).bind fun _ => Keeps.pure _
  exact (copySlot_keeps 7 cur).bind fun s => setSlot_keeps _ _ _

theorem descend_keeps (kind : TableKind) (num i : Nat) (cur : Option Slot) :
    Keeps AllNoted (descend kind num i cur) := by
  unfold descend
  split
  · split
    · exact Keeps.pure _
    · exact pushDown_keeps _ _ _ _
  · exact (addTable_keeps kind).bind fun fresh => (setSlot_keeps _ _ _).bind fun _ => Keeps.pure _
  · exact pushDown_keeps _ _ _ _

theorem enterLevel_keeps (kind : TableKind) :
    ∀ (F : List (Nat × Int)) (elem : Option (List Int)),
      Keeps AllNoted (enterLevel kind elem F) := by
  intro F
  induction F with
  | nil => exact fun _ => Keeps.pure _
  | cons x F ih =>
    intro elem
    unfold enterLevel
    refine (position_keeps _ _).bind fun p => ?_
    rcases p with ⟨tab, i⟩
    dsimp only
    split
    · exact (ih elem).bind fun _ => Keeps.pure _
    · exact (descend_keeps _ _ _ _).bind fun _ => (ih _).bind fun _ => Keeps.pure _

theorem enterLevels_keeps :
    ∀ (levels : List (TableKind × Option (List Nat))) (F : List (Nat × Int)),
      Keeps AllNoted (enterLevels levels F) := by
  intro levels
  induction levels with
  | nil => exact fun F => Keeps.pure F
  | cons level levels ih =>
    intro F
    unfold enterLevels
    exact (enterLevel_keeps _ F _).bind fun F' => ih F'

theorem fill_keeps (path : Path) (desc : Int) (weak : Bool) :
    ∀ (F : List (Nat × Int)), Keeps AllNoted (fill path desc weak F) := by
  intro F
  induction F with
  | nil => exact Keeps.pure _
  | cons x F ih =>
    unfold fill
    refine (position_keeps _ _).bind fun p => ?_
    rcases p with ⟨tab, i⟩
    dsimp only
    split
    · exact (setSlot_keeps _ _ _).bind fun _ => ih
    · exact (setSlot_keeps _ _ _).bind fun _ => ih
    · split
      · exact (Keeps.throw _).bind fun _ => ih
      · exact ih

/-- **An addition keeps every table noted**, whether it goes through or fails part-way. -/
theorem add_keeps_allNoted (p : Path) (d root : Int) (weak : Bool) :
    Keeps AllNoted (add p d root weak) :=
  (enterLevels_keeps _ _).bind fun F => fill_keeps p d weak F

end Trie

open Trie in
/-- **Every table is noted.** Every table past table 0 of a trie made by additions, each going
through or failing part-way, is noted under a kind. -/
theorem Reachable.allNoted {n : Int} {t : Trie} (h : Reachable n t) : t.AllNoted := by
  induction h with
  | empty => exact allNoted_empty n
  | added o d root weak _ hu ih => exact ((add_keeps_allNoted _ d root weak) _ ih).1 () _ hu
  | failed o d root weak e _ hu ih => exact ((add_keeps_allNoted _ d root weak) _ ih).2 e _ hu

end X86Codec
