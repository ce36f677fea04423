import X86Codec.Proofs.TrieFailure
/-!
Adding opcode patterns to a trie, one after another.

The tries the table generator works on are made from an empty trie by adding opcode patterns,
each addition going through or failing part-way (`Reachable`). Every such trie is shaped, links
each table once, and keeps its root slots (`Built`), since each addition keeps that whatever its
outcome (`Built.add`). A pattern's path is always sound, and a root slot given from the end is
the same slot counted from the start (`add_root`).

The keys a pattern matches are those its path admits (`Opcode.Matches`). On such tries an
addition under a root slot updates exactly the keys the pattern matches: the other root slots
and the other keys look up as before. A matched key that found nothing or a weak entry finds the
new entry, and a strong entry stays. A pattern whose slot lists stay inside the tables either
goes through or fails with the redundancy error, and it fails exactly when a strong entry is
added over a strong entry some matched key finds.

Main statement:
* `add_updates_matched_keys`.
-/

namespace X86Codec

namespace Opcode

/-- the keys an opcode pattern stands for: at each level its path does not skip, the key's slot
is one of the path's -/
def Matches (o : Opcode) (k : TableKey) : Prop := Trie.Admits o.path.levels k

/-- the path of a pattern lists distinct slots at each level, and has a ModRM rm level only
with a ModRM reg level -/
theorem path_sound (o : Opcode) : o.path.Sound := by
  obtain ⟨mand, esc, b, ext, modrm, fixed, vex, vexl, rexw⟩ := o
  refine ⟨fun c es hm => ?_, fun h => ?_⟩
  · simp only [Path.levels, path, List.mem_cons, List.mem_nil_iff, or_false,
      Prod.mk.injEq] at hm
    rcases hm with ⟨-, h⟩ | ⟨-, h⟩ | ⟨-, h⟩ | ⟨-, h⟩ | ⟨-, h⟩ | ⟨-, h⟩
    · -- the opcode map
      cases h
      exact List.nodup_singleton _
    · -- the opcode byte, with the register in its low bits for an extended opcode
      cases h
      split_ifs
      · exact List.nodup_range.map fun x y hxy => by omega
      · exact List.nodup_singleton _
    · rcases mand with _ | (_ | _ | _ | _ | _) <;> cases h <;> decide
    · -- the ModRM reg slots: register and memory forms differ by 8
      rcases fixed with _ | x <;> rcases modrm with _ | ⟨reg, form⟩
      · cases h
      · cases h
        rcases reg with _ | r <;> cases form
        all_goals first | decide | simp
      · cases h
        exact List.nodup_singleton _
      · cases h
        exact List.nodup_singleton _
    · rcases fixed with _ | x <;> rcases modrm with _ | ⟨reg, form⟩
      · cases h
      · cases h
      · cases h
        exact List.nodup_singleton _
      · cases h
        exact List.nodup_singleton _
    · split_ifs at h
      cases h
      rcases vexl with _ | (_ | _ | _) <;> rcases rexw with _ | (_ | _ | _) <;> decide
  · -- only a fixed ModRM byte gives an rm level, and it gives a reg level too
    rcases fixed with _ | x <;> rcases modrm with _ | ⟨reg, form⟩
    all_goals simp_all [path]

end Opcode

namespace Trie

variable {t u : Trie}

/-! ## The root slot -/

theorem run_bind_congr {α β : Type} {x y : TrieM α} {f : α → TrieM β} (h : x.run t = y.run t) :
    (x >>= f).run t = (y >>= f).run t := by
  rw [EStateM.run_bind, EStateM.run_bind, h]

/-- a root slot is read from table 0 as a position counted from its end when negative -/
theorem position_root {m : Nat} {root : Int} (h0 : t.tableSize 0 = some m) :
    (position 0 root).run t = match seqIndex m root with
      | some i => (position 0 (i : Int)).run t
      | none => .error (.pastEnd .list) t := by
  obtain ⟨tab, htab, rfl⟩ : ∃ tab, t.tables[0]? = some (some tab) ∧ tab.size = m := by
    unfold tableSize at h0
    rcases ht : t.tables[0]? with _ | _ | tab <;> simp_all
  have hslots : ∀ e, (slotsOf 0 e).run t = .ok tab t := fun e => by
    simp [slotsOf, htab]
  rcases hi : seqIndex tab.size root with _ | i
  · simp [position, EStateM.run_bind, hslots, hi]
    rfl
  · have hi' : seqIndex tab.size (i : Int) = some i := by
      unfold seqIndex at hi ⊢
      split_ifs at hi ⊢ <;> simp_all <;> omega
    simp [position, EStateM.run_bind, hslots, hi, hi']

/-- the root level enters the slot it names, however it is counted -/
theorem enterLevel_root {c : TableKind} {es : List Int} {m : Nat} {root : Int}
    (h0 : t.tableSize 0 = some m) :
    (enterLevel c (some es) [(0, root)]).run t = match seqIndex m root with
      | some i => (enterLevel c (some es) [(0, (i : Int))]).run t
      | none => .error (.pastEnd .list) t := by
  simp only [enterLevel, takenSlots]
  rw [EStateM.run_bind, position_root h0]
  rcases seqIndex m root with _ | i
  · rfl
  · rfl

/-- **The root slot.** Adding under a root slot counted from the end of table 0 is adding under
the same slot counted from its start; a root slot outside table 0 fails at once. -/
theorem add_root {p : Path} {d root : Int} {weak : Bool} {m : Nat} (h0 : t.tableSize 0 = some m) :
    (add p d root weak).run t = match seqIndex m root with
      | some i => (add p d i weak).run t
      | none => .error (.pastEnd .list) t := by
  have hlev : (enterLevel .root (some (p.root.map Int.ofNat)) [(0, root)]).run t = _ :=
    enterLevel_root h0
  rcases hs : seqIndex m root with _ | i <;> rw [hs] at hlev
  · simp only [add, Path.levels, enterLevels, Option.map_some]
    rw [EStateM.run_bind, EStateM.run_bind, hlev]
  · simp only [add, Path.levels, enterLevels, Option.map_some]
    exact run_bind_congr (run_bind_congr hlev)

/-! ## Tries built by additions -/

/-- what every trie built by adding opcode patterns to an empty trie with `n` root slots keeps:
its shape, its single links, and table 0 with its root slots -/
structure Built (n : Int) (t : Trie) : Prop where
  shaped : t.Shaped
  once : t.LinksOnce
  roots : t.tableSize 0 = some n.toNat

theorem slot_empty (n : Int) (p : Nat × Nat) : (Trie.empty n).slot p = none := by
  rcases p with ⟨_ | j, i⟩
  · simp only [slot, Trie.empty, List.getElem?_toArray, List.getElem?_cons_zero,
      Array.getElem?_replicate]
    split_ifs <;> rfl
  · simp [slot, Trie.empty]

theorem Built.empty (n : Int) : Built n (Trie.empty n) := by
  have hof : ∀ a, (Trie.empty n).tablesOf a = [] := fun a => by
    simp [tablesOf, kindList, Trie.empty]
  refine ⟨⟨fun a m hm => ?_, fun a _ m hm => ?_, fun a => ?_, fun p a m h => ?_,
    fun a m _ _ _ hm => ?_, fun j b m h => ?_, by simp [Trie.empty]⟩, fun p _ a _ m h => ?_, ?_⟩
  all_goals simp only [hof, slot_empty, List.not_mem_nil, reduceCtorEq] at *
  · exact List.nodup_nil
  · simp [tableSize, Trie.empty]

/-- **Each addition keeps what a built trie keeps**, whether it goes through or fails. -/
theorem Built.add {n : Int} (hb : Built n t) (o : Opcode) (d root : Int) (weak : Bool)
    (hu : (add o.path d root weak).run t = .ok () u ∨
      ∃ e, (add o.path d root weak).run t = .error e u) : Built n u := by
  rw [add_root hb.roots] at hu
  rcases hi : seqIndex n.toNat root with _ | i <;> simp only [hi] at hu
  · -- a root slot outside table 0: nothing happens
    rcases hu with hu | ⟨e, hu⟩ <;> cases hu
    exact hb
  · rcases hu with hu | ⟨e, hu⟩
    · have ha := add_ok hu hb.shaped hb.once o.path_sound
      exact ⟨ha.shaped, ha.once, ha.size0.trans hb.roots⟩
    · obtain ⟨hs, ho, h0, -⟩ := add_error hu hb.shaped hb.once o.path_sound
      exact ⟨hs, ho, h0.trans hb.roots⟩

end Trie

/-- the tries that adding opcode patterns makes of an empty trie with `n` root slots, where each
addition may go through or fail part-way -/
inductive Reachable (n : Int) : Trie → Prop
  | empty : Reachable n (Trie.empty n)
  | added {t u : Trie} (o : Opcode) (d root : Int) (weak : Bool) :
      Reachable n t → (Trie.add o.path d root weak).run t = .ok () u → Reachable n u
  | failed {t u : Trie} (o : Opcode) (d root : Int) (weak : Bool) (e : Failure) :
      Reachable n t → (Trie.add o.path d root weak).run t = .error e u → Reachable n u

theorem Reachable.built {n : Int} {t : Trie} (h : Reachable n t) : Trie.Built n t := by
  induction h with
  | empty => exact Trie.Built.empty n
  | added o d root weak _ hu ih => exact ih.add o d root weak (.inl hu)
  | failed o d root weak e _ hu ih => exact ih.add o d root weak (.inr ⟨e, hu⟩)

namespace Trie

/-- an empty or weak slot takes the new entry -/
theorem fillWith_free {weak : Bool} {d : Int} {s s' : Option Slot}
    (hs : s = none ∨ ∃ d', s = some (.weak d')) (h : fillWith weak d s = some s') :
    s' = some (if weak then .weak d else .instr d) := by
  rcases hs with rfl | ⟨d', rfl⟩ <;> simpa [fillWith] using h.symm

/-- a strong entry stays, and only a weak entry may meet it -/
theorem fillWith_strong {weak : Bool} {d d' : Int} {s' : Option Slot}
    (h : fillWith weak d (some (.instr d')) = some s') : weak = true ∧ s' = some (.instr d') := by
  cases weak <;> simp [fillWith] at h
  exact ⟨rfl, h.symm⟩

end Trie

open Trie in
/-- **Adding an opcode pattern updates exactly the keys it matches.** On a trie built by
additions with `n` root slots, adding pattern `o` for descriptor `d` under root slot `r < n`:
if the addition goes through, the other root slots and the keys `o` does not match look up as
before, and a matched key finds the new entry (weak or strong as the addition) where it found
nothing or a weak entry, and its old entry where that was strong. For a pattern whose slot lists
stay inside the tables, the addition goes through or fails with the redundancy error, and it
fails exactly when the new entry is strong and some matched key finds a strong entry. -/
theorem add_updates_matched_keys {n : Int} {t : Trie} (ht : Reachable n t) (o : Opcode)
    (d : Int) {r : Nat} (hr : (r : Int) < n) (weak : Bool) :
    (∀ u, (add o.path d r weak).run t = .ok () u →
      (∀ r' k, k.Valid → r' ≠ r → u.lookup r' k = t.lookup r' k) ∧
      (∀ k, k.Valid → ¬ o.Matches k → u.lookup r k = t.lookup r k) ∧
      ∀ k, k.Valid → o.Matches k →
        ((t.lookup r k = none ∨ ∃ d', t.lookup r k = some (.weak d')) →
          u.lookup r k = some (if weak then .weak d else .instr d)) ∧
        ∀ d', t.lookup r k = some (.instr d') → u.lookup r k = t.lookup r k) ∧
    (o.path.InRange →
      ((∃ u, (add o.path d r weak).run t = .ok () u) ∨
        ∃ u, (add o.path d r weak).run t = .error (.redundantEntry o.path.toList) u) ∧
      ((∃ u, (add o.path d r weak).run t = .error (.redundantEntry o.path.toList) u) ↔
        weak = false ∧ ∃ k, k.Valid ∧ o.Matches k ∧ ∃ d', t.lookup r k = some (.instr d'))) := by
  obtain ⟨hs, ho, h0⟩ := ht.built
  refine ⟨fun u hu => ?_, fun hrange => ?_⟩
  · have ha := add_ok hu hs ho o.path_sound
    refine ⟨fun r' k hk hne => ha.other r' k hk fun h => hne h.1,
      fun k hk hnm => ha.other r k hk fun h => hnm h.2, fun k hk hm => ?_⟩
    have hfill := ha.admitted r k hk rfl hm
    refine ⟨fun hold => fillWith_free hold hfill, fun d' hold => ?_⟩
    rw [hold] at hfill ⊢
    exact (fillWith_strong hfill).2
  · have h0r : t.InTable (0, r) := ⟨n.toNat, h0, by omega⟩
    rcases hres : (add o.path d r weak).run t with ⟨⟨⟩, u⟩ | ⟨e, u⟩
    · -- it went through, so no matched key found a strong entry under a strong addition
      refine ⟨.inl ⟨u, rfl⟩, iff_of_false (by rintro ⟨_, h⟩; cases h) ?_⟩
      rintro ⟨hw, k, hk, hm, d', hk'⟩
      have hfill := (add_ok hres hs ho o.path_sound).admitted r k hk rfl hm
      rw [hk'] at hfill
      exact absurd (fillWith_strong hfill).1 (by simp [hw])
    · -- it failed, over a strong entry that a matched key finds
      obtain ⟨-, -, -, hwhy⟩ := add_error hres hs ho o.path_sound
      obtain ⟨rfl, hw, hkey⟩ := hwhy hrange h0r
      exact ⟨.inr ⟨u, rfl⟩, iff_of_true ⟨u, rfl⟩ ⟨hw, hkey⟩⟩

/-- the pattern `90`: a one-byte opcode with no prefix, ModRM byte or W and L bits -/
def Opcode.nop : Opcode :=
  { mandatory := none, escape := 0, byte := 0x90, extended := false, modrm := none,
    fixedModrm := none, vex := false, vexl := none, rexw := none }

/-- the trie of a weak entry for `90`, descriptor 0, under one root slot: a root table and an
opcode byte table -/
def weakNopTrie : Trie :=
  { tables := #[some #[some (.table .root 1)],
      some ((Array.replicate 8 none).setIfInBounds 0 (some (.table .byte 2))),
      some ((Array.replicate 256 none).setIfInBounds 0x90 (some (.weak 0)))],
    kinds := #[(.root, #[1]), (.byte, #[2])] }

/-- `weakNopTrie` after a strong entry for `90`, descriptor 1 -/
def strongOverWeakTrie : Trie :=
  { weakNopTrie with
    tables := #[some #[some (.table .root 1)],
      some ((Array.replicate 8 none).setIfInBounds 0 (some (.table .byte 2))),
      some ((Array.replicate 256 none).setIfInBounds 0x90 (some (.instr 1)))] }

set_option maxRecDepth 20000 in
open Trie in
theorem weakNopTrie_reachable : Reachable 1 weakNopTrie :=
  .added Opcode.nop 0 0 true .empty (by with_unfolding_all rfl)

set_option maxRecDepth 20000 in
open Trie in
theorem add_strong_over_weak :
    (add Opcode.nop.path 1 ((0 : Nat) : Int) false).run weakNopTrie = .ok () strongOverWeakTrie := by
  with_unfolding_all rfl

set_option maxRecDepth 20000 in
open Trie in
/-- a strong entry for `90` added over a weak one for the same key takes the key -/
theorem strong_nop_replaces_weak :
    Reachable 1 weakNopTrie ∧
      (add Opcode.nop.path 1 ((0 : Nat) : Int) false).run weakNopTrie = .ok () strongOverWeakTrie ∧
      weakNopTrie.lookup 0 ⟨0, 0x90, 0, 0, false, false⟩ = some (.weak 0) ∧
      strongOverWeakTrie.lookup 0 ⟨0, 0x90, 0, 0, false, false⟩ = some (.instr 1) := by
  have hold : weakNopTrie.lookup 0 ⟨0, 0x90, 0, 0, false, false⟩ = some (.weak 0) := by decide
  -- the key of `90` is matched, and it found a weak entry
  have hmatch : Opcode.nop.Matches ⟨0, 0x90, 0, 0, false, false⟩ := by
    intro c es hm
    simp [Opcode.nop, Opcode.path, Path.levels] at hm
    rcases hm with ⟨rfl, rfl⟩ | ⟨rfl, rfl⟩ <;> decide
  have hkey := ((add_updates_matched_keys weakNopTrie_reachable Opcode.nop 1 (by decide) false).1 _
    add_strong_over_weak).2.2 ⟨0, 0x90, 0, 0, false, false⟩ ⟨by decide, by decide, by decide, by decide⟩
    hmatch
  exact ⟨weakNopTrie_reachable, add_strong_over_weak, hold, hkey.1 (Or.inr ⟨0, hold⟩)⟩

end X86Codec
