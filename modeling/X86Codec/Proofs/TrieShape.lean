import X86Codec.Proofs.LayoutWords
import X86Codec.Proofs.MergeNormal
/-!
The shape of every trie made by additions.

A trie made by adding opcode patterns to an empty trie with `n` root slots, where each addition
goes through or fails part-way (`Reachable`), is a forest hanging from table 0:

* table 0 keeps its `n` root slots, each empty or linking a root table;
* a link leads past table 0 to a table of its kind's length, noted under the link's kind and
  under no other;
* following links from a root slot (`LinkPath`) passes tables in the order of `TableKind.order`,
  each right below the kind the decoder's walk reads it under: opcode byte tables only in root
  tables, mandatory prefix tables only in opcode byte tables, ModRM rm tables only in ModRM reg
  tables (`TableKind.Above`);
* no table is linked from two slots.

All but the order along paths are what additions keep by `Built` and `Reachable.rootsLinked`; the
order along a path is `Shaped.link_above` applied link by link (`Shaped.linkPath_chain`).
-/

namespace X86Codec

namespace Trie

variable {t : Trie}

/-- following links from slot `p` passes tables of the kinds `ks` in turn: the link in `p`, then
a link in some slot of the table it leads to, and so on -/
inductive LinkPath (t : Trie) : Nat × Nat → List TableKind → Prop
  | link {p : Nat × Nat} {a : TableKind} {m : Nat} :
      t.slot p = some (.table a m) → LinkPath t p [a]
  | next {p : Nat × Nat} {a : TableKind} {m j : Nat} {ks : List TableKind} :
      t.slot p = some (.table a m) → LinkPath t (m, j) ks → LinkPath t p (a :: ks)

/-- a path starts with the link in its first slot -/
theorem LinkPath.first {p : Nat × Nat} {ks : List TableKind} (h : t.LinkPath p ks) :
    ∃ a m ks', ks = a :: ks' ∧ t.slot p = some (.table a m) := by
  cases h with
  | link hp => exact ⟨_, _, [], rfl, hp⟩
  | next hp _ => exact ⟨_, _, _, rfl, hp⟩

/-- on a shaped trie, each kind along a path of links sits right below the one before: the table
a link leads to is noted under the link's kind, and its links lead to later kinds -/
theorem Shaped.linkPath_chain (hs : t.Shaped) {p : Nat × Nat} {ks : List TableKind}
    (h : t.LinkPath p ks) : ks.IsChain TableKind.Above := by
  induction h with
  | link _ => exact .singleton _
  | next hp hrest ih =>
    obtain ⟨b, m', ks', rfl, hq⟩ := hrest.first
    exact .cons_cons (hs.link_above _ _ _ _ _ (hs.link_noted _ _ _ hp) hq) ih

end Trie

/-- kinds that each sit below the one before come in strictly increasing order -/
theorem TableKind.rank_pairwise_of_chain {ks : List TableKind} (h : ks.IsChain TableKind.Above) :
    (ks.map TableKind.rank).Pairwise (· < ·) := by
  have hrank : (ks.map TableKind.rank).IsChain (· < ·) :=
    List.isChain_map_of_isChain _ (fun _ _ hab => hab.1) h
  exact List.isChain_iff_pairwise.1 hrank

open Trie in
/-- **The shape of a trie made by additions.** Whether each addition went through or failed
part-way: table 0 keeps `n` root slots, each empty or linking a root table; a link leads past
table 0 to a table of its kind's length, noted under that kind and no other; the kinds along any
path of links from a root slot start at the root kind, strictly increase, and each sits right
below the one before (`TableKind.Above`: an opcode byte table only in a root table, a mandatory
prefix table only in an opcode byte table, a ModRM rm table only in a ModRM reg table); and no
table is linked twice. -/
theorem reachable_trie_shape {n : Int} {t : Trie} (ht : Reachable n t) :
    t.tableSize 0 = some n.toNat ∧
    (∀ i, t.slot (0, i) = none ∨ ∃ m, t.slot (0, i) = some (.table .root m)) ∧
    (∀ p b m, t.slot p = some (.table b m) →
      0 < m ∧ t.tableSize m = some b.length ∧ ∀ a, m ∈ t.tablesOf a ↔ a = b) ∧
    (∀ i ks, t.LinkPath (0, i) ks →
      ks.head? = some .root ∧ (ks.map TableKind.rank).Pairwise (· < ·) ∧
        ks.IsChain TableKind.Above) ∧
    t.LinksOnce := by
  have hb := ht.built
  have hs := hb.shaped
  refine ⟨hb.roots, ht.rootsLinked, fun p b m h => ?_, fun i ks h => ?_, hb.once⟩
  · -- a link names the kind its target is noted under, and a table is noted under one kind
    have hm := hs.link_noted p b m h
    obtain ⟨hpos, hsize⟩ := hs.noted_table b m hm
    exact ⟨hpos, hsize, fun a => ⟨fun ha => hs.noted_once a b m ha hm, fun hab => hab ▸ hm⟩⟩
  · obtain ⟨a, m, ks', rfl, h0⟩ := h.first
    have hchain := hs.linkPath_chain h
    exact ⟨by rw [hs.root_link i a m h0]; rfl, TableKind.rank_pairwise_of_chain hchain, hchain⟩

open Trie in
/-- the trie of the pattern `90` under both of two root slots has the shape of every trie made
by additions -/
theorem nop_both_roots_shape :
    Reachable 2 nopBothRoots ∧
    nopBothRoots.tableSize 0 = some (2 : Int).toNat ∧
    (∀ i, nopBothRoots.slot (0, i) = none ∨
      ∃ m, nopBothRoots.slot (0, i) = some (.table .root m)) ∧
    (∀ p b m, nopBothRoots.slot p = some (.table b m) →
      0 < m ∧ nopBothRoots.tableSize m = some b.length ∧
        ∀ a, m ∈ nopBothRoots.tablesOf a ↔ a = b) ∧
    (∀ i ks, nopBothRoots.LinkPath (0, i) ks →
      ks.head? = some .root ∧ (ks.map TableKind.rank).Pairwise (· < ·) ∧
        ks.IsChain TableKind.Above) ∧
    nopBothRoots.LinksOnce :=
  ⟨nopBothRoots_reachable, reachable_trie_shape nopBothRoots_reachable⟩

end X86Codec
