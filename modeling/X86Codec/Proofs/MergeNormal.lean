import X86Codec.Proofs.LayoutWords
import X86Codec.Proofs.TrieNoted
/-!
Merging a trie made by additions normalises it, all but its root slots.

On a trie made by additions every table past table 0 is noted, so what merging keeps of the
noted tables (`Merged`, `Normal`) holds of every table: a link from a table past table 0 leads
to a present table, no two present tables of one kind have the same slots, and each noted table
has a present one of its kind that walks as it did.

Table 0, of the root slots, is not relinked. A root slot whose root table is dropped for an equal
one still names the dropped table, and every key finds nothing under it. A root table is
dropped only for one that walks alike, so where no two root tables do, every root table is
kept and the root slots find what they found.

A second merge reads every noted table again. It fails on a dropped table. When no table was
dropped it changes nothing: nothing is relinked, no two tables of a kind are equal, and every
kind is noted already.

Main statements:
* `lookup_of_dropped_root`: a root slot naming a dropped table finds nothing.
* `merge_fixed`, `merge_present` and `merge_error_iff`: a second merge changes nothing where
  every noted table is present, and fails exactly where a noted table was dropped.
* `merge_deduplicates`: merging a trie made by additions goes through and gives what
  `Deduplicated` says.
* `merge_normalises`: when no two root tables walk alike, no root table is dropped, so every
  link, from the root slots too, leads to a present table and every lookup is as before.
* `merge_leaves_root_on_dropped_table`: with the pattern `90` under both of two root slots, the
  second root slot names a dropped table after the merge, and a second merge fails.
-/

namespace X86Codec.Trie

variable {t u v : Trie}

/-- a root slot naming a dropped table finds nothing for any key -/
theorem lookup_of_dropped_root {r m : Nat} (h0 : u.slot (0, r) = some (.table .root m))
    (hm : u.tables[m]? = some none) (k : TableKey) : u.lookup r k = none := by
  rw [lookup_of_root h0, slot_of_tableSize_eq_none (by simp [tableSize, hm]), walk_none]

/-! ## A second merge -/

/-- merging tables of a kind that are present, with different slots, under no synonyms, changes
nothing: each table is kept as it is, and the tables seen so far are earlier tables of the
kind -/
theorem mergeKind_fixed {L : List Nat}
    (hdist : ∀ n n' (tab : Array (Option Slot)), n ∈ L → n' ∈ L → u.tables[n]? = some (some tab) →
      u.tables[n']? = some (some tab) → n = n') :
    ∀ (R : List Nat) {seen : Std.HashMap (Array (Option Slot)) Nat},
      (∀ n ∈ R, n ∈ L ∧ ∃ tab, u.tables[n]? = some (some tab)) → R.Nodup →
      (∀ tab e, seen[tab]? = some e → e ∈ L ∧ e ∉ R ∧ u.tables[e]? = some (some tab)) →
      (mergeKind {} R seen).run u = .ok {} u := by
  intro R
  induction R with
  | nil => exact fun _ _ _ => rfl
  | cons num rest ih =>
    intro seen hR hnd hseen
    obtain ⟨hnumL, tab, htab⟩ := hR num List.mem_cons_self
    obtain ⟨hnum, hnd'⟩ := List.nodup_cons.1 hnd
    -- a table seen before with the same slots would be this one
    have hnew : seen[tab]? = none := by
      rcases he : seen[tab]? with _ | e
      · rfl
      · obtain ⟨heL, hnotin, hetab⟩ := hseen tab e he
        obtain rfl := hdist e num tab heL hnumL hetab htab
        exact absurd List.mem_cons_self hnotin
    rw [mergeKind_cons_new htab (map_relink_empty tab) hnew, modify_table_same htab]
    refine ih (fun n hn => hR n (.tail _ hn)) hnd' fun tab' e he => ?_
    rw [Std.HashMap.getElem?_insert] at he
    split_ifs at he with heq
    · cases he
      rw [beq_iff_eq] at heq
      subst heq
      exact ⟨hnumL, hnum, htab⟩
    · obtain ⟨h1, h2, h3⟩ := hseen tab' e he
      exact ⟨h1, fun h => h2 (.tail _ h), h3⟩

/-- **A second merge changes nothing** on a trie that notes every kind, whose noted tables are
present, noted once, and of different slots within a kind. -/
theorem merge_fixed (hkinds : ∀ K, (u.kinds.find? (·.1 == K)).isSome)
    (hpresent : ∀ K n, n ∈ u.tablesOf K → ∃ tab, u.tables[n]? = some (some tab))
    (hnodup : ∀ K, (u.tablesOf K).Nodup)
    (hdist : ∀ K n n' (tab : Array (Option Slot)), n ∈ u.tablesOf K → n' ∈ u.tablesOf K →
      u.tables[n]? = some (some tab) → u.tables[n']? = some (some tab) → n = n') :
    merge.run u = .ok () u := by
  suffices h : ∀ Ks : List TableKind, (mergeKinds Ks {}).run u = .ok () u from h _
  intro Ks
  induction Ks with
  | nil => rfl
  | cons K Ks ih =>
    -- the kind is noted, so reading its tables changes nothing
    obtain ⟨ns, hk⟩ : ∃ ns, (kindTables K).run u = .ok ns u := by
      have hK := hkinds K
      rcases hf : u.kinds.find? (·.1 == K) with _ | ⟨K', ns⟩
      · rw [hf] at hK
        cases hK
      · exact ⟨ns, by simp [kindTables, hf]⟩
    have hns := (kindTables_ok hk).1
    unfold mergeKinds
    rw [TrieM.run_bind_of_ok hk, hns, TrieM.run_bind_of_ok (mergeKind_fixed (hdist K) _
      (fun n hn => ⟨hn, hpresent K n hn⟩) (hnodup K) fun _ _ h => by simp at h)]
    exact ih

/-- a merge of a kind that goes through read each table it merges, and leaves present only
tables that were present -/
theorem mergeKind_present : ∀ (R : List Nat) {syn syn' : Std.HashMap Nat Nat}
    {seen : Std.HashMap (Array (Option Slot)) Nat} {u u' : Trie},
    (mergeKind syn R seen).run u = .ok syn' u' →
    (∀ n ∈ R, ∃ tab, u.tables[n]? = some (some tab)) ∧
      (∀ (n : Nat) (tab' : Array (Option Slot)), u'.tables[n]? = some (some tab') →
        ∃ tab, u.tables[n]? = some (some tab)) ∧ u'.kinds = u.kinds := by
  intro R
  induction R with
  | nil =>
    intro syn syn' seen u u' h
    obtain ⟨-, rfl⟩ := TrieM.pure_ok h
    exact ⟨by simp, fun n tab' h => ⟨tab', h⟩, rfl⟩
  | cons num rest ih =>
    intro syn syn' seen u u' h
    unfold mergeKind at h
    obtain ⟨src, u₀, hsrc, h₁⟩ := TrieM.bind_ok h
    obtain ⟨hu₀, hsrcu⟩ := slotsOf_ok hsrc
    subst u₀
    obtain ⟨⟨⟩, u₁, h₂, h₃⟩ := TrieM.bind_ok h₁
    obtain ⟨ht₁, hk₁⟩ := setTable_ok h₂
    -- a table other than `num` is as it was
    have hback : ∀ (v : Trie), (∀ n, n ≠ num → v.tables[n]? = u.tables[n]?) →
        ∀ n (tab' : Array (Option Slot)), v.tables[n]? = some (some tab') →
          ∃ tab, u.tables[n]? = some (some tab) := fun v hv n tab' h => by
      by_cases hn : n = num
      · subst hn
        exact ⟨src, hsrcu⟩
      · rw [hv n hn] at h
        exact ⟨tab', h⟩
    have hother₁ : ∀ n, n ≠ num → u₁.tables[n]? = u.tables[n]? := fun n hn => by
      rw [ht₁, Array.getElem?_modify, if_neg (Ne.symm hn)]
    split at h₃
    · -- the table is dropped
      obtain ⟨⟨⟩, u₂, h₄, h₅⟩ := TrieM.bind_ok h₃
      obtain ⟨ht₂, hk₂⟩ := setTable_ok h₄
      have hother₂ : ∀ n, n ≠ num → u₂.tables[n]? = u.tables[n]? := fun n hn => by
        rw [ht₂, Array.getElem?_modify, if_neg (Ne.symm hn), hother₁ n hn]
      obtain ⟨hR, hpres, hk⟩ := ih h₅
      refine ⟨fun n hn => ?_, fun n tab' h => ?_, hk.trans (hk₂.trans hk₁)⟩
      · rcases List.mem_cons.1 hn with rfl | hn
        · exact ⟨src, hsrcu⟩
        · obtain ⟨tab, htab⟩ := hR n hn
          exact hback u₂ hother₂ n tab htab
      · obtain ⟨tab, htab⟩ := hpres n tab' h
        exact hback u₂ hother₂ n tab htab
    · -- the table is kept
      obtain ⟨hR, hpres, hk⟩ := ih h₃
      refine ⟨fun n hn => ?_, fun n tab' h => ?_, hk.trans hk₁⟩
      · rcases List.mem_cons.1 hn with rfl | hn
        · exact ⟨src, hsrcu⟩
        · obtain ⟨tab, htab⟩ := hR n hn
          exact hback u₁ hother₁ n tab htab
      · obtain ⟨tab, htab⟩ := hpres n tab' h
        exact hback u₁ hother₁ n tab htab

/-- **A merge that goes through found every noted table present.** -/
theorem merge_present {u' : Trie} (h : merge.run u = .ok () u') (K : TableKind) :
    ∀ n ∈ u.tablesOf K, ∃ tab, u.tables[n]? = some (some tab) := by
  suffices hks : ∀ (Ks : List TableKind) {syn : Std.HashMap Nat Nat} {u u' : Trie},
      (mergeKinds Ks syn).run u = .ok () u' →
      ∀ K ∈ Ks, ∀ n ∈ u.tablesOf K, ∃ tab, u.tables[n]? = some (some tab) from
    hks _ h K (List.mem_reverse.2 (TableKind.mem_order K))
  intro Ks
  induction Ks with
  | nil => exact fun _ K hK => by cases hK
  | cons K Ks ih =>
    intro syn u u' h K' hK' n hn
    unfold mergeKinds at h
    obtain ⟨ns, u₁, h₀, h₁⟩ := TrieM.bind_ok h
    obtain ⟨syn₁, u₂, h₁, h₂⟩ := TrieM.bind_ok h₁
    obtain ⟨hns, ht₁, hk₁⟩ := kindTables_ok h₀
    obtain ⟨hR, hpres, hk₂⟩ := mergeKind_present _ h₁
    rcases List.mem_cons.1 hK' with rfl | hK'
    · rw [← ht₁]
      exact hR n (hns ▸ hn)
    · -- a later kind's table, present after this kind is merged, was present before
      have hn₂ : n ∈ u₂.tablesOf K' := by
        rw [show u₂.tablesOf K' = u₁.tablesOf K' by unfold tablesOf; rw [hk₂], hk₁]
        exact hn
      obtain ⟨tab, htab⟩ := ih h₂ K' hK' n hn₂
      rw [← ht₁]
      exact hpres n tab htab

/-- **A second merge fails exactly on a dropped table**, on a trie that notes every kind, whose
noted tables are inside it, noted once, and of different slots within a kind. -/
theorem merge_error_iff (hkinds : ∀ K, (u.kinds.find? (·.1 == K)).isSome)
    (hnodup : ∀ K, (u.tablesOf K).Nodup)
    (hdist : ∀ K n n' (tab : Array (Option Slot)), n ∈ u.tablesOf K → n' ∈ u.tablesOf K →
      u.tables[n]? = some (some tab) → u.tables[n']? = some (some tab) → n = n')
    (hlt : ∀ K n, n ∈ u.tablesOf K → n < u.tables.size) :
    (∃ e u', merge.run u = .error e u') ↔
      ∃ K n, n ∈ u.tablesOf K ∧ u.tables[n]? = some none := by
  constructor
  · rintro ⟨e, u', he⟩
    -- were every noted table present, the merge would go through
    by_contra hall
    have hpresent : ∀ K n, n ∈ u.tablesOf K → ∃ tab, u.tables[n]? = some (some tab) := by
      intro K n hn
      rcases hx : u.tables[n]? with _ | _ | tab
      · rw [Array.getElem?_eq_none_iff] at hx
        exact absurd (hlt K n hn) (by omega)
      · exact absurd ⟨K, n, hn, hx⟩ hall
      · exact ⟨tab, rfl⟩
    rw [merge_fixed hkinds hpresent hnodup hdist] at he
    cases he
  · rintro ⟨K, n, hn, hnone⟩
    rcases hr : merge.run u with _ | ⟨e, u'⟩
    · obtain ⟨tab, htab⟩ := merge_present hr K n hn
      rw [hnone] at htab
      cases htab
    · exact ⟨e, u', rfl⟩

/-! ## Merging a trie made by additions -/

section Noted

variable {syn : Std.HashMap Nat Nat}

/-- a link from a table past table 0 of a merged trie whose tables are all noted leads to a
present table noted under its kind -/
theorem Normal.links_present (hm : Merged t (fun n => ∃ K, n ∈ t.tablesOf K) syn u)
    (hn : Normal t (fun n => ∃ K, n ∈ t.tablesOf K) u) (ha : t.AllNoted) {n j m : Nat}
    {b : TableKind} (hn0 : 0 < n) (h : u.slot (n, j) = some (.table b m)) :
    m ∈ u.tablesOf b ∧ ∃ tab, u.tables[m]? = some (some tab) := by
  -- the linking table is present, so it was there before the merge, and it is noted
  obtain ⟨w, hw, -⟩ := tableSize_of_slot h
  obtain ⟨tab, htab, -⟩ := tables_of_tableSize hw
  obtain ⟨K, hK⟩ := ha n hn0 (lt_size_of_tableSize (hm.sizes n tab htab))
  refine ⟨?_, hn.live n j b m ⟨K, hK⟩ h⟩
  rw [hm.kinds]
  exact (hm.links n j b m h).1

/-- two present tables of one kind of a merged trie have different slots -/
theorem Normal.distinct_noted (hm : Merged t (fun n => ∃ K, n ∈ t.tablesOf K) syn u)
    (hn : Normal t (fun n => ∃ K, n ∈ t.tablesOf K) u) (K : TableKind) {m m' : Nat}
    {tab : Array (Option Slot)} (hmK : m ∈ u.tablesOf K) (hm'K : m' ∈ u.tablesOf K)
    (h : u.tables[m]? = some (some tab)) (h' : u.tables[m']? = some (some tab)) : m = m' := by
  rw [hm.kinds] at hmK hm'K
  exact hn.distinct K m m' tab hmK hm'K ⟨K, hmK⟩ ⟨K, hm'K⟩ h h'

/-- a noted table of a merged trie has a present table of its kind, itself where it is kept,
that walks as it did -/
theorem Merged.walks_noted (hm : Merged t (fun n => ∃ K, n ∈ t.tablesOf K) syn u)
    {K : TableKind} {m : Nat} (hmK : m ∈ t.tablesOf K) :
    ∃ m', m' ∈ u.tablesOf K ∧ (∃ tab, u.tables[m']? = some (some tab)) ∧
      ((∃ tab, u.tables[m]? = some (some tab)) → m' = m) ∧ SameWalks t u K m m' := by
  obtain ⟨hsK, -, hpres, hsame⟩ := hm.synonym K m hmK ⟨K, hmK⟩
  refine ⟨syn.getD m m, ?_, hpres, hm.synonym_of_kept ⟨K, hmK⟩, hsame⟩
  rw [hm.kinds]
  exact hsK

end Noted

/-- what merging the trie `t` into `u` gives -/
structure Deduplicated (t u : Trie) : Prop where
  /-- a link from a table past table 0 leads to a present table noted under its kind -/
  links : ∀ n j b m, 0 < n → u.slot (n, j) = some (.table b m) →
    m ∈ u.tablesOf b ∧ ∃ tab, u.tables[m]? = some (some tab)
  /-- a noted table has a present table of its kind, itself where it is kept, from which every
  key walks as it did from it -/
  walks : ∀ K m, m ∈ t.tablesOf K → ∃ m', m' ∈ u.tablesOf K ∧
    (∃ tab, u.tables[m']? = some (some tab)) ∧
    ((∃ tab, u.tables[m]? = some (some tab)) → m' = m) ∧ SameWalks t u K m m'
  /-- table 0, of the root slots, is not relinked -/
  roots : u.tables[0]? = t.tables[0]?
  /-- a root slot whose root table is kept looks every key up as before -/
  kept_lookup : ∀ r m, t.slot (0, r) = some (.table .root m) →
    (∃ tab, u.tables[m]? = some (some tab)) → ∀ k, u.lookup r k = t.lookup r k
  /-- every table is noted under its kind as before, a dropped one too -/
  kinds : ∀ K, u.tablesOf K = t.tablesOf K
  /-- no two present tables of one kind have the same slots -/
  distinct : ∀ K m m' (tab : Array (Option Slot)), m ∈ u.tablesOf K → m' ∈ u.tablesOf K →
    u.tables[m]? = some (some tab) → u.tables[m']? = some (some tab) → m = m'
  /-- a second merge changes nothing where every noted table is present -/
  again : (∀ K m, m ∈ u.tablesOf K → ∃ tab, u.tables[m]? = some (some tab)) →
    merge.run u = .ok () u
  /-- and fails exactly where a noted table was dropped -/
  again_fails : (∃ e u', merge.run u = .error e u') ↔
    ∃ K m, m ∈ u.tablesOf K ∧ u.tables[m]? = some none

/-- **Merging a trie made by additions.** Take a trie made from an empty trie by additions,
each going through or failing part-way. Merging it goes through. Every link from a table past
table 0 then leads to a present table noted under its kind, and every noted table has a present
table of its kind, itself where it is kept, from which every key walks as it did. No two
present tables of one kind have the same slots. Table 0 is not relinked: a root slot whose
root table is kept looks every key up as before (one whose root table was dropped finds
nothing, `lookup_of_dropped_root`). A second merge changes nothing when every noted table is
present, and fails exactly when a noted table was dropped. -/
theorem merge_deduplicates {n : Int} {t : Trie} (ht : Reachable n t) :
    ∃ u, merge.run t = .ok () u ∧ Deduplicated t u := by
  have hs := ht.built.shaped
  obtain ⟨syn, u, hrun, hm, hn, hkinds⟩ := merge_normal hs
  have h0 := merge_table_zero hrun hs
  have hdist : ∀ K m m' (tab : Array (Option Slot)), m ∈ u.tablesOf K → m' ∈ u.tablesOf K →
      u.tables[m]? = some (some tab) → u.tables[m']? = some (some tab) → m = m' :=
    fun K _ _ _ => hn.distinct_noted hm K
  have hnodup : ∀ K, (u.tablesOf K).Nodup := fun K => by
    rw [hm.kinds]
    exact hs.noted_nodup K
  have hlt : ∀ K m, m ∈ u.tablesOf K → m < u.tables.size := fun K m hmK => by
    rw [hm.kinds] at hmK
    rw [hm.size]
    exact hs.noted_lt hmK
  exact ⟨u, hrun, ⟨fun n j b m hn0 h => hn.links_present hm ht.allNoted hn0 h,
    fun K m hmK => hm.walks_noted hmK, h0, fun r m h0' => merge_lookup hrun hs h0', hm.kinds,
    hdist, fun hp => merge_fixed hkinds hp hnodup hdist, merge_error_iff hkinds hnodup hdist hlt⟩⟩

/-- a root table of a merged trie whose root tables all walk differently is kept -/
theorem Deduplicated.root_kept (hd : Deduplicated t u)
    (hroots : ∀ m ∈ t.tablesOf .root, ∀ m' ∈ t.tablesOf .root, SameWalks t t .root m m' → m = m')
    {m : Nat} (hm : m ∈ t.tablesOf .root) : ∃ tab, u.tables[m]? = some (some tab) := by
  obtain ⟨m', hm'u, hpres, -, hsame⟩ := hd.walks .root m hm
  have hm't : m' ∈ t.tablesOf .root := hd.kinds .root ▸ hm'u
  -- the table standing for it is kept, so it walks as it did itself
  obtain ⟨m'', -, -, hself, hsame'⟩ := hd.walks .root m' hm't
  obtain rfl : m' = m'' := (hself hpres).symm
  have hsw : SameWalks t t .root m m' := fun k => (hsame' k).symm.trans (hsame k)
  obtain rfl : m = m' := hroots m hm m' hm't hsw
  exact hpres

/-- **Merging a trie whose root tables differ.** Take a trie made from an empty trie by
additions, each going through or failing part-way, in which no two root tables walk alike.
Merging it goes through to a trie in which every link, from the root slots too, leads to a
present table noted under its kind; every root slot looks every key up as before; no two present
tables of one kind have the same slots; and a second merge changes nothing when no noted table
was dropped, and fails exactly when one was. -/
theorem merge_normalises {n : Int} {t : Trie} (ht : Reachable n t)
    (hroots : ∀ m ∈ t.tablesOf .root, ∀ m' ∈ t.tablesOf .root, SameWalks t t .root m m' → m = m') :
    ∃ u, merge.run t = .ok () u ∧
      (∀ p b m, u.slot p = some (.table b m) →
        m ∈ u.tablesOf b ∧ ∃ tab, u.tables[m]? = some (some tab)) ∧
      (∀ r k, u.lookup r k = t.lookup r k) ∧
      (∀ K m m' (tab : Array (Option Slot)), m ∈ u.tablesOf K → m' ∈ u.tablesOf K →
        u.tables[m]? = some (some tab) → u.tables[m']? = some (some tab) → m = m') ∧
      ((∀ K m, m ∈ u.tablesOf K → ∃ tab, u.tables[m]? = some (some tab)) →
        merge.run u = .ok () u) ∧
      ((∃ e u', merge.run u = .error e u') ↔
        ∃ K m, m ∈ u.tablesOf K ∧ u.tables[m]? = some none) := by
  have hs := ht.built.shaped
  obtain ⟨u, hrun, hd⟩ := merge_deduplicates ht
  have h0 : ∀ r, u.slot (0, r) = t.slot (0, r) := fun r => slot_congr hd.roots
  -- the root slots name the same root tables, all kept
  have hroot : ∀ r m, t.slot (0, r) = some (.table .root m) →
      m ∈ u.tablesOf .root ∧ ∃ tab, u.tables[m]? = some (some tab) := fun r m h => by
    have hm := hs.link_noted _ _ m h
    exact ⟨hd.kinds .root ▸ hm, hd.root_kept hroots hm⟩
  refine ⟨u, hrun, fun p b m h => ?_, fun r k => ?_, hd.distinct, hd.again, hd.again_fails⟩
  · rcases p with ⟨_ | n, j⟩
    · rw [h0] at h
      obtain rfl := hs.root_link j b m h
      exact hroot j m h
    · exact hd.links (n + 1) j b m (Nat.succ_pos n) h
  · rcases ht.rootsLinked r with hnone | ⟨m, hm⟩
    · simp only [lookup, h0, hnone, walk_none]
    · exact hd.kept_lookup r m hm (hroot r m hm).2 k

/-- the trie adding the pattern `90` for descriptor 0 under root slot 0 and the pattern `91` for
descriptor 1 under root slot 1 makes: two root tables, each over its own opcode byte table -/
def twoRoots : Trie :=
  { tables := #[some #[some (.table .root 1), some (.table .root 3)],
      some ((Array.replicate 8 none).setIfInBounds 0 (some (.table .byte 2))),
      some ((Array.replicate 256 none).setIfInBounds 0x90 (some (.instr 0))),
      some ((Array.replicate 8 none).setIfInBounds 0 (some (.table .byte 4))),
      some ((Array.replicate 256 none).setIfInBounds 0x91 (some (.instr 1)))],
    kinds := #[(.root, #[1, 3]), (.byte, #[2, 4])] }

set_option maxRecDepth 20000 in
/-- the two root tables of `twoRoots` walk differently: the key `90` finds descriptor 0 from the
first and nothing from the second -/
theorem twoRoots_reachable :
    Reachable 2 twoRoots ∧ ∀ m ∈ twoRoots.tablesOf .root, ∀ m' ∈ twoRoots.tablesOf .root,
      SameWalks twoRoots twoRoots .root m m' → m = m' := by
  refine ⟨.added { Opcode.nop with byte := 0x91 } 1 1 false
    (.added Opcode.nop 0 0 false .empty (by with_unfolding_all rfl)) (by with_unfolding_all rfl), ?_⟩
  have hroots : twoRoots.tablesOf .root = [1, 3] := rfl
  have hdiff : ¬ SameWalks twoRoots twoRoots .root 1 3 := fun h => by
    have h90 := h ⟨0, 0x90, 0, 0, false, false⟩
    revert h90
    decide
  rw [hroots]
  intro m hm m' hm' hsame
  simp only [List.mem_cons, List.not_mem_nil, or_false] at hm hm'
  rcases hm with rfl | rfl <;> rcases hm' with rfl | rfl
  · rfl
  · exact absurd hsame hdiff
  · exact absurd (fun k => (hsame k).symm) hdiff
  · rfl

/-- merging `twoRoots` keeps both root tables, and every root slot finds what it did -/
theorem two_roots_normalised :
    ∃ u, merge.run twoRoots = .ok () u ∧
      (∀ p b m, u.slot p = some (.table b m) →
        m ∈ u.tablesOf b ∧ ∃ tab, u.tables[m]? = some (some tab)) ∧
      (∀ r k, u.lookup r k = twoRoots.lookup r k) ∧
      (∀ K m m' (tab : Array (Option Slot)), m ∈ u.tablesOf K → m' ∈ u.tablesOf K →
        u.tables[m]? = some (some tab) → u.tables[m']? = some (some tab) → m = m') ∧
      ((∀ K m, m ∈ u.tablesOf K → ∃ tab, u.tables[m]? = some (some tab)) →
        merge.run u = .ok () u) ∧
      ((∃ e u', merge.run u = .error e u') ↔
        ∃ K m, m ∈ u.tablesOf K ∧ u.tables[m]? = some none) :=
  merge_normalises twoRoots_reachable.1 twoRoots_reachable.2

/-- the trie adding the pattern `90` for descriptor 0 under each of two root slots makes: two
root tables, each over its own opcode byte table -/
def nopBothRoots : Trie :=
  { tables := #[some #[some (.table .root 1), some (.table .root 3)],
      some ((Array.replicate 8 none).setIfInBounds 0 (some (.table .byte 2))),
      some ((Array.replicate 256 none).setIfInBounds 0x90 (some (.instr 0))),
      some ((Array.replicate 8 none).setIfInBounds 0 (some (.table .byte 4))),
      some ((Array.replicate 256 none).setIfInBounds 0x90 (some (.instr 0)))],
    kinds := #[(.root, #[1, 3]), (.byte, #[2, 4])] }

/-- `nopBothRoots` merged: the second opcode byte table and the second root table are dropped,
and the kinds with no table are noted -/
def nopBothRootsMerged : Trie :=
  { tables := #[some #[some (.table .root 1), some (.table .root 3)],
      some ((Array.replicate 8 none).setIfInBounds 0 (some (.table .byte 2))),
      some ((Array.replicate 256 none).setIfInBounds 0x90 (some (.instr 0))), none, none],
    kinds := #[(.root, #[1, 3]), (.byte, #[2, 4]), (.vex, #[]), (.modrmLow, #[]), (.modrm, #[]),
      (.mandatory, #[])] }

set_option maxRecDepth 20000 in
theorem nopBothRoots_reachable : Reachable 2 nopBothRoots :=
  .added Opcode.nop 0 1 false (.added Opcode.nop 0 0 false .empty (by with_unfolding_all rfl))
    (by with_unfolding_all rfl)

set_option maxRecDepth 20000 in
/-- Merging leaves a root slot naming a dropped table. With the pattern `90` added under both
of two root slots, the two root tables are equal once their opcode byte tables are merged, so
the second is dropped. Root slot 1 still names it, and the key `90`, which found descriptor 0
under it, finds nothing after the merge. A second merge then fails. -/
theorem merge_leaves_root_on_dropped_table :
    Reachable 2 nopBothRoots ∧ merge.run nopBothRoots = .ok () nopBothRootsMerged ∧
      nopBothRootsMerged.slot (0, 1) = some (.table .root 3) ∧
      nopBothRootsMerged.tables[3]? = some none ∧
      nopBothRoots.lookup 1 ⟨0, 0x90, 0, 0, false, false⟩ = some (.instr 0) ∧
      nopBothRootsMerged.lookup 1 ⟨0, 0x90, 0, 0, false, false⟩ = none ∧
      ∃ e u, merge.run nopBothRootsMerged = .error e u := by
  -- the relinked root tables: both lead to the kept opcode byte table 2
  have hrel₁ : ((Array.replicate 8 none).setIfInBounds 0 (some (.table .byte 2))).map
      (relink ((∅ : Std.HashMap Nat Nat).insert 4 2)) =
      (Array.replicate 8 none).setIfInBounds 0 (some (.table .byte 2)) := by
    simp [relink, Std.HashMap.getD_insert]
  have hrel₃ : ((Array.replicate 8 none).setIfInBounds 0 (some (.table .byte 4))).map
      (relink ((∅ : Std.HashMap Nat Nat).insert 4 2)) =
      (Array.replicate 8 none).setIfInBounds 0 (some (.table .byte 2)) := by
    simp [relink]
  have hmerge : merge.run nopBothRoots = .ok () nopBothRootsMerged := by
    rw [merge, show TableKind.order.reverse = [.vex, .modrmLow, .modrm, .mandatory, .byte, .root]
      from rfl]
    -- the kinds with no table are noted
    rw [mergeKinds_absent rfl, mergeKinds_absent rfl, mergeKinds_absent rfl, mergeKinds_absent rfl]
    -- opcode byte table 4 is dropped for table 2
    rw [mergeKinds_found rfl, EStateM.run_bind,
      mergeKind_cons_new rfl (map_relink_empty _) Std.HashMap.getElem?_empty,
      mergeKind_cons_seen rfl (map_relink_empty _) Std.HashMap.getElem?_insert_self]
    simp only [mergeKind.eq_1, EStateM.run_pure]
    -- root table 3 is dropped for table 1
    rw [mergeKinds_found rfl, EStateM.run_bind,
      mergeKind_cons_new rfl hrel₁ Std.HashMap.getElem?_empty,
      mergeKind_cons_seen rfl hrel₃ Std.HashMap.getElem?_insert_self]
    simp only [mergeKind.eq_1, EStateM.run_pure, mergeKinds.eq_1]
    rfl
  refine ⟨nopBothRoots_reachable, hmerge, rfl, rfl, by with_unfolding_all rfl,
    lookup_of_dropped_root rfl rfl _, ?_⟩
  -- the dropped table is still noted, so a second merge reads it and fails
  rcases hr : merge.run nopBothRootsMerged with _ | ⟨e, u⟩
  · obtain ⟨tab, htab⟩ := merge_present hr .root 3 (by decide)
    cases htab
  · exact ⟨e, u, rfl⟩

end X86Codec.Trie
