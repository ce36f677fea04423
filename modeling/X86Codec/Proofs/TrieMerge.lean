import X86Codec.Proofs.TrieAdd
/-!
Merging equal tables keeps what every key finds.

`merge` goes through the kinds deepest first. Each table of a kind is relinked through the
synonyms found so far, and then dropped for an equal table of the same kind seen before it,
which becomes its synonym. `Merged` is what holds once a set `D` of tables is merged. Every
merged table's synonym is a kept table of its kind that walks, over the levels after the kind,
as the table walked before merging. A dropped table is gone. Links stay links to tables of the
same kind, from a table of an earlier kind, and a merged table links only to merged tables. The
tables not merged yet are untouched.

Merging also keeps two facts of the tables it has merged (`Normal`): a merged table links only
to present tables, since each link is relinked to a kept table of a deeper kind; and no two
present merged tables of one kind have the same slots, since a table whose relinked slots were
seen before is dropped. On a shaped trie every table it reads is present, so it goes through.

Main statements:
* `Merged.walk_relink`: relinking content of a table through the synonyms keeps its walk, once
  the tables it can link to are merged.
* `mergeKind_cons_new`, `mergeKind_cons_seen`, `mergeKinds_absent` and `mergeKinds_found`: one
  step of merging a kind, and of merging the kinds.
* `mergeKind_normal` and `mergeKinds_normal`: merging the tables of a kind, and of the kinds in
  turn, goes through.
* `merge_normal` and `merge_ok`: on a shaped trie, merging goes through, and after it every
  noted table is merged.
* `merge_lookup`: a root slot whose table was kept looks every key up as before.
-/

namespace X86Codec.Trie

variable {t u v w : Trie}

/-- table `m'` of `u` walks, over the levels after kind `K`, as table `m` of `t` -/
def SameWalks (t u : Trie) (K : TableKind) (m m' : Nat) : Prop :=
  ∀ k, u.walk k (after K) (u.slot (m', k.index K)) = t.walk k (after K) (t.slot (m, k.index K))

/-- the state of merging `t` into `u` once the tables `D` are merged, with synonyms `syn` -/
structure Merged (t : Trie) (D : Nat → Prop) (syn : Std.HashMap Nat Nat) (u : Trie) : Prop where
  /-- the tables not merged yet are untouched -/
  same : ∀ n, ¬ D n → u.tables[n]? = t.tables[n]?
  /-- a merged table's synonym is a kept merged table of its kind that walks as it did -/
  synonym : ∀ K m, m ∈ t.tablesOf K → D m → syn.getD m m ∈ t.tablesOf K ∧ D (syn.getD m m) ∧
    (∃ tab, u.tables[syn.getD m m]? = some (some tab)) ∧ SameWalks t u K m (syn.getD m m)
  /-- a table with another synonym is gone -/
  removed : ∀ m, D m → syn.getD m m ≠ m → u.tables[m]? = some none
  /-- only merged tables have synonyms -/
  fixed : ∀ n, ¬ D n → syn.getD n n = n
  /-- merged tables link only to merged tables -/
  closed : ∀ n, D n → ∀ j b m, u.slot (n, j) = some (.table b m) → D m
  /-- a link leads to a table noted under its kind, from a table of an earlier kind -/
  links : ∀ n j b m, u.slot (n, j) = some (.table b m) →
    m ∈ t.tablesOf b ∧ (n = 0 → b = .root) ∧ ∀ K, n ∈ t.tablesOf K → K.Above b
  /-- a present table has its old length -/
  sizes : ∀ n tab, u.tables[n]? = some (some tab) → t.tableSize n = some tab.size
  size : u.tables.size = t.tables.size
  kinds : ∀ b, u.tablesOf b = t.tablesOf b

theorem relink_eq_table {syn : Std.HashMap Nat Nat} {s : Option Slot} {b : TableKind} {m : Nat}
    (h : relink syn s = some (.table b m)) : ∃ m₀, s = some (.table b m₀) ∧ m = syn.getD m₀ m₀ := by
  rcases s with _ | (_ | _ | ⟨b', m₀⟩)
  · cases h
  · cases h
  · cases h
  · simp only [relink, Option.some.injEq, Slot.table.injEq] at h
    obtain ⟨rfl, rfl⟩ := h
    exact ⟨m₀, rfl, rfl⟩

theorem join_getElem?_map_relink (syn : Std.HashMap Nat Nat) (tab : Array (Option Slot)) (i : Nat) :
    ((tab.map (relink syn))[i]?).join = relink syn (tab[i]?.join) := by
  rw [Array.getElem?_map]
  rcases tab[i]? with _ | s <;> rfl

section Merged

variable {D : Nat → Prop} {syn : Std.HashMap Nat Nat}

theorem Merged.congr {D' : Nat → Prop} (hm : Merged t D syn u) (h : ∀ n, D n ↔ D' n) :
    Merged t D' syn u := by
  have : D = D' := funext fun n => propext (h n)
  subst this
  exact hm

/-- a merged table that is still present is its own synonym: one with another is dropped -/
theorem Merged.synonym_of_kept (hm : Merged t D syn u) {m : Nat} (hD : D m)
    (hkept : ∃ tab, u.tables[m]? = some (some tab)) : syn.getD m m = m := by
  obtain ⟨tab, htab⟩ := hkept
  by_contra hne
  rw [hm.removed m hD hne] at htab
  cases htab

/-- merging is about the tables only: a trie with the same tables and kind lists is as merged -/
theorem Merged.of_tables (hm : Merged t D syn u) (ht : v.tables = u.tables)
    (hk : ∀ b, v.tablesOf b = u.tablesOf b) : Merged t D syn v := by
  have hslot : ∀ p, v.slot p = u.slot p := fun p => slot_congr (by rw [ht])
  have hwalk : ∀ k ks s, v.walk k ks s = u.walk k ks s := fun k ks s =>
    walk_congr (S := fun _ => True) (fun _ _ _ _ _ _ => trivial) (fun n _ j => hslot (n, j)) ks
      (fun _ _ _ => trivial)
  refine ⟨fun n hn => ht ▸ hm.same n hn, fun K m hm' hD => ?_, fun m hD hne => ht ▸ hm.removed m hD hne,
    hm.fixed, fun n hn j b m h => hm.closed n hn j b m (hslot _ ▸ h),
    fun n j b m h => hm.links n j b m (hslot _ ▸ h), fun n tab h => hm.sizes n tab (ht ▸ h),
    ht ▸ hm.size, fun b => (hk b).trans (hm.kinds b)⟩
  obtain ⟨h1, h2, h3, h4⟩ := hm.synonym K m hm' hD
  exact ⟨h1, h2, ht ▸ h3, fun k => by rw [hwalk, hslot]; exact h4 k⟩

/-- relinking through the synonyms keeps how content of a table of kind `K` walks, once the
tables it can link to are merged -/
theorem Merged.walk_relink (hm : Merged t D syn u) (hs : t.Shaped) {K : TableKind} {n : Nat}
    (hn : n ∈ t.tablesOf K) (hD : ∀ L m, K.Above L → m ∈ t.tablesOf L → D m) (j : Nat)
    (k : TableKey) :
    u.walk k (after K) (relink syn (t.slot (n, j))) = t.walk k (after K) (t.slot (n, j)) := by
  rcases hsl : t.slot (n, j) with _ | (d | d | ⟨L, m⟩)
  · simp only [relink, walk_none]
  · exact (walk_of_ne_table (fun _ _ h => by cases h) _).trans
      (walk_of_ne_table (fun _ _ h => by cases h) _).symm
  · exact (walk_of_ne_table (fun _ _ h => by cases h) _).trans
      (walk_of_ne_table (fun _ _ h => by cases h) _).symm
  · -- a link walks on from its synonym as from the table itself
    have hab := hs.link_above K n j L m hn hsl
    have hmL := hs.link_noted _ L m hsl
    obtain ⟨-, -, -, hsame⟩ := hm.synonym L m hmL (hD L m hab hmL)
    simp only [relink]
    rw [walk_table hab.1, walk_table hab.1]
    exact hsame k

/-- walks from content linking into merged tables read merged tables only, so a trie that agrees
on those walks alike -/
theorem Merged.walk_frame (hm : Merged t D syn u) (hagree : ∀ n, D n → ∀ j, v.slot (n, j) = u.slot (n, j))
    (k : TableKey) (ks : List TableKind) {s : Option Slot} (hsD : ∀ b m, s = some (.table b m) → D m) :
    v.walk k ks s = u.walk k ks s :=
  walk_congr (S := D) (fun n hn j b m h => hm.closed n hn j b m h) hagree ks hsD

/-- the relinked content of a table of kind `K` links only to merged tables -/
theorem Merged.relink_closed (hm : Merged t D syn u) (hs : t.Shaped) {K : TableKind} {n : Nat}
    (hn : n ∈ t.tablesOf K) (hD : ∀ L m, K.Above L → m ∈ t.tablesOf L → D m) (j : Nat) :
    ∀ b m, relink syn (t.slot (n, j)) = some (.table b m) →
      D m ∧ m ∈ t.tablesOf b ∧ K.Above b := by
  intro b m h
  obtain ⟨m₀, hm₀, rfl⟩ := relink_eq_table h
  have hab := hs.link_above K n j b m₀ hn hm₀
  have hb := hs.link_noted _ b m₀ hm₀
  obtain ⟨h1, h2, -⟩ := hm.synonym b m₀ hb (hD b m₀ hab hb)
  exact ⟨h2, h1, hab⟩

end Merged

/-! ## One table -/

/-- the tables seen so far while merging a kind: each is a kept merged table of the kind, held
under exactly its slots -/
def SeenSound (t : Trie) (K : TableKind) (D : Nat → Prop) (syn : Std.HashMap Nat Nat) (u : Trie)
    (seen : Std.HashMap (Array (Option Slot)) Nat) : Prop :=
  ∀ tab e, seen[tab]? = some e →
    e ∈ t.tablesOf K ∧ D e ∧ syn.getD e e = e ∧ u.tables[e]? = some (some tab)

/-! ## What merging keeps beyond `Merged` -/

/-- what merging the tables `D` keeps beyond `Merged`: a merged table links only to present
tables, and two present merged tables of one kind have different slots -/
structure Normal (t : Trie) (D : Nat → Prop) (u : Trie) : Prop where
  live : ∀ n j b m, D n → u.slot (n, j) = some (.table b m) →
    ∃ tab, u.tables[m]? = some (some tab)
  distinct : ∀ K n n' (tab : Array (Option Slot)), n ∈ t.tablesOf K → n' ∈ t.tablesOf K →
    D n → D n' → u.tables[n]? = some (some tab) → u.tables[n']? = some (some tab) → n = n'

/-- every present merged table of kind `K` is seen under its slots -/
def SeenAll (t : Trie) (K : TableKind) (D : Nat → Prop) (u : Trie)
    (seen : Std.HashMap (Array (Option Slot)) Nat) : Prop :=
  ∀ n tab, n ∈ t.tablesOf K → D n → u.tables[n]? = some (some tab) → seen[tab]? = some n

theorem Normal.congr {D D' : Nat → Prop} (hn : Normal t D u) (h : ∀ n, D n ↔ D' n) :
    Normal t D' u := by
  have : D = D' := funext fun n => propext (h n)
  subst this
  exact hn

/-- merging is about the tables only: a trie with the same tables is as normal -/
theorem Normal.of_tables {D : Nat → Prop} (hn : Normal t D u) (ht : v.tables = u.tables) :
    Normal t D v := by
  have hslot : ∀ p, v.slot p = u.slot p := fun p => slot_congr (by rw [ht])
  refine ⟨fun n j b m hD h => ?_, fun K n n' tab hnK hn'K hD hD' h h' => ?_⟩
  · rw [hslot] at h
    rw [ht]
    exact hn.live n j b m hD h
  · rw [ht] at h h'
    exact hn.distinct K n n' tab hnK hn'K hD hD' h h'

theorem Normal.start : Normal t (fun n => ∃ K, 6 ≤ K.rank ∧ n ∈ t.tablesOf K) t where
  live _ _ _ _ h := absurd h.choose_spec.1 (by have := h.choose.rank_lt_six; omega)
  distinct _ _ _ _ _ _ h := absurd h.choose_spec.1 (by have := h.choose.rank_lt_six; omega)

section Step

variable {K : TableKind} {D : Nat → Prop} {syn : Std.HashMap Nat Nat} {num : Nat}
  {src : Array (Option Slot)}

/-- the slots of table `num` once it holds its relinked slots -/
theorem slot_relinked (hsrc : t.tables[num]? = some (some src)) (hsize : u.tables.size = t.tables.size)
    (ht : v.tables = u.tables.modify num (fun _ => some (src.map (relink syn)))) (p : Nat × Nat) :
    v.slot p = if p.1 = num then relink syn (t.slot p) else u.slot p := by
  have hnum : num < u.tables.size := hsize ▸ (Array.getElem?_eq_some_iff.1 hsrc).1
  rw [slot_setTable ht hnum]
  split_ifs with hp
  · obtain ⟨p1, p2⟩ := p
    simp only at hp
    subst hp
    rw [slot_of_getElem? hsrc]
    exact join_getElem?_map_relink syn src p2
  · rfl

/-- keeping table `num` with its relinked slots -/
theorem Merged.keep_table {seen : Std.HashMap (Array (Option Slot)) Nat}
    (hm : Merged t D syn u) (hs : t.Shaped) (hnum : num ∈ t.tablesOf K) (hnD : ¬ D num)
    (hD : ∀ L m, K.Above L → m ∈ t.tablesOf L → D m) (hsrc : t.tables[num]? = some (some src))
    (ht : v.tables = u.tables.modify num (fun _ => some (src.map (relink syn))))
    (hk : v.kinds = u.kinds) (hseen : SeenSound t K D syn u seen) :
    Merged t (fun n => D n ∨ n = num) syn v ∧
      SeenSound t K (fun n => D n ∨ n = num) syn v (seen.insert (src.map (relink syn)) num) := by
  have hslot := slot_relinked hsrc hm.size ht
  have hne : ∀ {n}, D n → n ≠ num := fun h he => hnD (he ▸ h)
  have htab : ∀ n, n ≠ num → v.tables[n]? = u.tables[n]? := fun n hn => by
    rw [ht, Array.getElem?_modify, if_neg (Ne.symm hn)]
  have htnum : v.tables[num]? = some (some (src.map (relink syn))) := by
    rw [ht, Array.getElem?_modify, if_pos rfl, hm.same num hnD, hsrc]
    rfl
  have hagree : ∀ n, D n → ∀ j, v.slot (n, j) = u.slot (n, j) := fun n hn j => by
    rw [hslot, if_neg (hne hn)]
  have hof : ∀ b, v.tablesOf b = t.tablesOf b := fun b => by
    unfold tablesOf; rw [hk]; exact hm.kinds b
  have hfix : syn.getD num num = num := hm.fixed num hnD
  -- the kept table walks as before
  have hwalks : SameWalks t v K num num := fun k => by
    rw [hslot, if_pos rfl, hm.walk_frame hagree k _ fun b m h => (hm.relink_closed hs hnum hD _ b m h).1,
      hm.walk_relink hs hnum hD]
  refine ⟨⟨fun n hn => ?_, fun K' m hm' hDm => ?_, fun m hDm hsyn => ?_, fun n hn => ?_,
    fun n hn j b m h => ?_, fun n j b m h => ?_, fun n tab h => ?_, ?_, hof⟩, ?_⟩
  · push Not at hn
    rw [htab n hn.2]
    exact hm.same n hn.1
  · rcases hDm with hDm | rfl
    · obtain ⟨h1, h2, ⟨tab, h3⟩, h4⟩ := hm.synonym K' m hm' hDm
      refine ⟨h1, .inl h2, ⟨tab, by rw [htab _ (hne h2)]; exact h3⟩, fun k => ?_⟩
      rw [hagree _ h2, hm.walk_frame hagree k _ fun b m' h => hm.closed _ h2 _ b m' h]
      exact h4 k
    · obtain rfl := hs.noted_once K' K _ hm' hnum
      rw [hfix]
      exact ⟨hnum, .inr rfl, ⟨_, htnum⟩, hwalks⟩
  · rcases hDm with hDm | rfl
    · rw [htab m (hne hDm)]
      exact hm.removed m hDm hsyn
    · exact absurd hfix hsyn
  · push Not at hn
    exact hm.fixed n hn.1
  · rcases hn with hn | rfl
    · exact .inl (hm.closed n hn j b m (hagree n hn j ▸ h))
    · rw [hslot, if_pos rfl] at h
      exact .inl (hm.relink_closed hs hnum hD j b m h).1
  · by_cases hn : n = num
    · subst hn
      rw [hslot, if_pos rfl] at h
      obtain ⟨-, hb, hab⟩ := hm.relink_closed hs hnum hD j b m h
      refine ⟨hb, fun h0 => absurd (h0 ▸ (hs.noted_table K _ hnum).1) (lt_irrefl 0),
        fun K' hK' => ?_⟩
      rw [hs.noted_once K' K _ hK' hnum]
      exact hab
    · rw [hslot, if_neg hn] at h
      exact hm.links n j b m h
  · by_cases hn : n = num
    · subst hn
      rw [htnum] at h
      cases h
      simp [tableSize, hsrc]
    · rw [htab n hn] at h
      exact hm.sizes n tab h
  · rw [ht, Array.size_modify]
    exact hm.size
  · intro tab e h
    rw [Std.HashMap.getElem?_insert] at h
    split_ifs at h with heq
    · cases h
      rw [beq_iff_eq] at heq
      subst heq
      exact ⟨hnum, .inr rfl, hfix, htnum⟩
    · obtain ⟨h1, h2, h3, h4⟩ := hseen tab e h
      exact ⟨h1, .inl h2, h3, by rw [htab e (hne h2)]; exact h4⟩

/-- dropping table `num` for the equal table `e` seen before it -/
theorem Merged.drop_table {seen : Std.HashMap (Array (Option Slot)) Nat} {v₁ : Trie} {e : Nat}
    (hm : Merged t D syn u) (hs : t.Shaped) (hnum : num ∈ t.tablesOf K) (hnD : ¬ D num)
    (hD : ∀ L m, K.Above L → m ∈ t.tablesOf L → D m) (hsrc : t.tables[num]? = some (some src))
    (ht₁ : v₁.tables = u.tables.modify num (fun _ => some (src.map (relink syn))))
    (ht : v.tables = v₁.tables.modify num (fun _ => none)) (hk : v.kinds = u.kinds)
    (hseen : SeenSound t K D syn u seen) (he : seen[src.map (relink syn)]? = some e) :
    Merged t (fun n => D n ∨ n = num) (syn.insert num e) v ∧
      SeenSound t K (fun n => D n ∨ n = num) (syn.insert num e) v seen := by
  obtain ⟨heK, heD, hefix, hetab⟩ := hseen _ e he
  have hne : ∀ {n}, D n → n ≠ num := fun h he => hnD (he ▸ h)
  have hnum_lt : num < u.tables.size := hm.size ▸ (Array.getElem?_eq_some_iff.1 hsrc).1
  have htab : ∀ n, n ≠ num → v.tables[n]? = u.tables[n]? := fun n hn => by
    rw [ht, ht₁, Array.getElem?_modify, if_neg (Ne.symm hn), Array.getElem?_modify,
      if_neg (Ne.symm hn)]
  have hnum_lt₁ : num < v₁.tables.size := by
    rw [ht₁, Array.size_modify]
    exact hnum_lt
  have htnum : v.tables[num]? = some none := by
    rw [ht, Array.getElem?_modify, if_pos rfl, Array.getElem?_eq_getElem hnum_lt₁]
    rfl
  have hslot : ∀ p, v.slot p = if p.1 = num then none else u.slot p := fun p => by
    split_ifs with hp
    · unfold slot; rw [hp, htnum]
    · exact slot_congr (htab _ hp)
  have hagree : ∀ n, D n → ∀ j, v.slot (n, j) = u.slot (n, j) := fun n hn j => by
    rw [hslot, if_neg (hne hn)]
  have hof : ∀ b, v.tablesOf b = t.tablesOf b := fun b => by
    unfold tablesOf; rw [hk]; exact hm.kinds b
  have hget : ∀ n, (syn.insert num e).getD n n = if n = num then e else syn.getD n n := fun n => by
    rw [Std.HashMap.getD_insert]
    by_cases hn : n = num
    · simp [hn]
    · simp [hn, Ne.symm hn]
  -- the dropped table walks as its synonym
  have hwalks : SameWalks t v K num e := fun k => by
    rw [hagree e heD, slot_of_getElem? hetab, join_getElem?_map_relink, ← slot_of_getElem? hsrc,
      hm.walk_frame hagree k _ fun b m h => (hm.relink_closed hs hnum hD _ b m h).1,
      hm.walk_relink hs hnum hD]
  refine ⟨⟨fun n hn => ?_, fun K' m hm' hDm => ?_, fun m hDm hsyn => ?_, fun n hn => ?_,
    fun n hn j b m h => ?_, fun n j b m h => ?_, fun n tab h => ?_, ?_, hof⟩, ?_⟩
  · push Not at hn
    rw [htab n hn.2]
    exact hm.same n hn.1
  · rw [hget]
    rcases hDm with hDm | rfl
    · rw [if_neg (hne hDm)]
      obtain ⟨h1, h2, ⟨tab, h3⟩, h4⟩ := hm.synonym K' m hm' hDm
      refine ⟨h1, .inl h2, ⟨tab, by rw [htab _ (hne h2)]; exact h3⟩, fun k => ?_⟩
      rw [hagree _ h2, hm.walk_frame hagree k _ fun b m' h => hm.closed _ h2 _ b m' h]
      exact h4 k
    · obtain rfl := hs.noted_once K' K _ hm' hnum
      rw [if_pos rfl]
      exact ⟨heK, .inl heD, ⟨_, by rw [htab e (hne heD)]; exact hetab⟩, hwalks⟩
  · rcases hDm with hDm | rfl
    · rw [hget, if_neg (hne hDm)] at hsyn
      rw [htab m (hne hDm)]
      exact hm.removed m hDm hsyn
    · exact htnum
  · push Not at hn
    rw [hget, if_neg hn.2]
    exact hm.fixed n hn.1
  · rcases hn with hn | rfl
    · exact .inl (hm.closed n hn j b m (hagree n hn j ▸ h))
    · rw [hslot, if_pos rfl] at h
      cases h
  · by_cases hn : n = num
    · rw [hslot, if_pos hn] at h
      cases h
    · rw [hslot, if_neg hn] at h
      exact hm.links n j b m h
  · by_cases hn : n = num
    · rw [hn, htnum] at h
      cases h
    · rw [htab n hn] at h
      exact hm.sizes n tab h
  · rw [ht, Array.size_modify, ht₁, Array.size_modify]
    exact hm.size
  · intro tab e' h
    obtain ⟨h1, h2, h3, h4⟩ := hseen tab e' h
    exact ⟨h1, .inl h2, by rw [hget, if_neg (hne h2)]; exact h3,
      by rw [htab e' (hne h2)]; exact h4⟩

variable {seen : Std.HashMap (Array (Option Slot)) Nat}

/-- keeping table `num` with its relinked slots, which no table seen before has -/
theorem Normal.keep_table (hm : Merged t D syn u) (hn : Normal t D u) (hs : t.Shaped)
    (hnum : num ∈ t.tablesOf K) (hnD : ¬ D num) (hD : ∀ L m, K.Above L → m ∈ t.tablesOf L → D m)
    (hsrc : t.tables[num]? = some (some src))
    (ht : v.tables = u.tables.modify num (fun _ => some (src.map (relink syn))))
    (hall : SeenAll t K D u seen) (hnew : seen[src.map (relink syn)]? = none) :
    Normal t (fun n => D n ∨ n = num) v ∧
      SeenAll t K (fun n => D n ∨ n = num) v (seen.insert (src.map (relink syn)) num) := by
  have hslot := slot_relinked hsrc hm.size ht
  have hne : ∀ {n}, D n → n ≠ num := fun h he => hnD (he ▸ h)
  have htab : ∀ n, n ≠ num → v.tables[n]? = u.tables[n]? := fun n hn => by
    rw [ht, Array.getElem?_modify, if_neg (Ne.symm hn)]
  have htnum : v.tables[num]? = some (some (src.map (relink syn))) := by
    rw [ht, Array.getElem?_modify, if_pos rfl, hm.same num hnD, hsrc]
    rfl
  -- no merged table of the kind had the kept table's slots, or they would have been seen
  have hfresh : ∀ n, n ∈ t.tablesOf K → D n →
      v.tables[n]? ≠ some (some (src.map (relink syn))) := by
    intro n hnK hDn h
    rw [htab n (hne hDn)] at h
    rw [hall n _ hnK hDn h] at hnew
    cases hnew
  refine ⟨⟨fun n j b m hDn h => ?_, fun K' n n' tab hnK hn'K hDn hDn' h h' => ?_⟩,
    fun n tab hnK hDn h => ?_⟩
  · rcases hDn with hDn | hDn
    · rw [hslot, if_neg (hne hDn)] at h
      obtain ⟨tab, htab'⟩ := hn.live n j b m hDn h
      exact ⟨tab, by rw [htab m (hne (hm.closed n hDn j b m h))]; exact htab'⟩
    · -- a relinked link leads to the synonym of its target, a kept table
      subst n
      rw [hslot, if_pos rfl] at h
      obtain ⟨m₀, hm₀, rfl⟩ := relink_eq_table h
      have hab := hs.link_above K num j b m₀ hnum hm₀
      have hb := hs.link_noted _ b m₀ hm₀
      obtain ⟨-, hDs, ⟨tab, htab'⟩, -⟩ := hm.synonym b m₀ hb (hD b m₀ hab hb)
      exact ⟨tab, by rw [htab _ (hne hDs)]; exact htab'⟩
  · rcases hDn with hDn | hDn <;> rcases hDn' with hDn' | hDn'
    · rw [htab n (hne hDn)] at h
      rw [htab n' (hne hDn')] at h'
      exact hn.distinct K' n n' tab hnK hn'K hDn hDn' h h'
    · subst n'
      obtain rfl := hs.noted_once K' K _ hn'K hnum
      rw [htnum] at h'
      cases h'
      exact absurd h (hfresh n hnK hDn)
    · subst n
      obtain rfl := hs.noted_once K' K _ hnK hnum
      rw [htnum] at h
      cases h
      exact absurd h' (hfresh n' hn'K hDn')
    · rw [hDn, hDn']
  · rw [Std.HashMap.getElem?_insert]
    rcases hDn with hDn | hDn
    · split_ifs with heq
      · rw [beq_iff_eq] at heq
        subst heq
        exact absurd h (hfresh n hnK hDn)
      · rw [htab n (hne hDn)] at h
        exact hall n tab hnK hDn h
    · subst n
      rw [htnum] at h
      cases h
      simp

/-- dropping table `num` for an equal table seen before it -/
theorem Normal.drop_table {v₁ : Trie} (hm : Merged t D syn u) (hn : Normal t D u)
    (hnD : ¬ D num) (hsrc : t.tables[num]? = some (some src))
    (ht₁ : v₁.tables = u.tables.modify num (fun _ => some (src.map (relink syn))))
    (ht : v.tables = v₁.tables.modify num (fun _ => none)) (hall : SeenAll t K D u seen) :
    Normal t (fun n => D n ∨ n = num) v ∧ SeenAll t K (fun n => D n ∨ n = num) v seen := by
  have hne : ∀ {n}, D n → n ≠ num := fun h he => hnD (he ▸ h)
  have hnum_lt : num < v₁.tables.size := by
    rw [ht₁, Array.size_modify, hm.size]
    exact (Array.getElem?_eq_some_iff.1 hsrc).1
  have htab : ∀ n, n ≠ num → v.tables[n]? = u.tables[n]? := fun n hn => by
    rw [ht, ht₁, Array.getElem?_modify, if_neg (Ne.symm hn), Array.getElem?_modify,
      if_neg (Ne.symm hn)]
  have htnum : v.tables[num]? = some none := by
    rw [ht, Array.getElem?_modify, if_pos rfl, Array.getElem?_eq_getElem hnum_lt]
    rfl
  refine ⟨⟨fun n j b m hDn h => ?_, fun K' n n' tab hnK hn'K hDn hDn' h h' => ?_⟩,
    fun n tab hnK hDn h => ?_⟩
  · rcases hDn with hDn | hDn
    · rw [slot_congr (htab n (hne hDn))] at h
      obtain ⟨tab, htab'⟩ := hn.live n j b m hDn h
      exact ⟨tab, by rw [htab m (hne (hm.closed n hDn j b m h))]; exact htab'⟩
    · -- the dropped table has no slots
      subst n
      rw [slot_of_tableSize_eq_none (by simp [tableSize, htnum])] at h
      cases h
  · rcases hDn with hDn | hDn
    · rcases hDn' with hDn' | hDn'
      · rw [htab n (hne hDn)] at h
        rw [htab n' (hne hDn')] at h'
        exact hn.distinct K' n n' tab hnK hn'K hDn hDn' h h'
      · subst n'
        rw [htnum] at h'
        cases h'
    · subst n
      rw [htnum] at h
      cases h
  · rcases hDn with hDn | hDn
    · rw [htab n (hne hDn)] at h
      exact hall n tab hnK hDn h
    · subst n
      rw [htnum] at h
      cases h

end Step

/-! ## Kinds -/

theorem slotsOf_run {num : Nat} {e : Failure} {tab : Array (Option Slot)}
    (h : u.tables[num]? = some (some tab)) : (slotsOf num e).run u = .ok tab u := by
  simp only [slotsOf, EStateM.run_bind, EStateM.run_get, h, EStateM.run_pure]

theorem setTable_run (num : Nat) (tab : Option (Array (Option Slot))) :
    (setTable num tab).run u =
      .ok () { u with tables := u.tables.modify num fun _ => tab } := rfl

/-- merging a table whose relinked slots no table seen before has keeps it, relinked -/
theorem mergeKind_cons_new {syn : Std.HashMap Nat Nat} {num : Nat} {rest : List Nat}
    {seen : Std.HashMap (Array (Option Slot)) Nat} {src tab : Array (Option Slot)}
    (hsrc : u.tables[num]? = some (some src)) (hrel : src.map (relink syn) = tab)
    (hnew : seen[tab]? = none) :
    (mergeKind syn (num :: rest) seen).run u =
      (mergeKind syn rest (seen.insert tab num)).run
        { u with tables := u.tables.modify num fun _ => some tab } := by
  rw [mergeKind.eq_2]
  rw [TrieM.run_bind_of_ok (slotsOf_run hsrc)]
  dsimp only
  rw [hrel, TrieM.run_bind_of_ok (setTable_run _ _), hnew]

/-- merging a table whose relinked slots table `e` had drops it for `e` -/
theorem mergeKind_cons_seen {syn : Std.HashMap Nat Nat} {num e : Nat} {rest : List Nat}
    {seen : Std.HashMap (Array (Option Slot)) Nat} {src tab : Array (Option Slot)}
    (hsrc : u.tables[num]? = some (some src)) (hrel : src.map (relink syn) = tab)
    (hseen : seen[tab]? = some e) :
    (mergeKind syn (num :: rest) seen).run u =
      (mergeKind (syn.insert num e) rest seen).run
        { u with tables := (u.tables.modify num fun _ => some tab).modify num fun _ => none } := by
  rw [mergeKind.eq_2]
  rw [TrieM.run_bind_of_ok (slotsOf_run hsrc)]
  dsimp only
  rw [hrel, TrieM.run_bind_of_ok (setTable_run _ _), hseen]
  rfl

/-- merging a kind reads its tables, merges them, and goes on with the synonyms found -/
theorem mergeKinds_cons_run {K : TableKind} {Ks : List TableKind} {syn syn' : Std.HashMap Nat Nat}
    {ns : Array Nat} {u₁ u₂ : Trie} (hk : (kindTables K).run u = .ok ns u₁)
    (hm : (mergeKind syn ns.toList {}).run u₁ = .ok syn' u₂) :
    (mergeKinds (K :: Ks) syn).run u = (mergeKinds Ks syn').run u₂ := by
  rw [mergeKinds.eq_2]
  rw [TrieM.run_bind_of_ok hk, TrieM.run_bind_of_ok hm]

/-- merging a kind not noted yet notes it with no tables -/
theorem mergeKinds_absent {K : TableKind} {Ks : List TableKind} {syn : Std.HashMap Nat Nat}
    (hf : u.kinds.find? (·.1 == K) = none) :
    (mergeKinds (K :: Ks) syn).run u =
      (mergeKinds Ks syn).run { u with kinds := u.kinds.push (K, #[]) } := by
  have hk : (kindTables K).run u = .ok #[] { u with kinds := u.kinds.push (K, #[]) } := by
    simp [kindTables, hf]
  exact mergeKinds_cons_run hk rfl

/-- merging a noted kind merges its tables -/
theorem mergeKinds_found {K K' : TableKind} {Ks : List TableKind} {syn : Std.HashMap Nat Nat}
    {ns : Array Nat} (hf : u.kinds.find? (·.1 == K) = some (K', ns)) :
    (mergeKinds (K :: Ks) syn).run u = (mergeKind syn ns.toList {} >>= mergeKinds Ks).run u := by
  rw [mergeKinds.eq_2]
  simp [kindTables, hf]

/-- **Merging a kind goes through.** Merging the tables `R` of kind `K`, none merged yet and
all distinct, once the tables they can link to are merged, goes through and keeps the kind
lists, `Merged` and `Normal`. -/
theorem mergeKind_normal {K : TableKind} (hs : t.Shaped) (R : List Nat) :
    ∀ {D : Nat → Prop} {syn : Std.HashMap Nat Nat} {seen : Std.HashMap (Array (Option Slot)) Nat}
      {u : Trie}, Merged t D syn u → Normal t D u → SeenSound t K D syn u seen →
      SeenAll t K D u seen → (∀ n ∈ R, n ∈ t.tablesOf K ∧ ¬ D n) → R.Nodup →
      (∀ L m, K.Above L → m ∈ t.tablesOf L → D m) →
      ∃ syn' u', (mergeKind syn R seen).run u = .ok syn' u' ∧ u'.kinds = u.kinds ∧
        Merged t (fun n => D n ∨ n ∈ R) syn' u' ∧ Normal t (fun n => D n ∨ n ∈ R) u' := by
  induction R with
  | nil =>
    intro D syn seen u hm hn _ _ _ _ _
    exact ⟨syn, u, rfl, rfl, hm.congr fun n => by simp, hn.congr fun n => by simp⟩
  | cons num rest ih =>
    intro D syn seen u hm hn hseen hall hR hnd hD
    obtain ⟨hnum, hnD⟩ := hR num List.mem_cons_self
    have hrest : ∀ n ∈ rest, n ∈ t.tablesOf K ∧ ¬ (D n ∨ n = num) := fun n hn =>
      ⟨(hR n (List.mem_cons_of_mem num hn)).1, fun h => h.elim (hR n (List.mem_cons_of_mem num hn)).2
        fun he => (List.nodup_cons.1 hnd).1 (he ▸ hn)⟩
    have hD' : ∀ L m, K.Above L → m ∈ t.tablesOf L → D m ∨ m = num :=
      fun L m hab hm' => .inl (hD L m hab hm')
    have hcongr : ∀ n, ((D n ∨ n = num) ∨ n ∈ rest) ↔ (D n ∨ n ∈ num :: rest) := fun n => by
      simp only [List.mem_cons]
      tauto
    -- the table is present: it is noted, and not merged yet
    obtain ⟨src, hsrc, -⟩ := tables_of_tableSize (hs.noted_table K num hnum).2
    unfold mergeKind
    rw [TrieM.run_bind_of_ok (slotsOf_run ((hm.same num hnD).trans hsrc))]
    dsimp only
    rw [TrieM.run_bind_of_ok (setTable_run _ _)]
    generalize hv₁ : ({ u with tables := u.tables.modify num fun _ => some (src.map (relink syn)) } :
      Trie) = v₁
    have ht₁ : v₁.tables = u.tables.modify num fun _ => some (src.map (relink syn)) := by
      rw [← hv₁]
    have hk₁ : v₁.kinds = u.kinds := by rw [← hv₁]
    split
    next e he =>
      -- an equal table was seen: drop this one
      rw [TrieM.run_bind_of_ok (setTable_run _ _)]
      generalize hv₂ : ({ v₁ with tables := v₁.tables.modify num fun _ => none } : Trie) = v₂
      have ht₂ : v₂.tables = v₁.tables.modify num fun _ => none := by rw [← hv₂]
      have hk₂ : v₂.kinds = u.kinds := by rw [← hv₂]; exact hk₁
      obtain ⟨hm₂, hseen₂⟩ := hm.drop_table hs hnum hnD hD hsrc ht₁ ht₂ hk₂ hseen he
      obtain ⟨hn₂, hall₂⟩ := hn.drop_table hm hnD hsrc ht₁ ht₂ hall
      obtain ⟨syn', u', hrun, hk, hm', hn'⟩ :=
        ih hm₂ hn₂ hseen₂ hall₂ hrest (List.nodup_cons.1 hnd).2 hD'
      exact ⟨syn', u', hrun, hk.trans hk₂, hm'.congr hcongr, hn'.congr hcongr⟩
    next he =>
      -- the table is new: keep it
      obtain ⟨hm₁, hseen₁⟩ := hm.keep_table hs hnum hnD hD hsrc ht₁ hk₁ hseen
      obtain ⟨hn₁, hall₁⟩ := hn.keep_table hm hs hnum hnD hD hsrc ht₁ hall he
      obtain ⟨syn', u', hrun, hk, hm', hn'⟩ :=
        ih hm₁ hn₁ hseen₁ hall₁ hrest (List.nodup_cons.1 hnd).2 hD'
      exact ⟨syn', u', hrun, hk.trans hk₁, hm'.congr hcongr, hn'.congr hcongr⟩

/-- after `kindTables a` the kind list has an entry of kind `a`, and keeps the entries it had -/
theorem kindTables_noted {a : TableKind} {ns : Array Nat} (h : (kindTables a).run t = .ok ns u)
    (b : TableKind) (hb : b = a ∨ (t.kinds.find? (·.1 == b)).isSome) :
    (u.kinds.find? (·.1 == b)).isSome := by
  unfold kindTables at h
  rw [TrieM.modifyGet_run] at h
  rcases hf : t.kinds.find? (·.1 == a) with _ | ⟨a', ns'⟩
  · simp only [hf, EStateM.Result.ok.injEq] at h
    obtain ⟨rfl, rfl⟩ := h
    rcases hb with rfl | hb
    · simp [Array.find?_push]
    · simp [Array.find?_push, hb]
  · simp only [hf, EStateM.Result.ok.injEq] at h
    obtain ⟨rfl, rfl⟩ := h
    rcases hb with rfl | hb
    · simp [hf]
    · exact hb

/-- **Merging the kinds goes through.** Merging the kinds before the `lo`-th, deepest first,
once the tables of the later kinds are merged, goes through, merges every noted table, keeps
`Normal`, and notes the kinds it merges. -/
theorem mergeKinds_normal (hs : t.Shaped) (lo : Nat) :
    ∀ {syn : Std.HashMap Nat Nat} {u : Trie}, lo ≤ 6 →
      Merged t (fun n => ∃ K, lo ≤ K.rank ∧ n ∈ t.tablesOf K) syn u →
      Normal t (fun n => ∃ K, lo ≤ K.rank ∧ n ∈ t.tablesOf K) u →
      ∃ syn' u', (mergeKinds (TableKind.order.take lo).reverse syn).run u = .ok () u' ∧
        Merged t (fun n => ∃ K, n ∈ t.tablesOf K) syn' u' ∧
        Normal t (fun n => ∃ K, n ∈ t.tablesOf K) u' ∧
        ∀ K, K.rank < lo ∨ (u.kinds.find? (·.1 == K)).isSome →
          (u'.kinds.find? (·.1 == K)).isSome := by
  induction lo with
  | zero =>
    intro syn u _ hm hn
    exact ⟨syn, u, rfl, hm.congr fun n => by simp, hn.congr fun n => by simp,
      fun K hK => hK.resolve_left (Nat.not_lt_zero _)⟩
  | succ lo ih =>
    intro syn u hlo hm hn
    obtain ⟨K, rfl, -⟩ := TableKind.drop_of_lt_six (i := lo) (by omega)
    rw [TableKind.take_rank_succ, List.reverse_append, List.reverse_singleton,
      List.singleton_append]
    unfold mergeKinds
    -- note the kind and read its tables
    obtain ⟨ns, u₁, hk⟩ : ∃ ns u₁, (kindTables K).run u = .ok ns u₁ :=
      ⟨_, _, TrieM.modifyGet_run _⟩
    obtain ⟨hns, ht₁, hk₁⟩ := kindTables_ok hk
    rw [TrieM.run_bind_of_ok hk]
    have hm₁ := hm.of_tables ht₁ hk₁
    have hn₁ := hn.of_tables ht₁
    rw [hm.kinds K] at hns
    -- the kind's tables are not merged yet, and every table they link to is
    have hR : ∀ n ∈ ns.toList, n ∈ t.tablesOf K ∧
        ¬ ∃ K', K.rank + 1 ≤ K'.rank ∧ n ∈ t.tablesOf K' := fun n hn' => by
      rw [hns] at hn'
      refine ⟨hn', ?_⟩
      rintro ⟨K', hK', hn''⟩
      have := hs.noted_once K' K n hn'' hn'
      subst this
      omega
    -- no table of the kind is seen yet
    have hseen : SeenSound t K (fun n => ∃ K', K.rank + 1 ≤ K'.rank ∧ n ∈ t.tablesOf K') syn u₁
        {} := fun _ _ h => by simp at h
    have hall : SeenAll t K (fun n => ∃ K', K.rank + 1 ≤ K'.rank ∧ n ∈ t.tablesOf K') u₁ {} :=
      fun n _ hnK hD => absurd hD (hR n (hns ▸ hnK)).2
    obtain ⟨syn₁, u₂, hrun, hk₂, hm₂, hn₂⟩ := mergeKind_normal hs ns.toList hm₁ hn₁ hseen hall
      hR (hns ▸ hs.noted_nodup K) fun L m hab hm' => ⟨L, hab.1, hm'⟩
    rw [TrieM.run_bind_of_ok hrun]
    have hcongr : ∀ n, ((∃ K', K.rank + 1 ≤ K'.rank ∧ n ∈ t.tablesOf K') ∨ n ∈ ns.toList) ↔
        ∃ K', K.rank ≤ K'.rank ∧ n ∈ t.tablesOf K' := fun n => by
      rw [hns]
      constructor
      · rintro (⟨K', hK', hn'⟩ | hn')
        · exact ⟨K', by omega, hn'⟩
        · exact ⟨K, le_rfl, hn'⟩
      · rintro ⟨K', hK', hn'⟩
        rcases Nat.lt_or_eq_of_le hK' with hlt | heq
        · exact .inl ⟨K', hlt, hn'⟩
        · obtain rfl := TableKind.rank_inj heq
          exact .inr hn'
    obtain ⟨syn', u', hrun', hm', hn', hkinds⟩ :=
      ih (by omega) (hm₂.congr hcongr) (hn₂.congr hcongr)
    refine ⟨syn', u', hrun', hm', hn', fun K' hK' => hkinds K' ?_⟩
    -- a kind noted before or now stays noted
    rcases hK' with hlt | hK'
    · rcases Nat.lt_succ_iff_lt_or_eq.1 hlt with hlt | heq
      · exact .inl hlt
      · exact .inr (hk₂ ▸ kindTables_noted hk K' (.inl (TableKind.rank_inj heq)))
    · exact .inr (hk₂ ▸ kindTables_noted hk K' (.inr hK'))

theorem Merged.start (hs : t.Shaped) :
    Merged t (fun n => ∃ K, 6 ≤ K.rank ∧ n ∈ t.tablesOf K) {} t where
  same _ _ := rfl
  synonym K _ _ h := absurd h.choose_spec.1 (by have := h.choose.rank_lt_six; omega)
  removed _ h := absurd h.choose_spec.1 (by have := h.choose.rank_lt_six; omega)
  fixed _ _ := Std.HashMap.getD_empty
  closed _ h := absurd h.choose_spec.1 (by have := h.choose.rank_lt_six; omega)
  links n j b m h := ⟨hs.link_noted _ b m h, fun h0 => hs.root_link j b m (h0 ▸ h),
    fun K hK => hs.link_above K n j b m hK h⟩
  sizes n tab h := by simp [tableSize, h]
  size := rfl
  kinds _ := rfl

/-- **Merging goes through.** On a shaped trie, merging goes through, merges every noted
table, keeps `Normal`, and notes every kind. -/
theorem merge_normal (hs : t.Shaped) :
    ∃ syn u, merge.run t = .ok () u ∧ Merged t (fun n => ∃ K, n ∈ t.tablesOf K) syn u ∧
      Normal t (fun n => ∃ K, n ∈ t.tablesOf K) u ∧
      ∀ K, (u.kinds.find? (·.1 == K)).isSome := by
  unfold merge
  rw [← TableKind.take_of_six_le (j := 6) le_rfl]
  obtain ⟨syn, u, h, hm, hn, hk⟩ := mergeKinds_normal hs 6 le_rfl (Merged.start hs) Normal.start
  exact ⟨syn, u, h, hm, hn, fun K => hk K (.inl K.rank_lt_six)⟩

/-- **Merging.** After `merge` every noted table of a shaped trie is merged. -/
theorem merge_ok (h : merge.run t = .ok () u) (hs : t.Shaped) :
    ∃ syn, Merged t (fun n => ∃ K, n ∈ t.tablesOf K) syn u := by
  obtain ⟨syn, u', h', hm, -, -⟩ := merge_normal hs
  rw [h] at h'
  cases h'
  exact ⟨syn, hm⟩

/-- table 0, of the root slots, is noted under no kind, so merging leaves it -/
theorem merge_table_zero (h : merge.run t = .ok () u) (hs : t.Shaped) :
    u.tables[0]? = t.tables[0]? := by
  obtain ⟨syn, hm⟩ := merge_ok h hs
  exact hm.same 0 fun ⟨K, hK⟩ => lt_irrefl 0 (hs.noted_table K 0 hK).1

/-- **Lookups after merging.** A root slot whose table is kept looks every key up as before. -/
theorem merge_lookup (h : merge.run t = .ok () u) (hs : t.Shaped) {r n : Nat}
    (hroot : t.slot (0, r) = some (.table .root n)) (hkept : ∃ tab, u.tables[n]? = some (some tab))
    (k : TableKey) : u.lookup r k = t.lookup r k := by
  obtain ⟨syn, hm⟩ := merge_ok h hs
  have hn : n ∈ t.tablesOf .root := hs.link_noted _ _ n hroot
  have h0 : u.slot (0, r) = t.slot (0, r) := slot_congr (merge_table_zero h hs)
  -- the root table is its own synonym, as it is kept
  have hsyn : syn.getD n n = n := hm.synonym_of_kept ⟨_, hn⟩ hkept
  obtain ⟨-, -, -, hsame⟩ := hm.synonym .root n hn ⟨_, hn⟩
  rw [hsyn] at hsame
  unfold lookup
  rw [h0, hroot]
  exact (walk_table (Nat.zero_le _) k).trans ((hsame k).trans (walk_table (Nat.zero_le _) k).symm)

end X86Codec.Trie
