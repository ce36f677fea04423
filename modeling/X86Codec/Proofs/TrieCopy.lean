import X86Codec.Proofs.TrieWalk
/-!
Copying what a slot holds, and putting a new table between a slot and what it holds.

`copySlot` copies a link together with the tables below it. The copy is a link of the same
kind to a new table that nothing links to; the new tables link only among themselves, each at
most once; and for every key the copy walks as the original (`copySlot_ok`). `pushDown` puts a
new table of a level's kind into a slot: its first slot keeps the old content and the others
hold copies of it (`pushDown_ok`). `descend` gives the table of a level's kind that a slot
leads to. It makes one when the slot is empty, and pushes one in when the slot holds anything
else. For every key, walking on from the slot through that table is walking on from the old
content (`descend_ok`).
-/

namespace X86Codec.Trie

variable {t u v : Trie}

theorem slot_of_size_le {p : Nat × Nat} (h : t.tables.size ≤ p.1) : t.slot p = none := by
  unfold slot; rw [Array.getElem?_eq_none h]

/-! ## Added tables -/

/-- `u` only adds tables to `t`: the old tables and their notes stay, and the added tables
link only to added tables, each at most once -/
structure Adds (t u : Trie) : Prop where
  size_le : t.tables.size ≤ u.tables.size
  old : ∀ m < t.tables.size, u.tables[m]? = t.tables[m]?
  noted_mono : ∀ a n, n ∈ t.tablesOf a → n ∈ u.tablesOf a
  noted_old : ∀ a n, n < t.tables.size → n ∈ u.tablesOf a → n ∈ t.tablesOf a
  closed : ∀ p c y, t.tables.size ≤ p.1 → u.slot p = some (.table c y) → t.tables.size ≤ y
  once : ∀ p q c e y, t.tables.size ≤ p.1 → t.tables.size ≤ q.1 →
    u.slot p = some (.table c y) → u.slot q = some (.table e y) → p = q

theorem Adds.refl (t : Trie) : Adds t t where
  size_le := le_rfl
  old _ _ := rfl
  noted_mono _ _ h := h
  noted_old _ _ _ h := h
  closed _ _ _ hp h := by rw [slot_of_size_le hp] at h; cases h
  once _ _ _ _ _ hp _ h := by rw [slot_of_size_le hp] at h; cases h

theorem Adds.slot_old (h : Adds t u) {p : Nat × Nat} (hp : p.1 < t.tables.size) :
    u.slot p = t.slot p :=
  slot_congr (h.old _ hp)

theorem Adds.trans (h₁ : Adds t u) (h₂ : Adds u v) (hu : u.Shaped) : Adds t v := by
  -- a slot of `v` in a table of `u` is as in `u`, and its link leads into `u`
  have hin : ∀ {p : Nat × Nat} {c y}, p.1 < u.tables.size → v.slot p = some (.table c y) →
      u.slot p = some (.table c y) ∧ y < u.tables.size := fun hp h => by
    rw [h₂.slot_old hp] at h; exact ⟨h, hu.link_lt h⟩
  refine ⟨h₁.size_le.trans h₂.size_le, fun m hm => ?_, fun a n hn => ?_, fun a n hn h => ?_,
    fun p c y hp h => ?_, fun p q c e y hp hq h h' => ?_⟩
  · rw [h₂.old m (lt_of_lt_of_le hm h₁.size_le), h₁.old m hm]
  · exact h₂.noted_mono a n (h₁.noted_mono a n hn)
  · exact h₁.noted_old a n hn (h₂.noted_old a n (lt_of_lt_of_le hn h₁.size_le) h)
  · rcases Nat.lt_or_ge p.1 u.tables.size with hpu | hpu
    · exact h₁.closed p c y hp (hin hpu h).1
    · exact h₁.size_le.trans (h₂.closed p c y hpu h)
  · rcases Nat.lt_or_ge p.1 u.tables.size with hpu | hpu <;>
      rcases Nat.lt_or_ge q.1 u.tables.size with hqu | hqu
    · exact h₁.once p q c e y hp hq (hin hpu h).1 (hin hqu h').1
    · exact absurd (h₂.closed q e y hqu h') (Nat.not_le.2 (hin hpu h).2)
    · exact absurd (h₂.closed p c y hpu h) (Nat.not_le.2 (hin hqu h').2)
    · exact h₂.once p q c e y hpu hqu h h'

/-- a walk from content leading into the tables added since `t` reads only added tables, so a
trie agreeing on them walks alike -/
theorem Adds.walk_new (h : Adds t u) (hv : ∀ m j, t.tables.size ≤ m → v.slot (m, j) = u.slot (m, j))
    {s : Option Slot} (hs : ∀ c y, s = some (.table c y) → t.tables.size ≤ y)
    (k : TableKey) (ks : List TableKind) : v.walk k ks s = u.walk k ks s :=
  walk_congr (S := (t.tables.size ≤ ·)) (fun m hm j c y hy => h.closed (m, j) c y hm hy)
    (fun m hm j => hv m j hm) ks hs

/-! ## Copies -/

/-- `y` in `u` is a fresh copy of `x` in `t`: for every key it walks as `x` over the levels
that reach `x`'s kind, a link is copied to a link of the same kind to a table added since `t`
that nothing in `u` links to, and anything else is copied as it is -/
structure CopyOf (t u : Trie) (x y : Option Slot) : Prop where
  walk : ∀ k i, Enters i x →
    u.walk k (TableKind.order.drop i) y = t.walk k (TableKind.order.drop i) x
  plain : (∀ c n, x ≠ some (.table c n)) → y = x
  link : ∀ c n, x = some (.table c n) → ∃ m, y = some (.table c m) ∧ t.tables.size ≤ m ∧
    m ∈ u.tablesOf c ∧ ∀ p b, u.slot p ≠ some (.table b m)

theorem CopyOf.self {x : Option Slot} (hx : ∀ c n, x ≠ some (.table c n)) : CopyOf t t x x :=
  ⟨fun _ _ _ => rfl, fun _ => rfl, fun c n h => absurd h (hx c n)⟩

/-- a link that is a copy leads to a table added since `t` -/
theorem CopyOf.le_target {x : Option Slot} {c : TableKind} {m : Nat}
    (h : CopyOf t u x (some (.table c m))) : t.tables.size ≤ m := by
  by_cases hx : ∃ b n, x = some (.table b n)
  · obtain ⟨b, n, hxn⟩ := hx
    obtain ⟨m', he, hle, -⟩ := h.link b n hxn
    cases he; exact hle
  · simp only [not_exists] at hx
    have := h.plain hx
    exact absurd this.symm (hx c m)

/-- a copy stays one while tables are added -/
theorem CopyOf.later {x y : Option Slot} (h : CopyOf t u x y) (ha : Adds u v) (hu : u.Shaped) :
    CopyOf t v x y := by
  refine ⟨fun k i hi => ?_, h.plain, fun c n hx => ?_⟩
  · rw [← h.walk k i hi]
    refine hu.walk_old ha.old (fun b m hy => ?_) k _
    by_cases hl : ∃ c n, x = some (.table c n)
    · obtain ⟨c, n, hx⟩ := hl
      obtain ⟨m', he, -, hm', -⟩ := h.link c n hx
      rw [he] at hy; cases hy; exact hu.noted_lt hm'
    · simp only [not_exists] at hl
      rw [h.plain hl] at hy; exact absurd hy (hl b m)
  · obtain ⟨m, rfl, hle, hm, hfree⟩ := h.link c n hx
    refine ⟨m, rfl, hle, ha.noted_mono c m hm, fun p b hp => ?_⟩
    rcases Nat.lt_or_ge p.1 u.tables.size with hpu | hpu
    · rw [ha.slot_old hpu] at hp; exact hfree p b hp
    · exact absurd (ha.closed p b m hpu hp) (Nat.not_le.2 (hu.noted_lt hm))

/-- a copy made after tables were added to `t` is a copy of content of `t` -/
theorem CopyOf.earlier {x y : Option Slot} (h : CopyOf u v x y) (ha : Adds t u) (ht : t.Shaped)
    (hx : ∀ c n, x = some (.table c n) → n < t.tables.size) : CopyOf t v x y := by
  refine ⟨fun k i hi => ?_, h.plain, fun c n hxn => ?_⟩
  · rw [h.walk k i hi]; exact ht.walk_old ha.old hx k _
  · obtain ⟨m, he, hle, hm, hfree⟩ := h.link c n hxn
    exact ⟨m, he, ha.size_le.trans hle, hm, hfree⟩

/-- what `copySlot` needs of a link to copy it whole: its table noted under its kind, and
enough depth left for the kinds below -/
def CopyReady (t : Trie) (d : Nat) (x : Option Slot) : Prop :=
  ∀ c n, x = some (.table c n) → n ∈ t.tablesOf c ∧ 6 ≤ c.rank + d

/-- no two slots of a list link to the same table -/
def Distinct (ys : List (Option Slot)) : Prop :=
  ∀ (i j : Nat) c e m, ys[i]? = some (some (Slot.table c m)) →
    ys[j]? = some (some (Slot.table e m)) → i = j

/-- what `copySlot d` does, as `copySlot_ok` states it -/
def CopySpec (d : Nat) : Prop :=
  ∀ {x y : Option Slot} {t u : Trie}, (copySlot d x).run t = .ok y u → t.Shaped →
    CopyReady t d x → u.Shaped ∧ Adds t u ∧ CopyOf t u x y

/-- copies of a list of slots, made one after the other, are copies of each -/
theorem mapM_copySlot_ok {d : Nat} (hd : CopySpec d) (xs : List (Option Slot)) :
    ∀ {ys : List (Option Slot)} {t u : Trie}, (xs.mapM (copySlot d)).run t = .ok ys u →
      t.Shaped → (∀ x ∈ xs, CopyReady t d x) →
      u.Shaped ∧ Adds t u ∧ ys.length = xs.length ∧
        (∀ (j : Nat) x y, xs[j]? = some x → ys[j]? = some y → CopyOf t u x y) ∧ Distinct ys := by
  induction xs with
  | nil =>
    intro ys t u h hs _
    rw [List.mapM_nil] at h
    obtain ⟨rfl, rfl⟩ := TrieM.pure_ok h
    exact ⟨hs, Adds.refl _, rfl, by simp, by simp [Distinct]⟩
  | cons x xs ih =>
    intro ys t u h hs hx
    rw [List.mapM_cons] at h
    obtain ⟨y, t₁, h₁, hr₁⟩ := TrieM.bind_ok h
    obtain ⟨ys', t₂, h₂, hr₂⟩ := TrieM.bind_ok hr₁
    obtain ⟨rfl, rfl⟩ := TrieM.pure_ok hr₂
    obtain ⟨hs₁, ha₁, hc₁⟩ := hd h₁ hs (hx x List.mem_cons_self)
    have hready : ∀ z ∈ xs, CopyReady t₁ d z := fun z hz b m he =>
      have hz' := hx z (List.mem_cons_of_mem x hz) b m he
      ⟨ha₁.noted_mono b m hz'.1, hz'.2⟩
    obtain ⟨hs₂, ha₂, hlen, hc₂, hd₂⟩ := ih h₂ hs₁ hready
    have hold : ∀ z ∈ xs, ∀ c n, z = some (.table c n) → n < t.tables.size :=
      fun z hz c n he => hs.noted_lt (hx z (List.mem_cons_of_mem x hz) c n he).1
    refine ⟨hs₂, ha₁.trans ha₂ hs₁, by simp [hlen], fun j x' y' hx' hy' => ?_, ?_⟩
    · cases j with
      | zero =>
        simp only [List.getElem?_cons_zero, Option.some.injEq] at hx' hy'
        subst hx' hy'
        exact hc₁.later ha₂ hs₁
      | succ j =>
        simp only [List.getElem?_cons_succ] at hx' hy'
        exact (hc₂ j x' y' hx' hy').earlier ha₁ hs (hold x' (List.mem_of_getElem? hx'))
    · -- the first copy's table is older than every table the later copies lead to
      have hlater : ∀ (j : Nat) c m, ys'[j]? = some (some (Slot.table c m)) →
          t₁.tables.size ≤ m := by
        intro j c m hj
        obtain ⟨x', hx'⟩ : ∃ x', xs[j]? = some x' := by
          have : j < ys'.length := (List.getElem?_eq_some_iff.1 hj).1
          exact ⟨_, List.getElem?_eq_getElem (hlen ▸ this)⟩
        exact (hc₂ j x' _ hx' hj).le_target
      have hfirst : ∀ c m, y = some (.table c m) → m < t₁.tables.size := by
        intro c m he
        by_cases hl : ∃ b n, x = some (.table b n)
        · obtain ⟨b, n, hxn⟩ := hl
          obtain ⟨m', he', -, hm', -⟩ := hc₁.link b n hxn
          rw [he] at he'; cases he'; exact hs₁.noted_lt hm'
        · simp only [not_exists] at hl
          rw [hc₁.plain hl] at he; exact absurd he (hl c m)
      intro i j c e m hi hj
      cases i <;> cases j
      · rfl
      · simp only [List.getElem?_cons_zero, Option.some.injEq, List.getElem?_cons_succ] at hi hj
        exact absurd (hlater _ e m hj) (Nat.not_le.2 (hfirst c m hi))
      · simp only [List.getElem?_cons_zero, Option.some.injEq, List.getElem?_cons_succ] at hi hj
        exact absurd (hlater _ c m hi) (Nat.not_le.2 (hfirst e m hj))
      · simp only [List.getElem?_cons_succ] at hi hj
        rw [hd₂ _ _ c e m hi hj]

/-- the slot of a table read through `slot` is its array's entry -/
theorem slot_of_getElem? {n j : Nat} {tab : Array (Option Slot)}
    (h : t.tables[n]? = some (some tab)) : t.slot (n, j) = tab[j]?.join := by
  unfold slot; rw [h]

/-- copying a link whole: a new table of the same kind holding copies of the old table's
slots -/
theorem copySlot_table_ok {d : Nat} (hd : CopySpec d) {c : TableKind} {n : Nat}
    {y : Option Slot} (h : (copySlot (d + 1) (some (.table c n))).run t = .ok y u)
    (hs : t.Shaped) (hx : CopyReady t (d + 1) (some (.table c n))) :
    u.Shaped ∧ Adds t u ∧ CopyOf t u (some (.table c n)) y := by
  obtain ⟨hn, hdepth⟩ := hx c n rfl
  unfold copySlot at h
  dsimp only at h
  obtain ⟨fresh, t₁, h₁, hr₁⟩ := TrieM.bind_ok h
  obtain ⟨rfl, ht₁, hk₁⟩ := addTable_ok h₁
  obtain ⟨src, t₂, h₂, hr₂⟩ := TrieM.bind_ok hr₁
  obtain ⟨ht₂, hsrc⟩ := slotsOf_ok h₂
  subst t₂
  obtain ⟨copies, t₃, h₃, hr₃⟩ := TrieM.bind_ok hr₂
  rw [Array.mapM_eq_mapM_toList] at h₃
  obtain ⟨cl, hcl, rfl⟩ := TrieM.map_ok h₃
  obtain ⟨x, t₄, h₄, hr₄⟩ := TrieM.bind_ok hr₃
  obtain ⟨htabu, hkindu⟩ := setTable_ok h₄
  obtain ⟨hy, hu⟩ := TrieM.pure_ok hr₄
  subst hy hu
  -- the table copied, and its slots
  have hs₁ : t₁.Shaped := hs.push ht₁ hk₁
  have hnt : n < t.tables.size := hs.noted_lt hn
  have hsrc_t : t.tables[n]? = some (some src) := by
    rwa [ht₁, Array.getElem?_push, if_neg hnt.ne] at hsrc
  have hsize : src.size = c.length := by
    have := (hs.noted_table c n hn).2
    simpa [tableSize, hsrc_t] using this
  have hslot_src : ∀ j z, src.toList[j]? = some z → t.slot (n, j) = z := by
    intro j z hz
    rw [slot_of_getElem? hsrc_t, ← Array.getElem?_toList, hz]
    rfl
  have hready : ∀ z ∈ src.toList, CopyReady t₁ d z := by
    intro z hz b m hzm
    obtain ⟨j, hj, hjz⟩ := List.getElem_of_mem hz
    have hslot : t.slot (n, j) = some (.table b m) :=
      hzm ▸ hslot_src j z (hjz ▸ List.getElem?_eq_getElem hj)
    have habove := hs.link_above c n j b m hn hslot
    refine ⟨(mem_tablesOf_push hk₁).2 (.inl (hs.link_noted _ b m hslot)), ?_⟩
    have := habove.1
    omega
  obtain ⟨hs₃, ha₃, hlen, hcopy, hdist⟩ := mapM_copySlot_ok hd _ hcl hs₁ hready
  -- the new table, numbered `t.tables.size`, is what the copies are written into
  have hfresh_lt : t.tables.size < t₁.tables.size := by rw [ht₁, Array.size_push]; omega
  have hnoted₁ : t.tables.size ∈ t₁.tablesOf c := (mem_tablesOf_push hk₁).2 (.inr ⟨rfl, rfl⟩)
  have hnoted₃ : t.tables.size ∈ t₃.tablesOf c := ha₃.noted_mono c _ hnoted₁
  have hfresh₃ : t.tables.size < t₃.tables.size := lt_of_lt_of_le hfresh_lt ha₃.size_le
  have hslotu := slot_setTable htabu hfresh₃
  have hofu : ∀ b, u.tablesOf b = t₃.tablesOf b := fun b => by unfold tablesOf; rw [hkindu]
  -- each copy in the new table is a copy of the old table's slot
  have hcopy_at : ∀ (j : Nat) y', cl[j]? = some y' →
      ∃ z, src.toList[j]? = some z ∧ CopyOf t₁ t₃ z y' := by
    intro j y' hj
    have hjl : j < src.toList.length := hlen ▸ (List.getElem?_eq_some_iff.1 hj).1
    exact ⟨_, List.getElem?_eq_getElem hjl, hcopy j _ y' (List.getElem?_eq_getElem hjl) hj⟩
  have hlink_at : ∀ (j : Nat) b y', cl.toArray[j]? = some (some (Slot.table b y')) →
      t₁.tables.size ≤ y' ∧ y' ∈ t₃.tablesOf b ∧ c.Above b := by
    intro j b y' hj
    rw [List.getElem?_toArray] at hj
    obtain ⟨z, hz, hc⟩ := hcopy_at j _ hj
    refine ⟨hc.le_target, ?_, ?_⟩
    · by_cases hl : ∃ b' m, z = some (.table b' m)
      · obtain ⟨b', m, hzm⟩ := hl
        obtain ⟨m', he, -, hm', -⟩ := hc.link b' m hzm
        cases he; exact hm'
      · simp only [not_exists] at hl
        exact absurd (hc.plain hl).symm (hl b y')
    · by_cases hl : ∃ b' m, z = some (.table b' m)
      · obtain ⟨b', m, hzm⟩ := hl
        obtain ⟨m', he, -⟩ := hc.link b' m hzm
        cases he
        exact hs.link_above c n j b m hn (hzm ▸ hslot_src j z hz)
      · simp only [not_exists] at hl
        exact absurd (hc.plain hl).symm (hl b y')
  have hsu : u.Shaped := by
    refine hs₃.setTable htabu hkindu ?_ (Nat.pos_iff_ne_zero.1 hs.size_pos) ?_
    · have hcl_size : cl.toArray.size = c.length := by
        rw [List.size_toArray, hlen, Array.length_toList, hsize]
      rw [hcl_size]
      exact (hs₃.noted_table c _ hnoted₃).2
    · intro j b y' hj
      obtain ⟨-, hy', habove⟩ := hlink_at j b y' hj
      exact ⟨hy', fun a ha => hs₃.noted_once a c _ ha hnoted₃ ▸ habove⟩
  -- nothing in the result links to the new table
  have hfree : ∀ p b, u.slot p ≠ some (.table b t.tables.size) := by
    intro p b hp
    rw [hslotu] at hp
    split_ifs at hp with hpf
    · have := (hlink_at p.2 b _ (Option.join_eq_some_iff.1 (by simpa using hp))).1
      omega
    · rcases Nat.lt_or_ge p.1 t₁.tables.size with hp1 | hp1
      · have hpt : p.1 < t.tables.size := by
          rw [ht₁, Array.size_push] at hp1; omega
        rw [ha₃.slot_old hp1, slot_push ht₁, if_neg hpf] at hp
        exact absurd (hs.link_lt hp) (lt_irrefl _)
      · have := ha₃.closed p b _ hp1 hp
        omega
  refine ⟨hsu, ⟨by rw [htabu, Array.size_modify]; exact le_of_lt hfresh₃, fun m hm => ?_,
    fun b m hm => ?_, fun b m hm hm' => ?_, fun p b y' hp hy => ?_,
    fun p q b e y' hp hq hpy hqy => ?_⟩, ⟨fun k i hi => ?_, fun hx => absurd rfl (hx c n),
    fun b m he => ?_⟩⟩
  · -- old tables
    rw [htabu, Array.getElem?_modify, if_neg (Nat.ne_of_gt hm), ha₃.old m (lt_trans hm hfresh_lt), ht₁,
      Array.getElem?_push, if_neg hm.ne]
  · rw [hofu]; exact ha₃.noted_mono b m ((mem_tablesOf_push hk₁).2 (.inl hm))
  · rw [hofu] at hm'
    rcases (mem_tablesOf_push hk₁).1 (ha₃.noted_old b m (lt_trans hm hfresh_lt) hm') with
      h | ⟨-, rfl⟩
    · exact h
    · exact absurd hm (lt_irrefl _)
  · -- added tables link to added tables
    rw [hslotu] at hy
    split_ifs at hy with hpf
    · have := (hlink_at p.2 b y' (Option.join_eq_some_iff.1 (by simpa using hy))).1
      omega
    · have hp1 : t₁.tables.size ≤ p.1 := by rw [ht₁, Array.size_push]; omega
      have := ha₃.closed p b y' hp1 hy
      omega
  · -- each at most once
    rw [hslotu] at hpy hqy
    split_ifs at hpy hqy with hpf hqf hqf
    · obtain ⟨p1, p2⟩ := p; obtain ⟨q1, q2⟩ := q
      simp only at hpf hqf
      subst hpf hqf
      have hp' := Option.join_eq_some_iff.1 (by simpa using hpy)
      have hq' := Option.join_eq_some_iff.1 (by simpa using hqy)
      rw [hdist p2 q2 b e y' hp' hq']
    · -- a copy's table is linked from the new table only
      have hp' := Option.join_eq_some_iff.1 (by simpa using hpy)
      obtain ⟨z, -, hc⟩ := hcopy_at p.2 _ hp'
      by_cases hl : ∃ b' m, z = some (.table b' m)
      · obtain ⟨b', m, hzm⟩ := hl
        obtain ⟨m', he, -, -, hfr⟩ := hc.link b' m hzm
        cases he
        exact absurd hqy (hfr q e)
      · simp only [not_exists] at hl
        exact absurd (hc.plain hl).symm (hl b y')
    · have hq' := Option.join_eq_some_iff.1 (by simpa using hqy)
      obtain ⟨z, -, hc⟩ := hcopy_at q.2 _ hq'
      by_cases hl : ∃ b' m, z = some (.table b' m)
      · obtain ⟨b', m, hzm⟩ := hl
        obtain ⟨m', he, -, -, hfr⟩ := hc.link b' m hzm
        cases he
        exact absurd hpy (hfr p b)
      · simp only [not_exists] at hl
        exact absurd (hc.plain hl).symm (hl e y')
    · have hp1 : t₁.tables.size ≤ p.1 := by rw [ht₁, Array.size_push]; omega
      have hq1 : t₁.tables.size ≤ q.1 := by rw [ht₁, Array.size_push]; omega
      exact ha₃.once p q b e y' hp1 hq1 hpy hqy
  · -- the copy walks as the original: slot by slot, each a copy of the original's
    refine walk_link (hi c n rfl) (fun k => ?_) k
    rw [hslotu, if_pos rfl, slot_of_getElem? hsrc_t]
    simp only [Option.bind_some, List.getElem?_toArray]
    rcases hj : cl[k.index c]? with _ | y'
    · have hge : src.size ≤ k.index c := by
        have := List.getElem?_eq_none_iff.1 hj
        rw [hlen, Array.length_toList] at this; exact this
      rw [Array.getElem?_eq_none hge]
      simp
    · obtain ⟨z, hz, hc⟩ := hcopy_at _ y' hj
      rw [← Array.getElem?_toList, hz]
      simp only [Option.join_some]
      have hnew : ∀ b' m, y' = some (.table b' m) → t₁.tables.size ≤ m := by
        intro b' m he; rw [he] at hc; exact hc.le_target
      have henter : Enters (c.rank + 1) z := fun b' m he =>
        (hs.link_above c n _ b' m hn (he ▸ hslot_src _ z hz)).1
      rw [ha₃.walk_new (v := u) (fun m j hm => by rw [hslotu, if_neg (by omega)]) hnew,
        hc.walk k _ henter]
      exact hs.walk_old (fun m hm => by rw [ht₁, Array.getElem?_push, if_neg hm.ne])
        (fun b' m he => by rw [← hslot_src _ z hz] at he; exact hs.link_lt he) k _
  · cases he
    exact ⟨t.tables.size, rfl, le_rfl, (hofu c).symm ▸ hnoted₃, hfree⟩

/-- **Copies are fresh and walk as their originals.** With enough depth left for the kinds
below a link, `copySlot` copies it whole. -/
theorem copySlot_ok (d : Nat) : CopySpec d := by
  induction d with
  | zero =>
    intro x y t u h hs hx
    obtain ⟨rfl, rfl⟩ := TrieM.pure_ok h
    refine ⟨hs, Adds.refl _, CopyOf.self fun c n he => ?_⟩
    have h6 := (hx c n he).2
    have := c.rank_lt_six
    omega
  | succ d ih =>
    intro x y t u h hs hx
    rcases x with _ | (_ | _ | ⟨c, n⟩)
    · obtain ⟨rfl, rfl⟩ := TrieM.pure_ok h; exact ⟨hs, Adds.refl _, CopyOf.self (by simp)⟩
    · obtain ⟨rfl, rfl⟩ := TrieM.pure_ok h; exact ⟨hs, Adds.refl _, CopyOf.self (by simp)⟩
    · obtain ⟨rfl, rfl⟩ := TrieM.pure_ok h; exact ⟨hs, Adds.refl _, CopyOf.self (by simp)⟩
    · exact copySlot_table_ok ih h hs hx

/-! ## Pushing a table in -/

/-- the levels after a kind -/
abbrev after (a : TableKind) : List TableKind := TableKind.order.drop (a.rank + 1)

/-- `u` keeps what `t` notes and notes no other old table -/
structure Grows (t u : Trie) : Prop where
  size_le : t.tables.size ≤ u.tables.size
  noted_mono : ∀ b m, m ∈ t.tablesOf b → m ∈ u.tablesOf b
  noted_old : ∀ b m, m < t.tables.size → m ∈ u.tablesOf b → m ∈ t.tablesOf b
  sizes : ∀ m, m < t.tables.size → u.tableSize m = t.tableSize m

theorem Grows.refl (t : Trie) : Grows t t :=
  ⟨le_rfl, fun _ _ h => h, fun _ _ _ h => h, fun _ _ => rfl⟩

theorem Grows.trans (h₁ : Grows t u) (h₂ : Grows u v) : Grows t v :=
  ⟨h₁.size_le.trans h₂.size_le, fun b m h => h₂.noted_mono b m (h₁.noted_mono b m h),
    fun b m hm h => h₁.noted_old b m hm (h₂.noted_old b m (lt_of_lt_of_le hm h₁.size_le) h),
    fun m hm => (h₂.sizes m (lt_of_lt_of_le hm h₁.size_le)).trans (h₁.sizes m hm)⟩

theorem Adds.grows (h : Adds t u) : Grows t u :=
  ⟨h.size_le, h.noted_mono, h.noted_old, fun m hm => by unfold tableSize; rw [h.old m hm]⟩

/-- what putting a table of kind `a` between slot `f` and its content needs: the slot lies in
a table, a link of kind `a` may stand in that table, and a table of kind `a` may hold the
content unless it is already a table of kind `a` -/
structure PushReady (t : Trie) (a : TableKind) (f : Nat × Nat) : Prop where
  in_table : ∃ w, t.tableSize f.1 = some w ∧ f.2 < w
  fits_root : f.1 = 0 → a = .root
  fits : ∀ b, f.1 ∈ t.tablesOf b → b.Above a
  holds : ∀ b m, t.slot f = some (.table b m) → b = a ∨ a.Above b

/-- the state of `pushDown` once the first `j` slots of its new table, numbered
`t.tables.size`, are filled: the old tables are as in `t`; the new table is noted under `a`
and nothing links to it yet; the filled slots walk as `cur` over the levels after `a`, the
first is `cur` itself and the others lead to added tables, which link only to added tables,
each at most once -/
structure Pushing (t : Trie) (a : TableKind) (cur : Option Slot) (v : Trie) (j : Nat) : Prop where
  shaped : v.Shaped
  grows : Grows t v
  size_lt : t.tables.size < v.tables.size
  old : ∀ m < t.tables.size, v.tables[m]? = t.tables[m]?
  noted : t.tables.size ∈ v.tablesOf a
  free : ∀ p b, v.slot p ≠ some (.table b t.tables.size)
  first : v.slot (t.tables.size, 0) = cur
  filled : ∀ i < j, ∀ k, v.walk k (after a) (v.slot (t.tables.size, i)) = t.walk k (after a) cur
  copies_new : ∀ i b y, 0 < i → v.slot (t.tables.size, i) = some (.table b y) →
    t.tables.size < y
  closed : ∀ p b y, t.tables.size < p.1 → v.slot p = some (.table b y) → t.tables.size < y
  once : ∀ p q b c y, t.tables.size < y → v.slot p = some (.table b y) →
    v.slot q = some (.table c y) → p = q

section Pushing

variable {a : TableKind} {cur : Option Slot}

/-- the content pushed down is old, of a later kind than `a` -/
structure Pushable (t : Trie) (a : TableKind) (cur : Option Slot) : Prop where
  noted : ∀ b m, cur = some (.table b m) → m ∈ t.tablesOf b
  above : ∀ b m, cur = some (.table b m) → a.Above b

theorem Pushable.enters (hc : Pushable t a cur) : Enters (a.rank + 1) cur :=
  fun b m he => (hc.above b m he).1

/-- writing the first slot of the new table starts the push -/
theorem pushing_start {t₁ t₂ : Trie} (hs : t.Shaped) (hc : Pushable t a cur)
    (h₁ : (addTable a).run t = .ok t.tables.size t₁)
    (h₂ : (setSlot t.tables.size 0 cur).run t₁ = .ok () t₂) : Pushing t a cur t₂ 1 := by
  obtain ⟨-, ht₁, hk₁⟩ := addTable_ok h₁
  obtain ⟨ht₂, hk₂⟩ := setSlot_ok h₂
  have hs₁ : t₁.Shaped := hs.push ht₁ hk₁
  have hnoted₁ : t.tables.size ∈ t₁.tablesOf a := (mem_tablesOf_push hk₁).2 (.inr ⟨rfl, rfl⟩)
  have hw₁ : t₁.tableSize t.tables.size = some a.length := (hs₁.noted_table a _ hnoted₁).2
  have hslot₂ := slot_setSlot ht₂ hw₁ (by have := a.four_le_length; omega)
  have hof₂ : ∀ b, t₂.tablesOf b = t₁.tablesOf b := fun b => by unfold tablesOf; rw [hk₂]
  have hsize₂ : t₂.tables.size = t.tables.size + 1 := by
    rw [ht₂, Array.size_modify, ht₁, Array.size_push]
  have hold₂ : ∀ m < t.tables.size, t₂.tables[m]? = t.tables[m]? := fun m hm => by
    rw [ht₂, Array.getElem?_modify, if_neg (Nat.ne_of_gt hm), ht₁, Array.getElem?_push,
      if_neg hm.ne]
  have hs₂ : t₂.Shaped := by
    refine hs₁.setSlot ht₂ hk₂ hw₁ (by have := a.four_le_length; omega) fun b m he => ?_
    refine ⟨(mem_tablesOf_push hk₁).2 (.inl (hc.noted b m he)),
      fun h0 => absurd h0 (Nat.pos_iff_ne_zero.1 hs.size_pos), fun a' ha' => ?_⟩
    rw [hs₁.noted_once a' a _ ha' hnoted₁]
    exact hc.above b m he
  -- every link of `t₂` leads to a table of `t`
  have hlinks : ∀ p b y, t₂.slot p = some (.table b y) → y < t.tables.size := by
    intro p b y h
    have := hs₂.link_lt h
    by_cases hy : y = t.tables.size
    · subst hy
      rw [hslot₂] at h
      split_ifs at h with hp
      · exact absurd (hs.noted_lt (hc.noted b _ h)) (lt_irrefl _)
      · rw [slot_push ht₁] at h
        split_ifs at h
        exact absurd (hs.link_lt h) (lt_irrefl _)
    · omega
  refine ⟨hs₂, ⟨by omega, fun b m hm => ?_, fun b m hm h => ?_,
      fun m hm => by unfold tableSize; rw [hold₂ m hm]⟩, by omega, hold₂, ?_,
    fun p b h => ?_, ?_, fun i hi k => ?_, fun i b y hi h => ?_, fun p b y hp h => ?_,
    fun p q b c y hy hp _ => ?_⟩
  · rw [hof₂]; exact (mem_tablesOf_push hk₁).2 (.inl hm)
  · rw [hof₂] at h
    rcases (mem_tablesOf_push hk₁).1 h with h | ⟨-, rfl⟩
    · exact h
    · exact absurd hm (lt_irrefl _)
  · rw [hof₂]; exact hnoted₁
  · exact absurd (hlinks p b _ h) (lt_irrefl _)
  · rw [hslot₂, if_pos rfl]
  · obtain rfl : i = 0 := by omega
    rw [hslot₂, if_pos rfl]
    exact hs.walk_old hold₂ (fun b m he => hs.noted_lt (hc.noted b m he)) k _
  · rw [hslot₂, if_neg (by simp; omega), slot_push ht₁, if_pos rfl] at h
    cases h
  · rw [slot_of_size_le (by omega)] at h; cases h
  · exact absurd (hlinks p b y hp) (by omega)

/-- one more slot of the new table filled with a fresh copy of `cur` -/
theorem pushing_step {v v' v'' : Trie} {j : Nat} {y : Option Slot} (hs : t.Shaped)
    (hc : Pushable t a cur) (hp : Pushing t a cur v j) (hj0 : 0 < j) (hj : j < a.length)
    (h₁ : (copySlot 7 cur).run v = .ok y v')
    (h₂ : (setSlot t.tables.size j y).run v' = .ok () v'') : Pushing t a cur v'' (j + 1) := by
  have hvfresh : t.tables.size < v.tables.size := hp.size_lt
  obtain ⟨hs', ha, hcopy⟩ := copySlot_ok 7 h₁ hp.shaped fun b m he =>
    ⟨hp.grows.noted_mono b m (hc.noted b m he), by omega⟩
  obtain ⟨ht'', hk''⟩ := setSlot_ok h₂
  have hw' : v'.tableSize t.tables.size = some a.length := by
    rw [tableSize, ha.old _ hvfresh]
    exact (hp.shaped.noted_table a _ hp.noted).2
  have hslot'' := slot_setSlot ht'' hw' hj
  have hof'' : ∀ b, v''.tablesOf b = v'.tablesOf b := fun b => by unfold tablesOf; rw [hk'']
  have hnoted' : t.tables.size ∈ v'.tablesOf a := ha.noted_mono a _ hp.noted
  -- the copy leads to a table added by the copy, of `cur`'s kind
  have hy_link : ∀ b m, y = some (.table b m) →
      v.tables.size ≤ m ∧ m ∈ v'.tablesOf b ∧ a.Above b ∧ ∀ p c, v'.slot p ≠ some (.table c m) := by
    intro b m he
    by_cases hl : ∃ b' n, cur = some (.table b' n)
    · obtain ⟨b', n, hcn⟩ := hl
      obtain ⟨m', he', hle, hm', hfr⟩ := hcopy.link b' n hcn
      rw [he] at he'; cases he'
      exact ⟨hle, hm', hc.above _ n hcn, hfr⟩
    · simp only [not_exists] at hl
      rw [hcopy.plain hl] at he; exact absurd he (hl b m)
  -- reading `v''` off the new table's slot `j` is reading `v'`, and below `v.tables.size`
  -- reading `v`
  have hread : ∀ q, q ≠ (t.tables.size, j) → q.1 < v.tables.size → v''.slot q = v.slot q :=
    fun q hq hq' => by rw [hslot'', if_neg hq, ha.slot_old hq']
  have hs'' : v''.Shaped := by
    refine hs'.setSlot ht'' hk'' hw' hj fun b m he => ?_
    obtain ⟨-, hm, habove, -⟩ := hy_link b m he
    refine ⟨hm, fun h0 => absurd h0 (Nat.pos_iff_ne_zero.1 hs.size_pos), fun a' ha' => ?_⟩
    rw [hs'.noted_once a' a _ ha' hnoted']
    exact habove
  -- the tables below `v.tables.size` other than the new one are read alike in `v` and `v''`
  have hframe : ∀ s : Option Slot, (∀ b m, s = some (.table b m) →
      m < v.tables.size ∧ m ≠ t.tables.size) → ∀ k ks, v''.walk k ks s = v.walk k ks s := by
    intro s hs_in k ks
    refine walk_congr (S := fun m => m < v.tables.size ∧ m ≠ t.tables.size)
      (fun m hm j' b m' h => ⟨hp.shaped.link_lt h, ?_⟩) (fun m hm j' => ?_) ks hs_in
    · rintro rfl; exact hp.free _ b h
    · exact hread (m, j') (by simp [hm.2]) hm.1
  refine ⟨hs'', hp.grows.trans (ha.grows.trans ⟨le_of_eq (by rw [ht'', Array.size_modify]),
      fun b m h => (hof'' b).symm ▸ h, fun b m _ h => hof'' b ▸ h,
      fun m _ => tableSize_setSlot ht'' m⟩),
    by rw [ht'', Array.size_modify]; exact lt_of_lt_of_le hvfresh ha.size_le,
    fun m hm => ?_, (hof'' a).symm ▸ hnoted', fun q b hq => ?_, ?_, fun i hi k => ?_,
    fun i b y' hi hq => ?_, fun q b y' hq h => ?_, fun q q' b c y' hy hq hq' => ?_⟩
  · rw [ht'', Array.getElem?_modify, if_neg (Nat.ne_of_gt hm), ha.old m (lt_trans hm hvfresh),
      hp.old m hm]
  · -- nothing links to the new table
    rw [hslot''] at hq
    split_ifs at hq with hqj
    · have := (hy_link b _ hq).1; omega
    · rcases Nat.lt_or_ge q.1 v.tables.size with hq1 | hq1
      · rw [ha.slot_old hq1] at hq; exact hp.free q b hq
      · have := ha.closed q b _ hq1 hq; omega
  · rw [hread _ (by simp; omega) hvfresh]; exact hp.first
  · rcases Nat.lt_or_ge i j with hij | hij
    · -- an earlier slot: still read as in `v`
      rw [hread _ (by simp; omega) hvfresh, hframe _ (fun b m he => ⟨hp.shaped.link_lt he,
        fun hm => hp.free _ b (hm ▸ he)⟩) k, hp.filled i hij k]
    · -- the slot just filled: a fresh copy of `cur`
      obtain rfl : i = j := by omega
      rw [hslot'', if_pos rfl]
      have hnew : ∀ b m, y = some (.table b m) → v.tables.size ≤ m :=
        fun b m he => (hy_link b m he).1
      rw [ha.walk_new (v := v'') (fun m j' hm => by rw [hslot'', if_neg (by simp; omega)])
        hnew, hcopy.walk k _ hc.enters]
      exact hs.walk_old hp.old (fun b m he => hs.noted_lt (hc.noted b m he)) k _
  · rw [hslot''] at hq
    split_ifs at hq with hqj
    · have := (hy_link b y' hq).1; omega
    · rw [ha.slot_old hvfresh] at hq
      exact hp.copies_new i b y' hi hq
  · rw [hslot''] at h
    split_ifs at h with hqj
    · rw [hqj] at hq; exact absurd hq (lt_irrefl _)
    · rcases Nat.lt_or_ge q.1 v.tables.size with hq1 | hq1
      · rw [ha.slot_old hq1] at h; exact hp.closed q b y' hq h
      · have := ha.closed q b y' hq1 h; omega
  · -- a link of `v''` is the new copy, unlinked elsewhere, or as in `v'`
    rw [hslot''] at hq hq'
    split_ifs at hq hq' with h1 h2 h2
    · rw [h1, h2]
    · obtain ⟨-, -, -, hfr⟩ := hy_link b y' hq; exact absurd hq' (hfr q' c)
    · obtain ⟨-, -, -, hfr⟩ := hy_link c y' hq'; exact absurd hq (hfr q b)
    · rcases Nat.lt_or_ge q.1 v.tables.size with hq1 | hq1 <;>
        rcases Nat.lt_or_ge q'.1 v.tables.size with hq1' | hq1'
      · rw [ha.slot_old hq1] at hq; rw [ha.slot_old hq1'] at hq'
        exact hp.once q q' b c y' hy hq hq'
      · rw [ha.slot_old hq1] at hq
        exact absurd (ha.closed q' c y' hq1' hq') (Nat.not_le.2 (hp.shaped.link_lt hq))
      · rw [ha.slot_old hq1'] at hq'
        exact absurd (ha.closed q b y' hq1 hq) (Nat.not_le.2 (hp.shaped.link_lt hq'))
      · exact ha.once q q' b c y' hq1 hq1' hq hq'

/-- the remaining slots of the new table filled with fresh copies of `cur`, one by one -/
theorem pushing_forM (hs : t.Shaped) (hc : Pushable t a cur) (n : Nat) :
    ∀ {j : Nat} {v w : Trie}, Pushing t a cur v j → 0 < j → j + n ≤ a.length →
      ((List.range' j n).forM fun i => do setSlot t.tables.size i (← copySlot 7 cur)).run v =
        .ok () w → Pushing t a cur w (j + n) := by
  induction n with
  | zero =>
    intro j v w hp _ _ h
    obtain ⟨-, rfl⟩ := TrieM.pure_ok h
    exact hp
  | succ n ih =>
    intro j v w hp hj0 hjn h
    simp only [List.range'_succ] at h
    obtain ⟨⟨⟩, v₁, h₁, hr⟩ := TrieM.bind_ok h
    obtain ⟨y, v', hcopy, hset⟩ := TrieM.bind_ok h₁
    have hp₁ := pushing_step hs hc hp hj0 (by omega) hcopy hset
    rw [show j + (n + 1) = j + 1 + n by omega]
    exact ih hp₁ (by omega) (by omega) hr

end Pushing

/-- **Pushing a table in.** `pushDown` puts a new table of kind `a` into a slot holding
anything but a table of kind `a`. The trie keeps its shape and its links stay single. Only
that slot changes among the old ones, and every slot of the new table walks, over the levels
after `a`, as the old content did. -/
theorem pushDown_ok {a : TableKind} {num i n : Nat} {cur : Option Slot}
    (hcur : t.slot (num, i) = cur) (h : (pushDown a num i cur).run t = .ok n u)
    (hs : t.Shaped) (ho : t.LinksOnce) (hr : PushReady t a (num, i))
    (hne : ∀ m, cur ≠ some (.table a m)) :
    u.Shaped ∧ u.LinksOnce ∧ n = t.tables.size ∧ u.slot (num, i) = some (.table a n) ∧
      Grows t u ∧ (∀ p, p.1 < t.tables.size → p ≠ (num, i) → u.slot p = t.slot p) ∧
      ∀ j < a.length, ∀ k, u.walk k (after a) (u.slot (n, j)) = t.walk k (after a) cur := by
  unfold pushDown at h
  obtain ⟨fresh, t₁, h₁, hr₁⟩ := TrieM.bind_ok h
  obtain ⟨hfresh, -, -⟩ := addTable_ok h₁
  subst hfresh
  obtain ⟨⟨⟩, t₂, h₂, hr₂⟩ := TrieM.bind_ok hr₁
  obtain ⟨⟨⟩, t₃, h₃, hr₃⟩ := TrieM.bind_ok hr₂
  obtain ⟨⟨⟩, t₄, h₄, hr₄⟩ := TrieM.bind_ok hr₃
  obtain ⟨hn, hu⟩ := TrieM.pure_ok hr₄
  subst hn hu
  have hc : Pushable t a cur := ⟨fun b m he => hs.link_noted _ b m (hcur ▸ he), fun b m he =>
    (hr.holds b m (hcur ▸ he)).resolve_left fun hb => hne m (hb ▸ he)⟩
  have hp₃ := pushing_forM hs hc (a.length - 1) (pushing_start hs hc h₁ h₂) (by omega)
    (by have := a.four_le_length; omega) h₃
  rw [show 1 + (a.length - 1) = a.length by have := a.four_le_length; omega] at hp₃
  -- the last write links the slot to the new table
  obtain ⟨w, hw, hi⟩ := hr.in_table
  have hnum : num < t.tables.size := lt_size_of_tableSize hw
  have hw₃ : t₃.tableSize num = some w := by rw [tableSize, hp₃.old num hnum]; exact hw
  obtain ⟨htu, hku⟩ := setSlot_ok h₄
  have hslotu := slot_setSlot htu hw₃ hi
  have hofu : ∀ b, u.tablesOf b = t₃.tablesOf b := fun b => by unfold tablesOf; rw [hku]
  have hnum_noted : ∀ b, num ∈ t₃.tablesOf b → b.Above a := fun b hb =>
    hr.fits b (hp₃.grows.noted_old b num hnum hb)
  -- a link of `t₃` to an old table stands in an old slot or is `cur` in the new table's first
  have hold_link : ∀ p b y, t₃.slot p = some (.table b y) → y < t.tables.size →
      (p.1 < t.tables.size ∧ t.slot p = some (.table b y)) ∨
        (p = (t.tables.size, 0) ∧ cur = some (.table b y)) := by
    intro p b y hp hy
    rcases lt_trichotomy p.1 t.tables.size with hp1 | hp1 | hp1
    · exact .inl ⟨hp1, by rwa [slot_congr (hp₃.old _ hp1)] at hp⟩
    · obtain ⟨p1, p2⟩ := p
      simp only at hp1
      subst hp1
      rcases Nat.eq_zero_or_pos p2 with h0 | h0
      · subst h0; exact .inr ⟨rfl, hp₃.first ▸ hp⟩
      · exact absurd (hp₃.copies_new p2 b y h0 hp) (by omega)
    · exact absurd (hp₃.closed p b y hp1 hp) (by omega)
  refine ⟨hp₃.shaped.setSlot htu hku hw₃ hi fun b m he => ?_, fun p q b c y hp hq => ?_,
    rfl, by rw [hslotu, if_pos rfl], hp₃.grows.trans ⟨by rw [htu, Array.size_modify],
      fun b m hm => (hofu b).symm ▸ hm, fun b m _ hm => hofu b ▸ hm,
      fun m _ => tableSize_setSlot htu m⟩,
    fun p hp hpf => ?_, fun j hj k => ?_⟩
  · cases he
    exact ⟨hp₃.noted, hr.fits_root, hnum_noted⟩
  · -- links stay single: the slot leads to the new table, which nothing else links to
    rw [hslotu] at hp hq
    split_ifs at hp hq with h1 h2 h2
    · rw [h1, h2]
    · cases hp; exact absurd hq (hp₃.free q c)
    · cases hq; exact absurd hp (hp₃.free p b)
    · rcases lt_trichotomy y t.tables.size with hy | hy | hy
      · rcases hold_link p b y hp hy with ⟨hp1, hp'⟩ | ⟨rfl, hpc⟩ <;>
          rcases hold_link q c y hq hy with ⟨hq1, hq'⟩ | ⟨rfl, hqc⟩
        · exact ho p q b c y hp' hq'
        · exact absurd (ho p (num, i) b c y hp' (hcur ▸ hqc)) h1
        · exact absurd (ho q (num, i) c b y hq' (hcur ▸ hpc)) h2
        · rfl
      · subst hy; exact absurd hp (hp₃.free p b)
      · exact hp₃.once p q b c y hy hp hq
  · rw [hslotu, if_neg hpf]; exact slot_congr (hp₃.old _ hp)
  · -- the new table's slots read only tables of kinds after `a`, which the write leaves alone
    have hfresh_num : (t.tables.size, j) ≠ (num, i) := by simp; omega
    rw [hslotu, if_neg hfresh_num, ← hp₃.filled j hj k]
    refine walk_congr (S := fun m => ∃ b, m ∈ t₃.tablesOf b ∧ a.rank < b.rank)
      (fun m ⟨b, hm, hb⟩ j' b' m' h => ⟨b', hp₃.shaped.link_noted _ b' m' h,
        lt_trans hb (hp₃.shaped.link_above b m j' b' m' hm h).1⟩)
      (fun m ⟨b, hm, hb⟩ j' => ?_) _ fun b y he =>
        ⟨b, hp₃.shaped.link_noted _ b y he, (hp₃.shaped.link_above a _ j b y hp₃.noted he).1⟩
    rw [hslotu, if_neg]
    rintro ⟨⟩
    exact absurd (hnum_noted b hm).1 (Nat.lt_asymm hb)

/-- **Descending a level.** `descend` leads slot `(num, i)` to a table of kind `a`: the one it
holds, or a new one. The trie keeps its shape and its links stay single, and only that slot
changes among the old ones. For every key, walking on from the table over the levels after
`a` is walking on from the slot's old content. -/
theorem descend_ok {a : TableKind} {num i n : Nat}
    (h : (descend a num i (t.slot (num, i))).run t = .ok n u)
    (hs : t.Shaped) (ho : t.LinksOnce) (hr : PushReady t a (num, i)) :
    u.Shaped ∧ u.LinksOnce ∧ u.slot (num, i) = some (.table a n) ∧ Grows t u ∧
      (∀ p, p.1 < t.tables.size → p ≠ (num, i) → u.slot p = t.slot p) ∧
      (t.slot (num, i) = some (.table a n) ∨ t.tables.size ≤ n) ∧
      ∀ k, k.Valid → u.walk k (after a) (u.slot (n, k.index a)) =
        t.walk k (after a) (t.enter k a (t.slot (num, i))) := by
  obtain ⟨w, hw, hi⟩ := hr.in_table
  have hnum : num < t.tables.size := lt_size_of_tableSize hw
  rcases hcur : t.slot (num, i) with _ | (d | d | ⟨b, m⟩)
  · -- an empty slot gets a new empty table
    rw [hcur] at h
    simp only [descend] at h
    obtain ⟨fresh, t₁, h₁, hr₁⟩ := TrieM.bind_ok h
    obtain ⟨hfresh, ht₁, hk₁⟩ := addTable_ok h₁
    subst hfresh
    obtain ⟨⟨⟩, t₂, h₂, hr₂⟩ := TrieM.bind_ok hr₁
    obtain ⟨hn, hu⟩ := TrieM.pure_ok hr₂
    subst hn hu
    obtain ⟨htu, hku⟩ := setSlot_ok h₂
    have hw₁ : t₁.tableSize num = some w := by rw [tableSize_push ht₁, if_neg hnum.ne]; exact hw
    have hslotu := slot_setSlot htu hw₁ hi
    have hslot₁ := slot_push ht₁
    have hs₁ := hs.push ht₁ hk₁
    have hnoted₁ : t.tables.size ∈ t₁.tablesOf a := (mem_tablesOf_push hk₁).2 (.inr ⟨rfl, rfl⟩)
    -- a link of `u` other than the new one is a link of `t`
    have hlink_t : ∀ p b y, p ≠ (num, i) → u.slot p = some (.table b y) →
        t.slot p = some (.table b y) := by
      intro p b y hp hpy
      rw [hslotu, if_neg hp, hslot₁] at hpy
      split_ifs at hpy
      exact hpy
    refine ⟨hs₁.setSlot htu hku hw₁ hi fun b y he => ?_, fun p q b c y hp hq => ?_,
      by rw [hslotu, if_pos rfl], ⟨by rw [htu, Array.size_modify, ht₁, Array.size_push]; omega,
        fun b m hm => ?_, fun b m hm hm' => ?_,
        fun m hm => by rw [tableSize_setSlot htu, tableSize_push ht₁, if_neg hm.ne]⟩,
      fun p hp hpf => ?_, .inr le_rfl,
      fun k hk => ?_⟩
    · cases he
      refine ⟨hnoted₁, hr.fits_root, fun b hb => hr.fits b ?_⟩
      rcases (mem_tablesOf_push hk₁).1 hb with hb | ⟨-, h⟩
      · exact hb
      · exact absurd h hnum.ne
    · by_cases hp' : p = (num, i) <;> by_cases hq' : q = (num, i)
      · rw [hp', hq']
      · rw [hp', hslotu, if_pos rfl] at hp
        cases hp
        exact absurd (hs.link_lt (hlink_t q c _ hq' hq)) (lt_irrefl _)
      · rw [hq', hslotu, if_pos rfl] at hq
        cases hq
        exact absurd (hs.link_lt (hlink_t p b _ hp' hp)) (lt_irrefl _)
      · exact ho p q b c y (hlink_t p b y hp' hp) (hlink_t q c y hq' hq)
    · unfold tablesOf; rw [hku]; exact (mem_tablesOf_push hk₁).2 (.inl hm)
    · unfold tablesOf at hm'; rw [hku] at hm'
      rcases (mem_tablesOf_push hk₁).1 hm' with h | ⟨-, rfl⟩
      · exact h
      · exact absurd hm (lt_irrefl _)
    · rw [hslotu, if_neg hpf, hslot₁, if_neg hp.ne]
    · rw [hslotu, if_neg (by simp; omega), hslot₁, if_pos rfl]
      simp [enter]
  · -- an instruction is pushed down
    rw [hcur] at h
    obtain ⟨hsu, hou, rfl, hslot, hg, hold, hwalk⟩ :=
      pushDown_ok hcur h hs ho hr (fun _ h => by cases h)
    exact ⟨hsu, hou, hslot, hg, hold, .inr le_rfl, fun k hk => hwalk _ (hk.index_lt a) k⟩
  · rw [hcur] at h
    obtain ⟨hsu, hou, rfl, hslot, hg, hold, hwalk⟩ :=
      pushDown_ok hcur h hs ho hr (fun _ h => by cases h)
    exact ⟨hsu, hou, hslot, hg, hold, .inr le_rfl, fun k hk => hwalk _ (hk.index_lt a) k⟩
  · rw [hcur] at h
    by_cases hb : b = a
    · -- a table of the level's kind is entered as it is
      subst hb
      simp only [descend] at h
      obtain ⟨rfl, rfl⟩ := TrieM.pure_ok h
      exact ⟨hs, ho, hcur, Grows.refl _, fun _ _ _ => rfl, .inl rfl, fun k _ => by simp⟩
    · -- a table of another kind is pushed down
      simp only [descend, if_neg hb] at h
      obtain ⟨hsu, hou, rfl, hslot, hg, hold, hwalk⟩ :=
        pushDown_ok hcur h hs ho hr (fun _ h => by cases h; exact hb rfl)
      refine ⟨hsu, hou, hslot, hg, hold, .inr le_rfl, fun k hk => ?_⟩
      rw [hwalk _ (hk.index_lt a) k, enter_table, if_neg hb]

/-- entering a level's table at a slot changes no key's lookup -/
theorem descend_lookup {a : TableKind} {num i n : Nat}
    (h : (descend a num i (t.slot (num, i))).run t = .ok n u)
    (hs : t.Shaped) (ho : t.LinksOnce) (hr : PushReady t a (num, i)) {k : TableKey}
    (hk : k.Valid) (r : Nat) : u.lookup r k = t.lookup r k := by
  obtain ⟨-, -, hslot, -, hold, -, hwalk⟩ := descend_ok h hs ho hr
  refine hs.lookup_congr_at (q := (num, i)) (c := a) (fun x hx hne => hold x hx hne)
    (fun b hb => (hr.fits b hb).1) (fun j hj => ?_) r
  -- the old content links to the level's kind or a later one
  have henter : Enters a.rank (t.slot (num, i)) := fun b m he => by
    rcases hr.holds b m he with rfl | hab
    · exact le_rfl
    · exact hab.1.le
  rw [hslot, walk_table hj, walk_enter hj henter]
  exact hwalk k hk

end X86Codec.Trie
