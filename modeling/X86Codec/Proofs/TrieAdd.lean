import X86Codec.Proofs.TrieCopy
/-!
Adding a path to the trie: what entering one level does, the frontier after each level, and the
lookups after the descriptor is stored.

Entering a level of kind `c` takes each frontier position in turn. A position is kept when the
path skips the level and no table of `c` is there (nor was one at an earlier position). Otherwise
the table of `c` that the position leads to is made or pushed in, and its slots for the level
join the new frontier. `Entered` says what that does (`enterLevel_ok`): no key's lookup changes,
only frontier slots change among the old ones, and the new frontier is the kept positions
followed by the slots of the entered tables.

`Stage` is the invariant after the first `j` levels. Its main clause, `Stage.front`, says that
a key's walk over those levels, from a root slot, ends in the frontier exactly when the root slot
is the path's and the path admits the key on those levels. At the end the frontier slots hold no
links, and storing the descriptor there (`fill_ok`) changes exactly the lookups of the keys the
path admits under its root slot (`add_lookup`).
-/

namespace X86Codec.Trie

variable {t u v w : Trie}

/-! ## One level -/

/-- the slots a level takes in each table it enters: its own list, or every slot when the path
skips the level -/
def levelSlots (c : TableKind) (elem : Option (List Nat)) : List Nat :=
  elem.getD (List.range c.length)

/-- a frontier position as the trie's updates name it -/
def atInt (x : Nat × Nat) : Nat × Int := (x.1, x.2)

theorem takenSlots_none {c : TableKind} {elem : Option (List Int)} {s : Option Slot}
    (h : takenSlots c elem s = none) : elem = none ∧ ∀ m, s ≠ some (.table c m) := by
  rcases elem with _ | es
  · refine ⟨rfl, fun m he => ?_⟩
    subst he
    simp [takenSlots] at h
  · simp [takenSlots] at h

/-- a level takes its own slots, or all of them once a table of its kind was met -/
theorem takenSlots_some {c : TableKind} {orig : Option (List Nat)} {elem : Option (List Int)}
    {s : Option Slot} {es : List Int}
    (helem : elem = orig.map (·.map Int.ofNat) ∨
      elem = some ((levelSlots c orig).map Int.ofNat))
    (h : takenSlots c elem s = some es) : es = (levelSlots c orig).map Int.ofNat := by
  rcases elem with _ | es'
  · have horig : orig = none := by
      rcases helem with h' | h'
      · exact Option.map_eq_none_iff.1 h'.symm
      · cases h'
    subst horig
    rcases s with _ | (_ | _ | ⟨b, m⟩) <;> simp only [takenSlots, reduceCtorEq] at h
    split_ifs at h
    cases h
    rfl
  · simp only [takenSlots, Option.some.injEq] at h
    subst h
    rcases helem with h' | h'
    · obtain ⟨o, rfl, ho⟩ := Option.map_eq_some_iff.1 h'.symm
      simp [levelSlots, ho]
    · exact Option.some.inj h'

/-- a position where a table of kind `c` may go: `c` comes after the kind of the position's
table, and after the kind of what the position links to unless that is `c` -/
structure Fits (v : Trie) (c : TableKind) (x : Nat × Nat) : Prop where
  root : x.1 = 0 → c = .root
  above : ∀ b, x.1 ∈ v.tablesOf b → b.Above c
  holds : ∀ b m, v.slot x = some (.table b m) → b = c ∨ c.Above b

/-- the frontier is ready for a level of kind `c`: first positions that the level keeps, as the
path skips it and they hold no table of `c`, then positions where a table of `c` may go -/
def Ready (v : Trie) (c : TableKind) (elem : Option (List Int)) (G : List (Nat × Nat)) : Prop :=
  ∃ A B, G = A ++ B ∧ (∀ x ∈ A, elem = none ∧ ∀ m, v.slot x ≠ some (.table c m)) ∧
    ∀ x ∈ B, Fits v c x

/-- a frontier stays ready without its first position -/
theorem Ready.tail {c : TableKind} {elem : Option (List Int)} {q : Nat × Nat}
    {rest : List (Nat × Nat)} (h : Ready v c elem (q :: rest)) : Ready v c elem rest := by
  obtain ⟨A, B, hAB, hA, hB⟩ := h
  rcases A with _ | ⟨a, A'⟩
  · rw [List.nil_append] at hAB
    subst hAB
    exact ⟨[], rest, rfl, by simp, fun x hx => hB x (List.mem_cons_of_mem q hx)⟩
  · obtain ⟨-, hrest⟩ := List.cons.inj hAB
    exact ⟨A', B, hrest, fun x hx => hA x (List.mem_cons_of_mem a hx), hB⟩

/-- when the first position takes slots of the level, the level keeps no position: every
position fits a table of the level -/
theorem Ready.fits_of_taken {c : TableKind} {elem : Option (List Int)} {q : Nat × Nat}
    {rest : List (Nat × Nat)} {es : List Int} (h : Ready v c elem (q :: rest))
    (htk : takenSlots c elem (v.slot q) = some es) : ∀ x ∈ q :: rest, Fits v c x := by
  obtain ⟨A, B, hAB, hA, hB⟩ := h
  -- a position the level keeps cannot lead to a table of its kind
  have hA0 : A = [] := by
    rcases A with _ | ⟨a, A'⟩
    · rfl
    · obtain ⟨hqa, -⟩ := List.cons.inj hAB
      rw [← hqa] at hA
      obtain ⟨hnone, hfree⟩ := hA q List.mem_cons_self
      subst hnone
      rcases hq : v.slot q with _ | (_ | _ | ⟨b, m⟩) <;> rw [hq] at htk <;>
        simp only [takenSlots, reduceCtorEq] at htk
      split_ifs at htk with hb
      exact absurd (hb ▸ hq) (hfree m)
  subst hA0
  rw [List.nil_append] at hAB
  exact fun x hx => hB x (hAB ▸ hx)

/-- a position fits as before in a grown trie where its slot stays -/
theorem Fits.of_grows {c : TableKind} {x : Nat × Nat} (hf : Fits v c x) (hg : Grows v w)
    (hx : x.1 < v.tables.size) (hslot : w.slot x = v.slot x) : Fits w c x := by
  refine ⟨hf.root, fun b hb => hf.above b (hg.noted_old b x.1 hx hb), fun b m hm => ?_⟩
  rw [hslot] at hm
  exact hf.holds b m hm

/-- an old position outside the tables of a kind stays outside them as the trie grows -/
theorem Grows.off_kind {c : TableKind} {x : Nat × Nat} (hg : Grows v w)
    (hx : x.1 < v.tables.size ∧ x.1 ∉ v.tablesOf c) : x.1 < w.tables.size ∧ x.1 ∉ w.tablesOf c :=
  ⟨Nat.lt_of_lt_of_le hx.1 hg.size_le, fun h => hx.2 (hg.noted_old c x.1 hx.1 h)⟩

/-- what entering a level of kind `c` did, from trie `v` and frontier `G` to trie `w` and
frontier `G'`; `orig` is the level's slot list in the path, `elem` the one the entering
started with -/
structure Entered (v w : Trie) (c : TableKind) (orig : Option (List Nat))
    (elem : Option (List Int)) (G G' : List (Nat × Nat)) : Prop where
  shaped : w.Shaped
  once : w.LinksOnce
  grows : Grows v w
  lookup : ∀ r k, k.Valid → w.lookup r k = v.lookup r k
  keep : ∀ x, x.1 < v.tables.size → x ∉ G → w.slot x = v.slot x
  done : ∀ x ∈ G, (∃ m, w.slot x = some (.table c m) ∧
      (v.slot x = some (.table c m) ∨ v.tables.size ≤ m)) ∨
    (elem = none ∧ w.slot x = v.slot x ∧ ∀ m, v.slot x ≠ some (.table c m))
  mem : ∀ x, x ∈ G' ↔ (x ∈ G ∧ ∀ m, w.slot x ≠ some (.table c m)) ∨
    ∃ q ∈ G, w.slot q = some (.table c x.1) ∧ x.2 ∈ levelSlots c orig
  split : ∃ A B, G' = A ++ B ∧ (∀ x ∈ A, x ∈ G) ∧
    (∀ x ∈ B, ∃ q ∈ G, w.slot q = some (.table c x.1)) ∧ (elem ≠ none → A = [])
  nodup : G'.Nodup

section Entered

variable {c : TableKind} {orig : Option (List Nat)} {elem : Option (List Int)}

theorem Entered.nil (hs : v.Shaped) (ho : v.LinksOnce) : Entered v v c orig elem [] [] where
  shaped := hs
  once := ho
  grows := Grows.refl v
  lookup _ _ _ := rfl
  keep _ _ _ := rfl
  done _ h := by cases h
  mem _ := by simp
  split := ⟨[], [], rfl, by simp, by simp, fun _ => rfl⟩
  nodup := List.nodup_nil

/-- a new-frontier position past the old tables' positions lies in a table of kind `c` -/
theorem Entered.not_mem_of_noted {G G' : List (Nat × Nat)}
    (he : Entered v w c orig elem G G') {q : Nat × Nat} (hq : q.1 < v.tables.size ∧ q.1 ∉ v.tablesOf c) (hqG : q ∉ G) : q ∉ G' := by
  intro hmem
  rcases (he.mem q).1 hmem with ⟨hqG', -⟩ | ⟨y, -, hy, -⟩
  · exact hqG hqG'
  · exact hq.2 (he.grows.noted_old c q.1 hq.1 (he.shaped.link_noted _ c q.1 hy))

/-- a kept first position: the new frontier starts with it -/
theorem Entered.cons_kept {q : Nat × Nat} {rest G' : List (Nat × Nat)}
    (he : Entered v w c orig elem rest G') (hnd : (q :: rest).Nodup)
    (hG : ∀ x ∈ q :: rest, x.1 < v.tables.size ∧ x.1 ∉ v.tablesOf c)
    (helem : elem = none) (hfree : ∀ m, v.slot q ≠ some (.table c m)) :
    Entered v w c orig elem (q :: rest) (q :: G') := by
  have hqr : q ∉ rest := (List.nodup_cons.1 hnd).1
  have hq := hG q List.mem_cons_self
  have hslot : w.slot q = v.slot q := he.keep q hq.1 hqr
  have hfree' : ∀ m, w.slot q ≠ some (.table c m) := hslot ▸ hfree
  refine ⟨he.shaped, he.once, he.grows, he.lookup, fun x hx hxG => ?_, fun x hxG => ?_,
    fun x => ?_, ?_, ?_⟩
  · exact he.keep x hx fun h => hxG (List.mem_cons_of_mem q h)
  · rcases List.mem_cons.1 hxG with rfl | hxr
    · exact .inr ⟨helem, hslot, hfree⟩
    · exact he.done x hxr
  · rw [List.mem_cons, he.mem x]
    constructor
    · rintro (rfl | (⟨hx, hxf⟩ | ⟨y, hy, hyx, hxs⟩))
      · exact .inl ⟨List.mem_cons_self, hfree'⟩
      · exact .inl ⟨List.mem_cons_of_mem q hx, hxf⟩
      · exact .inr ⟨y, List.mem_cons_of_mem q hy, hyx, hxs⟩
    · rintro (⟨hx, hxf⟩ | ⟨y, hy, hyx, hxs⟩)
      · rcases List.mem_cons.1 hx with rfl | hx
        · exact .inl rfl
        · exact .inr (.inl ⟨hx, hxf⟩)
      · rcases List.mem_cons.1 hy with rfl | hy
        · exact absurd hyx (hfree' _)
        · exact .inr (.inr ⟨y, hy, hyx, hxs⟩)
  · obtain ⟨A, B, hAB, hA, hB, -⟩ := he.split
    refine ⟨q :: A, B, by rw [hAB]; rfl, fun x hx => ?_, fun x hx => ?_, fun h => absurd helem h⟩
    · rcases List.mem_cons.1 hx with rfl | hx
      · exact List.mem_cons_self
      · exact List.mem_cons_of_mem q (hA x hx)
    · obtain ⟨y, hy, hyx⟩ := hB x hx
      exact ⟨y, List.mem_cons_of_mem q hy, hyx⟩
  · exact List.nodup_cons.2 ⟨he.not_mem_of_noted hq hqr, he.nodup⟩

/-- a first position entered: the new frontier starts with the slots the level takes in the
table `n` it leads to -/
theorem Entered.cons_descended {q : Nat × Nat} {rest G' : List (Nat × Nat)} {n : Nat}
    {v₁ : Trie} {es : List Int}
    (he : Entered v₁ w c orig (some es) rest G') (hnd : (q :: rest).Nodup)
    (hsl : (levelSlots c orig).Nodup)
    (hG : ∀ x ∈ q :: rest, x.1 < v.tables.size ∧ x.1 ∉ v.tablesOf c)
    (hslot : v₁.slot q = some (.table c n)) (hg : Grows v v₁)
    (hold : ∀ x, x.1 < v.tables.size → x ≠ q → v₁.slot x = v.slot x)
    (hnew : v.slot q = some (.table c n) ∨ v.tables.size ≤ n)
    (hlk : ∀ r k, k.Valid → v₁.lookup r k = v.lookup r k) :
    Entered v w c orig elem (q :: rest) ((levelSlots c orig).map (fun e => (n, e)) ++ G') := by
  have hqr : q ∉ rest := (List.nodup_cons.1 hnd).1
  have hq := hG q List.mem_cons_self
  have hslotw : w.slot q = some (.table c n) := by
    rw [he.keep q (Nat.lt_of_lt_of_le hq.1 hg.size_le) hqr, hslot]
  have hrest : ∀ x ∈ rest, v₁.slot x = v.slot x := fun x hx =>
    hold x (hG x (List.mem_cons_of_mem q hx)).1 fun h => hqr (h ▸ hx)
  refine ⟨he.shaped, he.once, hg.trans he.grows, fun r k hk => (he.lookup r k hk).trans
    (hlk r k hk), fun x hx hxG => ?_, fun x hxG => ?_, fun x => ?_, ?_, ?_⟩
  · have hxq : x ≠ q := fun h => hxG (h ▸ List.mem_cons_self)
    rw [he.keep x (Nat.lt_of_lt_of_le hx hg.size_le) fun h => hxG (List.mem_cons_of_mem q h),
      hold x hx hxq]
  · rcases List.mem_cons.1 hxG with rfl | hxr
    · exact .inl ⟨n, hslotw, hnew⟩
    · rcases he.done x hxr with ⟨m, hm, hm'⟩ | ⟨h, -⟩
      · refine .inl ⟨m, hm, ?_⟩
        rw [← hrest x hxr]
        exact hm'.imp id fun h => Nat.le_trans hg.size_le h
      · cases h
  · simp only [List.mem_append, List.mem_map, he.mem x, List.mem_cons]
    constructor
    · rintro (⟨e, he', rfl⟩ | (⟨hx, hxf⟩ | ⟨y, hy, hyx, hxs⟩))
      · exact .inr ⟨q, .inl rfl, hslotw, he'⟩
      · exact .inl ⟨.inr hx, hxf⟩
      · exact .inr ⟨y, .inr hy, hyx, hxs⟩
    · rintro (⟨hx | hx, hxf⟩ | ⟨y, hy | hy, hyx, hxs⟩)
      · subst hx; exact absurd hslotw (hxf n)
      · exact .inr (.inl ⟨hx, hxf⟩)
      · subst hy
        rw [hslotw] at hyx
        obtain ⟨x1, x2⟩ := x
        cases hyx
        exact .inl ⟨x2, hxs, rfl⟩
      · exact .inr (.inr ⟨y, hy, hyx, hxs⟩)
  · obtain ⟨A, B, hAB, -, hB, hA⟩ := he.split
    obtain rfl := hA (Option.some_ne_none es)
    refine ⟨[], _ ++ G', rfl, by simp, fun x hx => ?_, fun _ => rfl⟩
    rcases List.mem_append.1 hx with hx | hx
    · obtain ⟨e, -, rfl⟩ := List.mem_map.1 hx
      exact ⟨q, List.mem_cons_self, hslotw⟩
    · rw [hAB, List.nil_append] at hx
      obtain ⟨y, hy, hyx⟩ := hB x hx
      exact ⟨y, List.mem_cons_of_mem q hy, hyx⟩
  · refine List.nodup_append.2 ⟨hsl.map fun a b h => (Prod.mk.inj h).2, he.nodup, ?_⟩
    intro x hx y hy hxy
    subst hxy
    obtain ⟨e, -, rfl⟩ := List.mem_map.1 hx
    rcases (he.mem _).1 hy with ⟨hnr, -⟩ | ⟨y, hyr, hyx, -⟩
    · -- a kept position is in an older table than `n`
      have hn := hG _ (List.mem_cons_of_mem q hnr)
      exact hn.2 ((hg.trans he.grows).noted_old c n hn.1 (he.shaped.link_noted _ c n hslotw))
    · -- two slots link to `n`
      exact hqr (he.once q y c c n hslotw hyx ▸ hyr)

end Entered

/-- **Entering a level.** For a frontier whose positions are distinct, in present tables not of
the level's kind, and ready for the level, `enterLevel` does what `Entered` says. -/
theorem enterLevel_ok {c : TableKind} {orig : Option (List Nat)}
    (hsl : (levelSlots c orig).Nodup) (G : List (Nat × Nat)) :
    ∀ {elem : Option (List Int)} {v w : Trie} {F : List (Nat × Int)},
      (enterLevel c elem (G.map atInt)).run v = .ok F w → v.Shaped → v.LinksOnce → G.Nodup →
      (elem = orig.map (·.map Int.ofNat) ∨ elem = some ((levelSlots c orig).map Int.ofNat)) →
      Ready v c elem G → (∀ x ∈ G, x.1 < v.tables.size ∧ x.1 ∉ v.tablesOf c) →
      ∃ G', F = G'.map atInt ∧ Entered v w c orig elem G G' := by
  induction G with
  | nil =>
    intro elem v w F h hs ho _ _ _ _
    obtain ⟨rfl, rfl⟩ := TrieM.pure_ok h
    exact ⟨[], rfl, Entered.nil hs ho⟩
  | cons q rest ih =>
    intro elem v w F h hs ho hnd helem hready hG
    simp only [List.map_cons, atInt, enterLevel] at h
    obtain ⟨⟨tab, i⟩, v₁, hpos, h₁⟩ := TrieM.bind_ok h
    obtain ⟨hv, htab, hidx⟩ := position_ok hpos
    subst v₁
    obtain ⟨rfl, hi⟩ := seqIndex_natCast hidx
    have hslotq : v.slot q = tab[q.2]?.join := slot_of_getElem? htab
    rw [← hslotq] at h₁
    have hrestG : ∀ x ∈ rest, x.1 < v.tables.size ∧ x.1 ∉ v.tablesOf c :=
      fun x hx => hG x (List.mem_cons_of_mem q hx)
    have hnd' := (List.nodup_cons.1 hnd).2
    rcases htk : takenSlots c elem (v.slot q) with _ | es
    · -- the level keeps the position
      rw [htk] at h₁
      obtain ⟨hnone, hfree⟩ := takenSlots_none htk
      obtain ⟨R, w', h₂, h₃⟩ := TrieM.bind_ok h₁
      obtain ⟨rfl, rfl⟩ := TrieM.pure_ok h₃
      obtain ⟨G', rfl, he⟩ := ih h₂ hs ho hnd' helem hready.tail hrestG
      exact ⟨q :: G', rfl, he.cons_kept hnd hG hnone hfree⟩
    · -- the position leads to a table of the level's kind
      rw [htk] at h₁
      have hes := takenSlots_some helem htk
      have hfits := hready.fits_of_taken htk
      have hq := hfits q List.mem_cons_self
      have hpush : PushReady v c q :=
        ⟨⟨tab.size, by simp [tableSize, htab], hi⟩, hq.root, hq.above, hq.holds⟩
      obtain ⟨n, v₁, hd, h₂⟩ := TrieM.bind_ok h₁
      obtain ⟨R, w', h₃, h₄⟩ := TrieM.bind_ok h₂
      obtain ⟨rfl, rfl⟩ := TrieM.pure_ok h₄
      obtain ⟨hs₁, ho₁, hslot, hg, hold, hnew, -⟩ := descend_ok hd hs ho hpush
      have hold' : ∀ x, x.1 < v.tables.size → x ≠ q → v₁.slot x = v.slot x :=
        fun x hx hne => hold x hx hne
      have hready' : Ready v₁ c (some es) rest := ⟨[], rest, rfl, by simp, fun x hx =>
        (hfits x (List.mem_cons_of_mem q hx)).of_grows hg (hrestG x hx).1
          (hold' x (hrestG x hx).1 fun h => (List.nodup_cons.1 hnd).1 (h ▸ hx))⟩
      have hrestG₁ := fun x hx => hg.off_kind (hrestG x hx)
      obtain ⟨G', rfl, he⟩ := ih h₃ hs₁ ho₁ hnd' (.inr (congrArg some hes)) hready' hrestG₁
      refine ⟨(levelSlots c orig).map (fun e => (n, e)) ++ G', ?_,
        he.cons_descended hnd hsl hG hslot hg hold' hnew fun r k hk =>
          descend_lookup hd hs ho hpush hk r⟩
      subst hes
      simp [atInt, List.map_map, Function.comp_def]

/-! ## The levels of a path -/

/-- the path admits a key on levels `ls`: at each level the path does not skip, the key's slot
is one of the level's -/
def Admits (ls : List (TableKind × Option (List Nat))) (k : TableKey) : Prop :=
  ∀ c es, (c, some es) ∈ ls → k.index c ∈ es

theorem admits_append_single {ls : List (TableKind × Option (List Nat))} {c : TableKind}
    {orig : Option (List Nat)} {k : TableKey} :
    Admits (ls ++ [(c, orig)]) k ↔ Admits ls k ∧ ∀ es, orig = some es → k.index c ∈ es := by
  simp only [Admits, List.mem_append, List.mem_singleton, Prod.mk.injEq]
  constructor
  · intro h
    exact ⟨fun c' es h' => h c' es (.inl h'), fun es he => h c es (.inr ⟨rfl, he.symm⟩)⟩
  · rintro ⟨h₁, h₂⟩ c' es (h' | ⟨rfl, he⟩)
    · exact h₁ c' es h'
    · exact h₂ es he.symm

/-- a valid key's slot is among those a level takes exactly when the path admits it there -/
theorem mem_levelSlots {c : TableKind} {orig : Option (List Nat)} {k : TableKey} (hk : k.Valid) :
    k.index c ∈ levelSlots c orig ↔ ∀ es, orig = some es → k.index c ∈ es := by
  rcases orig with _ | es
  · simpa [levelSlots] using hk.index_lt c
  · simp [levelSlots]

end X86Codec.Trie

namespace X86Codec.Path

/-- a path whose levels list distinct slots, with a ModRM rm level only below a ModRM reg
level -/
structure Sound (p : Path) : Prop where
  nodup : ∀ c es, (c, some es) ∈ p.levels → es.Nodup
  modrm : p.modrmLow.isSome → p.modrm.isSome

theorem levels_drop (p : Path) {j : Nat} (hj : j < 6) :
    ∃ c orig, c.rank = j ∧ p.levels[j]? = some (c, orig) ∧
      p.levels.drop j = (c, orig) :: p.levels.drop (j + 1) ∧
      p.levels.take (j + 1) = p.levels.take j ++ [(c, orig)] := by
  rcases j with _ | _ | _ | _ | _ | _ | j
  all_goals first
    | exact ⟨_, _, rfl, rfl, rfl, rfl⟩
    | omega

theorem levelSlots_nodup {p : Path} (hp : p.Sound) {j : Nat} {c : TableKind}
    {orig : Option (List Nat)} (hlev : p.levels[j]? = some (c, orig)) :
    (Trie.levelSlots c orig).Nodup := by
  rcases orig with _ | es
  · exact List.nodup_range
  · exact hp.nodup c es (List.mem_of_getElem? hlev)

end X86Codec.Path

namespace X86Codec.Trie

variable {t u v w : Trie}

/-- the state after the first `j` levels of path `p`, added under root slot `r₀` of trie `t`:
the trie `v` and the frontier `G`. The lookups are `t`'s; a key's walk over the `j` levels ends
in the frontier exactly when it starts at `r₀` and the path admits the key there; frontier
positions hold no table of those levels and sit in table 0 (before any level) or in tables of
those levels; and the frontier lists positions in tables of the last level last. -/
structure Stage (t : Trie) (p : Path) (r₀ j : Nat) (v : Trie) (G : List (Nat × Nat)) : Prop where
  shaped : v.Shaped
  once : v.LinksOnce
  lookup : ∀ r k, k.Valid → v.lookup r k = t.lookup r k
  front : ∀ r k, k.Valid →
    (v.pos k (TableKind.order.take j) (0, r) ∈ G ↔ r = r₀ ∧ Admits (p.levels.take j) k)
  nodup : G.Nodup
  free : ∀ x ∈ G, ∀ b m, v.slot x = some (.table b m) → j ≤ b.rank
  home : ∀ x ∈ G, (x.1 = 0 ∧ j = 0) ∨ ∃ b, x.1 ∈ v.tablesOf b ∧ b.rank < j
  split : ∃ A B, G = A ++ B ∧ (∀ x ∈ A, ∃ b, x.1 ∈ v.tablesOf b ∧ b.rank + 1 < j) ∧
    (∀ x ∈ B, j = 0 ∨ ∃ b, x.1 ∈ v.tablesOf b ∧ b.rank + 1 = j) ∧
    ∀ c es, p.levels[j - 1]? = some (c, some es) → 0 < j → A = []
  root : ∀ i, v.slot (0, i) = t.slot (0, i) ∨ (i = r₀ ∧ ∃ n, v.slot (0, i) = some (.table .root n))
  size0 : v.tableSize 0 = t.tableSize 0

theorem Stage.start {p : Path} (hs : t.Shaped) (ho : t.LinksOnce) (r₀ : Nat) :
    Stage t p r₀ 0 t [(0, r₀)] where
  shaped := hs
  once := ho
  lookup _ _ _ := rfl
  front r k _ := by simp [Admits]
  nodup := List.nodup_singleton _
  free _ _ _ _ _ := Nat.zero_le _
  home x hx := .inl ⟨by simp at hx; rw [hx], rfl⟩
  split := ⟨[], _, rfl, by simp, fun _ _ => .inl rfl, fun _ _ _ h => absurd h (lt_irrefl 0)⟩
  root _ := .inl rfl
  size0 := rfl

section Stage

variable {p : Path} {r₀ j : Nat} {G : List (Nat × Nat)}

/-- a table of the next level's kind is neither table 0 nor a table of an earlier level -/
theorem not_noted_next {c : TableKind} (hc : c.rank = j) (hw : w.Shaped) (hg : Grows v w)
    {n : Nat} (hn : n = 0 ∨ ∃ b, n ∈ v.tablesOf b ∧ b.rank < j) : n ∉ w.tablesOf c := by
  intro hnc
  rcases hn with rfl | ⟨b, hb, hlt⟩
  · exact lt_irrefl 0 (hw.noted_table c 0 hnc).1
  · have := hw.noted_once b c n (hg.noted_mono b n hb) hnc
    subst this
    omega

/-- the frontier after `j` levels is ready for level `j`: at the ModRM rm level, the positions
in tables above the ModRM reg level come first, and only when the path skips that level -/
theorem Stage.ready {c : TableKind} {orig : Option (List Nat)} (hst : Stage t p r₀ j v G)
    (hc : c.rank = j) (hlev : p.levels[j]? = some (c, orig)) (hp : p.Sound) :
    Ready v c (orig.map (·.map Int.ofNat)) G ∧
      ∀ x ∈ G, x.1 < v.tables.size ∧ x.1 ∉ v.tablesOf c := by
  have hs := hst.shaped
  refine ⟨?_, fun x hx => ?_⟩
  · by_cases hlow : c = .modrmLow
    · -- the ModRM rm level: split the frontier at the ModRM reg tables
      subst hlow
      obtain rfl : j = 4 := hc.symm
      obtain ⟨rfl⟩ : orig = p.modrmLow := by
        simp only [Path.levels] at hlev
        exact (Prod.mk.inj (Option.some.inj hlev)).2.symm
      obtain ⟨A, B, hAB, hA, hB, hlast⟩ := hst.split
      refine ⟨A, B, hAB, fun x hx => ⟨?_, fun m hm => ?_⟩, fun x hx => ?_⟩
      · rcases hmod : p.modrmLow with _ | es
        · rfl
        · obtain ⟨es', hes'⟩ := Option.isSome_iff_exists.1 (hp.modrm (by simp [hmod]))
          have := hlast .modrm es' (by simp [Path.levels, hes']) (by decide)
          subst this
          cases hx
      · obtain ⟨b, hb, hlt⟩ := hA x hx
        have := (hs.link_above b x.1 x.2 _ m hb hm).2.1 rfl
        subst this
        exact absurd hlt (by decide)
      · rcases hB x hx with h | ⟨b, hb, hrank⟩
        · cases h
        · obtain rfl : b = .modrm :=
            TableKind.rank_inj (show b.rank = TableKind.modrm.rank from by
              rw [show TableKind.modrm.rank = 3 from rfl]; omega)
          refine ⟨fun h0 => absurd (h0 ▸ (hs.noted_table _ _ hb).1) (lt_irrefl 0),
            fun b' hb' => ?_, fun b' m hm => ?_⟩
          · rw [hs.noted_once b' .modrm x.1 hb' hb]
            exact ⟨by decide, fun _ => rfl, fun h => absurd h (by decide)⟩
          · have := hst.free x (hAB ▸ List.mem_append_right A hx) b' m hm
            cases b' <;> simp_all [TableKind.rank, TableKind.Above]
    · -- any other level: every position fits
      refine ⟨[], G, rfl, by simp, fun x hx => ⟨fun h0 => ?_, fun b hb => ?_, fun b m hm => ?_⟩⟩
      · rcases hst.home x hx with ⟨-, rfl⟩ | ⟨b, hb, -⟩
        · cases c <;> simp_all [TableKind.rank]
        · exact absurd (h0 ▸ (hs.noted_table _ _ hb).1) (lt_irrefl 0)
      · rcases hst.home x hx with ⟨h0, -⟩ | ⟨b', hb', hlt⟩
        · exact absurd (h0 ▸ (hs.noted_table _ _ hb).1) (lt_irrefl 0)
        · rw [hs.noted_once b b' x.1 hb hb']
          refine ⟨by omega, fun h => absurd h hlow, fun hman => ?_⟩
          -- the level of opcode bytes is never skipped, so the frontier lies in its tables
          subst hman
          obtain rfl : j = 2 := hc.symm
          obtain ⟨A, B, hAB, -, hB, hlast⟩ := hst.split
          obtain rfl : A = [] := hlast .byte p.byte rfl (by decide)
          rcases hB x (by rw [hAB, List.nil_append] at hx; exact hx) with h | ⟨b'', hb'', hrank⟩
          · cases h
          · rw [hs.noted_once b' b'' x.1 hb' hb'']
            exact TableKind.rank_inj (by rw [show TableKind.byte.rank = 1 from rfl]; omega)
      · have hjb := hst.free x hx b m hm
        by_cases hbc : b = c
        · exact .inl hbc
        · have hlt : c.rank < b.rank := by
            rcases Nat.lt_or_eq_of_le hjb with h | h
            · omega
            · exact absurd (TableKind.rank_inj (h.symm.trans hc.symm)) hbc
          -- the table of the position comes before the level, which lies between the link's ends
          rcases hst.home x hx with ⟨h0, -⟩ | ⟨b', hb', hlt'⟩
          · have hm0 : v.slot (0, x.2) = some (.table b m) := by rw [← h0]; exact hm
            rw [hs.root_link x.2 b m hm0] at hlt
            exact absurd hlt (by simp [TableKind.rank])
          · exact .inr ((hs.link_above b' x.1 x.2 b m hb' hm).between (by omega) hlt)
  · rcases hst.home x hx with ⟨h0, -⟩ | ⟨b, hb, hlt⟩
    · refine ⟨h0 ▸ hs.size_pos, fun h => ?_⟩
      exact lt_irrefl 0 (h0 ▸ (hs.noted_table c x.1 h).1)
    · refine ⟨hs.noted_lt hb, fun h => ?_⟩
      have := hs.noted_once b c x.1 hb h
      subst this
      omega

/-- the new frontier's positions: kept ones, unchanged from the last frontier, and the slots
of the entered tables -/
theorem Entered.mem_cases {c : TableKind} {orig : Option (List Nat)} {elem : Option (List Int)}
    {G' : List (Nat × Nat)} (he : Entered v w c orig elem G G') {x : Nat × Nat} (hx : x ∈ G') :
    (x ∈ G ∧ elem = none ∧ w.slot x = v.slot x ∧ ∀ m, v.slot x ≠ some (.table c m)) ∨
      x.1 ∈ w.tablesOf c := by
  rcases (he.mem x).1 hx with ⟨hxG, hxf⟩ | ⟨q, -, hq, -⟩
  · rcases he.done x hxG with ⟨m, hm, -⟩ | hkept
    · exact absurd hm (hxf m)
    · exact .inl ⟨hxG, hkept⟩
  · exact .inr (he.shaped.link_noted _ c x.1 hq)

/-- the walk over the levels already entered is the same after the next level -/
theorem Stage.pos_next {c : TableKind} {orig : Option (List Nat)} {G' : List (Nat × Nat)}
    (hst : Stage t p r₀ j v G) (hc : c.rank = j)
    (he : Entered v w c orig (orig.map (·.map Int.ofNat)) G G') (k : TableKey) (r : Nat) :
    w.pos k (TableKind.order.take j) (0, r) = v.pos k (TableKind.order.take j) (0, r) := by
  refine hst.shaped.pos_congr (fun y hy a ha n => ?_) hst.shaped.size_pos
  have hja := TableKind.rank_lt_of_mem_take ha
  by_cases hyG : y ∈ G
  · rcases he.done y hyG with ⟨m, hm, -⟩ | ⟨-, hkeep, -⟩
    · -- entered: a link of the level's kind now, and no earlier link before
      rw [hm]
      constructor
      · intro h
        cases h
        omega
      · intro h
        exact absurd (hst.free y hyG a n h) (by omega)
    · rw [hkeep]
  · rw [he.keep y hy hyG]

/-- where a key's walk goes at the next level, from the frontier or from elsewhere -/
theorem Stage.front_next {c : TableKind} {orig : Option (List Nat)} {G' : List (Nat × Nat)}
    (hst : Stage t p r₀ j v G) (hc : c.rank = j)
    (hlev : p.levels.take (j + 1) = p.levels.take j ++ [(c, orig)])
    (he : Entered v w c orig (orig.map (·.map Int.ofNat)) G G') (r : Nat) {k : TableKey}
    (hk : k.Valid) :
    w.pos k (TableKind.order.take (j + 1)) (0, r) ∈ G' ↔
      r = r₀ ∧ Admits (p.levels.take (j + 1)) k := by
  have hs := hst.shaped
  set Q := v.pos k (TableKind.order.take j) (0, r) with hQ
  have hwalk : w.pos k (TableKind.order.take (j + 1)) (0, r) = w.advance k c Q := by
    rw [← hc, TableKind.take_rank_succ, pos_append, hc, hst.pos_next hc he k r]
    rfl
  have hnotc := fun {n : Nat} => not_noted_next (v := v) hc he.shaped he.grows (n := n)
  rw [hwalk, hlev, admits_append_single]
  by_cases hQG : Q ∈ G
  · have hfr := (hst.front r k hk).1 hQG
    rcases he.done Q hQG with ⟨m, hm, -⟩ | ⟨hnone, hkeep, hfree⟩
    · -- the frontier position was entered: the key goes on to the slot of its index
      rw [advance_of_link hm, he.mem, ← mem_levelSlots hk]
      constructor
      · rintro (⟨hmG, -⟩ | ⟨q, -, -, hidx⟩)
        · exact absurd (he.shaped.link_noted _ c m hm)
            (hnotc ((hst.home _ hmG).imp And.left id))
        · exact ⟨hfr.1, hfr.2, hidx⟩
      · rintro ⟨-, -, hidx⟩
        exact .inr ⟨Q, hQG, hm, hidx⟩
    · -- the frontier position was kept, as the path skips the level
      rw [advance_of_ne (hkeep ▸ hfree), he.mem]
      have horig : orig = none := Option.map_eq_none_iff.1 hnone
      subst horig
      exact iff_of_true (.inl ⟨hQG, hkeep ▸ hfree⟩) ⟨hfr.1, hfr.2, fun _ h => by cases h⟩
  · have hfr : ¬ (r = r₀ ∧ Admits (p.levels.take j) k) := fun h => hQG ((hst.front r k hk).2 h)
    refine iff_of_false (fun hmem => ?_) (fun h => hfr ⟨h.1, h.2.1⟩)
    have hQlt : Q.1 < v.tables.size := hs.pos_lt _ hs.size_pos
    have hkeepQ : w.slot Q = v.slot Q := he.keep Q hQlt hQG
    by_cases hl : ∃ m, v.slot Q = some (.table c m)
    · -- the walk follows a link that no frontier position holds
      obtain ⟨m, hm⟩ := hl
      rw [advance_of_link (hkeepQ.trans hm), he.mem] at hmem
      rcases hmem with ⟨hmG, -⟩ | ⟨q, hqG, hq, -⟩
      · exact hnotc ((hst.home _ hmG).imp And.left id)
          (he.grows.noted_mono c m (hs.link_noted _ c m hm))
      · exact hQG (he.once q Q c c m hq (hkeepQ.trans hm) ▸ hqG)
    · -- the walk stays in a table of an earlier level, which no entered table is
      rw [advance_of_ne fun m h => hl ⟨m, hkeepQ ▸ h⟩, he.mem] at hmem
      rcases hmem with ⟨hQG', -⟩ | ⟨q, -, hq, -⟩
      · exact hQG hQG'
      · exact hnotc (hs.pos_home k r j) (he.shaped.link_noted _ c Q.1 hq)

/-- the root slots stay as they were, but for the path's own, which leads to a root table once
the root level is entered -/
theorem Stage.root_next {c : TableKind} {orig : Option (List Nat)} {G' : List (Nat × Nat)}
    (hst : Stage t p r₀ j v G) (hc : c.rank = j) (hlev : p.levels[j]? = some (c, orig))
    (he : Entered v w c orig (orig.map (·.map Int.ofNat)) G G') (i : Nat) :
    w.slot (0, i) = t.slot (0, i) ∨ (i = r₀ ∧ ∃ n, w.slot (0, i) = some (.table .root n)) := by
  by_cases hx : (0, i) ∈ G
  · -- only the root level's frontier lies in table 0, and there it is the path's root slot
    obtain ⟨-, rfl⟩ : (0, i).1 = 0 ∧ j = 0 := by
      rcases hst.home _ hx with h | ⟨b, hb, -⟩
      · exact h
      · exact absurd (hst.shaped.noted_table b 0 hb).1 (lt_irrefl 0)
    have hi : i = r₀ :=
      ((hst.front i (k := ⟨0, 0, 0, 0, false, false⟩) ⟨by decide, by decide, by decide, by decide⟩).1
        (by simpa using hx)).1
    obtain rfl : c = .root := TableKind.rank_inj hc
    have horig : orig ≠ none := by
      rintro rfl
      simp [Path.levels] at hlev
    rcases he.done _ hx with ⟨m, hm, -⟩ | ⟨hnone, -⟩
    · exact .inr ⟨hi, m, hm⟩
    · exact absurd (Option.map_eq_none_iff.1 hnone) horig
  · rw [he.keep _ hst.shaped.size_pos hx]
    exact hst.root i

/-- the stage invariant after the next level -/
theorem Stage.next {c : TableKind} {orig : Option (List Nat)} {G' : List (Nat × Nat)}
    (hst : Stage t p r₀ j v G) (hc : c.rank = j) (hlev : p.levels[j]? = some (c, orig))
    (htake : p.levels.take (j + 1) = p.levels.take j ++ [(c, orig)])
    (he : Entered v w c orig (orig.map (·.map Int.ofNat)) G G') :
    Stage t p r₀ (j + 1) w G' := by
  -- the root level is never skipped
  have hroot : j = 0 → orig ≠ none := by
    rintro rfl rfl
    simp [Path.levels] at hlev
  refine ⟨he.shaped, he.once, fun r k hk => (he.lookup r k hk).trans (hst.lookup r k hk),
    fun r k hk => hst.front_next hc htake he r hk, he.nodup, fun x hx b m hm => ?_,
    fun x hx => ?_, ?_, hst.root_next hc hlev he,
    (he.grows.sizes 0 hst.shaped.size_pos).trans hst.size0⟩
  · rcases he.mem_cases hx with ⟨hxG, -, hkeep, hfree⟩ | hxc
    · rw [hkeep] at hm
      have hjb := hst.free x hxG b m hm
      have hbc : b ≠ c := fun h => hfree m (h ▸ hm)
      rcases Nat.lt_or_eq_of_le hjb with h | h
      · omega
      · exact absurd (TableKind.rank_inj (h.symm.trans hc.symm)) hbc
    · exact Nat.succ_le_of_lt (hc ▸ (he.shaped.link_above c x.1 x.2 b m hxc hm).1)
  · rcases he.mem_cases hx with ⟨hxG, hnone, -⟩ | hxc
    · rcases hst.home x hxG with ⟨-, h0⟩ | ⟨b, hb, hlt⟩
      · exact absurd (Option.map_eq_none_iff.1 hnone) (hroot h0)
      · exact .inr ⟨b, he.grows.noted_mono b x.1 hb, by omega⟩
    · exact .inr ⟨c, hxc, by omega⟩
  · obtain ⟨A, B, hAB, hA, hB, hnone⟩ := he.split
    refine ⟨A, B, hAB, fun x hx => ?_, fun x hx => ?_, fun c' es h _ => ?_⟩
    · rcases hst.home x (hA x hx) with ⟨-, h0⟩ | ⟨b, hb, hlt⟩
      · subst h0
        obtain ⟨es, hes⟩ := Option.ne_none_iff_exists'.1 (hroot rfl)
        rw [hnone (by simp [hes])] at hx
        cases hx
      · exact ⟨b, he.grows.noted_mono b x.1 hb, by omega⟩
    · obtain ⟨q, -, hq⟩ := hB x hx
      exact .inr ⟨c, he.shaped.link_noted _ c x.1 hq, by omega⟩
    · rw [Nat.add_sub_cancel, hlev] at h
      obtain ⟨-, rfl⟩ := Prod.mk.inj (Option.some.inj h)
      exact hnone (by simp)

end Stage

/-- **Entering the levels.** Entering the levels of a sound path from stage `j` on leads to the
stage after all six levels. -/
theorem enterLevels_ok {p : Path} {r₀ : Nat} (hp : p.Sound) (n : Nat) :
    ∀ {j : Nat} {G : List (Nat × Nat)} {v w : Trie} {F : List (Nat × Int)}, j + n = 6 →
      (enterLevels (p.levels.drop j) (G.map atInt)).run v = .ok F w → Stage t p r₀ j v G →
      ∃ G', F = G'.map atInt ∧ Stage t p r₀ 6 w G' := by
  induction n with
  | zero =>
    intro j G v w F hj h hst
    obtain rfl : j = 6 := hj
    obtain ⟨rfl, rfl⟩ := TrieM.pure_ok h
    exact ⟨G, rfl, hst⟩
  | succ n ih =>
    intro j G v w F hj h hst
    obtain ⟨c, orig, hc, hlev, hdrop, htake⟩ := p.levels_drop (j := j) (by omega)
    rw [hdrop] at h
    obtain ⟨F₁, v₁, h₁, h₂⟩ := TrieM.bind_ok h
    obtain ⟨hready, hG⟩ := hst.ready hc hlev hp
    obtain ⟨G₁, rfl, he⟩ := enterLevel_ok (p.levelSlots_nodup hp hlev) G h₁ hst.shaped hst.once
      hst.nodup (.inl rfl) hready hG
    exact ih (by omega) h₂ (hst.next hc hlev htake he)

/-! ## Storing the descriptor -/

/-- what storing descriptor `d` makes of a slot: an empty or weak slot takes it, and anything
else stays when the new entry is weak and is an error otherwise -/
def fillWith (weak : Bool) (d : Int) : Option Slot → Option (Option Slot)
  | none | some (.weak _) => some (some (if weak then .weak d else .instr d))
  | s => if weak then some s else none

/-- storing a descriptor where there is no link leaves no link -/
theorem fillWith_no_link {weak : Bool} {d : Int} {s s' : Option Slot}
    (h : fillWith weak d s = some s') (hs : ∀ b m, s ≠ some (.table b m)) (b : TableKind)
    (m : Nat) : s' ≠ some (.table b m) := by
  rintro rfl
  rcases s with _ | (_ | _ | ⟨b', m'⟩)
  · cases weak <;> simp [fillWith] at h
  · cases weak <;> simp [fillWith] at h
  · cases weak <;> simp [fillWith] at h
  · exact hs b' m' rfl

/-- a trie with the tables' sizes, the kind lists and the links of a shaped trie is shaped -/
theorem Shaped.of_links (hs : v.Shaped) (hsize : w.tables.size = v.tables.size)
    (hts : ∀ n, w.tableSize n = v.tableSize n) (hk : w.kinds = v.kinds)
    (hl : ∀ x b m, w.slot x = some (.table b m) ↔ v.slot x = some (.table b m)) : w.Shaped := by
  have hof : ∀ a, w.tablesOf a = v.tablesOf a := fun a => by unfold tablesOf; rw [hk]
  refine ⟨fun a n hn => ?_, fun a b n ha hb => ?_, fun a => ?_, fun x a n h => ?_,
    fun a n j b m hn h => ?_, fun j b m h => ?_, ?_⟩
  · rw [hts]; exact hs.noted_table a n (hof a ▸ hn)
  · exact hs.noted_once a b n (hof a ▸ ha) (hof b ▸ hb)
  · rw [hof]; exact hs.noted_nodup a
  · rw [hof]; exact hs.link_noted x a n ((hl x a n).1 h)
  · exact hs.link_above a n j b m (hof a ▸ hn) ((hl _ b m).1 h)
  · exact hs.root_link j b m ((hl _ b m).1 h)
  · rw [hsize]; exact hs.size_pos

/-- writing a frontier slot changes that slot only -/
theorem fill_set {q : Nat × Nat} {tab : Array (Option Slot)} {s : Option Slot}
    (htab : v.tables[q.1]? = some (some tab)) (hi : q.2 < tab.size)
    (h : (setSlot q.1 q.2 s).run v = .ok () w) :
    w.tables.size = v.tables.size ∧ w.kinds = v.kinds ∧ (∀ n, w.tableSize n = v.tableSize n) ∧
      (∀ x, x ≠ q → w.slot x = v.slot x) ∧ w.slot q = s := by
  have hw : v.tableSize q.1 = some tab.size := by simp [tableSize, htab]
  obtain ⟨ht, hk⟩ := setSlot_ok h
  have hslot := slot_setSlot ht hw hi
  exact ⟨by rw [ht, Array.size_modify], hk, tableSize_setSlot ht,
    fun x hx => by rw [hslot, if_neg hx], by rw [hslot, if_pos rfl]⟩

/-- storing the descriptor in distinct frontier positions: the tables' sizes and kinds stay,
each position holds what `fillWith` makes of it, and nothing else changes -/
theorem fill_ok {p : Path} {d : Int} {weak : Bool} (G : List (Nat × Nat)) :
    ∀ {v w : Trie}, (fill p d weak (G.map atInt)).run v = .ok () w → G.Nodup →
      w.tables.size = v.tables.size ∧ w.kinds = v.kinds ∧ (∀ n, w.tableSize n = v.tableSize n) ∧
        (∀ x, x ∉ G → w.slot x = v.slot x) ∧
        ∀ x ∈ G, fillWith weak d (v.slot x) = some (w.slot x) := by
  induction G with
  | nil =>
    intro v w h _
    obtain ⟨-, rfl⟩ := TrieM.pure_ok h
    exact ⟨rfl, rfl, fun _ => rfl, fun _ _ => rfl, fun _ h => by cases h⟩
  | cons q rest ih =>
    intro v w h hnd
    simp only [List.map_cons, atInt, fill] at h
    obtain ⟨⟨tab, i⟩, v₀, hpos, h₁⟩ := TrieM.bind_ok h
    obtain ⟨hv, htab, hidx⟩ := position_ok hpos
    subst v₀
    obtain ⟨rfl, hi⟩ := seqIndex_natCast hidx
    rw [← slot_of_getElem? htab] at h₁
    -- the first position, by what it holds
    obtain ⟨v₁, h₃, hsz₁, hk₁, hts₁, hkeep₁, hq₁⟩ : ∃ v₁,
        (fill p d weak (rest.map atInt)).run v₁ = .ok () w ∧ v₁.tables.size = v.tables.size ∧
          v₁.kinds = v.kinds ∧ (∀ n, v₁.tableSize n = v.tableSize n) ∧
          (∀ x, x ≠ q → v₁.slot x = v.slot x) ∧ fillWith weak d (v.slot q) = some (v₁.slot q) := by
      -- a strong entry or a link stays for a weak entry and is an error for a strong one
      have hstay : ∀ s : Slot, (∀ d', s ≠ .weak d') → v.slot q = some s →
          (if (!weak) = true then (throw (Failure.redundantEntry p.toList) : TrieM Unit) >>=
            fun _ => fill p d weak (rest.map atInt) else fill p d weak (rest.map atInt)).run v =
            .ok () w → ∃ v₁, (fill p d weak (rest.map atInt)).run v₁ = .ok () w ∧
          v₁.tables.size = v.tables.size ∧ v₁.kinds = v.kinds ∧
          (∀ n, v₁.tableSize n = v.tableSize n) ∧ (∀ x, x ≠ q → v₁.slot x = v.slot x) ∧
          fillWith weak d (some s) = some (v₁.slot q) := by
        intro s hs hq hrun
        cases weak
        · obtain ⟨_, _, hthrow, -⟩ := TrieM.bind_ok hrun
          exact (TrieM.throw_ok hthrow).elim
        · refine ⟨v, hrun, rfl, rfl, fun _ => rfl, fun _ _ => rfl, ?_⟩
          rw [hq]
          rcases s with _ | d' | _
          · rfl
          · exact absurd rfl (hs d')
          · rfl
      rcases hq : v.slot q with _ | (d' | d' | ⟨b, m⟩) <;> simp only [hq] at h₁
      · obtain ⟨⟨⟩, v₁, h₂, h₃⟩ := TrieM.bind_ok h₁
        obtain ⟨h1, h2, h3, h4, h5⟩ := fill_set htab hi h₂
        exact ⟨v₁, h₃, h1, h2, h3, h4, by rw [h5]; rfl⟩
      · exact hstay _ (fun _ h => by cases h) hq h₁
      · obtain ⟨⟨⟩, v₁, h₂, h₃⟩ := TrieM.bind_ok h₁
        obtain ⟨h1, h2, h3, h4, h5⟩ := fill_set htab hi h₂
        exact ⟨v₁, h₃, h1, h2, h3, h4, by rw [h5]; rfl⟩
      · exact hstay _ (fun _ h => by cases h) hq h₁
    obtain ⟨hsz, hk, hts, hkeep, hfill⟩ := ih h₃ (List.nodup_cons.1 hnd).2
    have hqr : q ∉ rest := (List.nodup_cons.1 hnd).1
    refine ⟨hsz.trans hsz₁, hk.trans hk₁, fun n => (hts n).trans (hts₁ n), fun x hx => ?_,
      fun x hx => ?_⟩
    · rw [hkeep x fun h => hx (List.mem_cons_of_mem q h),
        hkeep₁ x fun h => hx (h ▸ List.mem_cons_self)]
    · rcases List.mem_cons.1 hx with rfl | hx
      · rw [hkeep x hqr]
        exact hq₁
      · rw [← hkeep₁ x fun h => hqr (h ▸ hx)]
        exact hfill x hx

/-- what adding a path for descriptor `d` under root slot `r₀` makes of a shaped trie: the keys
the path admits under `r₀` find what storing `d` makes of their old content, all other keys find
the same, and the root slots other than `r₀` and the size of table 0 stay -/
structure Added (t u : Trie) (p : Path) (d : Int) (r₀ : Nat) (weak : Bool) : Prop where
  shaped : u.Shaped
  once : u.LinksOnce
  admitted : ∀ r k, k.Valid → r = r₀ → Admits p.levels k →
    fillWith weak d (t.lookup r k) = some (u.lookup r k)
  other : ∀ r k, k.Valid → ¬ (r = r₀ ∧ Admits p.levels k) → u.lookup r k = t.lookup r k
  root : ∀ i, u.slot (0, i) = t.slot (0, i) ∨ (i = r₀ ∧ ∃ n, u.slot (0, i) = some (.table .root n))
  size0 : u.tableSize 0 = t.tableSize 0

/-- **Adding a path.** Adding a sound path for descriptor `d` under root slot `r₀` keeps the
trie shaped with each table linked once, and changes exactly the lookups of the keys the path
admits under `r₀`, each to what storing `d` makes of it. -/
theorem add_ok {p : Path} {d : Int} {r₀ : Nat} {weak : Bool}
    (h : (add p d r₀ weak).run t = .ok () u) (hs : t.Shaped) (ho : t.LinksOnce)
    (hp : p.Sound) : Added t u p d r₀ weak := by
  unfold add at h
  obtain ⟨F, w, h₁, h₂⟩ := TrieM.bind_ok h
  obtain ⟨G, rfl, hst⟩ := enterLevels_ok hp 6 (j := 0) (G := [(0, r₀)]) rfl h₁
    (Stage.start hs ho r₀)
  obtain ⟨hsize, hkinds, hts, hkeep, hfill⟩ := fill_ok G h₂ hst.nodup
  -- after all six levels the frontier holds no links, and storing leaves the links as they are
  have hnolink : ∀ x ∈ G, ∀ b m, w.slot x ≠ some (.table b m) := fun x hx b m hm =>
    absurd (hst.free x hx b m hm) (by have := b.rank_lt_six; omega)
  have hl : ∀ x b m, u.slot x = some (.table b m) ↔ w.slot x = some (.table b m) := by
    intro x b m
    by_cases hx : x ∈ G
    · exact iff_of_false (fillWith_no_link (hfill x hx) (hnolink x hx) b m) (hnolink x hx b m)
    · rw [hkeep x hx]
  -- nor does the frontier reach table 0
  have hG0 : ∀ i, (0, i) ∉ G := fun i hx => by
    rcases hst.home _ hx with ⟨-, h6⟩ | ⟨b, hb, -⟩
    · exact absurd h6 (by decide)
    · exact absurd (hst.shaped.noted_table b 0 hb).1 (lt_irrefl 0)
  -- the key's walk ends at the same position before and after storing
  have hlookup : ∀ r k, k.Valid →
      u.lookup r k = u.slot (w.pos k TableKind.order (0, r)) ∧
        w.slot (w.pos k TableKind.order (0, r)) = t.lookup r k := fun r k hk => by
    refine ⟨?_, by rw [slot_pos]; exact hst.lookup r k hk⟩
    rw [← hst.shaped.pos_congr (fun x _ a _ n => hl x a n) hst.shaped.size_pos, slot_pos]
    rfl
  have hfront : ∀ r k, k.Valid →
      (w.pos k TableKind.order (0, r) ∈ G ↔ r = r₀ ∧ Admits p.levels k) := fun r k hk => by
    have := hst.front r k hk
    rwa [TableKind.take_of_six_le le_rfl, List.take_of_length_le (by simp [Path.levels])] at this
  refine ⟨hst.shaped.of_links hsize hts hkinds hl,
    fun x y a b n hx hy => hst.once x y a b n ((hl x a n).1 hx) ((hl y b n).1 hy),
    fun r k hk hr hadm => ?_, fun r k hk hadm => ?_, fun i => ?_, (hts 0).trans hst.size0⟩
  · rw [(hlookup r k hk).1, ← (hlookup r k hk).2]
    exact hfill _ ((hfront r k hk).2 ⟨hr, hadm⟩)
  · rw [(hlookup r k hk).1, hkeep _ fun hmem => hadm ((hfront r k hk).1 hmem),
      (hlookup r k hk).2]
  · rw [hkeep _ (hG0 i)]
    exact hst.root i

end X86Codec.Trie
