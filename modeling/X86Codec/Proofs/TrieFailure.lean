import X86Codec.Proofs.TrieAdd
/-!
What an addition to the trie that fails leaves behind.

An addition reads frontier positions, makes or pushes in tables, and stores the descriptor.
Making, copying and pushing in tables never fail on a shaped trie, since they only read tables
the trie notes (`descend_noError`). So an addition fails in two ways only: a frontier position
lies outside its table, or a strong entry meets a strong one. Either way it stops between two
steps that each keep the trie shaped with every table linked once, and table 0 stays as it was.

Which positions a frontier holds is known from the keys: after each level, every frontier
position ends the walk of a key the path admits (`Reached`), when the path's slot lists stay
inside their tables (`Path.InRange`). A key's walk ends inside a table, so such a path fails
only at a strong entry, and that entry is what a key the path admits finds.

Main statements:
* `enterLevel_error`, `enterLevels_error`: entering levels fails only at a position outside
  its table, and leaves a shaped trie with its tables linked once.
* `enterLevels_reached`: after all levels, every frontier position ends an admitted key's walk.
* `fill_error`: storing fails at a position outside its table or at a strong entry met by a
  strong one, and changes only the positions before it.
* `add_error`: a failed addition leaves a shaped trie, linked once, with table 0 as it was; for
  a path inside its tables and a root slot inside table 0 it fails only over a strong entry that
  a key the path admits finds.
* `add_error_root`: a failed addition leaves each root slot as it was, but the slot it adds
  under, which may be linked to a new root table.
-/

namespace X86Codec

namespace TrieM

variable {α β : Type} {t u : Trie}

theorem bind_error {x : TrieM α} {f : α → TrieM β} {e : Failure}
    (h : (x >>= f).run t = .error e u) :
    x.run t = .error e u ∨ ∃ a t₁, x.run t = .ok a t₁ ∧ (f a).run t₁ = .error e u := by
  rw [EStateM.run_bind] at h
  split at h
  next a t₁ hx => exact .inr ⟨a, t₁, hx, h⟩
  next e' t₁ hx => cases h; exact .inl hx

theorem map_error {x : TrieM α} {f : α → β} {e : Failure} (h : (f <$> x).run t = .error e u) :
    x.run t = .error e u := by
  rw [map_eq_pure_bind] at h
  rcases bind_error h with h | ⟨_, _, _, hp⟩
  · exact h
  · cases hp

end TrieM

namespace Trie

variable {t u v w : Trie}

theorem addTable_error {a : TableKind} {e : Failure} (h : (addTable a).run t = .error e u) :
    False := by
  cases h

theorem setSlot_error {num i : Nat} {s : Option Slot} {e : Failure}
    (h : (setSlot num i s).run t = .error e u) : False := by
  cases h

theorem setTable_error {num : Nat} {tab : Option (Array (Option Slot))} {e : Failure}
    (h : (setTable num tab).run t = .error e u) : False := by
  cases h

/-- reading a table fails only when it is absent, and changes nothing -/
theorem slotsOf_error {num : Nat} {e e' : Failure} (h : (slotsOf num e).run t = .error e' u) :
    u = t ∧ t.tableSize num = none := by
  unfold slotsOf at h
  rcases TrieM.bind_error h with h₁ | ⟨t', t₁, hget, hrest⟩
  · cases h₁
  · cases hget
    split at hrest
    next => cases hrest
    next hne =>
      cases hrest
      refine ⟨rfl, ?_⟩
      unfold tableSize
      rcases ht : t.tables[num]? with _ | _ | tab
      · rfl
      · rfl
      · exact absurd ht (hne tab)

/-- a position inside a present table -/
def InTable (t : Trie) (x : Nat × Nat) : Prop := ∃ n, t.tableSize x.1 = some n ∧ x.2 < n

theorem InTable.of_grows {x : Nat × Nat} (hx : t.InTable x) (hg : Grows t u) : u.InTable x := by
  obtain ⟨n, hn, hlt⟩ := hx
  exact ⟨n, (hg.sizes x.1 (lt_size_of_tableSize hn)).trans hn, hlt⟩

/-- reading a position fails only outside its table, and changes nothing -/
theorem position_error {num i : Nat} {e : Failure} (h : (position num i).run t = .error e u) :
    u = t ∧ ¬ t.InTable (num, i) := by
  unfold position at h
  rcases TrieM.bind_error h with h₁ | ⟨tab, t₁, h₁, hrest⟩
  · obtain ⟨rfl, hnone⟩ := slotsOf_error h₁
    refine ⟨rfl, ?_⟩
    rintro ⟨n, hn, -⟩
    rw [hnone] at hn
    cases hn
  · obtain ⟨rfl, htab⟩ := slotsOf_ok h₁
    split at hrest
    next => cases hrest
    next hidx =>
      cases hrest
      refine ⟨rfl, ?_⟩
      rintro ⟨n, hn, hlt⟩
      have hsize : n = tab.size := by simpa [tableSize, htab] using hn.symm
      subst hsize
      simp [seqIndex, hlt] at hidx

/-! ## Tables are made and copied without failing -/

/-- what `copySlot d` never does to a link it can copy whole: fail -/
def CopySafe (d : Nat) : Prop :=
  ∀ {x : Option Slot} {t u : Trie} {e : Failure}, (copySlot d x).run t = .error e u →
    t.Shaped → CopyReady t d x → False

/-- the slots of a table that a link leads to can be copied with one level less -/
theorem CopyReady.slots {d : Nat} {c : TableKind} {n : Nat} {src : Array (Option Slot)}
    (hs : t.Shaped) (hx : CopyReady t (d + 1) (some (.table c n)))
    (hsrc : t.tables[n]? = some (some src)) : ∀ z ∈ src.toList, CopyReady t d z := by
  obtain ⟨hn, hdepth⟩ := hx c n rfl
  intro z hz b m hzm
  obtain ⟨j, hj, hjz⟩ := List.getElem_of_mem hz
  have hslot : t.slot (n, j) = some (.table b m) := by
    rw [slot_of_getElem? hsrc, ← Array.getElem?_toList, List.getElem?_eq_getElem hj, hjz, hzm]
    rfl
  have habove := (hs.link_above c n j b m hn hslot).1
  exact ⟨hs.link_noted _ b m hslot, by omega⟩

/-- copies of a list of slots, one after the other, do not fail -/
theorem mapM_copySlot_noError {d : Nat} (hd : CopySafe d) (xs : List (Option Slot)) :
    ∀ {t u : Trie} {e : Failure}, (xs.mapM (copySlot d)).run t = .error e u → t.Shaped →
      (∀ x ∈ xs, CopyReady t d x) → False := by
  induction xs with
  | nil =>
    intro t u e h
    rw [List.mapM_nil] at h
    cases h
  | cons x xs ih =>
    intro t u e h hs hx
    rw [List.mapM_cons] at h
    rcases TrieM.bind_error h with h₁ | ⟨y, t₁, h₁, hr₁⟩
    · exact hd h₁ hs (hx x List.mem_cons_self)
    · -- the first copy went through: the trie only grew
      obtain ⟨hs₁, ha₁, -⟩ := copySlot_ok d h₁ hs (hx x List.mem_cons_self)
      rcases TrieM.bind_error hr₁ with h₂ | ⟨ys, t₂, -, hr₂⟩
      · refine ih h₂ hs₁ fun z hz b m he => ?_
        have hz' := hx z (List.mem_cons_of_mem x hz) b m he
        exact ⟨ha₁.noted_mono b m hz'.1, hz'.2⟩
      · cases hr₂

/-- **Copies do not fail.** With enough depth left for the kinds below a link, `copySlot` only
reads tables the trie notes. -/
theorem copySlot_noError (d : Nat) : CopySafe d := by
  induction d with
  | zero => intro x t u e h; cases h
  | succ d ih =>
    intro x t u e h hs hx
    rcases x with _ | (_ | _ | ⟨c, n⟩)
    · cases h
    · cases h
    · cases h
    · have hn := (hx c n rfl).1
      unfold copySlot at h
      dsimp only at h
      rcases TrieM.bind_error h with h₁ | ⟨fresh, t₁, h₁, hr₁⟩
      · exact addTable_error h₁
      obtain ⟨rfl, ht₁, hk₁⟩ := addTable_ok h₁
      have hs₁ : t₁.Shaped := hs.push ht₁ hk₁
      have hnt : n < t.tables.size := hs.noted_lt hn
      rcases TrieM.bind_error hr₁ with h₂ | ⟨src, t₂, h₂, hr₂⟩
      · -- the table copied is there
        obtain ⟨-, hnone⟩ := slotsOf_error h₂
        have := (hs₁.noted_table c n ((mem_tablesOf_push hk₁).2 (.inl hn))).2
        rw [hnone] at this
        cases this
      obtain ⟨rfl, hsrc⟩ := slotsOf_ok h₂
      have hsrc_t : t.tables[n]? = some (some src) := by
        rwa [ht₁, Array.getElem?_push, if_neg hnt.ne] at hsrc
      rcases TrieM.bind_error hr₂ with h₃ | ⟨copies, t₃, -, hr₃⟩
      · rw [Array.mapM_eq_mapM_toList] at h₃
        refine mapM_copySlot_noError ih _ (TrieM.map_error h₃) hs₁ fun z hz b m he => ?_
        have hz' := hx.slots hs hsrc_t z hz b m he
        exact ⟨(mem_tablesOf_push hk₁).2 (.inl hz'.1), hz'.2⟩
      · rcases TrieM.bind_error hr₃ with h₄ | ⟨_, _, -, hr₄⟩
        · exact setTable_error h₄
        · cases hr₄

section Pushing

variable {a : TableKind} {cur : Option Slot}

/-- filling the remaining slots of a pushed-in table with copies does not fail -/
theorem pushing_forM_noError (hs : t.Shaped) (hc : Pushable t a cur) (n : Nat) :
    ∀ {j : Nat} {v w : Trie} {e : Failure}, Pushing t a cur v j → 0 < j → j + n ≤ a.length →
      ((List.range' j n).forM fun i => do setSlot t.tables.size i (← copySlot 7 cur)).run v =
        .error e w → False := by
  induction n with
  | zero =>
    intro j v w e _ _ _ h
    cases h
  | succ n ih =>
    intro j v w e hp hj0 hjn h
    simp only [List.range'_succ] at h
    rcases TrieM.bind_error h with h₁ | ⟨⟨⟩, v₁, h₁, hr⟩
    · rcases TrieM.bind_error h₁ with hcopy | ⟨y, v', -, hset⟩
      · -- the content copied is an old link, noted in every later trie
        refine copySlot_noError 7 hcopy hp.shaped fun b m he => ⟨?_, by omega⟩
        exact hp.grows.noted_mono b m (hc.noted b m he)
      · exact setSlot_error hset
    · obtain ⟨y, v', hcopy, hset⟩ := TrieM.bind_ok h₁
      have hp₁ := pushing_step hs hc hp hj0 (by omega) hcopy hset
      exact ih hp₁ (by omega) (by omega) hr

end Pushing

/-- pushing a table in does not fail -/
theorem pushDown_noError {a : TableKind} {num i : Nat} {cur : Option Slot} {e : Failure}
    (hcur : t.slot (num, i) = cur) (h : (pushDown a num i cur).run t = .error e u)
    (hs : t.Shaped) (hr : PushReady t a (num, i)) (hne : ∀ m, cur ≠ some (.table a m)) :
    False := by
  unfold pushDown at h
  rcases TrieM.bind_error h with h₁ | ⟨fresh, t₁, h₁, hr₁⟩
  · exact addTable_error h₁
  obtain ⟨rfl, -, -⟩ := addTable_ok h₁
  rcases TrieM.bind_error hr₁ with h₂ | ⟨⟨⟩, t₂, h₂, hr₂⟩
  · exact setSlot_error h₂
  have hc : Pushable t a cur := ⟨fun b m he => hs.link_noted _ b m (hcur ▸ he), fun b m he =>
    (hr.holds b m (hcur ▸ he)).resolve_left fun hb => hne m (hb ▸ he)⟩
  have hp₂ := pushing_start hs hc h₁ h₂
  have hlen := a.four_le_length
  rcases TrieM.bind_error hr₂ with h₃ | ⟨⟨⟩, t₃, -, hr₃⟩
  · exact pushing_forM_noError hs hc (a.length - 1) hp₂ (by omega) (by omega) h₃
  rcases TrieM.bind_error hr₃ with h₄ | ⟨⟨⟩, t₄, -, hr₄⟩
  · exact setSlot_error h₄
  · cases hr₄

/-- **Descending does not fail.** Making or pushing in the table of a level's kind at a slot
inside a table succeeds. -/
theorem descend_noError {a : TableKind} {num i : Nat} {e : Failure}
    (h : (descend a num i (t.slot (num, i))).run t = .error e u)
    (hs : t.Shaped) (hr : PushReady t a (num, i)) : False := by
  rcases hcur : t.slot (num, i) with _ | (d | d | ⟨b, m⟩) <;> rw [hcur] at h
  · simp only [descend] at h
    rcases TrieM.bind_error h with h₁ | ⟨_, _, -, hr₁⟩
    · exact addTable_error h₁
    rcases TrieM.bind_error hr₁ with h₂ | ⟨_, _, -, hr₂⟩
    · exact setSlot_error h₂
    · cases hr₂
  · exact pushDown_noError hcur h hs hr fun _ h => by cases h
  · exact pushDown_noError hcur h hs hr fun _ h => by cases h
  · by_cases hb : b = a
    · subst hb
      simp only [descend] at h
      cases h
    · simp only [descend, if_neg hb] at h
      exact pushDown_noError hcur h hs hr fun _ h => by cases h; exact hb rfl

/-! ## Entering a level -/

/-- **A level fails only outside a table.** Entering a level for a ready frontier fails only at
a frontier position outside its table, and leaves a trie grown from the old one, shaped, with
its tables linked once, where a slot of table 0 is changed only at a frontier position, to a
link to a table of the level's kind. -/
theorem enterLevel_error {c : TableKind} (G : List (Nat × Nat)) :
    ∀ {elem : Option (List Int)} {v w : Trie} {e : Failure},
      (enterLevel c elem (G.map atInt)).run v = .error e w → v.Shaped → v.LinksOnce → G.Nodup →
      Ready v c elem G → (∀ x ∈ G, x.1 < v.tables.size ∧ x.1 ∉ v.tablesOf c) →
      w.Shaped ∧ w.LinksOnce ∧ Grows v w ∧
        (∀ r, w.slot (0, r) = v.slot (0, r) ∨ ((0, r) ∈ G ∧ ∃ n, w.slot (0, r) = some (.table c n))) ∧
        ∃ x ∈ G, ¬ v.InTable x := by
  induction G with
  | nil =>
    intro elem v w e h
    cases h
  | cons q rest ih =>
    intro elem v w e h hs ho hnd hready hG
    simp only [List.map_cons, atInt, enterLevel] at h
    rcases TrieM.bind_error h with h₀ | ⟨⟨tab, i⟩, v₁, hpos, h₁⟩
    · obtain ⟨rfl, hout⟩ := position_error h₀
      exact ⟨hs, ho, Grows.refl _, fun _ => .inl rfl, q, List.mem_cons_self, hout⟩
    obtain ⟨rfl, htab, hidx⟩ := position_ok hpos
    obtain ⟨rfl, hi⟩ := seqIndex_natCast hidx
    rw [← slot_of_getElem? htab] at h₁
    have hrestG : ∀ x ∈ rest, x.1 < v₁.tables.size ∧ x.1 ∉ v₁.tablesOf c :=
      fun x hx => hG x (List.mem_cons_of_mem q hx)
    have hnd' := (List.nodup_cons.1 hnd).2
    rcases htk : takenSlots c elem (v₁.slot q) with _ | es
    · -- the level keeps the position, and the rest of the frontier fails
      rw [htk] at h₁
      rcases TrieM.bind_error h₁ with h₂ | ⟨_, _, -, h₃⟩
      · obtain ⟨hw, hwo, hg, hroot, x, hx, hout⟩ := ih h₂ hs ho hnd' hready.tail hrestG
        exact ⟨hw, hwo, hg,
          fun r => (hroot r).imp_right fun hr => ⟨List.mem_cons_of_mem q hr.1, hr.2⟩,
          x, List.mem_cons_of_mem q hx, hout⟩
      · cases h₃
    · -- the position leads to a table of the level's kind, made without failing
      rw [htk] at h₁
      have hfits := hready.fits_of_taken htk
      have hq := hfits q List.mem_cons_self
      have hpush : PushReady v₁ c q :=
        ⟨⟨tab.size, by simp [tableSize, htab], hi⟩, hq.root, hq.above, hq.holds⟩
      rcases TrieM.bind_error h₁ with hd | ⟨n, v₂, hd, h₂⟩
      · exact (descend_noError hd hs hpush).elim
      obtain ⟨hs₂, ho₂, hq₂, hg, hold, -, -⟩ := descend_ok hd hs ho hpush
      have hold' : ∀ x, x.1 < v₁.tables.size → x ≠ q → v₂.slot x = v₁.slot x :=
        fun x hx hne => hold x hx hne
      rcases TrieM.bind_error h₂ with h₃ | ⟨_, _, -, h₄⟩
      · have hready' : Ready v₂ c (some es) rest := ⟨[], rest, rfl, by simp, fun x hx =>
          (hfits x (List.mem_cons_of_mem q hx)).of_grows hg (hrestG x hx).1
            (hold' x (hrestG x hx).1 fun h => (List.nodup_cons.1 hnd).1 (h ▸ hx))⟩
        obtain ⟨hw, hwo, hg', hroot, x, hx, hout⟩ :=
          ih h₃ hs₂ ho₂ hnd' hready' fun x hx => hg.off_kind (hrestG x hx)
        refine ⟨hw, hwo, hg.trans hg', fun r => ?_, x, List.mem_cons_of_mem q hx,
          fun hin => hout (hin.of_grows hg)⟩
        -- table 0 changes only where the level descended, to a link of the level's kind
        by_cases hr : (0, r) = q
        · subst hr
          rcases hroot r with h0 | h0
          · exact .inr ⟨List.mem_cons_self, n, h0.trans hq₂⟩
          · exact .inr ⟨List.mem_cons_self, h0.2⟩
        · rcases hroot r with h0 | h0
          · exact .inl (h0.trans (hold' (0, r) hs.size_pos hr))
          · exact .inr ⟨List.mem_cons_of_mem q h0.1, h0.2⟩
      · cases h₄

end Trie

/-! ## Keys that reach the frontier -/

namespace TableKey

/-- the key with its slot at level `a` set to `e`, the other slots kept: setting the ModRM reg
slot keeps the rm field, and setting the rm slot keeps the rest of the byte -/
def setIndex (k : TableKey) : TableKind → Nat → TableKey
  | .root, e => { k with map := e }
  | .byte, e => { k with byte := e }
  | .mandatory, e => { k with mandatory := e }
  | .modrm, e => { k with modrm := (if 8 ≤ e then 192 else 0) + e % 8 * 8 + k.modrm % 8 }
  | .modrmLow, e => { k with modrm := k.modrm / 8 * 8 + e }
  | .vex, e => { k with w := e % 2 == 1, l := e / 2 == 1 }

theorem modrmSlot_eq (m : Nat) : modrmSlot m = m / 8 % 8 + (if m / 64 = 3 then 8 else 0) := by
  simp [modrmSlot, Nat.shiftRight_eq_div_pow]

variable {k : TableKey} {a : TableKind} {e : Nat}

theorem index_setIndex_self (he : e < a.length) : (k.setIndex a e).index a = e := by
  cases a with
  | root | byte | mandatory => rfl
  | modrm =>
    simp only [setIndex, index, modrmSlot_eq]
    simp only [TableKind.length] at he
    split_ifs <;> omega
  | modrmLow =>
    simp only [setIndex, index]
    simp only [TableKind.length] at he
    omega
  | vex =>
    simp only [TableKind.length] at he
    interval_cases e <;> rfl

theorem index_setIndex_of_ne {b : TableKind} (hab : b ≠ a) (he : e < a.length) :
    (k.setIndex a e).index b = k.index b := by
  cases a <;> cases b <;> first | exact absurd rfl hab | rfl | skip
  · -- the reg slot set: the rm field stays
    simp only [setIndex, index]
    split_ifs <;> omega
  · -- the rm slot set: the reg field and the form stay
    simp only [setIndex, index, modrmSlot_eq]
    simp only [TableKind.length] at he
    have h8 : (k.modrm / 8 * 8 + e) / 8 = k.modrm / 8 := by omega
    have h64 : (k.modrm / 8 * 8 + e) / 64 = k.modrm / 64 := by omega
    rw [h8, h64]

theorem Valid.setIndex (hk : k.Valid) (he : e < a.length) : (k.setIndex a e).Valid := by
  obtain ⟨h1, h2, h3, h4⟩ := hk
  cases a <;> simp only [TableKind.length] at he
  · exact ⟨he, h2, h3, h4⟩
  · exact ⟨h1, he, h3, h4⟩
  · exact ⟨h1, h2, he, h4⟩
  · refine ⟨h1, h2, h3, ?_⟩
    simp only [setIndex]
    split_ifs <;> omega
  · exact ⟨h1, h2, h3, by simp only [setIndex]; omega⟩
  · exact ⟨h1, h2, h3, h4⟩

end TableKey

namespace Path

/-- a path whose slot lists stay inside the tables of their levels -/
def InRange (p : Path) : Prop := ∀ l ∈ p.levels, ∀ e ∈ l.2.getD [], e < l.1.length

instance (p : Path) : Decidable p.InRange :=
  inferInstanceAs (Decidable (∀ l ∈ p.levels, ∀ e ∈ l.2.getD [], e < l.1.length))

/-- a level's slots stay inside its tables, also when it takes them all -/
theorem InRange.levelSlots {p : Path} (hp : p.InRange) {j : Nat} {c : TableKind}
    {orig : Option (List Nat)} (hlev : p.levels[j]? = some (c, orig)) :
    ∀ e ∈ Trie.levelSlots c orig, e < c.length := by
  rcases orig with _ | es
  · intro e he
    exact List.mem_range.1 he
  · exact hp _ (List.mem_of_getElem? hlev)

/-- the levels of a path visit the kinds in order -/
theorem rank_lt_of_mem_take {p : Path} {j : Nat} {c : TableKind} {orig : Option (List Nat)}
    (h : (c, orig) ∈ p.levels.take j) : c.rank < j := by
  have hc : c ∈ (p.levels.take j).map Prod.fst := List.mem_map_of_mem (f := Prod.fst) h
  rw [List.map_take, show p.levels.map Prod.fst = TableKind.order from rfl] at hc
  exact TableKind.rank_lt_of_mem_take hc

end Path

namespace Trie

variable {t u v w : Trie}

/-- a walk over positions reads a key's slots only at the levels it visits -/
theorem pos_congr_key {k k' : TableKey} {ks : List TableKind}
    (h : ∀ a ∈ ks, k'.index a = k.index a) (p : Nat × Nat) : t.pos k' ks p = t.pos k ks p := by
  induction ks generalizing p with
  | nil => rfl
  | cons a ks ih =>
    have hadv : t.advance k' a p = t.advance k a p := by
      unfold advance
      rw [h a List.mem_cons_self]
    rw [pos_cons, pos_cons, hadv, ih fun b hb => h b (List.mem_cons_of_mem a hb)]

/-- whether a path admits a key depends only on the key's slots at the path's levels -/
theorem admits_congr_key {ls : List (TableKind × Option (List Nat))} {k k' : TableKey}
    (h : ∀ c es, (c, some es) ∈ ls → k'.index c = k.index c) : Admits ls k' ↔ Admits ls k :=
  ⟨fun hk c es hm => h c es hm ▸ hk c es hm, fun hk c es hm => (h c es hm).symm ▸ hk c es hm⟩

/-- a valid key's walk from a position inside a table ends inside a table -/
theorem Shaped.inTable_pos (hs : t.Shaped) {k : TableKey} (hk : k.Valid) (ks : List TableKind)
    {p : Nat × Nat} (hp : t.InTable p) : t.InTable (t.pos k ks p) := by
  induction ks generalizing p with
  | nil => exact hp
  | cons a ks ih =>
    rw [pos_cons]
    refine ih ?_
    by_cases hl : ∃ m, t.slot p = some (.table a m)
    · obtain ⟨m, hm⟩ := hl
      rw [advance_of_link hm]
      exact ⟨a.length, (hs.noted_table a m (hs.link_noted _ a m hm)).2, hk.index_lt a⟩
    · rw [advance_of_ne fun m h => hl ⟨m, h⟩]
      exact hp

/-- every frontier position after the first `j` levels ends the walk, from root slot `r₀`, of a
valid key the path admits on those levels -/
def Reached (p : Path) (r₀ j : Nat) (v : Trie) (G : List (Nat × Nat)) : Prop :=
  ∀ x ∈ G, ∃ k : TableKey, k.Valid ∧ Admits (p.levels.take j) k ∧
    v.pos k (TableKind.order.take j) (0, r₀) = x

theorem Reached.start (p : Path) (r₀ : Nat) : Reached p r₀ 0 t [(0, r₀)] := by
  intro x hx
  rw [List.mem_singleton] at hx
  subst hx
  exact ⟨⟨0, 0, 0, 0, false, false⟩, ⟨by decide, by decide, by decide, by decide⟩,
    by simp [Admits], rfl⟩

/-- a frontier whose positions are reached by keys lies inside tables -/
theorem Reached.inTable {p : Path} {r₀ j : Nat} {G : List (Nat × Nat)} (hR : Reached p r₀ j v G)
    (hs : v.Shaped) (h0 : v.InTable (0, r₀)) : ∀ x ∈ G, v.InTable x := by
  intro x hx
  obtain ⟨k, hk, -, rfl⟩ := hR x hx
  exact hs.inTable_pos hk _ h0

/-- the frontier after the next level is reached: a kept position by the key that reached it,
and a slot of an entered table by the key that reached the entered position, set to the slot
at the new level -/
theorem Reached.next {p : Path} {r₀ j : Nat} {G G' : List (Nat × Nat)} {c : TableKind}
    {orig : Option (List Nat)} (hR : Reached p r₀ j v G) (hst : Stage t p r₀ j v G)
    (hc : c.rank = j) (htake : p.levels.take (j + 1) = p.levels.take j ++ [(c, orig)])
    (he : Entered v w c orig (orig.map (·.map Int.ofNat)) G G')
    (hrange : ∀ e ∈ levelSlots c orig, e < c.length) : Reached p r₀ (j + 1) w G' := by
  -- the walk over the next level goes on from where it ended
  have hstep : ∀ k : TableKey, w.pos k (TableKind.order.take (j + 1)) (0, r₀) =
      w.advance k c (v.pos k (TableKind.order.take j) (0, r₀)) := fun k => by
    rw [← hc, TableKind.take_rank_succ, pos_append, hc, hst.pos_next hc he k r₀]
    rfl
  intro x hx
  rcases (he.mem x).1 hx with ⟨hxG, hxf⟩ | ⟨q, hqG, hq, hxs⟩
  · -- a kept position: the level is skipped there
    obtain ⟨k, hk, hadm, hpos⟩ := hR x hxG
    have horig : orig = none := by
      rcases he.done x hxG with ⟨m, hm, -⟩ | ⟨hnone, -⟩
      · exact absurd hm (hxf m)
      · exact Option.map_eq_none_iff.1 hnone
    subst horig
    refine ⟨k, hk, ?_, ?_⟩
    · rw [htake, admits_append_single]
      exact ⟨hadm, fun es h => by cases h⟩
    · rw [hstep, hpos, advance_of_ne hxf]
  · -- a slot of an entered table: the key that reached the entered position, set to the slot
    obtain ⟨k, hk, hadm, hpos⟩ := hR q hqG
    have hx2 : x.2 < c.length := hrange x.2 hxs
    have hsame : ∀ b, b.rank < j → (k.setIndex c x.2).index b = k.index b := fun b hb =>
      TableKey.index_setIndex_of_ne (fun h => by subst h; omega) hx2
    refine ⟨k.setIndex c x.2, hk.setIndex hx2, ?_, ?_⟩
    · rw [htake, admits_append_single, TableKey.index_setIndex_self hx2]
      refine ⟨(admits_congr_key fun c' es hm => hsame c' (Path.rank_lt_of_mem_take hm)).2 hadm,
        fun es h => ?_⟩
      subst h
      exact hxs
    · rw [hstep, pos_congr_key fun b hb => hsame b (TableKind.rank_lt_of_mem_take hb), hpos,
        advance_of_link hq, TableKey.index_setIndex_self hx2]

/-! ## Entering the levels -/

/-- **Entering the levels reaches the frontier.** For a path inside its tables, after all six
levels every frontier position ends the walk of a valid key the path admits. -/
theorem enterLevels_reached {p : Path} {r₀ : Nat} (hp : p.Sound) (hrange : p.InRange) (n : Nat) :
    ∀ {j : Nat} {G : List (Nat × Nat)} {v w : Trie} {F : List (Nat × Int)}, j + n = 6 →
      (enterLevels (p.levels.drop j) (G.map atInt)).run v = .ok F w → Stage t p r₀ j v G →
      Reached p r₀ j v G → ∃ G', F = G'.map atInt ∧ Stage t p r₀ 6 w G' ∧ Reached p r₀ 6 w G' := by
  induction n with
  | zero =>
    intro j G v w F hj h hst hR
    obtain rfl : j = 6 := hj
    obtain ⟨rfl, rfl⟩ := TrieM.pure_ok h
    exact ⟨G, rfl, hst, hR⟩
  | succ n ih =>
    intro j G v w F hj h hst hR
    obtain ⟨c, orig, hc, hlev, hdrop, htake⟩ := p.levels_drop (j := j) (by omega)
    rw [hdrop] at h
    obtain ⟨F₁, v₁, h₁, h₂⟩ := TrieM.bind_ok h
    obtain ⟨hready, hG⟩ := hst.ready hc hlev hp
    obtain ⟨G₁, rfl, he⟩ := enterLevel_ok (p.levelSlots_nodup hp hlev) G h₁ hst.shaped hst.once
      hst.nodup (.inl rfl) hready hG
    exact ih (by omega) h₂ (hst.next hc hlev htake he)
      (hR.next hst hc htake he (hrange.levelSlots hlev))

/-- **Entering the levels fails only outside a table.** A failure leaves a trie grown from the
last stage, shaped, with its tables linked once, and with the slots of table 0 as they were but
for a link to a root table at the root slot added under; and a path inside its tables, from a
root slot inside table 0, does not fail. -/
theorem enterLevels_error {p : Path} {r₀ : Nat} (hp : p.Sound) (n : Nat) :
    ∀ {j : Nat} {G : List (Nat × Nat)} {v w : Trie} {e : Failure}, j + n = 6 →
      (enterLevels (p.levels.drop j) (G.map atInt)).run v = .error e w → Stage t p r₀ j v G →
      w.Shaped ∧ w.LinksOnce ∧ Grows v w ∧
        (∀ r, w.slot (0, r) = t.slot (0, r) ∨ (r = r₀ ∧ ∃ m, w.slot (0, r) = some (.table .root m))) ∧
        (p.InRange → v.InTable (0, r₀) → Reached p r₀ j v G → False) := by
  induction n with
  | zero =>
    intro j G v w e hj h
    obtain rfl : j = 6 := hj
    cases h
  | succ n ih =>
    intro j G v w e hj h hst
    obtain ⟨c, orig, hc, hlev, hdrop, htake⟩ := p.levels_drop (j := j) (by omega)
    rw [hdrop] at h
    obtain ⟨hready, hG⟩ := hst.ready hc hlev hp
    rcases TrieM.bind_error h with h₁ | ⟨F₁, v₁, h₁, h₂⟩
    · -- this level fails, at a position outside its table, which no reached position is
      obtain ⟨hw, hwo, hg, hroot, x, hx, hout⟩ :=
        enterLevel_error G h₁ hst.shaped hst.once hst.nodup hready hG
      refine ⟨hw, hwo, hg, fun r => ?_, fun _ h0 hR => hout (hR.inTable hst.shaped h0 x hx)⟩
      rcases hroot r with h0 | ⟨hmem, m, hm⟩
      · exact h0 ▸ hst.root r
      · -- a frontier position in table 0 is the root slot added under, before any level
        rcases hst.home _ hmem with ⟨-, rfl⟩ | ⟨b, hb, -⟩
        · have hk : TableKey.Valid ⟨0, 0, 0, 0, false, false⟩ := ⟨by decide, by decide, by decide,
            by decide⟩
          have hr := ((hst.front r _ hk).1 (by simpa using hmem)).1
          obtain rfl : c = .root := TableKind.rank_inj hc
          exact .inr ⟨hr, m, hm⟩
        · exact absurd (hst.shaped.noted_table b 0 hb).1 (lt_irrefl 0)
    · -- a later level fails
      obtain ⟨G₁, rfl, he⟩ := enterLevel_ok (p.levelSlots_nodup hp hlev) G h₁ hst.shaped
        hst.once hst.nodup (.inl rfl) hready hG
      obtain ⟨hw, hwo, hg, hroot, hrest⟩ := ih (by omega) h₂ (hst.next hc hlev htake he)
      exact ⟨hw, hwo, he.grows.trans hg, hroot, fun hrange h0 hR => hrest hrange
        (h0.of_grows he.grows) (hR.next hst hc htake he (hrange.levelSlots hlev))⟩

/-! ## Storing the descriptor -/

/-- **Storing fails only outside a table or at a strong entry.** A failed store leaves the
tables' sizes and kinds, changes only frontier positions, each to what `fillWith` makes of it,
and failed at a strong entry met by a strong one, with the redundancy error, or at a position
outside its table. -/
theorem fill_error {p : Path} {d : Int} {weak : Bool} (G : List (Nat × Nat)) :
    ∀ {v w : Trie} {e : Failure}, (fill p d weak (G.map atInt)).run v = .error e w → G.Nodup →
      w.tables.size = v.tables.size ∧ w.kinds = v.kinds ∧ (∀ n, w.tableSize n = v.tableSize n) ∧
        (∀ x, x ∉ G → w.slot x = v.slot x) ∧
        (∀ x ∈ G, w.slot x = v.slot x ∨ fillWith weak d (v.slot x) = some (w.slot x)) ∧
        ((e = .redundantEntry p.toList ∧ ∃ x ∈ G, fillWith weak d (v.slot x) = none) ∨
          ∃ x ∈ G, ¬ v.InTable x) := by
  induction G with
  | nil =>
    intro v w e h
    cases h
  | cons q rest ih =>
    intro v w e h hnd
    simp only [List.map_cons, atInt, fill] at h
    have hqr : q ∉ rest := (List.nodup_cons.1 hnd).1
    rcases TrieM.bind_error h with h₀ | ⟨⟨tab, i⟩, v₀, hpos, h₁⟩
    · -- the first position is outside its table
      obtain ⟨rfl, hout⟩ := position_error h₀
      exact ⟨rfl, rfl, fun _ => rfl, fun _ _ => rfl, fun _ _ => .inl rfl,
        .inr ⟨q, List.mem_cons_self, hout⟩⟩
    obtain ⟨hv, htab, hidx⟩ := position_ok hpos
    subst v₀
    obtain ⟨rfl, hi⟩ := seqIndex_natCast hidx
    rw [← slot_of_getElem? htab] at h₁
    -- the first position takes the descriptor or stays, and storing goes on; or it stops there
    have hfirst : (∃ v₁, (fill p d weak (rest.map atInt)).run v₁ = .error e w ∧
        v₁.tables.size = v.tables.size ∧ v₁.kinds = v.kinds ∧
        (∀ n, v₁.tableSize n = v.tableSize n) ∧ (∀ x, x ≠ q → v₁.slot x = v.slot x) ∧
        fillWith weak d (v.slot q) = some (v₁.slot q)) ∨
        (e = .redundantEntry p.toList ∧ w = v ∧ fillWith weak d (v.slot q) = none) := by
      -- a strong entry or a link stays for a weak entry and stops a strong one
      have hstay : ∀ s : Slot, (∀ d', s ≠ .weak d') → v.slot q = some s →
          (if (!weak) = true then (throw (Failure.redundantEntry p.toList) : TrieM Unit) >>=
            fun _ => fill p d weak (rest.map atInt) else fill p d weak (rest.map atInt)).run v =
            .error e w → (∃ v₁, (fill p d weak (rest.map atInt)).run v₁ = .error e w ∧
          v₁.tables.size = v.tables.size ∧ v₁.kinds = v.kinds ∧
          (∀ n, v₁.tableSize n = v.tableSize n) ∧ (∀ x, x ≠ q → v₁.slot x = v.slot x) ∧
          fillWith weak d (some s) = some (v₁.slot q)) ∨
          (e = .redundantEntry p.toList ∧ w = v ∧ fillWith weak d (some s) = none) := by
        intro s hs hq hrun
        cases weak
        · rcases TrieM.bind_error hrun with hthrow | ⟨_, _, hthrow, -⟩
          · cases hthrow
            refine .inr ⟨rfl, rfl, ?_⟩
            rcases s with _ | d' | _
            · rfl
            · exact absurd rfl (hs d')
            · rfl
          · cases hthrow
        · refine .inl ⟨v, hrun, rfl, rfl, fun _ => rfl, fun _ _ => rfl, ?_⟩
          rw [hq]
          rcases s with _ | d' | _
          · rfl
          · exact absurd rfl (hs d')
          · rfl
      rcases hq : v.slot q with _ | (d' | d' | ⟨b, m⟩) <;> simp only [hq] at h₁
      · rcases TrieM.bind_error h₁ with h₂ | ⟨⟨⟩, v₁, h₂, h₃⟩
        · exact (setSlot_error h₂).elim
        obtain ⟨h1, h2, h3, h4, h5⟩ := fill_set htab hi h₂
        exact .inl ⟨v₁, h₃, h1, h2, h3, h4, by rw [h5]; rfl⟩
      · exact hstay _ (fun _ h => by cases h) hq h₁
      · rcases TrieM.bind_error h₁ with h₂ | ⟨⟨⟩, v₁, h₂, h₃⟩
        · exact (setSlot_error h₂).elim
        obtain ⟨h1, h2, h3, h4, h5⟩ := fill_set htab hi h₂
        exact .inl ⟨v₁, h₃, h1, h2, h3, h4, by rw [h5]; rfl⟩
      · exact hstay _ (fun _ h => by cases h) hq h₁
    rcases hfirst with ⟨v₁, h₃, hsz₁, hk₁, hts₁, hkeep₁, hq₁⟩ | ⟨rfl, rfl, hnone⟩
    · -- storing went on, and failed later
      obtain ⟨hsz, hk, hts, hkeep, hchg, hwhy⟩ := ih h₃ (List.nodup_cons.1 hnd).2
      have hrest : ∀ x ∈ rest, v₁.slot x = v.slot x := fun x hx =>
        hkeep₁ x fun h => hqr (h ▸ hx)
      refine ⟨hsz.trans hsz₁, hk.trans hk₁, fun n => (hts n).trans (hts₁ n), fun x hx => ?_,
        fun x hx => ?_, ?_⟩
      · rw [hkeep x fun h => hx (List.mem_cons_of_mem q h),
          hkeep₁ x fun h => hx (h ▸ List.mem_cons_self)]
      · rcases List.mem_cons.1 hx with rfl | hx
        · rw [hkeep x hqr]
          exact .inr hq₁
        · rw [← hrest x hx]
          exact hchg x hx
      · rcases hwhy with ⟨he, x, hx, hnone⟩ | ⟨x, hx, hout⟩
        · exact .inl ⟨he, x, List.mem_cons_of_mem q hx, hrest x hx ▸ hnone⟩
        · refine .inr ⟨x, List.mem_cons_of_mem q hx, ?_⟩
          rintro ⟨n, hn, hlt⟩
          exact hout ⟨n, (hts₁ x.1).trans hn, hlt⟩
    · -- a strong entry met by a strong one
      exact ⟨rfl, rfl, fun _ => rfl, fun _ _ => rfl, fun _ _ => .inl rfl,
        .inl ⟨rfl, q, List.mem_cons_self, hnone⟩⟩

/-- storing at a frontier that holds no links, after all six levels, keeps the trie shaped with
its tables linked once, and keeps table 0 -/
theorem Stage.stored {p : Path} {r₀ : Nat} {G : List (Nat × Nat)} {d : Int} {weak : Bool}
    (hst : Stage t p r₀ 6 w G) (hsize : u.tables.size = w.tables.size) (hkinds : u.kinds = w.kinds)
    (hts : ∀ n, u.tableSize n = w.tableSize n) (hkeep : ∀ x, x ∉ G → u.slot x = w.slot x)
    (hchg : ∀ x ∈ G, u.slot x = w.slot x ∨ fillWith weak d (w.slot x) = some (u.slot x)) :
    u.Shaped ∧ u.LinksOnce ∧ u.tableSize 0 = t.tableSize 0 := by
  -- after all six levels the frontier holds no links, and storing leaves none
  have hnolink : ∀ x ∈ G, ∀ b m, w.slot x ≠ some (.table b m) := fun x hx b m hm =>
    absurd (hst.free x hx b m hm) (by have := b.rank_lt_six; omega)
  have hl : ∀ x b m, u.slot x = some (.table b m) ↔ w.slot x = some (.table b m) := by
    intro x b m
    by_cases hx : x ∈ G
    · rcases hchg x hx with hsame | hfill
      · rw [hsame]
      · exact iff_of_false (fillWith_no_link hfill (hnolink x hx) b m) (hnolink x hx b m)
    · rw [hkeep x hx]
  exact ⟨hst.shaped.of_links hsize hts hkinds hl,
    fun x y a b n hx hy => hst.once x y a b n ((hl x a n).1 hx) ((hl y b n).1 hy),
    (hts 0).trans hst.size0⟩

theorem atInt_injective : Function.Injective atInt := fun x y h => by
  obtain ⟨h1, h2⟩ := Prod.mk.inj h
  exact Prod.ext h1 (Int.ofNat.inj h2)

/-- **A failed addition.** Adding a sound path that fails leaves a shaped trie with its tables
linked once and table 0 as it was. A path inside its tables, added under a root slot inside
table 0, fails only for a strong entry over a strong one: some key the path admits finds a
strong instruction. -/
theorem add_error {p : Path} {d : Int} {r₀ : Nat} {weak : Bool} {e : Failure}
    (h : (add p d r₀ weak).run t = .error e u) (hs : t.Shaped) (ho : t.LinksOnce)
    (hp : p.Sound) :
    u.Shaped ∧ u.LinksOnce ∧ u.tableSize 0 = t.tableSize 0 ∧
      (p.InRange → t.InTable (0, r₀) → e = .redundantEntry p.toList ∧ weak = false ∧
        ∃ k, k.Valid ∧ Admits p.levels k ∧ ∃ d', t.lookup r₀ k = some (.instr d')) := by
  unfold add at h
  rcases TrieM.bind_error h with h₁ | ⟨F, w, h₁, h₂⟩
  · -- the levels fail, which a path inside its tables does not
    obtain ⟨hu, huo, hg, -, hno⟩ := enterLevels_error hp 6 (j := 0) (G := [(0, r₀)]) rfl h₁
      (Stage.start hs ho r₀)
    exact ⟨hu, huo, hg.sizes 0 hs.size_pos, fun hrange h0 =>
      (hno hrange h0 (Reached.start p r₀)).elim⟩
  · -- storing fails
    obtain ⟨G, rfl, hst⟩ := enterLevels_ok hp 6 (j := 0) (G := [(0, r₀)]) rfl h₁
      (Stage.start hs ho r₀)
    obtain ⟨hsize, hkinds, hts, hkeep, hchg, hwhy⟩ := fill_error G h₂ hst.nodup
    obtain ⟨hu, huo, h0u⟩ := hst.stored hsize hkinds hts hkeep hchg
    refine ⟨hu, huo, h0u, fun hrange h0 => ?_⟩
    obtain ⟨G', hGG', -, hR⟩ := enterLevels_reached hp hrange 6 (j := 0) (G := [(0, r₀)]) rfl h₁
      (Stage.start hs ho r₀) (Reached.start p r₀)
    obtain rfl := (List.map_injective_iff.2 atInt_injective) hGG'
    have h0w : w.InTable (0, r₀) := by
      obtain ⟨n, hn, hlt⟩ := h0
      exact ⟨n, hst.size0.trans hn, hlt⟩
    rcases hwhy with ⟨he, x, hx, hnone⟩ | ⟨x, hx, hout⟩
    · -- the strong entry is what a key reaching it finds
      obtain ⟨k, hk, hadm, hpos⟩ := hR x hx
      rw [TableKind.take_of_six_le le_rfl] at hpos
      rw [List.take_of_length_le (by simp [Path.levels])] at hadm
      have hfound : w.slot x = t.lookup r₀ k := by
        rw [← hpos, slot_pos]
        exact hst.lookup r₀ k hk
      have hlink : ∀ b m, w.slot x ≠ some (.table b m) := fun b m hm =>
        absurd (hst.free x hx b m hm) (by have := b.rank_lt_six; omega)
      rcases weak
      · rcases hwx : w.slot x with _ | (d' | d' | ⟨b, m⟩) <;> rw [hwx] at hnone
        · cases hnone
        · exact ⟨he, rfl, k, hk, hadm, d', hfound ▸ hwx⟩
        · cases hnone
        · exact absurd hwx (hlink b m)
      · rcases hwx : w.slot x with _ | (d' | d' | ⟨b, m⟩) <;> rw [hwx] at hnone <;> cases hnone
    · exact absurd (hR.inTable hst.shaped h0w x hx) hout

/-- **A failed addition keeps the root slots**, but for a link to a root table at the root slot
added under. -/
theorem add_error_root {p : Path} {d : Int} {r₀ : Nat} {weak : Bool} {e : Failure}
    (h : (add p d r₀ weak).run t = .error e u) (hs : t.Shaped) (ho : t.LinksOnce)
    (hp : p.Sound) (r : Nat) :
    u.slot (0, r) = t.slot (0, r) ∨ (r = r₀ ∧ ∃ m, u.slot (0, r) = some (.table .root m)) := by
  unfold add at h
  rcases TrieM.bind_error h with h₁ | ⟨F, w, h₁, h₂⟩
  · exact (enterLevels_error hp 6 (j := 0) (G := [(0, r₀)]) rfl h₁ (Stage.start hs ho r₀)).2.2.2.1 r
  · obtain ⟨G, rfl, hst⟩ := enterLevels_ok hp 6 (j := 0) (G := [(0, r₀)]) rfl h₁
      (Stage.start hs ho r₀)
    obtain ⟨-, -, -, hkeep, -, -⟩ := fill_error G h₂ hst.nodup
    -- after all six levels the frontier lies in noted tables, none of them table 0
    have hout : (0, r) ∉ G := fun hmem => by
      rcases hst.home _ hmem with ⟨-, h6⟩ | ⟨b, hb, -⟩
      · cases h6
      · exact absurd (hst.shaped.noted_table b 0 hb).1 (lt_irrefl 0)
    rw [hkeep _ hout]
    exact hst.root r

end Trie

end X86Codec
