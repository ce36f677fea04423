import X86Codec.Proofs.TrieMerge
import X86Codec.Decoder.Decode
/-!
The words of a laid-out trie.

Laying out places the present tables with slots one after another from offset 0, each rounded
up to four words, and writes each slot's word at its table's offset: the kind code in the
three low bits and, above them, half the target table's offset or twice the descriptor
number. An empty slot stays zero.

Main statements:
* `offsets_placed`: offsets are multiples of four and the tables' words do not overlap;
* `writeTables_ok`: the words hold every placed table's slots, and writing changes no word
  outside the placed tables.
-/

namespace X86Codec.Trie

variable {t u : Trie}

/-! ## Offsets -/

/-- what placing the tables before `j` gives: each placed table is present and before `j`, its
offset a multiple of four, and its words end before `last` and before the next table's -/
structure Placed (t : Trie) (j : Nat) (offs : Array (Option Nat)) (last : Nat) : Prop where
  size : offs.size = t.tables.size
  placed : ∀ n o : Nat, offs[n]? = some (some o) → n < j ∧ o % 4 = 0 ∧
    ∃ tab : Array (Option Slot), t.tables[n]? = some (some tab) ∧ o + tab.size ≤ last
  apart : ∀ n n' o o' : Nat, offs[n]? = some (some o) → offs[n']? = some (some o') → n < n' →
    ∃ tab : Array (Option Slot), t.tables[n]? = some (some tab) ∧ o + tab.size ≤ o'
  last_mod : last % 4 = 0

theorem Placed.start (t : Trie) :
    Placed t 0 (Array.replicate t.tables.size none) 0 where
  size := Array.size_replicate
  placed n o h := by simp [Array.getElem?_replicate] at h
  apart n _ o _ h := by simp [Array.getElem?_replicate] at h
  last_mod := rfl

/-- placing table `j` keeps the placement -/
theorem Placed.next {j : Nat} {offs : Array (Option Nat)} {last : Nat}
    (hp : Placed t j offs last) (hj : j < t.tables.size) :
    Placed t (j + 1) (t.place (offs, last) j).1 (t.place (offs, last) j).2 := by
  have hkeep : Placed t (j + 1) offs last :=
    { hp with placed := fun n o h => (hp.placed n o h).imp (by omega) id }
  simp only [place]
  split_ifs with h0
  · exact hkeep
  rcases htab : t.tables[j]? with _ | _ | tab
  · exact hkeep
  · exact hkeep
  simp only
  split_ifs with hempty
  · exact hkeep
  have hjs : j < offs.size := hp.size ▸ hj
  -- the new table starts where the placed ones end
  have hget : ∀ n, (offs.setIfInBounds j (some last))[n]? =
      if n = j then some (some last) else offs[n]? := fun n => by
    rw [Array.getElem?_setIfInBounds]
    by_cases hn : n = j
    · simp [hn, hjs]
    · simp [hn, Ne.symm hn]
  have hround : tab.size ≤ (tab.size + 3) / 4 * 4 := by omega
  refine ⟨by rw [Array.size_setIfInBounds, hp.size], fun n o h => ?_,
    fun n n' o o' h h' hlt => ?_, by have := hp.last_mod; omega⟩
  · rw [hget] at h
    split_ifs at h with hn
    · cases h
      exact ⟨by omega, hp.last_mod, tab, hn ▸ htab, by omega⟩
    · obtain ⟨hnj, hmod, tab', htab', hend⟩ := hp.placed n o h
      exact ⟨by omega, hmod, tab', htab', by omega⟩
  · rw [hget] at h h'
    split_ifs at h h' with hn hn'
    · omega
    · -- a table after the new one was placed before it
      exact absurd (hp.placed n' o' h').1 (by omega)
    · cases h'
      obtain ⟨-, -, tab', htab', hend⟩ := hp.placed n o h
      exact ⟨tab', htab', hend⟩
    · exact hp.apart n n' o o' h h' hlt

/-- **Placement.** The offsets place every present table after the ones before it, on a
multiple of four, without overlap. -/
theorem offsets_placed (t : Trie) : Placed t t.tables.size (offsets t).1 (offsets t).2 := by
  suffices h : ∀ j ≤ t.tables.size, Placed t j ((List.range j).foldl t.place
      (Array.replicate t.tables.size none, 0)).1
      ((List.range j).foldl t.place (Array.replicate t.tables.size none, 0)).2 from
    h _ le_rfl
  intro j hj
  induction j with
  | zero => exact Placed.start t
  | succ j ih =>
    rw [List.range_succ, List.foldl_append, List.foldl_cons, List.foldl_nil]
    exact (ih (by omega)).next (by omega)

/-- two placed tables have their words apart -/
theorem Placed.disjoint {j : Nat} {offs : Array (Option Nat)} {last : Nat}
    (hp : Placed t j offs last) {n n' o o' : Nat} {tab tab' : Array (Option Slot)}
    (h : offs[n]? = some (some o)) (h' : offs[n']? = some (some o'))
    (ht : t.tables[n]? = some (some tab)) (ht' : t.tables[n']? = some (some tab'))
    (hne : n ≠ n') : o + tab.size ≤ o' ∨ o' + tab'.size ≤ o := by
  rcases Nat.lt_or_gt_of_ne hne with hlt | hlt
  · obtain ⟨tab₁, ht₁, hend⟩ := hp.apart n n' o o' h h' hlt
    rw [ht₁] at ht
    cases ht
    exact .inl hend
  · obtain ⟨tab₁, ht₁, hend⟩ := hp.apart n' n o' o h' h hlt
    rw [ht₁] at ht'
    cases ht'
    exact .inr hend

/-! ## Writing the words -/

/-- **Writing a table.** Writing slots from offset `off` changes only the words of those slots:
an empty slot keeps its word, and a full one gets its word, whose link leads to a placed
table. -/
theorem writeSlots_ok {offs : Array (Option Nat)} {off : Nat} (xs : List (Option Slot)) :
    ∀ (i : Nat) {words words' : Array Int}, writeSlots offs off (xs.zipIdx i) words = .ok words' →
      words'.size = words.size ∧
      (∀ p, p < off + i ∨ off + i + xs.length ≤ p → words'[p]? = words[p]?) ∧
      (∀ q, xs[q]? = some none → words'[off + i + q]? = words[off + i + q]?) ∧
      ∀ q s, xs[q]? = some (some s) → ∃ w, slotWord offs s = .ok w ∧
        (off + i + q < words.size → words'[off + i + q]? = some w) := by
  induction xs with
  | nil =>
    intro i words words' h
    cases h
    exact ⟨rfl, fun _ _ => rfl, by simp, by simp⟩
  | cons x xs ih =>
    intro i words words' h
    rw [List.zipIdx_cons] at h
    have hshift : ∀ q, off + (i + 1) + q = off + i + (q + 1) := fun q => by omega
    rcases x with _ | s
    · -- an empty slot is passed over
      obtain ⟨hsize, hframe, hnone, hsome⟩ := ih (i + 1) h
      refine ⟨hsize, fun p hp => hframe p (by simp only [List.length_cons] at hp; omega),
        fun q hq => ?_,
        fun q s hq => ?_⟩
      · rcases q with _ | q
        · exact hframe _ (by omega)
        · rw [← hshift]; exact hnone q hq
      · rcases q with _ | q
        · cases hq
        · rw [← hshift]; exact hsome q s hq
    · rcases hw : slotWord offs s with e | w
      · simp [writeSlots, hw, bind, Except.bind] at h
      simp only [writeSlots, hw, bind, Except.bind] at h
      obtain ⟨hsize, hframe, hnone, hsome⟩ := ih (i + 1) h
      rw [Array.size_setIfInBounds] at hsize
      -- the word written first is kept by the rest
      have hother : ∀ p, p ≠ off + i → (words.setIfInBounds (off + i) w)[p]? = words[p]? :=
        fun p hp => by rw [Array.getElem?_setIfInBounds, if_neg (Ne.symm hp)]
      refine ⟨hsize, fun p hp => ?_, fun q hq => ?_, fun q s' hq => ?_⟩
      · simp only [List.length_cons] at hp
        rw [hframe p (by omega), hother p (by omega)]
      · rcases q with _ | q
        · cases hq
        · rw [← hshift, hnone q hq, hother _ (by omega)]
      · rcases q with _ | q
        · simp only [List.getElem?_cons_zero, Option.some.injEq] at hq
          subst hq
          refine ⟨w, hw, fun hlt => ?_⟩
          rw [Nat.add_zero] at hlt ⊢
          rw [hframe _ (by omega), Array.getElem?_setIfInBounds, if_pos rfl, if_pos hlt]
        · rw [← hshift]
          obtain ⟨w', hw', hin⟩ := hsome q s' hq
          exact ⟨w', hw', fun hlt => hin (by rw [Array.size_setIfInBounds]; omega)⟩

/-- what the words hold of the tables in `L`: each slot of a placed table has its word, and an
empty slot keeps the word it had -/
structure Written (t : Trie) (offs : Array (Option Nat)) (L : List Nat)
    (words words' : Array Int) : Prop where
  size : words'.size = words.size
  frame : ∀ p, (∀ n ∈ L, ∀ o tab, offs[n]? = some (some o) → t.tables[n]? = some (some tab) →
    p < o ∨ o + tab.size ≤ p) → words'[p]? = words[p]?
  empty : ∀ n ∈ L, ∀ o tab, offs[n]? = some (some o) → t.tables[n]? = some (some tab) →
    ∀ q, tab[q]? = some none → words'[o + q]? = words[o + q]?
  full : ∀ n ∈ L, ∀ o tab, offs[n]? = some (some o) → t.tables[n]? = some (some tab) →
    ∀ q s, tab[q]? = some (some s) → ∃ w, slotWord offs s = .ok w ∧
      (o + q < words.size → words'[o + q]? = some w)

/-- **Writing the tables.** Writing distinct placed tables writes each slot's word and changes
no word outside them. -/
theorem writeTables_ok {j last : Nat} {offs : Array (Option Nat)} (hp : Placed t j offs last) :
    ∀ (L : List Nat) {words words' : Array Int}, L.Nodup →
      writeTables t offs L words = .ok words' → Written t offs L words words' := by
  intro L
  induction L with
  | nil =>
    intro words words' _ h
    cases h
    exact ⟨rfl, fun _ _ => rfl, by simp, by simp⟩
  | cons num rest ih =>
    intro words words' hnd h
    obtain ⟨hnum, hnd⟩ := List.nodup_cons.1 hnd
    -- a table that is not both placed and present is passed over
    have hpass : (∀ o tab, offs[num]? = some (some o) → t.tables[num]? = some (some tab) →
        False) → writeTables t offs rest words = .ok words' → Written t offs (num :: rest) words words' := by
      intro hno h
      have hw := ih hnd h
      refine ⟨hw.size, fun p hp => hw.frame p fun n hn => hp n (.tail _ hn), fun n hn => ?_,
        fun n hn => ?_⟩
      · rcases List.mem_cons.1 hn with rfl | hn
        · exact fun o tab ho ht => (hno o tab ho ht).elim
        · exact hw.empty n hn
      · rcases List.mem_cons.1 hn with rfl | hn
        · exact fun o tab ho ht => (hno o tab ho ht).elim
        · exact hw.full n hn
    unfold writeTables at h
    rcases ho : offs[num]?.join with _ | o
    · rw [ho] at h
      exact hpass (fun o _ ho' => by simp [ho'] at ho) h
    rcases ht : t.tables[num]? with _ | _ | tab
    · rw [ho, ht] at h
      exact hpass (fun _ _ _ ht' => by simp [ht'] at ht) h
    · rw [ho, ht] at h
      exact hpass (fun _ _ _ ht' => by simp [ht'] at ht) h
    rw [ho, ht] at h
    simp only [bind, Except.bind] at h
    rcases hws : writeSlots offs o tab.toList.zipIdx words with e | words₁
    · rw [hws] at h; cases h
    rw [hws] at h
    have ho' : offs[num]? = some (some o) := Option.join_eq_some_iff.1 ho
    obtain ⟨hsize₁, hframe₁, hnone₁, hsome₁⟩ := writeSlots_ok tab.toList 0 hws
    simp only [Nat.add_zero, Array.length_toList] at hsize₁ hframe₁ hnone₁ hsome₁
    have hw := ih hnd h
    -- the later tables' words lie apart from this one's
    have hapart : ∀ n ∈ rest, ∀ o' tab', offs[n]? = some (some o') →
        t.tables[n]? = some (some tab') → o + tab.size ≤ o' ∨ o' + tab'.size ≤ o :=
      fun n hn o' tab' h' ht' => hp.disjoint ho' h' ht ht' fun he => hnum (he ▸ hn)
    refine ⟨hw.size.trans hsize₁, fun p hpL => ?_, fun n hn => ?_, fun n hn => ?_⟩
    · rw [hw.frame p fun n hn => hpL n (.tail _ hn), hframe₁ p (hpL num (.head _) o tab ho' ht)]
    · rcases List.mem_cons.1 hn with rfl | hn
      · intro o₂ tab₂ ho₂ ht₂ q hq
        rw [ho'] at ho₂; rw [ht] at ht₂
        cases ho₂; cases ht₂
        have hq' : q < tab.size := (Array.getElem?_eq_some_iff.1 hq).1
        rw [hw.frame _ fun n' hn' o' tab' h' ht' => by have := hapart n' hn' o' tab' h' ht'; omega,
          hnone₁ q (by simpa using hq)]
      · intro o' tab' h' ht' q hq
        have hq' : q < tab'.size := (Array.getElem?_eq_some_iff.1 hq).1
        rw [hw.empty n hn o' tab' h' ht' q hq,
          hframe₁ _ (by have := hapart n hn o' tab' h' ht'; omega)]
    · rcases List.mem_cons.1 hn with rfl | hn
      · intro o₂ tab₂ ho₂ ht₂ q s hq
        rw [ho'] at ho₂; rw [ht] at ht₂
        cases ho₂; cases ht₂
        have hq' : q < tab.size := (Array.getElem?_eq_some_iff.1 hq).1
        obtain ⟨w, hw', hin⟩ := hsome₁ q s (by simpa using hq)
        refine ⟨w, hw', fun hlt => ?_⟩
        rw [hw.frame _ fun n' hn' o' tab' h' ht' => by have := hapart n' hn' o' tab' h' ht'; omega]
        exact hin hlt
      · intro o' tab' h' ht' q s hq
        obtain ⟨w, hw', hin⟩ := hw.full n hn o' tab' h' ht' q s hq
        exact ⟨w, hw', fun hlt => hin (by rw [hsize₁]; exact hlt)⟩

end X86Codec.Trie
