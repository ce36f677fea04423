import Mathlib.Tactic
import X86Codec.Listing.SizeSet
/-!
The size set lists every code it is given.

A code is placed by probing the eight slots from its home slot. The probe word starts below
`2^64` and loses five bits at each move, so it is zero after thirteen moves; from then on a
move goes from slot `i` to `5 i + 1` modulo eight, which runs through all eight slots before
it repeats. Within twenty-one moves a probe has therefore looked at every slot, and the fuel
of `place` is more than that.

Main statements:
- `probe_covers`: from any home slot and probe word, every slot is looked at within
  twenty-one moves;
- `mem_insert_of_free`: a code inserted while a slot is free is in the set afterwards;
- `mem_ofList`: for at most eight codes, the set lists exactly the codes of the list.
-/

namespace X86Codec.SizeSet

/-! ## Probing -/

/-- one move of a probe: the next slot and the shifted probe word -/
def probeStep (s : Nat × Nat) : Nat × Nat := (nextSlot s.1 (s.2 >>> 5), s.2 >>> 5)

/-- a move once the probe word is zero -/
def lcgStep (i : Nat) : Nat := (5 * i + 1) % 8

theorem nextSlot_lt (i probe : Nat) : nextSlot i probe < 8 := Nat.mod_lt _ (by decide)

theorem probeStep_iterate_snd (m : Nat) (s : Nat × Nat) :
    (probeStep^[m] s).2 = s.2 >>> (5 * m) := by
  induction m generalizing s with
  | zero => rfl
  | succ m ih =>
    rw [Function.iterate_succ_apply, ih]
    simp only [probeStep]
    rw [← Nat.shiftRight_add]
    congr 1
    omega

theorem probeStep_iterate_fst_lt (m : Nat) (s : Nat × Nat) (hs : s.1 < 8) :
    (probeStep^[m] s).1 < 8 := by
  induction m generalizing s with
  | zero => exact hs
  | succ m ih =>
    rw [Function.iterate_succ_apply]
    exact ih _ (nextSlot_lt _ _)

/-- once the probe word is zero it stays zero and the slots follow `lcgStep` -/
theorem probeStep_iterate_zero (r i : Nat) : probeStep^[r] (i, 0) = (lcgStep^[r] i, 0) := by
  induction r generalizing i with
  | zero => rfl
  | succ r ih =>
    rw [Function.iterate_succ_apply, Function.iterate_succ_apply]
    have : probeStep (i, 0) = (lcgStep i, 0) := by
      simp [probeStep, nextSlot, lcgStep]
    rw [this, ih]

/-- `lcgStep` runs through all eight slots from any slot -/
theorem lcg_covers : ∀ x < 8, ∀ j < 8, ∃ r < 8, lcgStep^[r] x = j := by decide

/-- **Coverage.** From a slot and a probe word below `2^64`, every slot is looked at within
twenty-one moves. -/
theorem probe_covers (i p : Nat) (hi : i < 8) (hp : p < Word.modulus) (j : Nat) (hj : j < 8) :
    ∃ m < 21, (probeStep^[m] (i, p)).1 = j := by
  -- after thirteen moves the probe word has lost all its bits
  have hzero : (probeStep^[13] (i, p)).2 = 0 := by
    rw [probeStep_iterate_snd, Nat.shiftRight_eq_div_pow]
    exact Nat.div_eq_of_lt (by unfold Word.modulus at hp; simp only at hp ⊢; omega)
  set x := (probeStep^[13] (i, p)).1 with hx
  have hxlt : x < 8 := probeStep_iterate_fst_lt 13 (i, p) hi
  obtain ⟨r, hr, hrj⟩ := lcg_covers x hxlt j hj
  refine ⟨13 + r, by omega, ?_⟩
  have hs : probeStep^[13] (i, p) = (x, 0) := Prod.ext rfl hzero
  rw [Nat.add_comm, Function.iterate_add_apply, hs, probeStep_iterate_zero]
  exact hrj

/-! ## Placing one code -/

variable {k : Int}

theorem length_place (fuel i probe : Nat) (slots : List (Option Int)) :
    (place k fuel i probe slots).length = slots.length := by
  induction fuel generalizing i probe with
  | zero => rfl
  | succ fuel ih =>
    unfold place
    split
    · exact List.length_set
    · split
      · rfl
      · exact ih _ _

/-- placing a code adds that code only -/
theorem mem_place (fuel i probe : Nat) (slots : List (Option Int)) (c : Int)
    (h : some c ∈ place k fuel i probe slots) : some c ∈ slots ∨ c = k := by
  induction fuel generalizing i probe with
  | zero => exact Or.inl h
  | succ fuel ih =>
    unfold place at h
    split at h
    · rcases List.mem_or_eq_of_mem_set h with h | h
      · exact Or.inl h
      · exact Or.inr (Option.some.inj h)
    · split at h
      · exact Or.inl h
      · exact ih _ _ h

/-- a code already in the slots stays there -/
theorem mem_place_of_mem (fuel i probe : Nat) (slots : List (Option Int)) (c : Int)
    (h : some c ∈ slots) : some c ∈ place k fuel i probe slots := by
  obtain ⟨j, hj, hjc⟩ := List.getElem_of_mem h
  have hget : slots.getD j none = some c := by simp [List.getD_eq_getElem?_getD, hj, hjc]
  have hkeep := place_keeps k fuel i probe slots j c hget
  have hlen : j < (place k fuel i probe slots).length := by rw [length_place]; exact hj
  rw [List.getD_eq_getElem?_getD, List.getElem?_eq_getElem hlen, Option.getD_some] at hkeep
  exact hkeep ▸ List.getElem_mem hlen

/-- a probe that meets a free slot or the code itself within its fuel places the code -/
theorem mem_place_of_reach (fuel i probe : Nat) (slots : List (Option Int))
    (hlen : slots.length = 8) (hi : i < 8)
    (hreach : ∃ m < fuel, slots.getD (probeStep^[m] (i, probe)).1 none = none ∨
      slots.getD (probeStep^[m] (i, probe)).1 none = some k) :
    some k ∈ place k fuel i probe slots := by
  induction fuel generalizing i probe with
  | zero => obtain ⟨m, hm, -⟩ := hreach; omega
  | succ fuel ih =>
    obtain ⟨m, hm, hslot⟩ := hreach
    unfold place
    split
    · exact List.mem_set (by omega) _
    · rename_i k' hk'
      split
      · rename_i heq
        subst heq
        have hi' : i < slots.length := by omega
        rw [List.getD_eq_getElem?_getD, List.getElem?_eq_getElem hi', Option.getD_some] at hk'
        exact hk' ▸ List.getElem_mem hi'
      · rename_i hne
        -- the home slot holds another code, so the slot the probe needs comes later
        cases m with
        | zero =>
          simp only [Function.iterate_zero, id] at hslot
          rw [hk'] at hslot
          rcases hslot with h | h
          · cases h
          · exact absurd (Option.some.inj h) hne
        | succ m =>
          refine ih _ _ (nextSlot_lt _ _) ⟨m, by omega, ?_⟩
          rw [Function.iterate_succ_apply] at hslot
          exact hslot

/-! ## Counting taken slots -/

/-- the number of slots that hold a code -/
def taken (slots : List (Option Int)) : Nat := (slots.filterMap id).length

theorem taken_set_le (slots : List (Option Int)) (i : Nat) (c : Int) :
    taken (slots.set i (some c)) ≤ taken slots + 1 := by
  induction slots generalizing i with
  | nil => simp [taken]
  | cons s rest ih =>
    cases i with
    | zero => cases s <;> simp [taken]
    | succ i =>
      have := ih i
      cases s <;> simp_all [taken]

theorem taken_place_le (fuel i probe : Nat) (slots : List (Option Int)) :
    taken (place k fuel i probe slots) ≤ taken slots + 1 := by
  induction fuel generalizing i probe with
  | zero => simp [place]
  | succ fuel ih =>
    unfold place
    split
    · exact taken_set_le _ _ _
    · split
      · omega
      · exact ih _ _

/-- slots that are not all taken have a free slot -/
theorem exists_free (slots : List (Option Int)) (h : taken slots < slots.length) :
    ∃ j < slots.length, slots.getD j none = none := by
  induction slots with
  | nil => simp at h
  | cons s rest ih =>
    cases s with
    | none => exact ⟨0, by simp, rfl⟩
    | some c =>
      have hrest : taken rest < rest.length := by simp [taken] at h ⊢; omega
      obtain ⟨j, hj, hfree⟩ := ih hrest
      exact ⟨j + 1, by simp; omega, by simpa using hfree⟩

theorem ofSigned_lt (v : Int) : Word.ofSigned v < Word.modulus := by
  unfold Word.ofSigned
  have hm : (0 : Int) < (Word.modulus : Int) := by unfold Word.modulus; omega
  have h1 := Int.emod_nonneg v (ne_of_gt hm)
  have h2 := Int.emod_lt_of_pos v hm
  omega

/-- **Insertion.** A code inserted while a slot is free is in the set afterwards. -/
theorem mem_insert_of_free (slots : List (Option Int)) (hlen : slots.length = 8)
    (hfree : taken slots < 8) : some k ∈ insert slots k := by
  obtain ⟨j, hj, hjfree⟩ := exists_free slots (by omega)
  obtain ⟨m, hm, hmj⟩ := probe_covers (Word.ofSigned (codeHash k) % 8) (Word.ofSigned (codeHash k))
    (Nat.mod_lt _ (by decide)) (ofSigned_lt _) j (by omega)
  exact mem_place_of_reach _ _ _ slots hlen (Nat.mod_lt _ (by decide))
    ⟨m, by unfold probeFuel; omega, Or.inl (hmj ▸ hjfree)⟩

/-! ## Gathering a list -/

theorem foldl_insert (codes : List Int) (slots : List (Option Int)) (hlen : slots.length = 8)
    (hroom : taken slots + codes.length ≤ 8) :
    (codes.foldl insert slots).length = 8 ∧
      taken (codes.foldl insert slots) ≤ taken slots + codes.length ∧
      ∀ c, some c ∈ codes.foldl insert slots ↔ some c ∈ slots ∨ c ∈ codes := by
  induction codes generalizing slots with
  | nil => simp [hlen]
  | cons x rest ih =>
    simp only [List.foldl_cons, List.length_cons] at hroom ⊢
    have hlen' : (insert slots x).length = 8 := by rw [insert, length_place, hlen]
    have htaken : taken (insert slots x) ≤ taken slots + 1 := taken_place_le _ _ _ _
    obtain ⟨h1, h2, h3⟩ := ih (insert slots x) hlen' (by omega)
    refine ⟨h1, by omega, fun c => ?_⟩
    rw [h3 c]
    have hx : some x ∈ insert slots x := mem_insert_of_free slots hlen (by omega)
    constructor
    · rintro (hc | hc)
      · rcases mem_place _ _ _ _ c hc with hc | rfl
        · exact Or.inl hc
        · exact Or.inr List.mem_cons_self
      · exact Or.inr (List.mem_cons_of_mem _ hc)
    · rintro (hc | hc)
      · exact Or.inl (mem_place_of_mem _ _ _ _ c hc)
      · rcases List.mem_cons.1 hc with rfl | hc
        · exact Or.inl hx
        · exact Or.inr hc

/-- **Membership.** For at most eight codes, the size set lists exactly the codes of the
list. -/
theorem mem_ofList (codes : List Int) (h : codes.length ≤ 8) (c : Int) :
    c ∈ ofList codes ↔ c ∈ codes := by
  obtain ⟨-, -, hmem⟩ := foldl_insert codes empty (by decide) (by simpa [taken, empty] using h)
  simp only [ofList, List.mem_filterMap, id_eq, exists_eq_right]
  rw [hmem c]
  simp [empty]

example : ofList [14, 6, -3, 22] = [22, -3, 14, 6] := by decide

end X86Codec.SizeSet
