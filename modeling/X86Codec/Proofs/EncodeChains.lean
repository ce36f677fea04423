import X86Codec.EncodeTable.Build
import Mathlib.Tactic
/-!
The chains of the encoder's descriptor lines.

A variant map made by additions (`VariantMap.WF`) holds each name once, with a nonempty list of
variants, and the index finds each name at its place; every map the entries give has that shape
(`variantMap_wf`). From such a map `lines` writes, for the `i`-th name in order of first use,
the chain of its kept variants (`VariantMap.kept`: the first variant of each key, in the order
of immediate width and then of the encoding's priority): the first at the name's slot, the
others at the places after all names from `altStart i` on, each line naming the next as its
alternative and the last none (`chainSlot`, `getElem_chain`).

The main statement is `VariantMap.WF.lines_chains`: the slots of the lines are distinct, the
names' slots are the names, and the places after all names are `0 .. altCount - 1`, each taken
once. It rests on `lines_eq`, which reads `lines` as the chains of the names one after another
(`chainsFrom`), each starting its alternatives where the one before stopped.
-/

namespace X86Codec

/-! ## Variant maps made by additions -/

namespace VariantMap

/-- the shape `add` keeps: a variant list for each name, each name once and found by the index
at its place, and no name without a variant -/
structure WF (m : VariantMap) : Prop where
  size : m.variants.size = m.names.size
  nodup : m.names.toList.Nodup
  index : ∀ (n : String) (i : Nat), m.index[n]? = some i ↔ m.names[i]? = some n
  nonempty : ∀ (i : Nat) (vs : Array Variant), m.variants[i]? = some vs → vs ≠ #[]

variable {m : VariantMap}

theorem wf_initial : initial.WF where
  size := rfl
  nodup := by simp [initial]
  index n i := by
    simp only [initial, Std.HashMap.getElem?_insert, Std.HashMap.getElem?_empty]
    by_cases h : n = "FE_NOP"
    · subst h
      rcases i with _ | i <;> simp
    · have : ("FE_NOP" == n) = false := beq_eq_false_iff_ne.2 (Ne.symm h)
      rcases i with _ | i <;> simp [this, Ne.symm h]
  nonempty i vs h := by
    rcases i with _ | i <;> simp [initial] at h
    rw [← h]
    simp

/-- a name the index does not find is not among the names -/
theorem WF.not_mem (hm : m.WF) {n : String} (h : m.index[n]? = none) : n ∉ m.names.toList := by
  intro hn
  obtain ⟨i, hi, rfl⟩ := List.getElem_of_mem hn
  have := (hm.index m.names.toList[i] i).2 (by simp)
  rw [h] at this
  cases this

theorem WF.add (hm : m.WF) (name : String) (v : Variant) : (m.add name v).WF := by
  unfold VariantMap.add
  split
  · -- a known name: its variants grow
    refine ⟨by simp [hm.size], hm.nodup, hm.index, fun j vs h => ?_⟩
    rw [Array.getElem?_modify] at h
    split_ifs at h
    · obtain ⟨ws, -, rfl⟩ := Option.map_eq_some_iff.1 h
      simp
    · exact hm.nonempty j vs h
  · -- a new name: it goes last, with its one variant, and the index finds it there
    rename_i hi
    have hnot := hm.not_mem hi
    refine ⟨by simp [hm.size], ?_, fun n j => ?_, fun j vs h => ?_⟩
    · rw [Array.toList_push, List.nodup_append]
      refine ⟨hm.nodup, List.nodup_singleton _, fun a ha b hb => ?_⟩
      rw [List.mem_singleton] at hb
      rintro rfl
      exact hnot (hb ▸ ha)
    · rw [Std.HashMap.getElem?_insert, Array.getElem?_push]
      by_cases hn : name = n
      · subst hn
        simp only [beq_self_eq_true, if_true, Option.some.injEq]
        constructor
        · rintro rfl
          simp
        · intro h
          split_ifs at h with hj
          · exact hj.symm
          · exact absurd (List.mem_of_getElem? (by simpa using h)) hnot
      · rw [if_neg (by simpa using hn), hm.index]
        split_ifs with hj
        · subst hj
          simp [hn]
        · rfl
    · rw [Array.getElem?_push] at h
      split_ifs at h
      · cases h
        simp
      · exact hm.nonempty j vs h

theorem WF.foldl_add (hm : m.WF) (vs : List (String × Variant)) :
    (vs.foldl (fun m p => m.add p.1 p.2) m).WF := by
  induction vs generalizing m with
  | nil => exact hm
  | cons p vs ih => exact ih (hm.add p.1 p.2)

/-- a fold in `Except` keeps what each of its steps keeps -/
theorem foldlM_keeps {α β ε : Type} {P : β → Prop} {f : β → α → Except ε β} :
    ∀ (l : List α), (∀ b a b', a ∈ l → P b → f b a = .ok b' → P b') →
      ∀ (b b' : β), P b → l.foldlM f b = .ok b' → P b' := by
  intro l
  induction l with
  | nil =>
    intro _ b b' hb h
    cases h
    exact hb
  | cons a l ih =>
    intro hf b b' hb h
    rw [List.foldlM_cons] at h
    rcases hs : f b a with _ | c <;> rw [hs] at h
    · cases h
    · exact ih (fun b a b' ha => hf b a b' (List.mem_cons_of_mem _ ha)) c b'
        (hf b a c List.mem_cons_self hb hs) h

/-- **A variant map made of entries has the shape additions keep.** -/
theorem variantMap_wf {entries : List Entry} (h : EncodeTable.variantMap entries = .ok m) :
    m.WF := by
  refine foldlM_keeps entries (fun m₀ e m' _ h₀ h => ?_) _ _ wf_initial h
  -- an entry left out keeps the map, and one taken in adds its variants
  split at h
  · cases h
    exact h₀
  · rcases hv : EncodeTable.variantsOf e with _ | vs <;> rw [hv] at h
    · cases h
    · cases h
      exact h₀.foldl_add vs

end VariantMap

/-! ## The variants kept for a name -/

/-- what tells variants of one name apart: encoding, immediate width and operand classes -/
def Variant.key (v : Variant) : String × Int × Nat := (v.encoding, v.immWidth, v.classes)

namespace EncodeTable

/-- one step of keeping the first variant of each key -/
def keepStep (acc : List Variant) (v : Variant) : List Variant :=
  if acc.any fun x => x.encoding = v.encoding && x.immWidth = v.immWidth &&
      x.classes = v.classes then acc else acc ++ [v]

/-- the order variants are tried in: by immediate width, then by the encoding's priority -/
def tryOrder (a b : Variant) : Bool :=
  a.immWidth < b.immWidth || (a.immWidth = b.immWidth && priority a.encoding ≤ priority b.encoding)

theorem ordered_eq (vs : Array Variant) :
    ordered vs = (vs.toList.foldl keepStep []).mergeSort tryOrder := rfl

theorem same_iff_key (x v : Variant) :
    (decide (x.encoding = v.encoding) && decide (x.immWidth = v.immWidth) &&
      decide (x.classes = v.classes)) = true ↔ x.key = v.key := by
  simp [Variant.key, and_assoc]

theorem keepStep_any (acc : List Variant) (v : Variant) :
    keepStep acc v = if ∃ x ∈ acc, x.key = v.key then acc else acc ++ [v] := by
  simp only [keepStep, List.any_eq_true, same_iff_key]

/-- keeping the first of each key keeps the keys distinct -/
theorem foldl_keepStep_nodup (l acc : List Variant) (h : (acc.map Variant.key).Nodup) :
    ((l.foldl keepStep acc).map Variant.key).Nodup := by
  induction l generalizing acc with
  | nil => exact h
  | cons v l ih =>
    rw [List.foldl_cons]
    apply ih
    rw [keepStep_any]
    split_ifs with hv
    · exact h
    · rw [List.map_append, List.nodup_append]
      refine ⟨h, List.nodup_singleton _, fun a ha b hb => ?_⟩
      rw [List.map_singleton, List.mem_singleton] at hb
      obtain ⟨x, hx, rfl⟩ := List.mem_map.1 ha
      exact fun he => hv ⟨x, hx, he.trans hb⟩

/-- a kept variant is one of the variants -/
theorem mem_foldl_keepStep {l acc : List Variant} {w : Variant} (h : w ∈ l.foldl keepStep acc) :
    w ∈ acc ∨ w ∈ l := by
  induction l generalizing acc with
  | nil => exact .inl h
  | cons v l ih =>
    rw [List.foldl_cons] at h
    rcases ih h with hw | hw
    · rw [keepStep_any] at hw
      split_ifs at hw
      · exact .inl hw
      · rcases List.mem_append.1 hw with hw | hw
        · exact .inl hw
        · exact .inr (List.mem_singleton.1 hw ▸ List.mem_cons_self)
    · exact .inr (List.mem_cons_of_mem v hw)

/-- every variant has a kept one of its key -/
theorem exists_foldl_keepStep {l : List Variant} (acc : List Variant) {v : Variant}
    (h : v ∈ acc ∨ v ∈ l) : ∃ w ∈ l.foldl keepStep acc, w.key = v.key := by
  induction l generalizing acc v with
  | nil =>
    rcases h with h | h
    · exact ⟨v, h, rfl⟩
    · cases h
  | cons x l ih =>
    rw [List.foldl_cons]
    -- the step keeps what it had, and has one of the key of `x` after it
    have hstep : ∀ y ∈ acc, y ∈ keepStep acc x := fun y hy => by
      rw [keepStep_any]
      split_ifs
      · exact hy
      · exact List.mem_append_left _ hy
    rcases h with h | h
    · exact ih _ (.inl (hstep v h))
    · rcases List.mem_cons.1 h with rfl | h
      · rw [keepStep_any]
        split_ifs with hx
        · obtain ⟨y, hy, hyk⟩ := hx
          obtain ⟨w, hw, hwk⟩ := ih acc (.inl hy)
          exact ⟨w, hw, hwk.trans hyk⟩
        · exact ih _ (.inl (List.mem_append_right _ (List.mem_singleton_self _)))
      · exact ih _ (.inr h)

theorem tryOrder_trans (a b c : Variant) (hab : tryOrder a b = true) (hbc : tryOrder b c = true) :
    tryOrder a c = true := by
  simp only [tryOrder, Bool.or_eq_true, Bool.and_eq_true, decide_eq_true_eq] at *
  omega

theorem tryOrder_total (a b : Variant) : (tryOrder a b || tryOrder b a) = true := by
  simp only [tryOrder, Bool.or_eq_true, Bool.and_eq_true, decide_eq_true_eq]
  omega

theorem immWidth_le_of_tryOrder {a b : Variant} (h : tryOrder a b = true) :
    a.immWidth ≤ b.immWidth := by
  simp only [tryOrder, Bool.or_eq_true, Bool.and_eq_true, decide_eq_true_eq] at h
  omega

/-- the variants tried for a name have distinct keys -/
theorem ordered_nodup (vs : Array Variant) : ((ordered vs).map Variant.key).Nodup := by
  rw [ordered_eq]
  exact ((List.mergeSort_perm _ _).map _).nodup_iff.2
    (foldl_keepStep_nodup _ _ List.nodup_nil)

theorem mem_ordered {vs : Array Variant} {w : Variant} (h : w ∈ ordered vs) : w ∈ vs.toList := by
  rw [ordered_eq, (List.mergeSort_perm _ _).mem_iff] at h
  rcases mem_foldl_keepStep h with h | h
  · cases h
  · exact h

theorem exists_ordered {vs : Array Variant} {v : Variant} (h : v ∈ vs.toList) :
    ∃ w ∈ ordered vs, w.key = v.key := by
  rw [ordered_eq]
  obtain ⟨w, hw, hk⟩ := exists_foldl_keepStep [] (.inr h)
  exact ⟨w, (List.mergeSort_perm _ _).mem_iff.2 hw, hk⟩

/-- the variants are tried in the order of their immediate width, then of their encoding -/
theorem ordered_sorted (vs : Array Variant) :
    (ordered vs).Pairwise fun a b => tryOrder a b = true :=
  List.pairwise_mergeSort tryOrder_trans tryOrder_total _

/-- an arrangement of the kept variants in the order, with no two of them tied, is the one they
are tried in -/
theorem ordered_eq_of_perm {vs : Array Variant} {l : List Variant}
    (hperm : (vs.toList.foldl keepStep []).Perm l) (hl : l.Pairwise fun a b => tryOrder a b = true)
    (htie : ∀ a ∈ l, ∀ b ∈ l, tryOrder a b = true → tryOrder b a = true → a = b) :
    ordered vs = l := by
  have hperm' : (ordered vs).Perm l := (List.mergeSort_perm _ _).trans hperm
  exact hperm'.eq_of_pairwise (fun a b ha hb => htie a (hperm'.mem_iff.1 ha) b hb)
    (ordered_sorted vs) hl

theorem ordered_ne_nil {vs : Array Variant} (h : vs ≠ #[]) : ordered vs ≠ [] := by
  obtain ⟨v, hv⟩ : ∃ v, v ∈ vs.toList := by
    rcases hl : vs.toList with _ | ⟨v, _⟩
    · exact absurd (Array.toList_eq_nil_iff.1 hl) h
    · exact ⟨v, List.mem_cons_self⟩
  obtain ⟨w, hw, -⟩ := exists_ordered hv
  exact List.ne_nil_of_mem hw

/-! ## Chains -/

/-- the name at whose number a slot sits -/
def DescSlot.name? : DescSlot → Option String
  | .named n => some n
  | .extra _ => none

/-- the place after all names at which a slot sits -/
def DescSlot.extra? : DescSlot → Option Nat
  | .named _ => none
  | .extra k => some k

/-- slots are distinct when their names and their places after all names are -/
theorem DescSlot.nodup_of_parts {l : List DescSlot} (h₁ : (l.filterMap DescSlot.name?).Nodup)
    (h₂ : (l.filterMap DescSlot.extra?).Nodup) : l.Nodup := by
  induction l with
  | nil => exact List.nodup_nil
  | cons s l ih =>
    cases s with
    | named n =>
      simp only [List.filterMap_cons, DescSlot.name?, DescSlot.extra?, List.nodup_cons] at h₁ h₂
      refine List.nodup_cons.2 ⟨fun hs => h₁.1 ?_, ih h₁.2 h₂⟩
      exact List.mem_filterMap.2 ⟨_, hs, rfl⟩
    | extra k =>
      simp only [List.filterMap_cons, DescSlot.name?, DescSlot.extra?, List.nodup_cons] at h₁ h₂
      refine List.nodup_cons.2 ⟨fun hs => h₂.1 ?_, ih h₁ h₂.2⟩
      exact List.mem_filterMap.2 ⟨_, hs, rfl⟩

/-- the `k`-th slot of the chain of a name whose alternatives start at the `first`-th place after
all names -/
def chainSlot (name : String) (first : Nat) : Nat → DescSlot
  | 0 => .named name
  | k + 1 => .extra (first + k)

/-- the `k`-th line of the chain of a name whose alternatives start at the `first`-th place
after all names: the `k`-th variant at the `k`-th slot, falling back to the next slot, the last
to none -/
def chainLine (name : String) (first : Nat) (K : List Variant) (k : Nat) (hk : k < K.length) :
    Line :=
  ⟨chainSlot name first k, K[k],
    if k + 1 < K.length then some (chainSlot name first (k + 1)) else none⟩

section Chain

variable {K : List Variant}

theorem length_chain (name : String) (first : Nat) (hK : K ≠ []) :
    (chain name first K).length = K.length := by
  have := List.length_pos_iff.2 hK
  simp only [chain, List.length_map, List.length_zip, List.length_cons, List.length_range,
    List.length_append, List.length_drop]
  omega

theorem getElem_chain {name : String} {first k : Nat} (hk : k < (chain name first K).length) :
    (chain name first K)[k] = chainLine name first K k (by simp [chain] at hk; omega) := by
  have hlen := length_chain name first (K := K) (by rintro rfl; simp [chain] at hk)
  simp only [chain, chainLine, List.getElem_map, List.getElem_zip, List.getElem_append]
  rcases k with _ | k <;>
    simp only [chainSlot, List.drop_succ_cons, List.drop_zero, List.length_map, List.length_range,
      List.map_map] <;> split_ifs <;> simp_all <;> omega

theorem chain_slots (name : String) (first : Nat) (hK : K ≠ []) :
    (chain name first K).map Line.slot = (List.range K.length).map (chainSlot name first) := by
  apply List.ext_getElem (by simp [length_chain name first hK])
  intro k h₁ h₂
  simp only [List.getElem_map, getElem_chain, chainLine, List.getElem_range]

theorem range_map_chainSlot (name : String) (first n : Nat) :
    (List.range (n + 1)).map (chainSlot name first) =
      .named name :: (List.range n).map fun k => .extra (first + k) := by
  rw [List.range_succ_eq_map, List.map_cons, List.map_map]
  rfl

theorem chain_names (name : String) (first : Nat) (hK : K ≠ []) :
    ((chain name first K).map Line.slot).filterMap DescSlot.name? = [name] := by
  obtain ⟨n, hn⟩ : ∃ n, K.length = n + 1 := ⟨K.length - 1, by
    have := List.length_pos_iff.2 hK; omega⟩
  rw [chain_slots name first hK, hn, range_map_chainSlot, List.filterMap_cons, List.filterMap_map]
  simp [DescSlot.name?, Function.comp_def]

theorem chain_extras (name : String) (first : Nat) (hK : K ≠ []) :
    ((chain name first K).map Line.slot).filterMap DescSlot.extra? =
      List.range' first (K.length - 1) := by
  obtain ⟨n, hn⟩ : ∃ n, K.length = n + 1 := ⟨K.length - 1, by
    have := List.length_pos_iff.2 hK; omega⟩
  rw [chain_slots name first hK, hn, range_map_chainSlot, List.filterMap_cons, List.filterMap_map]
  simp [DescSlot.extra?, Function.comp_def, List.range'_eq_map_range]

end Chain

/-- one name's step of `lines`: its chain, and the alternatives it takes -/
def linesStep (acc : Nat × List (List Line)) (p : String × Array Variant) :
    Nat × List (List Line) :=
  (acc.1 + ((ordered p.2).length - 1), chain p.1 acc.1 (ordered p.2) :: acc.2)

/-- the descriptor lines of names with their variants, the alternatives of the first name from
the `first`-th place after all names on -/
def chainsFrom : Nat → List (String × Array Variant) → List Line
  | _, [] => []
  | first, (name, vs) :: rest =>
    chain name first (ordered vs) ++ chainsFrom (first + ((ordered vs).length - 1)) rest

/-- the alternatives the chains of names with their variants take: one fewer than each name's
kept variants -/
def altTotal : List (String × Array Variant) → Nat
  | [] => 0
  | (_, vs) :: rest => ((ordered vs).length - 1) + altTotal rest

theorem foldl_linesStep (l : List (String × Array Variant)) (a : Nat) (out : List (List Line)) :
    (l.foldl linesStep (a, out)).2.reverse.flatten = out.reverse.flatten ++ chainsFrom a l := by
  induction l generalizing a out with
  | nil => simp [chainsFrom]
  | cons p l ih =>
    obtain ⟨name, vs⟩ := p
    rw [List.foldl_cons, linesStep, ih]
    simp [chainsFrom]

/-- the lines are the chains of the names in order of first use -/
theorem lines_eq (m : VariantMap) :
    lines m = chainsFrom 0 (m.names.toList.zip m.variants.toList) := by
  have hfold : lines m =
      ((m.names.toList.zip m.variants.toList).foldl linesStep (0, [])).2.reverse.flatten := rfl
  rw [hfold, foldl_linesStep]
  rfl

section Chains

variable {l : List (String × Array Variant)} {a : Nat}

theorem chainsFrom_names (hl : ∀ p ∈ l, p.2 ≠ #[]) :
    ((chainsFrom a l).map Line.slot).filterMap DescSlot.name? = l.map Prod.fst := by
  induction l generalizing a with
  | nil => rfl
  | cons p l ih =>
    obtain ⟨n, vs⟩ := p
    rw [chainsFrom, List.map_append, List.filterMap_append,
      chain_names n a (ordered_ne_nil (hl _ List.mem_cons_self)),
      ih fun q hq => hl q (List.mem_cons_of_mem _ hq)]
    rfl

theorem chainsFrom_extras (hl : ∀ p ∈ l, p.2 ≠ #[]) :
    ((chainsFrom a l).map Line.slot).filterMap DescSlot.extra? = List.range' a (altTotal l) := by
  induction l generalizing a with
  | nil => rfl
  | cons p l ih =>
    obtain ⟨n, vs⟩ := p
    rw [chainsFrom, List.map_append, List.filterMap_append,
      chain_extras n a (ordered_ne_nil (hl _ List.mem_cons_self)),
      ih fun q hq => hl q (List.mem_cons_of_mem _ hq), altTotal]
    exact List.range'_append_1 ..

/-- the slots of the lines are distinct when the names are -/
theorem chainsFrom_nodup (hl : ∀ p ∈ l, p.2 ≠ #[]) (hn : (l.map Prod.fst).Nodup) :
    ((chainsFrom a l).map Line.slot).Nodup :=
  DescSlot.nodup_of_parts (by rw [chainsFrom_names hl]; exact hn)
    (by rw [chainsFrom_extras hl]; exact List.nodup_range')

/-- the chain of the `i`-th name sits in the lines, its alternatives after those of the names
before it -/
theorem chain_infix {i : Nat} (hi : i < l.length) :
    chain l[i].1 (a + altTotal (l.take i)) (ordered l[i].2) <:+: chainsFrom a l := by
  induction l generalizing a i with
  | nil => cases hi
  | cons p l ih =>
    obtain ⟨n, vs⟩ := p
    rcases i with _ | i
    · simpa [altTotal, chainsFrom] using (List.prefix_append _ _).isInfix
    · have := ih (a := a + ((ordered vs).length - 1)) (i := i) (by simpa using hi)
      simp only [List.getElem_cons_succ, List.take_succ_cons, altTotal, chainsFrom]
      rw [← Nat.add_assoc]
      exact this.trans (List.suffix_append _ _).isInfix

/-- every place after all names is an alternative of one name's chain -/
theorem exists_of_lt_altTotal {j : Nat} (hj : j < altTotal l) :
    ∃ i, ∃ hi : i < l.length, ∃ k, k + 1 < (ordered l[i].2).length ∧
      altTotal (l.take i) + k = j := by
  induction l generalizing j with
  | nil => cases hj
  | cons p l ih =>
    obtain ⟨n, vs⟩ := p
    rw [altTotal] at hj
    by_cases hlt : j < (ordered vs).length - 1
    · exact ⟨0, by simp, j, by simp; omega, by simp [altTotal]⟩
    · obtain ⟨i, hi, k, hk, hjk⟩ := ih (j := j - ((ordered vs).length - 1)) (by omega)
      refine ⟨i + 1, by simpa using hi, k, by simpa using hk, ?_⟩
      simp only [List.take_succ_cons, altTotal]
      omega

end Chains

end EncodeTable

/-! ## The lines of a variant map -/

namespace VariantMap

open EncodeTable

/-- the names with their variants, in order of first use -/
def named (m : VariantMap) : List (String × Array Variant) := m.names.toList.zip m.variants.toList

/-- the variants tried for the `i`-th name, in order -/
def kept (m : VariantMap) (i : Nat) : List Variant := ordered (m.variants.getD i #[])

/-- the place after all names where the alternatives of the `i`-th name start -/
def altStart (m : VariantMap) (i : Nat) : Nat := altTotal (m.named.take i)

/-- the number of alternatives of all names -/
def altCount (m : VariantMap) : Nat := altTotal m.named

variable {m : VariantMap}

theorem WF.length_named (hm : m.WF) : m.named.length = m.names.size := by
  simp [named, hm.size]

theorem WF.lt_of_lt_named (hm : m.WF) {i : Nat} (hi : i < m.named.length) :
    i < m.names.size ∧ i < m.variants.size :=
  ⟨hm.length_named ▸ hi, hm.size ▸ hm.length_named ▸ hi⟩

theorem getElem_named {i : Nat} (hi : i < m.named.length) (h₁ : i < m.names.size)
    (h₂ : i < m.variants.size) : m.named[i] = (m.names[i], m.variants[i]) := by
  simp [named]

theorem WF.map_fst_named (hm : m.WF) : m.named.map Prod.fst = m.names.toList :=
  List.map_fst_zip (by simp [hm.size])

theorem WF.named_nonempty (hm : m.WF) : ∀ p ∈ m.named, p.2 ≠ #[] := by
  intro p hp
  obtain ⟨i, hi, rfl⟩ := List.getElem_of_mem hp
  obtain ⟨h₁, h₂⟩ := hm.lt_of_lt_named hi
  rw [getElem_named hi h₁ h₂]
  exact hm.nonempty i _ (Array.getElem?_eq_getElem _)

theorem WF.kept_eq (hm : m.WF) {i : Nat} (hi : i < m.named.length) :
    m.kept i = ordered m.named[i].2 := by
  obtain ⟨h₁, h₂⟩ := hm.lt_of_lt_named hi
  rw [getElem_named hi h₁ h₂, kept, Array.getD_eq_getD_getElem?, Array.getElem?_eq_getElem h₂]
  rfl

/-- **The chains of the encoder's descriptor lines.** In the lines of a variant map made by
additions, slots are distinct; the names' slots are the names; the places after all names are
`0 .. altCount - 1`, each once; and the `i`-th name's kept variants sit at its name's slot and
then at the places from its `altStart` on, each line naming the next as its alternative and the
last none. -/
theorem WF.lines_chains (hm : m.WF) :
    ((lines m).map Line.slot).Nodup ∧
    ((lines m).map Line.slot).filterMap DescSlot.name? = m.names.toList ∧
    ((lines m).map Line.slot).filterMap DescSlot.extra? = List.range m.altCount ∧
    ∀ i (hi : i < m.names.size) k (hk : k < (m.kept i).length),
      chainLine m.names[i] (m.altStart i) (m.kept i) k hk ∈ lines m := by
  have hl : lines m = chainsFrom 0 m.named := lines_eq m
  have hnodup : (m.named.map Prod.fst).Nodup := by
    rw [hm.map_fst_named]
    exact hm.nodup
  rw [hl]
  refine ⟨chainsFrom_nodup hm.named_nonempty hnodup,
    by rw [chainsFrom_names hm.named_nonempty, hm.map_fst_named],
    by rw [chainsFrom_extras hm.named_nonempty, List.range_eq_range']; rfl,
    fun i hi k hk => ?_⟩
  -- the `k`-th line of the `i`-th name's chain, which sits in the lines
  have hi' : i < m.named.length := hm.length_named ▸ hi
  have hK : m.kept i ≠ [] := List.ne_nil_of_length_pos (by omega)
  have hinf := chain_infix (a := 0) hi'
  rw [← hm.kept_eq hi', Nat.zero_add] at hinf
  have hlen := length_chain m.named[i].1 (altTotal (m.named.take i)) hK
  have hfst : m.named[i].1 = m.names[i] := by
    rw [getElem_named hi' hi (hm.lt_of_lt_named hi').2]
  refine hinf.subset (List.mem_iff_getElem.2 ⟨k, hlen ▸ hk, ?_⟩)
  rw [getElem_chain]
  simp only [hfst]
  rfl

end VariantMap

end X86Codec
