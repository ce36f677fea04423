import X86Codec.Proofs.EncodeChains
import X86Codec.Encoder.Encode
/-!
The encoder's descriptors and the chains it walks.

The tables of a variant map (`Tables.ofMap`) number the names in sorted order and write each
descriptor line at its slot's place: a name's slot at the name's number, the `k`-th place after
all names at the number of names plus `k`. On a map made by additions the places of the lines
are distinct (`placed_nodup`), so each holds its own line's descriptor (`desc_place`). The
places of the `i`-th name's chain (`chainPlace`) start at the name's number and hold its kept
variants in order, each falling back to the next place cut to the 13 bits of an alternative.

The encoder tries a chain by following alternatives from a place until one is 0
(`tryChain`). Where the places of a list each fall back to the next and the last to none
(`Tables.Walks`), it tries exactly their descriptors, in order, each once, and stops
(`tryChain_walks`, with `tryList` trying a list of places in turn).

Main statements:
* `ofMap_walks`: when the places after all names end by 8192, the encoder walks every name's
  chain;
* `alts_exact_iff`: every alternative is the next place of its chain exactly when there are no
  alternatives or their places end by 8192; past that the last one is cut short;
* `variantMap_chained`: all of it, with the chains of the descriptor lines, for the variant
  map of every list of entries (`Chained`).
-/

namespace X86Codec.Encoder

/-! ## Lists, maps and arrays -/

/-- a list without repeats has none to erase -/
theorem eraseDups_of_nodup {l : List String} (h : l.Nodup) : l.eraseDups = l := by
  induction l with
  | nil => rfl
  | cons a l ih =>
    obtain ⟨ha, hl⟩ := List.nodup_cons.1 h
    have hne : ∀ b ∈ l, (!b == a) = true := fun b hb => by
      have : b ≠ a := fun e => ha (e ▸ hb)
      simpa using this
    rw [List.eraseDups_cons, List.filter_eq_self.2 hne, ih hl]

/-- numbering the elements of a list without repeats in turn finds each at its index -/
theorem foldl_insert_zipIdx {l : List String} (h : l.Nodup) (k : Nat)
    (h₀ : Std.HashMap String Nat) (x : String) :
    ((l.zipIdx k).foldl (fun h p => h.insert p.1 p.2) h₀)[x]? =
      if x ∈ l then some (k + l.idxOf x) else h₀[x]? := by
  induction l generalizing k h₀ with
  | nil => simp
  | cons a l ih =>
    obtain ⟨ha, hl⟩ := List.nodup_cons.1 h
    rw [List.zipIdx_cons, List.foldl_cons, ih hl, Std.HashMap.getElem?_insert]
    by_cases hx : x = a
    · subst hx
      simp [ha]
    · by_cases hxl : x ∈ l
      · simp [hxl, Ne.symm hx]
        omega
      · have hax : (a == x) = false := beq_eq_false_iff_ne.2 (Ne.symm hx)
        simp [hxl, hax, hx]

/-- every place written lies below the greatest place past its entry -/
theorem le_foldl_max (l : List (Nat × EncDesc)) (s : Nat) :
    s ≤ l.foldl (fun s q => max s (q.1 + 1)) s ∧
      ∀ q ∈ l, q.1 < l.foldl (fun s q => max s (q.1 + 1)) s := by
  induction l generalizing s with
  | nil => simp
  | cons q l ih =>
    obtain ⟨h₁, h₂⟩ := ih (max s (q.1 + 1))
    refine ⟨le_trans (le_max_left _ _) h₁, fun r hr => ?_⟩
    rcases List.mem_cons.1 hr with rfl | hr
    · exact lt_of_lt_of_le (by omega) (le_trans (le_max_right _ _) h₁)
    · exact h₂ r hr

theorem size_foldl_setIfInBounds (l : List (Nat × EncDesc)) (a : Array EncDesc) :
    (l.foldl (fun a q => a.setIfInBounds q.1 q.2) a).size = a.size := by
  induction l generalizing a with
  | nil => rfl
  | cons q l ih => rw [List.foldl_cons, ih, Array.size_setIfInBounds]

/-- writing descriptors at places leaves the others -/
theorem foldl_setIfInBounds_of_not_mem {l : List (Nat × EncDesc)} {p : Nat}
    (h : p ∉ l.map Prod.fst) (a : Array EncDesc) :
    (l.foldl (fun a q => a.setIfInBounds q.1 q.2) a)[p]? = a[p]? := by
  induction l generalizing a with
  | nil => rfl
  | cons q l ih =>
    rw [List.map_cons, List.mem_cons, not_or] at h
    rw [List.foldl_cons, ih h.2, Array.getElem?_setIfInBounds, if_neg (Ne.symm h.1)]

/-- writing descriptors at distinct places inside the array leaves each at its place -/
theorem foldl_setIfInBounds_of_mem {l : List (Nat × EncDesc)} (hn : (l.map Prod.fst).Nodup)
    {p : Nat} {d : EncDesc} (hp : (p, d) ∈ l) (a : Array EncDesc) (hlt : p < a.size) :
    (l.foldl (fun a q => a.setIfInBounds q.1 q.2) a)[p]? = some d := by
  induction l generalizing a with
  | nil => cases hp
  | cons q l ih =>
    obtain ⟨hq, hl⟩ := List.nodup_cons.1 hn
    rw [List.foldl_cons]
    rcases List.mem_cons.1 hp with rfl | hp
    · rw [foldl_setIfInBounds_of_not_mem hq, Array.getElem?_setIfInBounds, if_pos rfl, if_pos hlt]
    · exact ih hl hp _ (by rw [Array.size_setIfInBounds]; exact hlt)

/-! ## The tables of a variant map -/

namespace Tables

open EncodeTable

/-- the places and descriptors the lines of a variant map are written to -/
def placed (m : VariantMap) : List (Nat × EncDesc) :=
  (lines m).map fun l =>
    (place (ofMap m).numbers (ofMap m).count l.slot, descOf (ofMap m).numbers (ofMap m).count l)

theorem ofMap_count (m : VariantMap) : (ofMap m).count = (sortedNames m).length :=
  rfl

theorem ofMap_numbers (m : VariantMap) :
    (ofMap m).numbers = (sortedNames m).zipIdx.foldl (fun h p => h.insert p.1 p.2) {} :=
  rfl

theorem ofMap_descs (m : VariantMap) :
    (ofMap m).descs = (placed m).foldl (fun a q => a.setIfInBounds q.1 q.2)
      (Array.replicate ((placed m).foldl (fun s q => max s (q.1 + 1)) 0) {}) := rfl

variable {m : VariantMap}

/-- the sorted names of a map made by additions are its names, sorted -/
theorem sortedNames_eq (hm : m.WF) :
    sortedNames m = m.names.toList.mergeSort fun a b => decide (a ≤ b) := by
  unfold sortedNames sortedDistinct
  exact eraseDups_of_nodup ((List.mergeSort_perm _ _).nodup_iff.2 hm.nodup)

theorem sortedNames_perm (hm : m.WF) : (sortedNames m).Perm m.names.toList := by
  rw [sortedNames_eq hm]
  exact List.mergeSort_perm _ _

theorem sortedNames_nodup (hm : m.WF) : (sortedNames m).Nodup :=
  (sortedNames_perm hm).nodup_iff.2 hm.nodup

/-- the mnemonics are numbered up to the number of names -/
theorem ofMap_count_eq (hm : m.WF) : (ofMap m).count = m.names.size := by
  rw [ofMap_count, (sortedNames_perm hm).length_eq, Array.length_toList]

/-- a name's number is its place among the sorted names -/
theorem ofMap_numbers_getElem? (hm : m.WF) (x : String) :
    (ofMap m).numbers[x]? =
      if x ∈ m.names.toList then some ((sortedNames m).idxOf x) else none := by
  rw [ofMap_numbers, foldl_insert_zipIdx (sortedNames_nodup hm)]
  simp only [(sortedNames_perm hm).mem_iff, Std.HashMap.getElem?_empty, Nat.zero_add]

/-- the place of a name's slot: its number, below the number of names -/
theorem place_named (hm : m.WF) {x : String} (hx : x ∈ m.names.toList) :
    place (ofMap m).numbers (ofMap m).count (.named x) = (sortedNames m).idxOf x ∧
      (sortedNames m).idxOf x < (ofMap m).count := by
  refine ⟨?_, ?_⟩
  · rw [place, Std.HashMap.getD_eq_getD_getElem?, ofMap_numbers_getElem? hm, if_pos hx]
    rfl
  · rw [ofMap_count]
    exact List.idxOf_lt_length_iff.2 ((sortedNames_perm hm).mem_iff.2 hx)

/-- a name whose slot a line takes is one of the names -/
theorem mem_names_of_named (hm : m.WF) {x : String}
    (hx : DescSlot.named x ∈ (lines m).map Line.slot) : x ∈ m.names.toList := by
  rw [← hm.lines_chains.2.1]
  exact List.mem_filterMap.2 ⟨_, hx, rfl⟩

/-- the lines are written to distinct places -/
theorem placed_nodup (hm : m.WF) : ((placed m).map Prod.fst).Nodup := by
  have hslots : (placed m).map Prod.fst =
      ((lines m).map Line.slot).map (place (ofMap m).numbers (ofMap m).count) := by
    simp [placed]
  rw [hslots]
  refine List.Nodup.map_on (fun x hx y hy hxy => ?_) hm.lines_chains.1
  -- names take their numbers, and the other places come after all of them
  cases x with
  | named a =>
    obtain ⟨hpa, hlt⟩ := place_named hm (mem_names_of_named hm hx)
    cases y with
    | named b =>
      obtain ⟨hpb, -⟩ := place_named hm (mem_names_of_named hm hy)
      rw [hpa, hpb] at hxy
      rw [(List.idxOf_inj ((sortedNames_perm hm).mem_iff.2 (mem_names_of_named hm hx))).1 hxy]
    | extra k =>
      rw [hpa] at hxy
      simp only [place] at hxy
      omega
  | extra j =>
    cases y with
    | named b =>
      obtain ⟨hpb, hlt⟩ := place_named hm (mem_names_of_named hm hy)
      rw [hpb] at hxy
      simp only [place] at hxy
      omega
    | extra k =>
      simp only [place] at hxy
      rw [Nat.add_left_cancel hxy]

/-- **Each line's descriptor sits at its slot's place.** -/
theorem desc_place (hm : m.WF) {l : Line} (hl : l ∈ lines m) :
    (ofMap m).desc (place (ofMap m).numbers (ofMap m).count l.slot) =
      descOf (ofMap m).numbers (ofMap m).count l := by
  have hmem : (place (ofMap m).numbers (ofMap m).count l.slot,
      descOf (ofMap m).numbers (ofMap m).count l) ∈ placed m :=
    List.mem_map_of_mem hl
  have hlt := (le_foldl_max (placed m) 0).2 _ hmem
  rw [desc, Array.getD_eq_getD_getElem?, ofMap_descs,
    foldl_setIfInBounds_of_mem (placed_nodup hm) hmem _ (by simpa using hlt)]
  rfl

/-! ## The places of a name's chain -/

/-- the place of the `k`-th descriptor of the `i`-th name's chain -/
def chainPlace (m : VariantMap) (i k : Nat) : Nat :=
  place (ofMap m).numbers (ofMap m).count (chainSlot (m.names.getD i "") (m.altStart i) k)

theorem chainPlace_eq {i : Nat} (hi : i < m.names.size) (k : Nat) :
    chainPlace m i k =
      place (ofMap m).numbers (ofMap m).count (chainSlot m.names[i] (m.altStart i) k) := by
  rw [chainPlace, Array.getD_eq_getD_getElem?, Array.getElem?_eq_getElem hi]
  rfl

theorem chainPlace_succ (i k : Nat) :
    chainPlace m i (k + 1) = (ofMap m).count + (m.altStart i + k) := rfl

/-- a name's chain starts at its number -/
theorem chainPlace_zero (hm : m.WF) {i : Nat} (hi : i < m.names.size) :
    (ofMap m).numbers[m.names[i]]? = some (chainPlace m i 0) ∧
      chainPlace m i 0 < (ofMap m).count := by
  have hmem : m.names[i] ∈ m.names.toList := by simp
  obtain ⟨hp, hlt⟩ := place_named hm hmem
  rw [chainPlace_eq hi, chainSlot, hp, ofMap_numbers_getElem? hm, if_pos hmem]
  exact ⟨rfl, hlt⟩

/-- the descriptor at a place of a name's chain is its line's -/
theorem desc_chainPlace (hm : m.WF) {i : Nat} (hi : i < m.names.size) {k : Nat}
    (hk : k < (m.kept i).length) :
    (ofMap m).desc (chainPlace m i k) = descOf (ofMap m).numbers (ofMap m).count
      (chainLine m.names[i] (m.altStart i) (m.kept i) k hk) := by
  rw [← desc_place hm (hm.lines_chains.2.2.2 i hi k hk), chainPlace_eq hi]
  rfl

/-- the alternative of a place of a name's chain: the next place, cut to 13 bits, and none
after the last -/
theorem alt_chainPlace (hm : m.WF) {i : Nat} (hi : i < m.names.size) {k : Nat}
    (hk : k < (m.kept i).length) :
    ((ofMap m).desc (chainPlace m i k)).alt =
      if k + 1 < (m.kept i).length then Word.low 13 (chainPlace m i (k + 1)) else 0 := by
  rw [desc_chainPlace hm hi hk]
  simp only [descOf, chainLine]
  split_ifs
  · rfl
  · rfl

/-- the alternatives of a name sit among the places after all names -/
theorem altStart_add_lt (hm : m.WF) {i : Nat} (hi : i < m.names.size) {k : Nat}
    (hk : k + 1 < (m.kept i).length) : m.altStart i + k < m.altCount := by
  have hline := hm.lines_chains.2.2.2 i hi (k + 1) hk
  have hmem : m.altStart i + k ∈ ((lines m).map Line.slot).filterMap DescSlot.extra? :=
    List.mem_filterMap.2 ⟨_, List.mem_map_of_mem hline, rfl⟩
  rw [hm.lines_chains.2.2.1, List.mem_range] at hmem
  exact hmem

/-- the places of a name's chain are distinct -/
theorem chainPlaces_nodup (hm : m.WF) {i : Nat} (hi : i < m.names.size) (n : Nat) :
    ((List.range n).map (chainPlace m i)).Nodup := by
  have h0 := (chainPlace_zero hm hi).2
  refine List.Nodup.map_on (fun x _ y _ hxy => ?_) List.nodup_range
  rcases x with _ | x <;> rcases y with _ | y
  · rfl
  · rw [chainPlace_succ] at hxy
    omega
  · rw [chainPlace_succ] at hxy
    omega
  · rw [chainPlace_succ, chainPlace_succ] at hxy
    omega

/-- a name's chain fits in the descriptors, so the encoder's fuel lasts for it -/
theorem length_kept_le (hm : m.WF) {i : Nat} (hi : i < m.names.size) :
    (m.kept i).length ≤ (ofMap m).descs.size := by
  have hsize : (ofMap m).descs.size = (placed m).foldl (fun s q => max s (q.1 + 1)) 0 := by
    rw [ofMap_descs, size_foldl_setIfInBounds, Array.size_replicate]
  -- the chain's places are distinct and each is written, inside the array
  have hlt : ∀ p ∈ (List.range (m.kept i).length).map (chainPlace m i),
      p < (ofMap m).descs.size := by
    intro p hp
    obtain ⟨k, hk, rfl⟩ := List.mem_map.1 hp
    rw [List.mem_range] at hk
    have hmem := List.mem_map_of_mem (f := fun l => (place (ofMap m).numbers (ofMap m).count
      l.slot, descOf (ofMap m).numbers (ofMap m).count l)) (hm.lines_chains.2.2.2 i hi k hk)
    rw [hsize, chainPlace_eq hi]
    exact (le_foldl_max (placed m) 0).2 _ hmem
  have := ((chainPlaces_nodup hm hi _).subperm fun p hp => List.mem_range.2 (hlt p hp)).length_le
  simpa using this

end Tables

/-! ## Walking a chain -/

/-- the encoder walks the places `ps` from the first on: each falls back to the next, the last
to none -/
def Tables.Walks (t : Tables) : List Nat → Prop
  | [] => False
  | [p] => (t.desc p).alt = 0
  | p :: q :: rest => (t.desc p).alt = q ∧ q ≠ 0 ∧ Tables.Walks t (q :: rest)

/-- try the descriptor at a place, and on a failed check go on with a fallback -/
def tryFirst (t : Tables) (mnem : Nat) (ops : Vector Nat 4) (i : Nat) (fallback : EncM Unit) :
    EncM Unit := do
  let d := t.desc i
  let some e := d.encoding | throw ()
  match prepare d e mnem ops (← get).pos with
  | some (opc, imm, immsz) => emitDesc (encodingInfo e) opc ops imm immsz
  | none => fallback

/-- try the descriptors at the places in turn, writing the first whose checks pass -/
def tryList (t : Tables) (mnem : Nat) (ops : Vector Nat 4) : List Nat → EncM Unit
  | [] => throw ()
  | i :: rest => tryFirst t mnem ops i (tryList t mnem ops rest)

theorem tryChain_succ (t : Tables) (mnem : Nat) (ops : Vector Nat 4) (fuel i : Nat) :
    tryChain t mnem ops (fuel + 1) i = tryFirst t mnem ops i
      (if (t.desc i).alt = 0 then throw () else tryChain t mnem ops fuel (t.desc i).alt) :=
  rfl

/-- **The encoder tries a chain it walks in order, each place once, and stops.** From the first
of places it walks, with fuel for all of them, it tries their descriptors in turn. -/
theorem tryChain_walks {t : Tables} {mnem : Nat} {ops : Vector Nat 4} :
    ∀ {rest : List Nat} {p fuel : Nat}, t.Walks (p :: rest) → rest.length < fuel →
      tryChain t mnem ops fuel p = tryList t mnem ops (p :: rest) := by
  intro rest
  induction rest with
  | nil =>
    intro p fuel h hf
    obtain ⟨f, rfl⟩ : ∃ f, fuel = f + 1 := ⟨fuel - 1, by simp at hf; omega⟩
    simp only [Tables.Walks] at h
    rw [tryChain_succ, tryList, h, if_pos rfl, tryList]
  | cons q rest ih =>
    intro p fuel h hf
    obtain ⟨f, rfl⟩ : ∃ f, fuel = f + 1 := ⟨fuel - 1, by simp at hf; omega⟩
    obtain ⟨halt, hq, hw⟩ := h
    have htail := @ih q f hw (by simp at hf; omega)
    rw [tryChain_succ, tryList, halt, if_neg hq, htail]

/-- places that each fall back to the next, the last to none, are walked -/
theorem walks_range {t : Tables} {f : Nat → Nat} {n : Nat} (hn : 0 < n)
    (hnext : ∀ k, k + 1 < n → (t.desc (f k)).alt = f (k + 1) ∧ f (k + 1) ≠ 0)
    (hlast : (t.desc (f (n - 1))).alt = 0) : t.Walks ((List.range n).map f) := by
  induction n generalizing f with
  | zero => cases hn
  | succ n ih =>
    rw [List.range_succ_eq_map, List.map_cons, List.map_map]
    rcases n with _ | n
    · exact hlast
    · obtain ⟨halt, hne⟩ := hnext 0 (by omega)
      have hrest := ih (f := f ∘ Nat.succ) (by omega) (fun k hk => hnext (k + 1) (by omega))
        (by simpa using hlast)
      rw [List.range_succ_eq_map, List.map_cons, List.map_map] at hrest ⊢
      exact ⟨halt, hne, hrest⟩

namespace Tables

open EncodeTable

variable {m : VariantMap}

theorem low_thirteen {x : Nat} (h : x < 8192) : Word.low 13 x = x := Nat.mod_eq_of_lt h

/-- every name keeps a variant, so its chain has a first place -/
theorem kept_ne_nil (hm : m.WF) {i : Nat} (hi : i < m.names.size) : m.kept i ≠ [] := by
  have hi' : i < m.named.length := hm.length_named ▸ hi
  rw [hm.kept_eq hi']
  exact ordered_ne_nil (hm.named_nonempty _ (List.getElem_mem hi'))

/-- **The encoder walks each name's chain** when the places after all names end by 8192: from
the name's number, each descriptor falls back to the next of its chain and the last to none. -/
theorem ofMap_walks (hm : m.WF) (hfit : (ofMap m).count + m.altCount ≤ 8192) {i : Nat}
    (hi : i < m.names.size) :
    (ofMap m).Walks ((List.range (m.kept i).length).map (chainPlace m i)) := by
  have hK := kept_ne_nil hm hi
  have hcount : 0 < (ofMap m).count := by rw [ofMap_count_eq hm]; omega
  refine walks_range (List.length_pos_iff.2 hK) (fun k hk => ?_) ?_
  · have hlt := altStart_add_lt hm hi hk
    rw [alt_chainPlace hm hi (by omega), if_pos hk, chainPlace_succ, low_thirteen (by omega)]
    exact ⟨rfl, by omega⟩
  · rw [alt_chainPlace hm hi (by have := List.length_pos_iff.2 hK; omega), if_neg (by omega)]

/-- from a name's number, with fuel for its chain, the encoder tries the chain's descriptors in
order when the places after all names end by 8192 -/
theorem tryChain_ofMap (hm : m.WF) (hfit : (ofMap m).count + m.altCount ≤ 8192) {i : Nat}
    (hi : i < m.names.size) (mnem : Nat) (ops : Vector Nat 4) {fuel : Nat}
    (hfuel : (m.kept i).length ≤ fuel) :
    tryChain (ofMap m) mnem ops fuel (chainPlace m i 0) =
      tryList (ofMap m) mnem ops ((List.range (m.kept i).length).map (chainPlace m i)) := by
  have hwalk := ofMap_walks hm hfit hi
  obtain ⟨n, hn⟩ : ∃ n, (m.kept i).length = n + 1 :=
    ⟨(m.kept i).length - 1, by have := List.length_pos_iff.2 (kept_ne_nil hm hi); omega⟩
  rw [hn, List.range_succ_eq_map, List.map_cons, List.map_map] at hwalk ⊢
  exact tryChain_walks hwalk (by simp only [List.length_map, List.length_range]; omega)

/-- **The alternatives fit their 13 bits** exactly when there are none or the places after all
names end by 8192: then every descriptor of a chain but the last falls back to the next place of
the chain, and otherwise the last alternative is cut short. -/
theorem alts_exact_iff (hm : m.WF) :
    (∀ i, i < m.names.size → ∀ k, k + 1 < (m.kept i).length →
        ((ofMap m).desc (chainPlace m i k)).alt = chainPlace m i (k + 1)) ↔
      m.altCount = 0 ∨ (ofMap m).count + m.altCount ≤ 8192 := by
  constructor
  · intro h
    by_contra hno
    rw [not_or] at hno
    -- the last place after all names is the alternative of some line, and it does not fit
    obtain ⟨i, hi, k, hk, hjk⟩ := exists_of_lt_altTotal (l := m.named) (j := m.altCount - 1)
      (by have h0 := hno.1; rw [VariantMap.altCount] at h0 ⊢; omega)
    have hi' : i < m.names.size := hm.length_named ▸ hi
    have hk' : k + 1 < (m.kept i).length := by rw [hm.kept_eq hi]; exact hk
    have halt := h i hi' k hk'
    rw [alt_chainPlace hm hi' (by omega), if_pos hk', chainPlace_succ] at halt
    have hstart : m.altStart i + k = m.altCount - 1 := hjk
    rw [hstart] at halt
    have hbig : 8192 ≤ (ofMap m).count + (m.altCount - 1) := by omega
    have hmod : Word.low 13 ((ofMap m).count + (m.altCount - 1)) < 8192 :=
      Nat.mod_lt _ (by decide)
    omega
  · rintro hfit i hi k hk
    have hlt := altStart_add_lt hm hi hk
    rw [alt_chainPlace hm hi (by omega), if_pos hk, chainPlace_succ, low_thirteen (by omega)]

end Tables

/-! ## The chains of a variant map's tables -/

open EncodeTable in
/-- what the descriptor lines of a variant map and the encoder's tables made of them are: each
name heads a chain of its kept variants, at its slot and then at places after all names that no
other chain takes, and the encoder walks the chain from the name's number when the alternatives
fit their 13 bits -/
structure Chained (m : VariantMap) : Prop where
  /-- the descriptor lines take distinct slots -/
  slots_nodup : ((lines m).map Line.slot).Nodup
  /-- the names' slots are the names -/
  name_slots : ((lines m).map Line.slot).filterMap DescSlot.name? = m.names.toList
  /-- the places after all names are `0 .. altCount - 1` -/
  extra_slots : ((lines m).map Line.slot).filterMap DescSlot.extra? = List.range m.altCount
  /-- the mnemonics are numbered up to the number of names -/
  count_eq : (Tables.ofMap m).count = m.names.size
  /-- a name's kept variants have distinct keys, -/
  kept_nodup : ∀ i, i < m.names.size → ((m.kept i).map Variant.key).Nodup
  /-- come in the order of their immediate widths, then of their encodings, -/
  kept_sorted : ∀ i, i < m.names.size →
    (m.kept i).Pairwise fun a b => tryOrder a b = true ∧ a.immWidth ≤ b.immWidth
  /-- one for each key among the name's variants, -/
  kept_covers : ∀ i, i < m.names.size →
    ∀ v ∈ (m.variants.getD i #[]).toList, ∃ w ∈ m.kept i, w.key = v.key
  /-- each one of them -/
  kept_mem : ∀ i, i < m.names.size → ∀ w ∈ m.kept i, w ∈ (m.variants.getD i #[]).toList
  /-- the `k`-th line of a name's chain is a descriptor line -/
  chain_lines : ∀ i (hi : i < m.names.size) k (hk : k < (m.kept i).length),
    chainLine m.names[i] (m.altStart i) (m.kept i) k hk ∈ lines m
  /-- and the encoder holds its descriptor at the chain's `k`-th place -/
  chain_descs : ∀ i (hi : i < m.names.size) k (hk : k < (m.kept i).length),
    (Tables.ofMap m).desc (Tables.chainPlace m i k) = Tables.descOf (Tables.ofMap m).numbers
      (Tables.ofMap m).count (chainLine m.names[i] (m.altStart i) (m.kept i) k hk)
  /-- a name's number is the first place of its chain -/
  chain_start : ∀ i (hi : i < m.names.size),
    (Tables.ofMap m).numbers[m.names[i]]? = some (Tables.chainPlace m i 0)
  /-- the places of a chain are distinct -/
  chain_nodup : ∀ i, i < m.names.size →
    ((List.range (m.kept i).length).map (Tables.chainPlace m i)).Nodup
  /-- and there are no more of them than descriptors -/
  chain_fuel : ∀ i, i < m.names.size → (m.kept i).length ≤ (Tables.ofMap m).descs.size
  /-- with the places after all names ending by 8192, the encoder walks each chain, trying its
  descriptors in order, each once -/
  walks : (Tables.ofMap m).count + m.altCount ≤ 8192 → ∀ i, i < m.names.size →
    (Tables.ofMap m).Walks ((List.range (m.kept i).length).map (Tables.chainPlace m i)) ∧
    ∀ mnem ops fuel, (m.kept i).length ≤ fuel →
      tryChain (Tables.ofMap m) mnem ops fuel (Tables.chainPlace m i 0) =
        tryList (Tables.ofMap m) mnem ops ((List.range (m.kept i).length).map (Tables.chainPlace m i))
  /-- and every alternative is the next place of its chain exactly then, or when there are none -/
  alts_exact : (∀ i, i < m.names.size → ∀ k, k + 1 < (m.kept i).length →
      ((Tables.ofMap m).desc (Tables.chainPlace m i k)).alt = Tables.chainPlace m i (k + 1)) ↔
    m.altCount = 0 ∨ (Tables.ofMap m).count + m.altCount ≤ 8192

open EncodeTable Tables in
/-- **The chains of every variant map the entries give are well formed**: each name heads the
chain of its kept variants, distinct by key and ordered by immediate width, at its slot and then
at its own places after all names, which together are `0 .. altCount - 1`; the encoder's tables
hold the chain's descriptors from the name's number on; and when the places after all names end
by 8192 the encoder tries exactly the chain, in order, and stops. Past 8192 the last alternative
is cut to its 13 bits. -/
theorem variantMap_chained {entries : List Entry} {m : VariantMap}
    (h : variantMap entries = .ok m) : Chained m := by
  have hm := VariantMap.variantMap_wf h
  obtain ⟨hnodup, hnames, hextras, hlines⟩ := hm.lines_chains
  refine ⟨hnodup, hnames, hextras, ofMap_count_eq hm, fun i _ => ?_, fun i _ => ?_,
    fun i _ v hv => ?_, fun i _ w hw => ?_, hlines, fun i hi k hk => desc_chainPlace hm hi hk,
    fun i hi => (chainPlace_zero hm hi).1, fun i hi => chainPlaces_nodup hm hi _,
    fun i hi => length_kept_le hm hi, fun hfit i hi => ?_, alts_exact_iff hm⟩
  · exact ordered_nodup _
  · exact (ordered_sorted _).imp fun h => ⟨h, immWidth_le_of_tryOrder h⟩
  · exact exists_ordered hv
  · exact mem_ordered hw
  · exact ⟨ofMap_walks hm hfit hi, fun mnem ops _ hfuel => tryChain_ofMap hm hfit hi mnem ops hfuel⟩

end X86Codec.Encoder
