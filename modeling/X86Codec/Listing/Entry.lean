import X86Codec.Listing.Opcode
import X86Codec.Listing.Descriptor
import X86Codec.Listing.Data
/-!
Entries of the listing: an opcode pattern, a descriptor and whether the entry is weak.

Empty lines and lines starting with `#` are comments. A leading `*` marks a weak entry. The
first column is the opcode pattern and the rest of the line, after the blanks that follow
it, the descriptor. Entries flagged `UNDOC` are left out unless asked for.
-/

namespace X86Codec

/-- one listing entry -/
structure Entry where
  weak : Bool
  opcode : Opcode
  desc : Descriptor
  deriving Repr

namespace Entry

/-- read one line that is not a comment -/
def ofLine (line : String) : Except Failure Entry := do
  let (line, weak) := if line.front = '*' then (String.ofList (line.toList.drop 1), true)
    else (line, false)
  match Text.firstWordAndRest line with
  | [pattern, columns] =>
    let opcode ← Opcode.parse pattern
    let desc ← Descriptor.parse columns
    return { weak, opcode, desc }
  | ws => throw (.missingColumns ws.length)

/-- whether a line is a comment -/
def isComment (line : String) : Bool := line.isEmpty || line.front = '#'

/-- read listing lines; `withUndoc` keeps the entries flagged `UNDOC` -/
def ofLines (lines : List String) (withUndoc : Bool) : Except Failure (List Entry) := do
  let entries ← (lines.filter (! isComment ·)).mapM ofLine
  return entries.filter fun e => !e.desc.has "UNDOC" || withUndoc

end Entry

/-- the elements of a list from position `lo` up to `hi`; a negative bound counts from the
end, and bounds are clipped to the list -/
def sliceList (xs : List α) (lo hi : Int) : List α :=
  let n : Int := xs.length
  let clip (b : Int) : Nat := (if b < 0 then max (b + n) 0 else min b n).toNat
  (xs.drop (clip lo)).take (clip hi - clip lo)

namespace Listing

/-- the lines of the listing, comments included -/
def lines : List String := Text.lines text

end Listing

end X86Codec
