import X86Codec.Failure
/-!
The mnemonic name table: all names in one text, each ending in a NUL character, where a name
that ends another name shares that name's tail.

Only names that are not a proper tail of another name are written out; they are sorted, each
followed by a NUL (a NUL alone when no name has a character). A name's offset is the first
place its text and a NUL occur in the merged text. The merged text is shown as a quoted
string without its last NUL, other NULs written `\0`, and the offsets as a comma-separated
list.

Building the table walks a tree of the reversed names that nests one level per character, on
top of the levels its caller already holds; the whole may hold at most `nestingLimit`
levels, so a name that is too long makes the table fail (`render`). Built on its own the
table starts at level `ownDepth`.

Main statements: the text at a name's offset is the name followed by a NUL
(`matchesAt_offset`); the table is built exactly when the walk fits (`render_isOk`).
-/

namespace X86Codec.NameTable

/-- whether `needle` occurs in `hay` at `start`, comparing from position `j` of the needle -/
def matchesFrom (hay needle : Array Char) (start j : Nat) : Bool :=
  if h : j < needle.size then
    hay[start + j]? == some needle[j] && matchesFrom hay needle start (j + 1)
  else true
termination_by needle.size - j

/-- whether `needle` occurs in `hay` at `start` -/
def matchesAt (hay needle : Array Char) (start : Nat) : Bool := matchesFrom hay needle start 0

/-- the first position from `start` at which `needle` occurs in `hay` -/
def findFrom (hay needle : Array Char) (start : Nat) : Option Nat :=
  if h : start + needle.size ≤ hay.size then
    if matchesAt hay needle start then some start else findFrom hay needle (start + 1)
  else none
termination_by hay.size + 1 - start
decreasing_by omega

/-- the first position at which `needle` occurs in `hay` -/
def find? (hay needle : Array Char) : Option Nat := findFrom hay needle 0

theorem matchesAt_of_findFrom {hay needle : Array Char} {start i : Nat}
    (h : findFrom hay needle start = some i) : matchesAt hay needle i = true := by
  induction start using findFrom.induct hay needle with
  | case1 start hle hm =>
    rw [findFrom, dif_pos hle, if_pos hm] at h
    cases h
    exact hm
  | case2 start hle hm ih =>
    rw [findFrom, dif_pos hle, if_neg hm] at h
    exact ih h
  | case3 start hle =>
    rw [findFrom, dif_neg (by omega)] at h
    cases h

/-- the text reversed -/
def reverseText (s : String) : String := String.ofList s.toList.reverse

/-- the names that are no proper tail of another: among the reversed names in sorted order,
those that do not start the next one -/
def untailed (names : List String) : List String :=
  let revs := (names.map reverseText |>.mergeSort fun a b => decide (a ≤ b)).eraseDups
  let keep := (revs.zip (revs.drop 1 |>.map some |>.concat none)).filterMap fun (r, next) =>
    match next with
    | some n => if n.startsWith r then none else some r
    | none => some r
  keep.map reverseText

/-- the written names, each followed by a NUL, sorted -/
def written (names : List String) : List String :=
  match untailed names with
  | [] => ["\x00"]
  | ks => (ks.map (· ++ "\x00")).mergeSort fun a b => decide (a ≤ b)

/-- the merged text: the written names, each followed by a NUL -/
def merged (names : List String) : String := String.join (written names)

/-- the offset of a name in the merged text -/
def offset (text : Array Char) (name : String) : Nat :=
  (find? text (name ++ "\x00").toList.toArray).getD 0

/-- where the offset is found, the merged text holds the name and a NUL there -/
theorem matchesAt_offset (text : Array Char) (name : String)
    (h : (find? text (name ++ "\x00").toList.toArray).isSome) :
    matchesAt text (name ++ "\x00").toList.toArray (offset text name) = true := by
  unfold offset
  cases hf : find? text (name ++ "\x00").toList.toArray with
  | none => rw [hf] at h; simp at h
  | some i => exact matchesAt_of_findFrom hf

/-- the merged text as a quoted string, without its last NUL -/
def quoted (names : List String) : String :=
  let body := (merged names).toList.dropLast
  "\"" ++ String.join (body.map fun c => if c = '\x00' then "\\0" else c.toString) ++ "\""

/-- the offsets of the names -/
def offsets (names : List String) : List Nat :=
  let text := (merged names).toList.toArray
  names.map (offset text)

/-- the offsets as text -/
def offsetsText (names : List String) : String :=
  ",".intercalate ((offsets names).map toString)

/-- the most nesting levels in use at once -/
def nestingLimit : Nat := 1000

/-- the nesting level of the table builder when it is called on its own -/
def ownDepth : Nat := 5

/-- the number of characters of the longest name -/
def longest (names : List String) : Nat := names.foldr (fun n m => max n.length m) 0

/-- whether the walk over the names, started at nesting level `depth`, stays within the
limit: it takes one more level per character of the longest name -/
def walkFits (depth : Nat) (names : List String) : Bool := depth + longest names < nestingLimit

/-- the quoted merged text and the offsets of the names, built at nesting level `depth` -/
def render (depth : Nat) (names : List String) : Except Failure (String × String) :=
  if walkFits depth names then .ok (quoted names, offsetsText names)
  else .error .nestingExhausted

theorem render_isOk (depth : Nat) (names : List String) :
    (render depth names).isOk = walkFits depth names := by
  unfold render
  split <;> simp_all [Except.isOk, Except.toBool]

example : longest ["add", "padd", ""] = 4 := by decide
example : walkFits ownDepth ["add", "padd"] = true := by decide
example : ownDepth + 995 = nestingLimit := by decide

end X86Codec.NameTable
