import Std.Data.HashMap
import X86Codec.Listing.Opcode
/-!
The decoder's trie of byte-indexed tables.

The decoder reads an instruction through up to six tables, one kind per level: the root table
(indexed by the escape, plus 4 for VEX), a 256-entry table for the opcode byte, a 4-entry
table for the mandatory prefix, a 16-entry table for the ModRM reg field and register form,
an 8-entry table for the ModRM rm field, and a 4-entry table for VEX.W and VEX.L. A level may
be skipped. Tables are numbered in the order they are made; number 0 holds the root slots,
one per mode.

An opcode pattern becomes a `Path`: the slots it occupies at each level, or none to skip the
level. Adding a path walks the frontier of slots level by level. A level the path skips is
still entered where a table of that level is already present, and then on all its slots. A
slot holding something else where a table is needed is pushed one level down: a new table
gets the old content in its first slot and copies of it in all others. At the end the
frontier slots receive the descriptor; an existing strong entry there may only be met by a
weak one.

Merging replaces tables equal to an earlier table of the same kind, deepest kinds first, and
relinks the tables above them. The root slots are not relinked. Laying out concatenates the
tables into 16-bit words: `(value << 1) | kind`, where an entry's value is its descriptor
number times 4 and a table's value is its offset.

Updates run in `EStateM Failure Trie`: a failure leaves the trie as far as it got.
-/

namespace X86Codec

/-- the kinds of table, in the order a path visits them -/
inductive TableKind where
  | root | byte | mandatory | modrm | modrmLow | vex
  deriving DecidableEq, Repr, Hashable

namespace TableKind

/-- the kinds in the order a path visits them -/
def order : List TableKind := [root, byte, mandatory, modrm, modrmLow, vex]

/-- the number of slots of a table of a kind -/
def length : TableKind → Nat
  | root => 8 | byte => 256 | mandatory => 4 | modrm => 16 | modrmLow => 8 | vex => 4

/-- the name of a kind of table -/
def name : TableKind → String
  | root => "TABLE_ROOT" | byte => "TABLE256" | mandatory => "TABLE_PREFIX"
  | modrm => "TABLE16" | modrmLow => "TABLE8E" | vex => "TABLE_VEX"

/-- the kind code of a table kind -/
def code : TableKind → Int
  | root => -1 | byte => 2 | mandatory => 5 | modrm => 3 | modrmLow => 4 | vex => 6

end TableKind

/-- the content of a slot: a descriptor number, strong or weak, or a link to a table -/
inductive Slot where
  | instr (desc : Int)
  | weak (desc : Int)
  | table (kind : TableKind) (num : Nat)
  deriving DecidableEq, Repr, Hashable

namespace Slot

/-- the name of the slot's kind -/
def kindName : Slot → String
  | instr _ => "INSTR" | weak _ => "WEAKINSTR" | table k _ => k.name

/-- the kind code of a slot -/
def code : Slot → Int
  | instr _ => 1 | weak _ => 9 | table k _ => k.code

/-- the number a slot holds: a descriptor number or a table number -/
def value : Slot → Int
  | instr d | weak d => d
  | table _ n => n

/-- the kind code in the three low bits of a word -/
def lowCode (s : Slot) : Int := s.code % 8

end Slot

/-- the slots an opcode pattern occupies at each level; `none` skips a level -/
structure Path where
  root : List Nat
  byte : List Nat
  mandatory : Option (List Nat)
  modrm : Option (List Nat)
  modrmLow : Option (List Nat)
  vex : Option (List Nat)
  deriving DecidableEq, Repr

namespace Path

/-- the levels of a path with their kinds -/
def levels (p : Path) : List (TableKind × Option (List Nat)) :=
  [(.root, some p.root), (.byte, some p.byte), (.mandatory, p.mandatory), (.modrm, p.modrm),
   (.modrmLow, p.modrmLow), (.vex, p.vex)]

/-- the six levels without their kinds -/
def toList (p : Path) : List (Option (List Nat)) := p.levels.map (·.2)

end Path

namespace Opcode

/-- the slot numbers a W or L switch allows, for the bit value `bit` -/
def switchSlots (bit : Nat) : Switch → List Nat
  | .clear => [0] | .set => [bit] | .ignored => [0, bit]

/-- the path of an opcode pattern -/
def path (o : Opcode) : Path :=
  let mandatory := o.mandatory.map fun
    | .nfx => [0, 1] | .np => [0] | .p66 => [1] | .f3 => [2] | .f2 => [3]
  let (modrm, modrmLow) : Option (List Nat) × Option (List Nat) :=
    match o.fixedModrm, o.modrm with
    | some x, _ => (some [((x - 0xc0) >>> 3) ||| 8], some [x &&& 7])
    | none, some (reg, form) =>
      let mods := match form with | .mem => [0] | .reg => [8] | .both => [0, 8]
      let regs := match reg with | some r => [r] | none => List.range 8
      (some (mods.flatMap fun x => regs.map (x + ·)), none)
    | none, none => (none, none)
  let fixes (s : Option Switch) : Bool := s == some .clear || s == some .set
  let vex := if fixes o.vexl || fixes o.rexw then
      let ws := switchSlots 1 (o.rexw.getD .ignored)
      let ls := switchSlots 2 (o.vexl.getD .ignored)
      some (ws.flatMap fun w => ls.map (w + ·))
    else none
  { root := [o.escape ||| (if o.vex then 4 else 0)],
    byte := if o.extended then (List.range 8).map (o.byte + ·) else [o.byte],
    mandatory, modrm, modrmLow, vex }

end Opcode

/-- a trie under construction: numbered tables (number 0 holds the root slots, a merged-away
table is `none`) and the numbers of the tables of each kind, kinds in order of first use -/
structure Trie where
  tables : Array (Option (Array (Option Slot)))
  kinds : Array (TableKind × Array Nat)

/-- updates of a trie that may fail part-way -/
abbrev TrieM := EStateM Failure Trie

/-- the position a possibly negative index names in a sequence of length `n`: negative
indices count from the end -/
def seqIndex (n : Nat) (i : Int) : Option Nat :=
  if 0 ≤ i then (if i < n then some i.toNat else none)
  else if -(n : Int) ≤ i then some (n + i).toNat else none

namespace Trie

/-- a trie with `rootCount` empty root slots and no tables -/
def empty (rootCount : Int) : Trie :=
  { tables := #[some (Array.replicate rootCount.toNat none)], kinds := #[] }

/-- the kind list with table `n` noted under `kind` -/
def noteKind (kinds : Array (TableKind × Array Nat)) (kind : TableKind) (n : Nat) :
    Array (TableKind × Array Nat) :=
  match kinds.findIdx? (·.1 == kind) with
  | some i => kinds.modify i fun (k, ns) => (k, ns.push n)
  | none => kinds.push (kind, #[n])

/-- make an empty table of a kind and give its number -/
def addTable (kind : TableKind) : TrieM Nat :=
  modifyGet fun t =>
    (t.tables.size,
     { tables := t.tables.push (some (Array.replicate kind.length none)),
       kinds := noteKind t.kinds kind t.tables.size })

/-- the slots of a table that is still present -/
def slotsOf (num : Nat) (absent : Failure) : TrieM (Array (Option Slot)) := do
  match (← get).tables[num]? with
  | some (some tab) => pure tab
  | _ => throw absent

/-- replace a whole table -/
def setTable (num : Nat) (tab : Option (Array (Option Slot))) : TrieM Unit :=
  modify fun t => { t with tables := t.tables.modify num fun _ => tab }

/-- replace one slot -/
def setSlot (num i : Nat) (s : Option Slot) : TrieM Unit :=
  modify fun t => { t with tables := t.tables.modify num (Option.map (·.setIfInBounds i s)) }

/-- the position index `idx` names in table `num`, which must be present -/
def position (num : Nat) (idx : Int) : TrieM (Array (Option Slot) × Nat) := do
  let tab ← slotsOf num .readRemoved
  match seqIndex tab.size idx with
  | some i => pure (tab, i)
  | none => throw (.pastEnd .list)

/-- a copy of what a slot holds, with fresh copies of the tables below it, numbered in the
order they are reached; `depth` bounds the levels below, which never exceed six -/
def copySlot : Nat → Option Slot → TrieM (Option Slot)
  | 0, s => pure s
  | depth + 1, s =>
    match s with
    | some (.table k n) => do
      let fresh ← addTable k
      let src ← slotsOf n .walkRemoved
      let copies ← src.mapM (copySlot depth)
      setTable fresh (some copies)
      pure (some (.table k fresh))
    | s => pure s

/-- the slot list a level takes at a slot holding `cur`: the level's own, or for a skipped
level all the slots of a table of the level's kind that is already there -/
def takenSlots (kind : TableKind) (elem : Option (List Int)) (cur : Option Slot) :
    Option (List Int) :=
  match elem, cur with
  | some es, _ => some es
  | none, some (.table k _) => if k = kind then some ((List.range kind.length).map Int.ofNat)
                               else none
  | none, _ => none

/-- put a new table of `kind` between slot `i` of table `num` and its content `cur`: the
content stays in the first slot and copies of it fill the others -/
def pushDown (kind : TableKind) (num i : Nat) (cur : Option Slot) : TrieM Nat := do
  let fresh ← addTable kind
  setSlot fresh 0 cur
  (List.range' 1 (kind.length - 1)).forM fun j => do setSlot fresh j (← copySlot 7 cur)
  setSlot num i (some (.table kind fresh))
  pure fresh

/-- the table of `kind` that slot `i` of table `num`, holding `cur`, leads to; made when the
slot is empty, pushed in when it holds anything else -/
def descend (kind : TableKind) (num i : Nat) (cur : Option Slot) : TrieM Nat :=
  match cur with
  | some (.table k n) => if k = kind then pure n else pushDown kind num i cur
  | none => do
    let fresh ← addTable kind
    setSlot num i (some (.table kind fresh))
    pure fresh
  | some _ => pushDown kind num i cur

/-- the slots that a path's level leads to, from the frontier of the level above; `elem` is
the level's slot list, which a skipped level takes over from the first existing table of its
kind -/
def enterLevel (kind : TableKind) (elem : Option (List Int)) :
    List (Nat × Int) → TrieM (List (Nat × Int))
  | [] => pure []
  | (num, idx) :: rest => do
    let (tab, i) ← position num idx
    match takenSlots kind elem tab[i]?.join with
    | none => return (num, idx) :: (← enterLevel kind elem rest)
    | some es =>
      let target ← descend kind num i tab[i]?.join
      return es.map (fun e => (target, e)) ++ (← enterLevel kind (some es) rest)

/-- enter the levels of a path in turn -/
def enterLevels : List (TableKind × Option (List Nat)) → List (Nat × Int) →
    TrieM (List (Nat × Int))
  | [], frontier => pure frontier
  | (kind, elem) :: rest, frontier => do
    enterLevels rest (← enterLevel kind (elem.map (·.map Int.ofNat)) frontier)

/-- store the descriptor in the frontier slots -/
def fill (path : Path) (desc : Int) (weak : Bool) : List (Nat × Int) → TrieM Unit
  | [] => pure ()
  | (num, idx) :: rest => do
    let (tab, i) ← position num idx
    match tab[i]?.join with
    | none | some (.weak _) =>
      setSlot num i (some (if weak then .weak desc else .instr desc))
    | some _ => if !weak then throw (.redundantEntry path.toList)
    fill path desc weak rest

/-- add a path for descriptor `desc` under root slot `root` -/
def add (path : Path) (desc : Int) (root : Int) (weak : Bool) : TrieM Unit := do
  fill path desc weak (← enterLevels path.levels [(0, root)])

/-- the tables of a kind, noting the kind as used if it was not yet -/
def kindTables (kind : TableKind) : TrieM (Array Nat) :=
  modifyGet fun t =>
    match t.kinds.find? (·.1 == kind) with
    | some (_, ns) => (ns, t)
    | none => (#[], { t with kinds := t.kinds.push (kind, #[]) })

/-- a slot relinked through the merged-away table numbers -/
def relink (synonyms : Std.HashMap Nat Nat) : Option Slot → Option Slot
  | some (.table k n) => some (.table k (synonyms.getD n n))
  | s => s

/-- merge the tables `nums` of one kind: relink each through the synonyms, then drop it for
an equal table seen before; gives the synonyms extended by the dropped tables -/
def mergeKind (synonyms : Std.HashMap Nat Nat) :
    List Nat → Std.HashMap (Array (Option Slot)) Nat → TrieM (Std.HashMap Nat Nat)
  | [], _ => pure synonyms
  | num :: rest, seen => do
    let tab := (← slotsOf num .walkRemoved).map (relink synonyms)
    setTable num (some tab)
    match seen[tab]? with
    | some earlier =>
      setTable num none
      mergeKind (synonyms.insert num earlier) rest seen
    | none => mergeKind synonyms rest (seen.insert tab num)

/-- merge the tables of each kind in turn -/
def mergeKinds : List TableKind → Std.HashMap Nat Nat → TrieM Unit
  | [], _ => pure ()
  | kind :: rest, synonyms => do
    mergeKinds rest (← mergeKind synonyms (← kindTables kind).toList {})

/-- merge equal tables, deepest kinds first -/
def merge : TrieM Unit := mergeKinds TableKind.order.reverse {}

/-- the words of the laid-out tables, the offsets of the root tables, and the report of the
size and the number of tables of each kind -/
structure Image where
  words : Array Int
  roots : List (Option Nat)
  report : String

/-- place table `num` after the tables placed so far, whose words end at `last`: a present
table with slots, other than table 0, starts there and takes its size rounded up to four -/
def place (t : Trie) : Array (Option Nat) × Nat → Nat → Array (Option Nat) × Nat
  | (offs, last), num =>
    if num = 0 then (offs, last) else
    match t.tables[num]? with
    | some (some tab) =>
      if tab.isEmpty then (offs, last)
      else (offs.setIfInBounds num (some last), last + (tab.size + 3) / 4 * 4)
    | _ => (offs, last)

/-- the offset of each table: tables in number order, each rounded up to four slots -/
def offsets (t : Trie) : Array (Option Nat) × Nat :=
  (List.range t.tables.size).foldl t.place (Array.replicate t.tables.size none, 0)

/-- the report line: the size in bytes and the number of tables of each kind -/
def report (t : Trie) (words : Nat) : String :=
  let kinds := t.kinds.toList.map fun (k, ns) =>
    "<EntryKind." ++ k.name ++ ": " ++ toString k.code ++ ">: " ++ toString ns.size
  toString (2 * words) ++ " bytes \x7b" ++ ", ".intercalate kinds ++ "\x7d\n"

/-- the word of a slot; offsets are multiples of four and descriptor values multiples of
four, so the kind code fills the three low bits -/
def slotWord (offs : Array (Option Nat)) : Slot → Except Failure Int
  | .instr d => .ok (d * 4 * 2 + 1)
  | .weak d => .ok (d * 4 * 2 + 1)
  | .table k n =>
    match offs[n]? with
    | some (some o) => .ok (o * 2 + (k.code % 8))
    | _ => .error .linkRemoved

/-- write the words of one table's slots from offset `off` -/
def writeSlots (offs : Array (Option Nat)) (off : Nat) :
    List (Option Slot × Nat) → Array Int → Except Failure (Array Int)
  | [], words => .ok words
  | (none, _) :: rest, words => writeSlots offs off rest words
  | (some s, i) :: rest, words => do
    writeSlots offs off rest (words.setIfInBounds (off + i) (← slotWord offs s))

/-- write the words of the tables `nums` -/
def writeTables (t : Trie) (offs : Array (Option Nat)) :
    List Nat → Array Int → Except Failure (Array Int)
  | [], words => .ok words
  | num :: rest, words =>
    match offs[num]?.join, t.tables[num]? with
    | some off, some (some tab) => do
      writeTables t offs rest (← writeSlots offs off tab.toList.zipIdx words)
    | _, _ => writeTables t offs rest words

/-- lay the tables out as words -/
def layout : TrieM Image := do
  let t ← get
  let (offs, size) := offsets t
  if size ≥ 0x8000 then throw (.tableTooLarge size)
  let words ← match writeTables t offs (List.range t.tables.size) (Array.replicate size 0) with
    | .ok words => pure words
    | .error e => throw e
  let rootSlots := (t.tables[0]?.join).getD #[]
  let roots ← rootSlots.toList.mapM fun s =>
    match s with
    | none => throw .emptyRoot
    | some s =>
      match seqIndex offs.size s.value with
      | some i => pure (offs[i]?.join)
      | none => throw (.pastEnd .list)
  return { words, roots, report := report t size }

end Trie

end X86Codec
