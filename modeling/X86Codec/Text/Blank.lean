/-!
Blank characters and line breaks of the instruction listing.

A listing line is cut into columns at runs of blanks, and a listing text into lines at line
breaks. Both classes are the ones of the Unicode character database: a blank is a character
of general category Zs or of bidirectional class WS, B or S; a line break is one of the
characters that end a line in Unicode text (with carriage return and line feed together
counting once).

Main statements: `words` yields no empty word and no word holding a blank
(`words_ne_nil`, `not_isBlank_of_mem_words`).
-/

namespace X86Codec.Text

/-! ## The two classes -/

/-- the code points that separate columns -/
def blankCodes : List Nat :=
  [0x09, 0x0a, 0x0b, 0x0c, 0x0d, 0x1c, 0x1d, 0x1e, 0x1f, 0x20, 0x85, 0xa0, 0x1680,
   0x2000, 0x2001, 0x2002, 0x2003, 0x2004, 0x2005, 0x2006, 0x2007, 0x2008, 0x2009, 0x200a,
   0x2028, 0x2029, 0x202f, 0x205f, 0x3000]

/-- a character that separates columns -/
def isBlank (c : Char) : Bool := blankCodes.contains c.toNat

/-- the code points that end a line -/
def breakCodes : List Nat :=
  [0x0a, 0x0b, 0x0c, 0x0d, 0x1c, 0x1d, 0x1e, 0x85, 0x2028, 0x2029]

/-- a character that ends a line -/
def isBreak (c : Char) : Bool := breakCodes.contains c.toNat

/-! ## Words -/

/-- the words of a character list: its maximal runs of non-blank characters -/
def wordsOf : List Char → List Char → List (List Char)
  | [], [] => []
  | [], acc => [acc.reverse]
  | c :: cs, acc =>
    if isBlank c then
      if acc.isEmpty then wordsOf cs [] else acc.reverse :: wordsOf cs []
    else wordsOf cs (c :: acc)

/-- the columns of a text: its maximal runs of non-blank characters, in order -/
def words (s : String) : List String :=
  (wordsOf s.toList []).map String.ofList

theorem wordsOf_ne_nil : ∀ (cs acc : List Char), ∀ w ∈ wordsOf cs acc, w ≠ []
  | [], [], w, h => by simp [wordsOf] at h
  | [], a :: acc, w, h => by
    simp only [wordsOf, List.mem_singleton] at h
    subst h
    simp
  | c :: cs, acc, w, h => by
    unfold wordsOf at h
    split at h
    · split at h
      · exact wordsOf_ne_nil cs [] w h
      · rcases List.mem_cons.1 h with h | h
        · subst h
          rename_i hne
          simpa [List.isEmpty_iff] using hne
        · exact wordsOf_ne_nil cs [] w h
    · exact wordsOf_ne_nil cs (c :: acc) w h

theorem not_isBlank_of_mem_wordsOf : ∀ (cs acc : List Char), (∀ a ∈ acc, isBlank a = false) →
    ∀ w ∈ wordsOf cs acc, ∀ a ∈ w, isBlank a = false
  | [], [], _, w, h => by simp [wordsOf] at h
  | [], b :: acc, hacc, w, h => by
    simp only [wordsOf, List.mem_singleton] at h
    subst h
    intro a ha
    exact hacc a (List.mem_reverse.1 ha)
  | c :: cs, acc, hacc, w, h => by
    unfold wordsOf at h
    split at h
    · split at h
      · exact not_isBlank_of_mem_wordsOf cs [] (by simp) w h
      · rcases List.mem_cons.1 h with h | h
        · subst h
          intro a ha
          exact hacc a (List.mem_reverse.1 ha)
        · exact not_isBlank_of_mem_wordsOf cs [] (by simp) w h
    · rename_i hc
      refine not_isBlank_of_mem_wordsOf cs (c :: acc) ?_ w h
      intro a ha
      rcases List.mem_cons.1 ha with ha | ha
      · subst ha
        simpa using hc
      · exact hacc a ha

/-- no word is empty -/
theorem words_ne_nil (s : String) : ∀ w ∈ words s, w ≠ "" := by
  intro w hw
  simp only [words, List.mem_map] at hw
  obtain ⟨cs, hcs, rfl⟩ := hw
  intro h
  have hnil : cs = [] := by
    have := congrArg String.toList h
    simpa using this
  exact wordsOf_ne_nil _ _ cs hcs hnil

/-- no word holds a blank -/
theorem not_isBlank_of_mem_words (s : String) : ∀ w ∈ words s, ∀ c ∈ w.toList,
    isBlank c = false := by
  intro w hw c hc
  simp only [words, List.mem_map] at hw
  obtain ⟨cs, hcs, rfl⟩ := hw
  exact not_isBlank_of_mem_wordsOf _ [] (by simp) cs hcs c (by simpa using hc)

/-! ## First word and the rest -/

/-- a list without its leading blanks -/
def dropBlanks : List Char → List Char
  | [] => []
  | c :: cs => if isBlank c then dropBlanks cs else c :: cs

/-- the first word of a list and what follows it -/
def spanWord : List Char → List Char × List Char
  | [] => ([], [])
  | c :: cs =>
    if isBlank c then ([], c :: cs)
    else let (w, r) := spanWord cs; (c :: w, r)

/-- the first word of a text and, if anything but blanks follows it, the rest after the
blanks that follow the word; trailing blanks of the rest are kept -/
def firstWordAndRest (s : String) : List String :=
  match dropBlanks s.toList with
  | [] => []
  | cs =>
    let (w, r) := spanWord cs
    match dropBlanks r with
    | [] => [String.ofList w]
    | rest => [String.ofList w, String.ofList rest]

/-! ## Lines -/

/-- the lines of a character list; `acc` holds the current line reversed -/
def linesOf : List Char → List Char → List (List Char)
  | [], [] => []
  | [], acc => [acc.reverse]
  | '\r' :: '\n' :: cs, acc => acc.reverse :: linesOf cs []
  | c :: cs, acc =>
    if isBreak c then acc.reverse :: linesOf cs [] else linesOf cs (c :: acc)

/-- the lines of a text: cut at every line break, with no empty line after a final break -/
def lines (s : String) : List String :=
  (linesOf s.toList []).map String.ofList

end X86Codec.Text
