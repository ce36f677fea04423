import X86Codec.Text.Printable
/-!
Quoted names and the printed form of small values in messages.

A name that could not be found is reported quoted: between single quotes, or between double
quotes when it holds a single quote and no double quote. A backslash and the chosen quote are
escaped; tab, line feed and carriage return are written as `\t`, `\n`, `\r`; the other ASCII
controls, and characters beyond ASCII that are not printable, are written by their code point
in hex: `\x` with two digits below 0x100, `\u` with four below 0x10000, `\U` with eight
otherwise. Printable characters stand as they are.

Number lists print as `[1, 2, 3]`, absent values as `None`.
-/

namespace X86Codec.Text

/-- the lowercase hex digit of the low four bits of `n` -/
def hexDigit (n : Nat) : Char := "0123456789abcdef".toList.getD (n % 16) '0'

/-- the two lowercase hex digits of a byte -/
def hexByte (n : Nat) : String := String.ofList [hexDigit (n / 16), hexDigit n]

/-- the lowercase hex digits of `n`, padded with zeros to `width` digits -/
def hexDigits (width n : Nat) : List Char :=
  (List.range width).reverse.map fun k => hexDigit (n >>> (4 * k))

/-- the escape of a code point that is not shown as it is -/
def codeEscape (n : Nat) : List Char :=
  if n < 0x100 then '\\' :: 'x' :: hexDigits 2 n
  else if n < 0x10000 then '\\' :: 'u' :: hexDigits 4 n
  else '\\' :: 'U' :: hexDigits 8 n

/-- a character escaped inside a quoted name delimited by `q` -/
def escapeChar (q : Char) (c : Char) : List Char :=
  if c = '\\' || c = q then ['\\', c]
  else if c = '\t' then ['\\', 't']
  else if c = '\n' then ['\\', 'n']
  else if c = '\r' then ['\\', 'r']
  else if c.toNat < 0x20 || c.toNat = 0x7f then codeEscape c.toNat
  else if c.toNat < 0x7f || isPrintable c then [c]
  else codeEscape c.toNat

/-- the quote that delimits a name: double when the name holds a single quote and no double
quote, single otherwise -/
def quoteFor (cs : List Char) : Char :=
  if cs.contains '\'' && !cs.contains '"' then '"' else '\''

/-- a name between quotes, as reported when it is missing -/
def quote (s : String) : String :=
  let q := quoteFor s.toList
  String.ofList (q :: s.toList.flatMap (escapeChar q) ++ [q])

/-- an integer list as `[1, 2, 3]` -/
def showInts (xs : List Int) : String :=
  "[" ++ ", ".intercalate (xs.map toString) ++ "]"

/-- an optional integer list, `None` when absent -/
def showOptInts : Option (List Int) → String
  | none => "None"
  | some xs => showInts xs

example : quote "ZZ" = "'ZZ'" := by decide +kernel
example : quote "" = "''" := by decide +kernel
example : quote "a'b" = "\"a'b\"" := by decide +kernel
example : quote "a'\"" = "'a\\'\"'" := by decide +kernel
example : quote "R\u2000M\x85" = "'R\\u2000M\\x85'" := by decide +kernel
example : quote "\ue000" = "'\\ue000'" := by decide +kernel
example : showInts [1, 2, 3] = "[1, 2, 3]" := by cbv

end X86Codec.Text
