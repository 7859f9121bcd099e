import PuzzleShell.Text.PrintableTable

/-!
# Quoted literals

The form in which messages and prompts show a text: in quotes, with escapes for whatever would
not be seen.
-/

namespace PuzzleShell.Text

/-- The code point in lower case hexadecimal digits, at least `width` of them. -/
def hexDigits (width n : Nat) : List Char :=
  let digits := Nat.toDigits 16 n
  List.replicate (width - digits.length) '0' ++ digits

/-- The shortest numeric escape that can hold the character. -/
def escape (c : Char) : List Char :=
  if c.toNat ≤ 0xFF then '\\' :: 'x' :: hexDigits 2 c.toNat
  else if c.toNat ≤ 0xFFFF then '\\' :: 'u' :: hexDigits 4 c.toNat
  else '\\' :: 'U' :: hexDigits 8 c.toNat

/-- Apostrophes enclose the text, unless it holds one and no double quote. -/
def literalQuote (cs : List Char) : Char :=
  if '\'' ∈ cs ∧ '"' ∉ cs then '"' else '\''

def literalChar (quote c : Char) : List Char :=
  if c = quote ∨ c = '\\' then ['\\', c]
  else if c = '\t' then ['\\', 't']
  else if c = '\n' then ['\\', 'n']
  else if c = '\r' then ['\\', 'r']
  else if isPrintable c then [c]
  else escape c

def literal (s : String) : String :=
  let quote := literalQuote s.toList
  String.ofList (quote :: s.toList.flatMap (literalChar quote) ++ [quote])

def toAscii (cs : List Char) : List Char :=
  cs.flatMap fun c => if c.toNat < 0x80 then [c] else escape c

end PuzzleShell.Text
