import PuzzleShell.Text.CaseTable

/-!
# Lower case

The full lower case form of a text. Every character but the capital sigma is mapped on its own;
a capital sigma takes its final form at the end of a word.
-/

namespace PuzzleShell.Text

/-- The lower case form of a character on its own. The dotted capital I keeps its dot as a
combining mark; for all others the form is one character. -/
def lowerChar (c : Char) : List Char :=
  if c.toNat < 0x80 then [c.toLower]
  else if c.toNat = 0x130 then ['i', Char.ofNat 0x307]
  else match caseRuns.findSome? (·.find? c.toNat) with
    | some n => [Char.ofNat n]
    | none => [c]

/-- The next character that is not passed over is a cased one. -/
def meetsCased (cs : List Char) : Bool :=
  match cs.dropWhile caseIgnorableRanges.has with
  | [] => false
  | c :: _ => casedRanges.has c

/-- A sigma that follows a letter and precedes none is final. `before` is read outwards. -/
def lowerSigma (before after : List Char) : Char :=
  if meetsCased before && !meetsCased after then 'ς' else 'σ'

/-- The lower case form of `cs`, where `before` holds the characters that precede it, the nearest
first. -/
def lowerAfter (before : List Char) : List Char → List Char
  | [] => []
  | c :: after =>
    (if c = 'Σ' then [lowerSigma before after] else lowerChar c) ++ lowerAfter (c :: before) after

def lower (s : String) : String := String.ofList (lowerAfter [] s.toList)

end PuzzleShell.Text
