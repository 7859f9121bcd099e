import PuzzleShell.Text.Literal

/-!
# What can be wrong with a prompt template

The causes come from four places: the braces of the template, the name in a field, the objects that
it leads to, and the layout that follows a colon.
-/

namespace PuzzleShell

inductive PromptError where
  | loneOpen
  | loneClose
  | openInName
  | unclosedField
  | missingConversion
  | afterConversion
  | unclosedLayout
  | tooDeep
  | unknownField (name : String)
  | noPosition (n : Nat)
  | tooManyDigits
  | emptyStep
  | unclosedIndex
  | badStep
  | outOfRange
  | textIndex
  | noAttribute (name : String)
  /-- What an object answers that does not do as it is asked. -/
  | refused (kind text : String)
  | unknownConversion (c : Char)
  | missingPrecision
  | badLayout (layout : String)
  | unknownKind (c : Char)
  | bothSeparators
  | separatorKind (separator kind : Char)
  | spaceSign
  | sign
  | negativeZero
  | alternate
  | padAfterSign
deriving DecidableEq, Repr

namespace PromptError

/-- A character as messages show it: itself if it is visible ASCII up to `last`. -/
def shown (last : Nat) (c : Char) : String :=
  if 0x20 < c.toNat ∧ c.toNat ≤ last then String.singleton c
  else "\\x" ++ String.ofList (Text.hexDigits 1 c.toNat)

def message : PromptError → String
  | loneOpen => "Single '\x7b' encountered in format string"
  | loneClose => "Single '\x7d' encountered in format string"
  | openInName => "unexpected '\x7b' in field name"
  | unclosedField => "expected '\x7d' before end of string"
  | missingConversion => "end of string while looking for conversion specifier"
  | afterConversion => "expected ':' after conversion specifier"
  | unclosedLayout => "unmatched '\x7b' in format spec"
  | tooDeep => "Max string recursion exceeded"
  | unknownField name => Text.literal name
  | noPosition n => "Replacement index " ++ toString n ++ " out of range for positional args tuple"
  | tooManyDigits => "Too many decimal digits in format string"
  | emptyStep => "Empty attribute in format string"
  | unclosedIndex => "Missing ']' in format string"
  | badStep => "Only '.' or '[' may follow ']' in format field specifier"
  | outOfRange => "string index out of range"
  | textIndex => "string indices must be integers, not 'str'"
  | noAttribute name => "'str' object has no attribute '" ++ name ++ "'"
  | refused _ text => text
  | unknownConversion c => "Unknown conversion specifier " ++ shown 0x7E c
  | missingPrecision => "Format specifier missing precision"
  | badLayout layout => "Invalid format specifier '" ++ layout ++ "' for object of type 'str'"
  | unknownKind c => "Unknown format code '" ++ shown 0x7F c ++ "' for object of type 'str'"
  | bothSeparators => "Cannot specify both ',' and '_'."
  | separatorKind separator kind =>
    "Cannot specify '" ++ String.singleton separator ++ "' with '" ++ shown 0x7F kind ++ "'."
  | spaceSign => "Space not allowed in string format specifier"
  | sign => "Sign not allowed in string format specifier"
  | negativeZero => "Negative zero coercion (z) not allowed in string format specifier"
  | alternate => "Alternate form (#) not allowed in string format specifier"
  | padAfterSign => "'=' alignment not allowed in string format specifier"

end PromptError

end PuzzleShell
