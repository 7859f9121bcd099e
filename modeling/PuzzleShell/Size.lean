/-!
# Sizes for people

A size is shown in full below 1024, and with one decimal and a unit above, or in blocks. The decimal
and the blocks are those of the double nearest to the size, so a size beyond the range of doubles
cannot be shown.
-/

namespace PuzzleShell

/-- The quotient rounded to the nearest whole number, a half to the even one. -/
def divRoundEven (n d : Nat) : Nat :=
  let q := n / d
  if 2 * (n % d) < d ∨ 2 * (n % d) = d ∧ q % 2 = 0 then q else q + 1

namespace Size

/-- The value of `n` with 53 significant bits. -/
def toDouble (n : Nat) : Nat :=
  let dropped := n.log2 + 1 - 53
  divRoundEven n (1 <<< dropped) <<< dropped

/-- The first power of two beyond the doubles. -/
def doubleLimit : Nat := 1 <<< 1024

inductive Scale where
  | kilo
  | mega
  | giga
deriving DecidableEq, Repr

def Scale.bytes : Scale → Nat
  | kilo => 1024
  | mega => 1024 * 1024
  | giga => 1024 * 1024 * 1024

def Scale.letter : Scale → String
  | kilo => "K"
  | mega => "M"
  | giga => "G"

/-- The largest scale that does not exceed the size, or the smallest. -/
def Scale.of (n : Nat) : Scale :=
  if n < mega.bytes then kilo else if n < giga.bytes then mega else giga

/-- What is shown: a whole number of bytes, or tenths of a scale. -/
inductive Shown where
  | bytes (n : Int)
  | tenths (n : Nat) (scale : Scale)
deriving DecidableEq, Repr

def Shown.text : Shown → String
  | bytes n => toString n ++ "B"
  | tenths n scale => toString (n / 10) ++ "." ++ toString (n % 10) ++ scale.letter

inductive Error where
  | beyondDoubles
  | quotientBeyondDoubles
deriving DecidableEq, Repr

def Error.message : Error → String
  | beyondDoubles => "int too large to convert to float"
  | quotientBeyondDoubles => "integer division result too large for a float"

def shown (size : Int) : Except Error Shown :=
  if size < 1024 then .ok (.bytes size)
  else
    let n := toDouble size.toNat
    if n < doubleLimit then
      .ok (.tenths (divRoundEven (n * 10) (Scale.of n).bytes) (.of n))
    else .error .beyondDoubles

def format (size : Int) : Except Error String := (shown size).map Shown.text

def blocks (n : Nat) : Nat := (n + 1023) / 1024

/-- The blocks that are reported. The size is divided as a double, so beyond 2 ^ 53 it is rounded
before it is counted. -/
def reportedBlocks (n : Nat) : Except Error Nat :=
  let m := toDouble n
  if m < doubleLimit * 1024 then .ok (blocks m) else .error .quotientBeyondDoubles

end Size

end PuzzleShell
