import CardDuel.Checked

/-!
# Decimal integers in text

`readUnsigned` and `readSigned` accept an optional sign followed by decimal digits and
nothing else, and refuse a number that does not fit the given count of binary digits.  A
minus sign is no part of an unsigned number, not even before zero.
-/

namespace CardDuel.Text

/-- The number written by a nonempty list of decimal digits. -/
def readDigits (cs : List Char) : Option Nat :=
  if !cs.isEmpty && cs.all Char.isDigit then some (Nat.ofDigitChars 10 cs 0) else none

/-- An unsigned number of at most `bits` binary digits; a plus sign may stand in front. -/
def readUnsigned (bits : Nat) (text : String) : Option Nat :=
  let digits :=
    match text.toList with
    | '+' :: cs => cs
    | cs => cs
  (readDigits digits).filter (· < 1 <<< bits)

/-- A signed number of `bits` binary digits. -/
def readSigned (bits : Nat) (text : String) : Option Int :=
  let number : Option Int :=
    match text.toList with
    | '+' :: cs => (readDigits cs).map Int.ofNat
    | '-' :: cs => (readDigits cs).map fun n => -(n : Int)
    | cs => (readDigits cs).map Int.ofNat
  number.filter fun n => decide (Checked.InRange bits n)

/-- A number with its sign, also when it is not negative. -/
def withSign (n : Int) : String :=
  if n < 0 then toString n else "+" ++ toString n

end CardDuel.Text
