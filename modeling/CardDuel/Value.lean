import CardDuel.Text.Blank
import CardDuel.Text.Integer

/-!
# Values and faces

A card shows a `Face`: a suit and a `Value`.  A value is a number or one of the marks that
decide a match by themselves.  Numbers are ordered among themselves, and a mark compares
only with itself.
-/

namespace CardDuel

/-- What a card is worth. -/
inductive Value where
  /-- An ordinary value, printed from 1 to 10 but free to drift. -/
  | number (n : Int)
  /-- Wins its match. -/
  | win
  /-- Loses its match. -/
  | lose
  /-- Draws its match. -/
  | draw
  /-- Both sides of its match score as winners; no effect changes it any more. -/
  | kiss
  /-- The mark of a special card, which is never scored. -/
  | special
deriving DecidableEq, Repr

namespace Value

/-- The number, if the value is one. -/
def number? : Value → Option Int
  | number n => some n
  | _ => none

/-- Whether the value forces the outcome of a match. -/
def isOutcome : Value → Bool
  | win | lose | draw | kiss => true
  | number _ | special => false

/-- The value that a word of a rule text names. -/
def ofWord (word : String) : Option Value :=
  match Text.upper word with
  | "WIN" => some win
  | "LOSE" => some lose
  | "DRAW" => some draw
  | "KISS" => some kiss
  | _ => (Text.readSigned 32 word).map number

/-- The order of two values, if there is one. -/
def compare? : Value → Value → Option Ordering
  | number m, number n => some (compare m n)
  | a, b => if a = b then some .eq else none

/-- The text of a value. -/
def text : Value → String
  | number n => toString n
  | win => "Win"
  | lose => "Lose"
  | draw => "Draw"
  | kiss => "Kiss"
  | special => "Special"

end Value

/-- The suit and value that a card shows. -/
structure Face where
  suit : String
  value : Value
deriving DecidableEq, Repr

/-- The text of a face. -/
def Face.text (face : Face) : String :=
  face.value.text ++ " of " ++ face.suit

end CardDuel
