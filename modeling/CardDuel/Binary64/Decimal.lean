import CardDuel.Binary64.Basic
import CardDuel.Text.Blank
import CardDuel.Text.Integer

/-!
# Floating-point numbers as decimal text

`Binary64.read` accepts an optional sign and then a word for an infinity or for no number,
or decimal digits with an optional point and an optional power of ten, and gives the number
closest to what is written.  `Binary64.render` writes the fewest decimal digits that read
back as the number, always in positional notation.
-/

namespace CardDuel.Binary64

/-! ### Reading -/

/-- The number closest to `digits * 10 ^ power`.  Far outside the range of the format the
size alone decides, so a long power of ten costs nothing. -/
def ofDecimal (negative : Bool) (digits : Nat) (power : Int) : Binary64 :=
  let size : Int := (Nat.toDigits 10 digits).length + power
  if digits = 0 || decide (size < -330) then zero negative
  else if size > 310 then infinity negative
  else nearest negative (digits * Nat.pow 10 power.toNat) (Nat.pow 10 (-power).toNat)

/-- A power of ten: a sign and digits. -/
def readPower : List Char → Option Int
  | '+' :: cs => (Text.readDigits cs).map Int.ofNat
  | '-' :: cs => (Text.readDigits cs).map fun n => -(n : Int)
  | cs => (Text.readDigits cs).map Int.ofNat

/-- Digits with an optional point and an optional power of ten. -/
def readMagnitude (negative : Bool) (cs : List Char) : Option Binary64 :=
  let isMark (c : Char) : Bool := c == 'e' || c == 'E'
  let power : Option Int :=
    match cs.dropWhile (!isMark ·) with
    | [] => some 0
    | _ :: rest => readPower rest
  let number := cs.takeWhile (!isMark ·)
  let (whole, fraction) := (Text.cutAt '.' number).getD (number, [])
  match power, Text.readDigits (whole ++ fraction) with
  | some power, some digits => some (ofDecimal negative digits (power - fraction.length))
  | _, _ => none

/-- A number without its sign. -/
def readUnsigned (negative : Bool) (cs : List Char) : Option Binary64 :=
  match Text.upper (String.ofList cs) with
  | "INF" | "INFINITY" => some (infinity negative)
  | "NAN" => some nan
  | _ => readMagnitude negative cs

/-- The number closest to the one a text writes. -/
def read (text : String) : Option Binary64 :=
  match text.toList with
  | '-' :: cs => readUnsigned true cs
  | '+' :: cs => readUnsigned false cs
  | cs => readUnsigned false cs

/-! ### Writing -/

/-- The open or closed interval of the reals that are closest to a number, over a common
denominator. -/
structure Interval where
  low : Nat
  value : Nat
  high : Nat
  den : Nat
  closed : Bool

/-- Membership of `num / den` in an interval. -/
def Interval.contains (interval : Interval) (num den : Nat) : Bool :=
  let (a, x, b) := (interval.low * den, num * interval.den, interval.high * den)
  if interval.closed then decide (a ≤ x ∧ x ≤ b) else decide (a < x ∧ x < b)

/-- The reals that are closest to `significand * 2 ^ exponent`.  Below a power of two the
next number is only half as far. -/
def interval (significand : Nat) (exponent : Int) : Interval :=
  let below := if significand = leadingBit ∧ exponent ≠ -1074 then 1 else 2
  { low := (4 * significand - below) <<< exponent.toNat
    value := (4 * significand) <<< exponent.toNat
    high := (4 * significand + 2) <<< exponent.toNat
    den := 4 <<< (-exponent).toNat
    closed := significand % 2 == 0 }

/-- The decimal on the grid of multiples of `10 ^ power` that lies in the interval: of the
two neighbours of the value the closer one, of two equally close ones the larger. -/
def Interval.onGrid? (interval : Interval) (power : Int) : Option Nat :=
  let (up, down) := (Nat.pow 10 power.toNat, Nat.pow 10 (-power).toNat)
  let num := interval.value * down
  let den := interval.den * up
  let digits := num / den
  let lower := interval.contains (digits * up) down
  let upper := interval.contains ((digits + 1) * up) down
  if lower && upper then
    some (if 2 * (num % den) < den then digits else digits + 1)
  else if lower then some digits
  else if upper then some (digits + 1)
  else none

/-- The power of ten of the leading digit of `num / den`. -/
def leadingPower (num den : Nat) : Int :=
  if den ≤ num then (Nat.toDigits 10 (num / den)).length - 1
  else
    let size : Int := (Nat.toDigits 10 (den / num)).length
    if num * Nat.pow 10 (size.toNat - 1) = den then 1 - size else -size

/-- The fewest digits that lie in the interval, and the power of ten of the last one. -/
def shortest (interval : Interval) : Nat × Int :=
  let lead := leadingPower interval.value interval.den
  let grids := (List.range 17).map fun (n : Nat) => lead - n
  (grids.findSome? fun power => (interval.onGrid? power).map fun digits => (digits, power)).getD
    (0, 0)

/-- The number `digits * 10 ^ power` in positional notation, without idle zeros. -/
def positional (digits : Nat) (power : Int) : String :=
  let cs := Nat.toDigits 10 digits
  if 0 ≤ power then String.ofList (cs ++ List.replicate power.toNat '0')
  else
    let places := (-power).toNat
    let padded := List.replicate (places + 1 - cs.length) '0' ++ cs
    let split := padded.length - places
    let fraction := ((padded.drop split).reverse.dropWhile (· == '0')).reverse
    String.ofList (padded.take split ++ if fraction.isEmpty then [] else '.' :: fraction)

/-- The decimal text of a number. -/
def render (x : Binary64) : String :=
  match x.parts with
  | .nan => "NaN"
  | .infinite negative => if negative then "-inf" else "inf"
  | .finite negative significand exponent =>
    let (digits, power) :=
      if significand = 0 then (0, 0) else shortest (interval significand exponent)
    (if negative then "-" else "") ++ positional digits power

end CardDuel.Binary64
