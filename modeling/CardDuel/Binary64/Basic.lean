/-!
# Binary floating-point numbers

A `Binary64` is a number in the 64-bit binary interchange format, kept as its bits.
`parts` tells what it stands for: nothing, an infinity, or a sign, a whole significand and
a power of two.  `nearest` goes the other way, from a fraction to the number closest to it;
of two equally close ones it takes the one with an even significand.
-/

namespace CardDuel

/-- A number in the 64-bit binary format, as its bits. -/
structure Binary64 where
  bits : UInt64
deriving DecidableEq, Repr

namespace Binary64

/-- What a number stands for. -/
inductive Parts where
  | nan
  | infinite (negative : Bool)
  /-- The number `significand * 2 ^ exponent`, with its sign. -/
  | finite (negative : Bool) (significand : Nat) (exponent : Int)
deriving DecidableEq, Repr

/-- The leading digit of normal significands, which the bits leave out: two to the power of
52. -/
def leadingBit : Nat := 4503599627370496

/-- The sign, significand and exponent that the bits encode. -/
def parts (x : Binary64) : Parts :=
  let n := x.bits.toNat
  let negative := n >>> 63 == 1
  let scale : Nat := (n >>> 52) % 2048
  let fraction : Nat := n % leadingBit
  if scale = 2047 then
    if fraction = 0 then .infinite negative else .nan
  else if scale = 0 then .finite negative fraction (-1074)
  else .finite negative (leadingBit + fraction) ((scale : Int) - 1075)

/-- The sign bit and the rest of the bits put together. -/
def ofMagnitude (negative : Bool) (magnitude : Nat) : Binary64 :=
  ⟨UInt64.ofNat (magnitude + if negative then 2048 * leadingBit else 0)⟩

/-- The zero of a sign. -/
def zero (negative : Bool) : Binary64 := ofMagnitude negative 0

/-- The infinity of a sign. -/
def infinity (negative : Bool) : Binary64 := ofMagnitude negative (2047 * leadingBit)

/-- The number that stands for no number. -/
def nan : Binary64 := ofMagnitude false (2047 * leadingBit + leadingBit / 2)

/-- The whole number closest to `num / den`; a tie goes to the even one. -/
def roundQuotient (num den : Nat) : Nat :=
  let quotient := num / den
  let twiceRest := 2 * (num % den)
  if twiceRest < den || (twiceRest == den && quotient % 2 == 0) then quotient else quotient + 1

/-- The fraction `num / den` divided by `2 ^ exponent`, as numerator and denominator. -/
def shifted (num den : Nat) (exponent : Int) : Nat × Nat :=
  (num <<< (-exponent).toNat, den <<< exponent.toNat)

/-- The number closest to `num / den`, an infinity beyond the largest one. -/
def nearest (negative : Bool) (num den : Nat) : Binary64 :=
  if num = 0 then zero negative
  else
    let guess : Int := (num.log2 : Int) - den.log2 - 52
    let (num', den') := shifted num den guess
    let exponent := max (-1074) (if num' < leadingBit * den' then guess - 1 else guess)
    let (num'', den'') := shifted num den exponent
    let magnitude := (exponent + 1074).toNat * leadingBit + roundQuotient num'' den''
    if magnitude < 2047 * leadingBit then ofMagnitude negative magnitude else infinity negative

/-- Whether a number is above one. -/
def exceedsOne (x : Binary64) : Bool :=
  match x.parts with
  | .nan => false
  | .infinite negative => !negative
  | .finite negative significand exponent =>
    !negative && decide (1 <<< (-exponent).toNat < significand <<< exponent.toNat)

/-- The product of a whole number and `x`, rounded to the format. -/
def timesInt (v : Int) (x : Binary64) : Binary64 :=
  match x.parts with
  | .nan => nan
  | .infinite negative => if v = 0 then nan else infinity (negative != decide (v < 0))
  | .finite negative significand exponent =>
    nearest (negative != decide (v < 0)) ((v.natAbs * significand) <<< exponent.toNat)
      (1 <<< (-exponent).toNat)

/-- The largest whole number not above `x` (the smallest not below it if `up`), brought
into the signed 32-bit range; zero if `x` is no number. -/
def toWhole32 (up : Bool) (x : Binary64) : Int :=
  let clamp (n : Int) : Int := max (-2147483648) (min n 2147483647)
  match x.parts with
  | .nan => 0
  | .infinite negative => if negative then -2147483648 else 2147483647
  | .finite negative significand exponent =>
    let num : Int := (significand <<< exponent.toNat : Nat)
    let signed := if negative then -num else num
    let den : Int := (1 <<< (-exponent).toNat : Nat)
    clamp (if up then -Int.fdiv (-signed) den else Int.fdiv signed den)

example : (nearest false 1 10).bits = 0x3fb999999999999a := by decide +kernel
example : (nearest false (1 <<< 1024) 1) = infinity false := by decide +kernel
example : (nearest true 1 (1 <<< 1074)).bits = 0x8000000000000001 := by decide +kernel

end Binary64

end CardDuel
