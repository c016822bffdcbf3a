import CardDuel.Seat

/-!
# A counter for each seat

`Counters` keeps one 64-bit number for each seat.  A `Counters.Step` sets one of them,
exchanges them, or raises both, the second seat twice as fast as the first.
-/

namespace CardDuel

/-- One number for each seat. -/
abbrev Counters : Type := Pair Int

namespace Counters

/-- A change of the counters, made from one seat. -/
inductive Step where
  /-- Set the seat's own counter. -/
  | set (n : Int)
  /-- Set the other seat's counter. -/
  | setOther (n : Int)
  /-- Exchange the counters. -/
  | exchange
  /-- Raise each counter by `n` times its seat's place, counted from one. -/
  | raise (n : Int)
deriving Repr

/-- The counter of a seat raised by `n` times the seat's place. -/
def raised (n : Int) (seat : Seat) (counter : Int) : Except Fault Int := do
  let amount ← Checked.guard 64 .multiplication ((seat.number + 1) * n)
  Checked.guard 64 .addition (counter + amount)

/-- The counters after a step made from `seat`. -/
def step (seat : Seat) (counters : Counters) : Step → Except Fault Counters
  | .set n => .ok (counters.set seat n)
  | .setOther n => .ok (counters.set seat.opponent n)
  | .exchange => .ok counters.swap
  | .raise n => do
    let first ← raised n .first counters.first
    let second ← raised n .second counters.second
    pure ⟨first, second⟩

end Counters

end CardDuel
