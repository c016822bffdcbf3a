import CardDuel.Checked

/-!
# Seats

A match has two seats.  `Seat.opponent` is the other seat, and `Pair α` keeps one value
for each.  Reading, replacing and changing the value of one seat leaves the other alone,
and `Pair.swap` exchanges the two.
-/

namespace CardDuel

/-- One of the two sides of the table. -/
inductive Seat where
  | first
  | second
deriving DecidableEq, Repr

namespace Seat

/-- The seat with a given number. -/
def ofNumber : Int → Except Fault Seat
  | 0 => .ok .first
  | 1 => .ok .second
  | _ => .error .noSuchSeat

/-- The number of a seat. -/
def number : Seat → Nat
  | first => 0
  | second => 1

/-- The other side of the table. -/
def opponent : Seat → Seat
  | first => second
  | second => first

/-- Both seats in the order in which they act. -/
def all : List Seat := [first, second]

/-- The name under which a seat is announced. -/
def title (seat : Seat) : String :=
  "Player " ++ toString seat.number

@[simp]
theorem opponent_opponent (seat : Seat) :
  seat.opponent.opponent = seat
  := by cases seat <;> rfl

@[simp]
theorem opponent_ne (seat : Seat) :
  seat.opponent ≠ seat
  := by cases seat <;> decide

end Seat

/-- One value for each seat. -/
structure Pair (α : Type) where
  first : α
  second : α
deriving DecidableEq, Repr

namespace Pair

variable {α β : Type}

/-- The value of a seat. -/
def get (pair : Pair α) : Seat → α
  | .first => pair.first
  | .second => pair.second

/-- The pair with the value of one seat changed by `f`. -/
def modify (pair : Pair α) (seat : Seat) (f : α → α) : Pair α :=
  match seat with
  | .first => { pair with first := f pair.first }
  | .second => { pair with second := f pair.second }

/-- The pair with the value of one seat replaced. -/
def set (pair : Pair α) (seat : Seat) (value : α) : Pair α :=
  pair.modify seat fun _ => value

/-- The pair with the two values exchanged. -/
def swap (pair : Pair α) : Pair α :=
  ⟨pair.second, pair.first⟩

/-- The pair of the images of both values. -/
def map (f : α → β) (pair : Pair α) : Pair β :=
  ⟨f pair.first, f pair.second⟩

/-- The pair with the same value at both seats. -/
def both (value : α) : Pair α :=
  ⟨value, value⟩

/-- The two values in seating order. -/
def toList (pair : Pair α) : List α :=
  [pair.first, pair.second]

@[simp]
theorem get_modify_self (pair : Pair α) (seat : Seat) (f : α → α) :
  (pair.modify seat f).get seat = f (pair.get seat)
  := by cases seat <;> rfl

@[simp]
theorem get_modify_opponent (pair : Pair α) (seat : Seat) (f : α → α) :
  (pair.modify seat f).get seat.opponent = pair.get seat.opponent
  := by cases seat <;> rfl

@[simp]
theorem get_opponent_modify (pair : Pair α) (seat : Seat) (f : α → α) :
  (pair.modify seat.opponent f).get seat = pair.get seat
  := by cases seat <;> rfl

theorem get_modify (pair : Pair α) (seat seat' : Seat) (f : α → α) :
  (pair.modify seat f).get seat' = if seat' = seat then f (pair.get seat') else pair.get seat'
  := by cases seat <;> cases seat' <;> rfl

@[simp]
theorem get_set_self (pair : Pair α) (seat : Seat) (a : α) :
  (pair.set seat a).get seat = a
  := by cases seat <;> rfl

theorem get_set_of_ne {seat seat' : Seat} (h : seat' ≠ seat) (pair : Pair α) (a : α) :
  (pair.set seat a).get seat' = pair.get seat'
  := by
  unfold set
  rw [get_modify, if_neg h]

theorem set_comm {seat seat' : Seat} (h : seat ≠ seat') (pair : Pair α) (a b : α) :
  (pair.set seat a).set seat' b = (pair.set seat' b).set seat a
  := by
  cases seat <;> cases seat'
  · contradiction
  · rfl
  · rfl
  · contradiction

@[simp]
theorem get_both (a : α) (seat : Seat) :
  (both a).get seat = a
  := by cases seat <;> rfl

@[simp]
theorem get_swap (pair : Pair α) (seat : Seat) :
  pair.swap.get seat = pair.get seat.opponent
  := by cases seat <;> rfl

@[simp]
theorem get_map (f : α → β) (pair : Pair α) (seat : Seat) :
  (pair.map f).get seat = f (pair.get seat)
  := by cases seat <;> rfl

theorem ext_get {pair pair' : Pair α} (h : ∀ seat, pair.get seat = pair'.get seat) :
  pair = pair'
  := by
  cases pair
  cases pair'
  have first := h .first
  have second := h .second
  simp_all [get]

end Pair

end CardDuel
