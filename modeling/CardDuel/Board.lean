import CardDuel.Card
import CardDuel.Seat

/-!
# The board

A `Board` is a row of columns, and a column has one `Slot` for each seat.  A slot may hold a
card, and it is free, held or carried.  `place` fills an open slot, `take` empties a slot and
frees it, `hold` keeps a slot over the next change of rounds, and `nextRound` clears all
slots that are not held.  `Board.positions` is the order in which rules scan the board:
column by column, the first seat before the second.
-/

namespace CardDuel

/-- What keeps a slot over a change of rounds. -/
inductive Hold where
  /-- The slot is cleared when the round ends. -/
  | free
  /-- The slot survives the end of this round. -/
  | held
  /-- The slot survived the last round and is cleared when this one ends. -/
  | carried
deriving DecidableEq, Repr

/-- A place for a card. -/
structure Slot where
  card : Option Card := none
  hold : Hold := .free

namespace Slot

/-- Whether the slot is held or carried. -/
def isHeld (slot : Slot) : Bool := slot.hold != .free

/-- Whether the slot can take a card. -/
def isOpen (slot : Slot) : Bool := slot.card.isNone && !slot.isHeld

/-- The slot in the next round. -/
def next (slot : Slot) : Slot :=
  match slot.hold with
  | .held => { slot with hold := .carried }
  | .free | .carried => {}

/-- The card that leaves the slot when the round ends. -/
def leaving (slot : Slot) : Option Card :=
  match slot.hold with
  | .held => none
  | .free | .carried => slot.card

/-- Whether two slots have the same hold and cards that are alike. -/
def alike (a b : Slot) : Bool :=
  a.hold == b.hold &&
    match a.card, b.card with
    | none, none => true
    | some card, some card' => card.alike card'
    | _, _ => false

end Slot

/-- Two slots that face each other. -/
abbrev Column : Type := Pair Slot

/-- Two rows of slots. -/
structure Board where
  columns : List Column

namespace Board

/-- The board of a given width without cards and holds. -/
def empty (width : Nat) : Board :=
  ⟨List.replicate width (Pair.both {})⟩

/-- The number of columns. -/
def width (board : Board) : Nat := board.columns.length

/-- The slot of a seat in a column. -/
def slot? (board : Board) (seat : Seat) (column : Nat) : Option Slot :=
  board.columns[column]?.map (·.get seat)

/-- The card of a seat in a column. -/
def card? (board : Board) (seat : Seat) (column : Nat) : Option Card :=
  (board.slot? seat column).bind (·.card)

/-- The hold of a seat in a column; outside of the board nothing is held. -/
def holdAt (board : Board) (seat : Seat) (column : Nat) : Hold :=
  ((board.slot? seat column).map (·.hold)).getD .free

/-- Whether a slot is held or carried. -/
def isHeld (board : Board) (seat : Seat) (column : Nat) : Bool :=
  (board.slot? seat column).any Slot.isHeld

/-- Whether a slot can take a card. -/
def isOpen (board : Board) (seat : Seat) (column : Nat) : Bool :=
  (board.slot? seat column).any Slot.isOpen

/-- The slots of a seat from left to right. -/
def row (board : Board) (seat : Seat) : List Slot :=
  board.columns.map (·.get seat)

/-- The cards of a seat with their columns, from left to right. -/
def occupied (board : Board) (seat : Seat) : List (Nat × Card) :=
  (List.range board.width).filterMap fun column =>
    (board.card? seat column).map fun card => (column, card)

/-- The cards of a seat in held or carried slots with their columns. -/
def held (board : Board) (seat : Seat) : List (Nat × Card) :=
  (board.occupied seat).filter fun (column, _) => board.isHeld seat column

/-- The columns in which a seat can place a card. -/
def openColumns (board : Board) (seat : Seat) : List Nat :=
  (List.range board.width).filter (board.isOpen seat)

/-- Whether a seat has no card on the board. -/
def isBare (board : Board) (seat : Seat) : Bool :=
  (board.row seat).all fun slot => slot.card.isNone

/-- Every slot of the board: column by column, the first seat before the second. -/
def positions (board : Board) : List (Nat × Seat) :=
  (List.range board.width).flatMap fun column => Seat.all.map fun seat => (column, seat)

/-- The board with the two rows exchanged. -/
def swapSides (board : Board) : Board :=
  ⟨board.columns.map Pair.swap⟩

/-- Whether two boards have the same width, the same holds and cards that are alike. -/
def alike (a b : Board) : Bool :=
  a.width == b.width
    && (a.columns.zip b.columns).all fun (c, d) =>
      c.first.alike d.first && c.second.alike d.second

/-! ### Changes of one slot -/

/-- The board with one slot changed; outside of the board nothing happens. -/
def modifySlot (board : Board) (seat : Seat) (column : Nat) (f : Slot → Slot) : Board :=
  ⟨board.columns.modify column fun slots => slots.modify seat f⟩

/-- The board with the card of a slot replaced. -/
def setCard (board : Board) (seat : Seat) (column : Nat) (card : Option Card) : Board :=
  board.modifySlot seat column fun slot => { slot with card }

/-- Put a card into an open slot; nothing if the slot is not open. -/
def place? (board : Board) (seat : Seat) (column : Nat) (card : Card) : Option Board :=
  if board.isOpen seat column then some (board.setCard seat column (some card)) else none

/-- Remove the card of a slot and free the slot. -/
def take (board : Board) (seat : Seat) (column : Nat) : Option Card × Board :=
  (board.card? seat column, board.modifySlot seat column fun _ => {})

/-- Keep a slot over the next change of rounds. -/
def hold (board : Board) (seat : Seat) (column : Nat) : Board :=
  board.modifySlot seat column fun slot => { slot with hold := .held }

/-- Apply an effect to the card of a slot: the board after it and whether the card changed,
nothing if there is no card. -/
def applyAt (board : Board) (seat : Seat) (column : Nat) (effect : Effect) :
    Except Fault (Option (Board × Bool)) :=
  match board.card? seat column with
  | none => .ok none
  | some card => do
    let (card, changed) ← Card.apply effect card
    pure (some (board.setCard seat column (some card), changed))

/-! ### Rounds -/

/-- The board of the next round: held slots are carried over, all others are cleared. -/
def nextRound (board : Board) : Board :=
  ⟨board.columns.map fun slots => slots.map Slot.next⟩

/-- The cards that leave the board when the round ends, row by row. -/
def leaving (board : Board) : List Card :=
  Seat.all.flatMap fun seat => (board.row seat).filterMap Slot.leaving

/-- The board of the same width without cards and holds. -/
def cleared (board : Board) : Board := empty board.width

end Board

end CardDuel
