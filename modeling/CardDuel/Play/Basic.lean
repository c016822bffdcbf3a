import CardDuel.Board
import CardDuel.Requirement.Checking
import CardDuel.Settings

/-!
# Plays

A `Play` puts cards of a hand into slots of one side of the board and carries the value that
the player expects of it.  A `Situation` is the hand, the board and the seat for which plays
are made.  A play is legal when every special card in it finds its requirement met by the
cards played together with those already held on that side.
-/

namespace CardDuel

/-- What a player sees when choosing a play. -/
structure Situation where
  hand : List Card
  board : Board
  seat : Seat

namespace Situation

/-- The seat across the table. -/
def opponent (situation : Situation) : Seat := situation.seat.opponent

/-- The columns that are open to the player. -/
def openColumns (situation : Situation) : List Nat :=
  situation.board.openColumns situation.seat

/-- The player's cards that are held on the board. -/
def heldCards (situation : Situation) : List Card :=
  (situation.board.held situation.seat).map (·.2)

/-- The number of cards that a play must have. -/
def needed (situation : Situation) : Nat :=
  min situation.openColumns.length situation.hand.length

/-- The cards of the hand at a list of indices. -/
def cardsAt (situation : Situation) (indices : List Nat) : List Card :=
  indices.filterMap fun i => situation.hand[i]?

end Situation

/-- One card going into one slot. -/
structure Placement where
  column : Nat
  /-- The index of the card in the hand. -/
  index : Nat
  card : Card

/-- Cards for slots, and the value expected of them. -/
structure Play where
  /-- The placements from left to right. -/
  placements : List Placement
  value : Int

namespace Play

/-- The play that places nothing. -/
def empty : Play := ⟨[], 0⟩

/-- The cards from left to right. -/
def cards (play : Play) : List Card := play.placements.map (·.card)

/-- The indices of the cards in the hand, from left to right. -/
def indices (play : Play) : List Nat := play.placements.map (·.index)

/-- The card for a column. -/
def cardAt? (play : Play) (column : Nat) : Option Card :=
  (play.placements.find? fun placement => placement.column == column).map (·.card)

/-- The special cards of a play, from left to right. -/
def specials (play : Play) : List Special := play.cards.filterMap (·.special)

/-- Whether every special card of the play finds its requirement met by the cards played
together with those held. -/
def isLegal (play : Play) (board : Board) (seat : Seat) : Bool :=
  let pool := play.cards ++ (board.held seat).map (·.2)
  play.specials.all fun special => special.requirement.verify pool

/-- Put cards into slots, up to the first slot that is not open: the board, and the card
that was refused. -/
def placeAll (seat : Seat) : List Placement → Board → Board × Option Card
  | [], board => (board, none)
  | placement :: rest, board =>
    match board.place? seat placement.column placement.card with
    | none => (board, some placement.card)
    | some board => placeAll seat rest board

/-- Put the cards of the play on the board. -/
def place (play : Play) (board : Board) (seat : Seat) : Board × Option Card :=
  placeAll seat play.placements board

end Play

end CardDuel
