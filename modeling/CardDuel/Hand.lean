import CardDuel.Card

/-!
# Hands

A `Hand` holds cards up to a capacity and draws them from a pile, the last card of the pile
first.  Cards that are flushed are reset and go to the discard.
-/

namespace CardDuel

/-- The cards of a player: in the hand, still to be drawn, and discarded. -/
structure Hand where
  cards : List Card := []
  pile : List Card := []
  discard : List Card := []
  /-- The number of cards up to which the hand is refilled. -/
  capacity : Nat := 0

namespace Hand

/-- An empty hand over a pile. -/
def overPile (pile : List Card) (capacity : Nat) : Hand :=
  { pile, capacity }

/-- A full hand with nothing left to draw. -/
def ofCards (cards : List Card) : Hand :=
  { cards, capacity := cards.length }

/-- Draw until the hand is full or the pile is empty. -/
def refill (hand : Hand) : Hand :=
  let wanted := hand.capacity - hand.cards.length
  { hand with
    cards := hand.cards ++ hand.pile.reverse.take wanted
    pile := (hand.pile.reverse.drop wanted).reverse }

/-- Discard every card of the hand. -/
def flush (hand : Hand) : Hand :=
  { hand with cards := [], discard := hand.discard ++ hand.cards.map Card.reset }

/-- Take out the card at an index. -/
def pop (hand : Hand) (index : Nat) : Option Card × Hand :=
  (hand.cards[index]?, { hand with cards := hand.cards.eraseIdx index })

/-- Take out the first card that is alike to a given one. -/
def remove (hand : Hand) (card : Card) : Option Card × Hand :=
  match hand.cards.findIdx? fun other => other.alike card with
  | none => (none, hand)
  | some index => hand.pop index

end Hand

end CardDuel
