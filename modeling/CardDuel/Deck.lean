import CardDuel.Hand
import CardDuel.Random.Stream
import CardDuel.Seat
import CardDuel.Settings

/-!
# Decks

A `Deck` has suits and special cards.  The pile built from it holds one card for each suit
and number from 1 to 10 and one card for each special card that may be drawn, in an order
that the seed determines.  `Deck.deal` fills a hand for a seat from a pile of its own.
-/

namespace CardDuel

/-- A deck of cards. -/
structure Deck where
  name : String
  /-- The suits in the order of the columns of the scoreboard. -/
  suits : List String := []
  specials : List Special := []

namespace Deck

/-- The special card of a name. -/
def special? (deck : Deck) (name : String) : Option Special :=
  deck.specials.find? fun special => special.name == name

/-- The special cards whose names may be drawn. -/
def drawable (deck : Deck) (unlocked : String → Bool) : List Special :=
  deck.specials.filter fun special => unlocked special.name

/-- The cards of a suit, printed from 1 to 10. -/
def cardsOfSuit (suit : String) : List Card :=
  (List.range 10).map fun (n : Nat) => Card.standard suit (.number (n + 1))

/-- The cards of the deck in order. -/
def cards (deck : Deck) (unlocked : String → Bool) : List Card :=
  deck.suits.flatMap cardsOfSuit ++ (deck.drawable unlocked).map Card.ofSpecial

/-- A shuffled pile of the cards of the deck. -/
def buildPile (deck : Deck) (unlocked : String → Bool) (stream : Stream) :
    List Card × Stream :=
  stream.shuffle (deck.cards unlocked)

/-- A full hand for a seat, over a pile that is shuffled for this seat. -/
def deal (deck : Deck) (settings : GameSettings) (seat : Seat) (unlocked : String → Bool) :
    Hand :=
  let stream := (Stream.ofSeed settings.seed).within ("deck-" ++ seat.title)
  (Hand.overPile (deck.buildPile unlocked stream).1 settings.handSize).refill

end Deck

end CardDuel
