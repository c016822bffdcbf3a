import CardDuel.Deck
import CardDuel.Proofs.Cards
import CardDuel.Proofs.Shuffles
import Mathlib.Data.List.Perm.Basic

/-!
# Cards in hands

The cards of a deck come into a hand by way of its pile, and leave it for the discard or by being
given away.  On this way none is lost and none is added, as long as cards are told apart by what
does not change about them (`Card.identity`), and a hand never holds more cards than it has room
for: `Hand.conservation`.
-/

namespace CardDuel

/-! ### Piles -/

namespace Deck

/-- For each suit there is one card of each number from 1 to 10. -/
theorem flatMap_cardsOfSuit (suits : List String) :
  suits.flatMap cardsOfSuit
    = (suits.product (List.range' 1 10)).map fun (suit, n) => Card.standard suit (.number n)
  := by
  rw [List.product, List.map_flatMap]
  rfl

/-- A pile has the cards of the deck, whatever the seed. -/
theorem buildPile_perm (deck : Deck) (unlocked : String → Bool) (stream : Stream) :
  (deck.buildPile unlocked stream).1.Perm (deck.cards unlocked)
  := stream.shuffle_perm (deck.cards unlocked)

end Deck

theorem Card.map_identity_reset (cards : List Card) :
  (cards.map Card.reset).map Card.identity = cards.map Card.identity
  := by
  rw [List.map_map]
  rfl

namespace Hand

/-! ### Moves -/

/-- Something that is done with a hand. -/
inductive Move where
  | refill
  | flush
  | remove (card : Card)
  | pop (index : Nat)

/-- The card that a move gives away, and the hand after it. -/
def move (hand : Hand) : Move → Option Card × Hand
  | .refill => (none, hand.refill)
  | .flush => (none, hand.flush)
  | .remove card => hand.remove card
  | .pop index => hand.pop index

/-- The cards that a list of moves gives away in order, and the hand after them. -/
def run (hand : Hand) : List Move → List Card × Hand
  | [] => ([], hand)
  | move :: rest =>
    let (card, next) := hand.move move
    let (cards, last) := next.run rest
    (card.toList ++ cards, last)

/-- The cards in the hand, in its pile and in its discard. -/
def allCards (hand : Hand) : List Card := hand.cards ++ hand.pile ++ hand.discard

theorem allCards_overPile (pile : List Card) (capacity : Nat) :
  (overPile pile capacity).allCards = pile
  := List.append_nil pile

theorem allCards_ofCards (cards : List Card) :
  (ofCards cards).allCards = cards
  := by
  rw [allCards, ofCards, List.append_nil, List.append_nil]

/-- The cards that are drawn come out of the pile. -/
theorem perm_allCards_refill (hand : Hand) :
  hand.refill.allCards.Perm hand.allCards
  := by
  let drawn := hand.pile.reverse.take (hand.capacity - hand.cards.length)
  let left := hand.pile.reverse.drop (hand.capacity - hand.cards.length)
  have parts : (drawn ++ left.reverse).Perm hand.pile :=
    calc (drawn ++ left.reverse).Perm (drawn ++ left) := left.reverse_perm.append_left drawn
      _ = hand.pile.reverse := List.take_append_drop _ _
      List.Perm _ hand.pile := hand.pile.reverse_perm
  have around := (parts.append_right hand.discard).append_left hand.cards
  simpa only [allCards, refill, List.append_assoc] using around

/-- The card that is popped comes out of the hand. -/
theorem perm_allCards_pop (hand : Hand) (index : Nat) :
  ((hand.pop index).1.toList ++ (hand.pop index).2.allCards).Perm hand.allCards
  := by
  have parts : (hand.cards[index]?.toList ++ hand.cards.eraseIdx index).Perm hand.cards := by
    by_cases inside : index < hand.cards.length
    · rw [List.getElem?_eq_getElem inside]
      apply List.getElem_cons_eraseIdx_perm inside
    · rw [List.getElem?_eq_none (by omega), List.eraseIdx_of_length_le (by omega)]
      exact .refl _
  have before := (parts.append_right hand.pile).append_right hand.discard
  simpa only [allCards, pop, List.append_assoc] using before

/-- One hand becomes another while some cards are given away, and no card is lost or added. -/
structure Becomes (before : Hand) (given : List Card) (after : Hand) : Prop where
  cards : ((given ++ after.allCards).map Card.identity).Perm (before.allCards.map Card.identity)
  capacity : after.capacity = before.capacity
  /-- A hand that does not hold too many cards does not get too many. -/
  room : before.cards.length ≤ before.capacity → after.cards.length ≤ after.capacity

namespace Becomes

variable {hand next last : Hand} {given given' : List Card}

theorem refl (hand : Hand) :
  hand.Becomes [] hand
  := ⟨.refl _, rfl, id⟩

theorem trans (h : hand.Becomes given next) (h' : next.Becomes given' last) :
  hand.Becomes (given ++ given') last
  where
  cards := by
    have later := h'.cards.append_left (given.map Card.identity)
    rw [← List.map_append, ← List.map_append, ← List.append_assoc] at later
    apply later.trans h.cards
  capacity := h'.capacity.trans h.capacity
  room fits := h'.room (h.room fits)

theorem refill (hand : Hand) :
  hand.Becomes [] hand.refill
  where
  cards := (perm_allCards_refill hand).map Card.identity
  capacity := rfl
  room fits := by
    simp only [Hand.refill, List.length_append, List.length_take]
    omega

theorem flush (hand : Hand) :
  hand.Becomes [] hand.flush
  where
  cards := by
    -- the discarded cards show other faces than in the hand, so only their identities agree
    simp only [allCards, Hand.flush, List.nil_append, List.map_append, Card.map_identity_reset]
    rw [List.append_assoc, ← List.append_assoc]
    apply List.perm_append_comm
  capacity := rfl
  room _ := Nat.zero_le _

theorem pop (hand : Hand) (index : Nat) :
  hand.Becomes (hand.pop index).1.toList (hand.pop index).2
  where
  cards := (perm_allCards_pop hand index).map Card.identity
  capacity := rfl
  room fits := by
    apply Nat.le_trans _ fits
    apply (List.eraseIdx_sublist hand.cards index).length_le

theorem remove (hand : Hand) (card : Card) :
  hand.Becomes (hand.remove card).1.toList (hand.remove card).2
  := by
  rw [Hand.remove]
  split
  · apply refl
  · apply pop

theorem move (hand : Hand) (move : Move) :
  hand.Becomes (hand.move move).1.toList (hand.move move).2
  := by
  cases move with
  | refill => apply refill
  | flush => apply flush
  | remove card => apply remove
  | pop index => apply pop

theorem run (hand : Hand) (moves : List Move) :
  hand.Becomes (hand.run moves).1 (hand.run moves).2
  := by
  induction moves generalizing hand with
  | nil => apply refl
  | cons first rest ih => apply (move hand first).trans (ih _)

end Becomes

/-- After it is refilled, a hand is full or there is nothing left to draw. -/
theorem full_refill {hand : Hand} (fits : hand.cards.length ≤ hand.capacity) :
  hand.refill.cards.length = hand.capacity ∨ hand.refill.pile = []
  := by
  by_cases enough : hand.capacity - hand.cards.length ≤ hand.pile.length
  · left
    simp only [refill, List.length_append, List.length_take, List.length_reverse]
    omega
  · right
    rw [refill, List.drop_of_length_le (by rw [List.length_reverse]; omega)]
    rfl

/-! ### Ways to come by a hand -/

/-- A way to come by a hand. -/
inductive Opening where
  /-- An empty hand over a pile. -/
  | overPile (pile : List Card) (capacity : Nat)
  /-- A full hand without a pile. -/
  | ofCards (cards : List Card)
  /-- A hand that is dealt from a deck. -/
  | deal (deck : Deck) (settings : GameSettings) (seat : Seat) (unlocked : String → Bool)

namespace Opening

/-- The hand. -/
def hand : Opening → Hand
  | overPile pile capacity => .overPile pile capacity
  | ofCards cards => .ofCards cards
  | deal deck settings seat unlocked => deck.deal settings seat unlocked

/-- The cards that the hand and its pile are made of. -/
def cards : Opening → List Card
  | overPile pile _ => pile
  | ofCards cards => cards
  | deal deck _ _ unlocked => deck.cards unlocked

/-- A new hand and its pile have the cards that they are made of. -/
theorem perm_allCards_hand (opening : Opening) :
  opening.hand.allCards.Perm opening.cards
  := by
  cases opening with
  | overPile pile capacity =>
    rw [hand, allCards_overPile]
    exact .refl pile
  | ofCards cards =>
    rw [hand, allCards_ofCards]
    exact .refl cards
  | deal deck settings seat unlocked =>
    apply (perm_allCards_refill _).trans
    rw [allCards_overPile]
    apply deck.buildPile_perm

theorem fits_hand (opening : Opening) :
  opening.hand.cards.length ≤ opening.hand.capacity
  := by
  cases opening with
  | overPile pile capacity => apply Nat.zero_le
  | ofCards cards => exact Nat.le_refl _
  | deal deck settings seat unlocked =>
    apply (Becomes.refill _).room
    apply Nat.zero_le

end Opening

/-- A pile has one card for each suit and each number from 1 to 10, and one for each special card
that may be drawn, whatever the seed.  Whatever is done with a hand, the cards in the hand, in
its pile and in its discard together with those it gave away are always the same, up to what
does not change about a card; the hand never holds more cards than it has room for; and
when it is refilled, it is full or nothing is left to draw. -/
theorem conservation :
  (∀ (deck : Deck) (unlocked : String → Bool) (stream : Stream),
    (deck.buildPile unlocked stream).1.Perm
      ((deck.suits.product (List.range' 1 10)).map (fun (suit, n) => .standard suit (.number n))
        ++ (deck.specials.filter fun special => unlocked special.name).map .ofSpecial))
  ∧ ∀ (opening : Opening) (moves : List Move), ∃ given hand,
    opening.hand.run moves = (given, hand)
    ∧ ((given ++ (hand.cards ++ hand.pile ++ hand.discard)).map Card.identity).Perm
        (opening.cards.map Card.identity)
    ∧ hand.capacity = opening.hand.capacity
    ∧ hand.cards.length ≤ hand.capacity
    ∧ (hand.refill.cards.length = hand.capacity ∨ hand.refill.pile = [])
  := by
  constructor
  · intro deck unlocked stream
    rw [← Deck.flatMap_cardsOfSuit]
    apply deck.buildPile_perm
  · intro opening moves
    have becomes := Becomes.run opening.hand moves
    have fits := becomes.room opening.fits_hand
    exact ⟨_, _, rfl, becomes.cards.trans (opening.perm_allCards_hand.map Card.identity),
      becomes.capacity, fits, full_refill fits⟩

end Hand

end CardDuel
