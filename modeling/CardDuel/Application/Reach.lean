import CardDuel.Card

/-!
# Reaching cards

`Application.reaches` decides whether an effect reaches a card on the board, given the side
on which it lies and the card that faces it.  Special cards, empty slots and aims at the
hand never match.  `Application.reachesHand` decides about a card in the hand.
-/

namespace CardDuel

namespace Scope

/-- Whether a card shows an accepted suit and an accepted number; without bounds any value
is accepted, with bounds only numbers are. -/
def admitsFace (scope : Scope) (card : Card) : Bool :=
  (match scope.suits with
    | none => true
    | some suits => suits.contains card.face.suit)
  && (match scope.min, scope.max, card.number? with
    | none, none, _ => true
    | _, _, none => false
    | least, greatest, some n =>
      least.all (fun m => decide (m ≤ n)) && greatest.all (fun m => decide (n ≤ m)))

/-- Whether a card on a side of the board is accepted. -/
def admits (scope : Scope) (side : Side) (card : Card) : Bool :=
  !card.isSpecial && !scope.inHand && scope.alignment.admits side && scope.admitsFace card

/-- Whether a card in the hand is accepted. -/
def admitsHeld (scope : Scope) (card : Card) : Bool :=
  scope.inHand && !card.isSpecial && scope.admitsFace card

end Scope

namespace Aim

/-- Whether a card passes the aim, given the card that faces it. -/
def accepts : Aim → Side → Option Card → Option Card → Bool :=
  fold fun scope opposite side card facing =>
    match card with
    | none => false
    | some card =>
      scope.admits side card
        && match opposite with
          | none => true
          | some tests =>
            match facing with
            | none => false
            | some other => tests.eval fun test => test side.reversed (some other) (some card)

@[simp]
theorem accepts_none (aim : Aim) (side : Side) (facing : Option Card) :
  aim.accepts side none facing = false
  := by
  obtain ⟨scope, opposite⟩ := aim
  simp [accepts, fold_mk]

/-- An aim is matched by a card that its scope accepts and whose facing card, if the aim
speaks of it, matches the opposite from the other side. -/
theorem accepts_some (aim : Aim) (side : Side) (card : Card) (facing : Option Card) :
  aim.accepts side (some card) facing
    = (aim.scope.admits side card
      && match aim.opposite, facing with
        | none, _ => true
        | some _, none => false
        | some tests, some other =>
          tests.eval fun test => test.accepts side.reversed (some other) (some card))
  := by
  obtain ⟨scope, opposite⟩ := aim
  cases opposite with
  | none => simp [accepts, fold_mk, Aim.scope, Aim.opposite]
  | some tests =>
    cases facing with
    | none => simp [accepts, fold_mk, Aim.scope, Aim.opposite]
    | some other => simp [accepts, fold_mk, Aim.scope, Aim.opposite, Condition.eval_map]

end Aim

namespace Application

/-- Whether the application reaches a card on a side of the board, given the card that faces
it. -/
def reaches (application : Application) (side : Side) (card facing : Option Card) : Bool :=
  application.eval fun aim => aim.accepts side card facing

/-- Whether a card in the hand passes the aims at the hand. -/
def reachesHand (application : Application) (card : Card) : Bool :=
  application.eval fun aim => aim.scope.admitsHeld card

/-- The indices of the cards that match on a side when no facing card is known. -/
def select (application : Application) (side : Side) (cards : List Card) : List Nat :=
  Condition.select cards.length (fun aim i => aim.accepts side cards[i]? none) application

/-- The cards that match on a side when no facing card is known. -/
def filter (application : Application) (side : Side) (cards : List Card) : List Card :=
  (application.select side cards).filterMap (cards[·]?)

end Application

end CardDuel
