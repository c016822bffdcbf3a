import CardDuel.Application.Reach

/-!
# Checking requirements

`Requirement.verify` decides whether a collection of cards meets a requirement: each quota
counts the cards that match its style as friendly cards with no card facing them.
`Requirement.select` finds the cards that count.
-/

namespace CardDuel

namespace Quota

/-- Whether a card counts for the quota. -/
def counts (quota : Quota) (card : Card) : Bool :=
  match quota.style with
  | none => false
  | some style => style.reaches .friendly (some card) none

/-- The number of cards that count. -/
def tally (quota : Quota) (cards : List Card) : Nat :=
  cards.countP quota.counts

/-- Whether the quota is met by a collection of cards. -/
def verify (quota : Quota) (cards : List Card) : Bool :=
  quota.style.isNone || quota.comparison.compare (quota.tally cards) quota.count

end Quota

namespace Requirement

/-- Whether a collection of cards meets the requirement. -/
def verify (requirement : Requirement) (cards : List Card) : Bool :=
  requirement.eval fun quota => quota.verify cards

/-- The indices of the cards that count. -/
def select (requirement : Requirement) (cards : List Card) : List Nat :=
  Condition.select cards.length (fun quota i => cards[i]?.any quota.counts) requirement

/-- The cards that count. -/
def filter (requirement : Requirement) (cards : List Card) : List Card :=
  (requirement.select cards).filterMap (cards[·]?)

end Requirement

end CardDuel
