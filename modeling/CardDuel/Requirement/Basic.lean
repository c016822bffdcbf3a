import CardDuel.Application.Basic

/-!
# Requirements

A `Requirement` says how many cards of which style must be played with a special card.  Its
tests are quotas.  A `Quota` without a style asks for nothing.
-/

namespace CardDuel

/-- How a count is compared with its bound. -/
inductive Comparison where
  | atLeast
  | exactly
  | noMoreThan
deriving DecidableEq, Repr

namespace Comparison

/-- Whether a count satisfies the comparison with a bound. -/
def compare : Comparison → Nat → Nat → Bool
  | atLeast, count, bound => decide (bound ≤ count)
  | exactly, count, bound => decide (count = bound)
  | noMoreThan, count, bound => decide (count ≤ bound)

/-- The words for a comparison. -/
def label : Comparison → String
  | atLeast => "At least"
  | exactly => "Exactly"
  | noMoreThan => "No more than"

/-- Whether a larger count can break the comparison. -/
def isCap : Comparison → Bool
  | atLeast => false
  | exactly | noMoreThan => true

end Comparison

/-- A count of cards and the bound on it. -/
structure Quota where
  comparison : Comparison
  count : Nat
  /-- The cards that count; without a style the quota is always met. -/
  style : Option Application

/-- The text of a quota. -/
def Quota.describe (quota : Quota) : String :=
  match quota.style with
  | none => "Nothing"
  | some style =>
    quota.comparison.label ++ " " ++ toString quota.count ++ " "
      ++ style.describe (quota.count != 1)

/-- What must be played with a special card. -/
abbrev Requirement : Type := Condition Quota

namespace Requirement

/-- The requirement that always holds. -/
def nothing : Requirement := .test ⟨.atLeast, 0, none⟩

/-- The requirement of a single quota. -/
def counting (comparison : Comparison) (count : Nat) (style : Application) : Requirement :=
  .test ⟨comparison, count, some style⟩

/-- Whether no quota has a style. -/
def isTrivial (requirement : Requirement) : Bool :=
  requirement.leaves.all fun quota => quota.style.isNone

/-- The greatest number of cards that some quota asks for. -/
def wanted (requirement : Requirement) : Nat :=
  let asking := requirement.leaves.filter fun quota =>
    quota.style.isSome && quota.comparison != .noMoreThan
  (asking.map (·.count)).foldl max 0

/-- The text of a requirement. -/
def description (requirement : Requirement) : String :=
  Condition.describe Quota.describe requirement

end Requirement

end CardDuel
