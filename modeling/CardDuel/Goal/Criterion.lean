import CardDuel.Application.Basic

/-!
# Criteria

A `Criterion` is one condition of an achievement.  It reads a counter of the lifetime
statistics, or counts cards on one side of the board at the end of a round, or relates the
points at the end of a game.  A round criterion is judged at the end of rounds, the others
at the end of games.
-/

namespace CardDuel.Goal

/-- A counter of the lifetime statistics. -/
inductive Counter where
  | play
  | win
  | lose
  | draw
  | streak
deriving DecidableEq, Repr

/-- The name of a counter. -/
def Counter.name : Counter → String
  | play => "Play"
  | win => "Win"
  | lose => "Lose"
  | draw => "Draw"
  | streak => "Streak"

/-- The cards that a round criterion counts. -/
inductive Presence where
  /-- All cards of the player on the board. -/
  | use
  /-- The cards in held or carried slots. -/
  | wait
deriving DecidableEq, Repr

/-- The name of a presence. -/
def Presence.name : Presence → String
  | use => "Use"
  | wait => "Wait"

/-- The card that a round criterion looks for. -/
inductive Quarry where
  /-- A card of a suit or a special card of a name. -/
  | name (name : String)
  /-- A card that shows a number. -/
  | value (n : Int)
deriving DecidableEq, Repr

/-- The columns of the scoreboard that a score criterion looks at. -/
inductive Scope where
  /-- The column of one suit. -/
  | suit (suit : String)
  /-- All columns. -/
  | each
  /-- At least one column. -/
  | any
  /-- Exactly one column. -/
  | one
  /-- The totals of the rows. -/
  | total
  /-- The column of one suit and no other. -/
  | only (suit : String)
deriving DecidableEq, Repr

/-- How points are compared with a number. -/
inductive Relation where
  | less
  | equal
  | atLeast
deriving DecidableEq, Repr

/-- Whether two numbers stand in a relation. -/
def Relation.holds : Relation → Int → Int → Bool
  | less, m, n => decide (m < n)
  | equal, m, n => decide (m = n)
  | atLeast, m, n => decide (n ≤ m)

/-- What points are compared with. -/
inductive Standard where
  /-- More than the other side has in the same column. -/
  | win
  /-- Less than the other side has in the same column. -/
  | lose
  /-- As much as the other side has in the same column. -/
  | draw
  /-- A number. -/
  | points (n : Int)
  /-- The points of the same side in another suit. -/
  | suit (suit : String)
deriving DecidableEq, Repr

/-- One condition of an achievement. -/
inductive Criterion where
  /-- A counter of the record selected by a deck or suit name, or of the record of all
  games. -/
  | statistic (counter : Counter) (count : Nat) (qualifier : Option String)
  /-- A number of cards on the player's side of the board. -/
  | round (presence : Presence) (count : Nat) (quarry : Quarry)
  /-- A relation between points of the player or, on the enemy side, of the opponent. -/
  | score (side : Side) (scope : Scope) (relation : Relation) (standard : Standard)
deriving DecidableEq, Repr

/-- Whether a criterion is judged at the end of rounds. -/
def Criterion.isRound : Criterion → Bool
  | round .. => true
  | statistic .. | score .. => false

/-- A named goal: all its criteria must hold together. -/
structure Achievement where
  name : String
  description : String
  criteria : List Criterion
  /-- The special card that reaching the goal unlocks. -/
  reward : Option String
deriving DecidableEq, Repr

/-- Whether an achievement is judged at the end of rounds. -/
def Achievement.isRound (achievement : Achievement) : Bool :=
  !achievement.criteria.isEmpty && achievement.criteria.all Criterion.isRound

end CardDuel.Goal
