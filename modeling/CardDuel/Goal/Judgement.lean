import CardDuel.Board
import CardDuel.Goal.Criterion
import CardDuel.Scoreboard
import CardDuel.Statistics.Basic

/-!
# Judging criteria

`Criterion.judge` decides a criterion at the end of a game from the scoreboard and the
statistics, and `Criterion.judgeRound` at the end of a round from the board.  Round criteria
never hold at the end of a game, and the others never at the end of a round.
-/

namespace CardDuel.Goal

/-- The count that a counter reads off a record. -/
def Counter.read (counter : Counter) (record : Statistics.Record) : Except Fault UInt32 :=
  match counter with
  | play => .ok record.played
  | win => .ok record.wins
  | lose => .ok record.losses
  | draw => record.draws
  | streak => .ok record.winStreak

/-- Whether the points of a side and those of the other side meet a standard. -/
def Standard.met (scores : Scoreboard) (side : Seat) (relation : Relation) (ours theirs : Int) :
    Standard → Bool
  | win => decide (theirs < ours)
  | lose => decide (ours < theirs)
  | draw => decide (ours = theirs)
  | points n => relation.holds ours n
  | suit other => (scores.points? side other).any (relation.holds ours)

/-- The column verdicts of a scoreboard: for each suit whether a side meets a standard. -/
def verdicts (scores : Scoreboard) (side : Seat) (relation : Relation) (standard : Standard) :
    List (String × Bool) :=
  scores.entries.map fun entry =>
    (entry.suit, standard.met scores side relation (entry.points.get side)
      (entry.points.get side.opponent))

/-- Whether the points of a side meet a standard in the columns of a scope. -/
def judgeScore (scores : Scoreboard) (side : Seat) (scope : Scope) (relation : Relation)
    (standard : Standard) : Except Fault Bool :=
  let columns := verdicts scores side relation standard
  let inSuit (suit : String) : Bool :=
    (columns.find? fun column => column.1 == suit).any (·.2)
  let passing := columns.countP (·.2)
  match scope with
  | .suit suit => .ok (inSuit suit)
  | .each => .ok (!columns.isEmpty && columns.all (·.2))
  | .any => .ok (columns.any (·.2))
  | .one => .ok (passing == 1)
  | .only suit => .ok (inSuit suit && passing == 1)
  | .total => do
    let ours ← scores.total side
    let theirs ← scores.total side.opponent
    pure (standard.met scores side relation ours theirs)

/-- The seat that a side means for a player. -/
def seatOf (player : Seat) : Side → Seat
  | .friendly => player
  | .enemy => player.opponent

/-- Whether a card is the one sought. -/
def Quarry.isFound (card : Card) : Quarry → Bool
  | name sought => card.name == sought
  | value n => card.number? == some n

namespace Criterion

/-- Whether the criterion holds for a player at the end of a game. -/
def judge (scores : Scoreboard) (player : Seat) (statistics : Statistics) :
    Criterion → Except Fault Bool
  | statistic counter count qualifier => do
    let value ← counter.read (statistics.record qualifier)
    pure (decide (count ≤ value.toNat))
  | score side scope relation standard =>
    judgeScore scores (seatOf player side) scope relation standard
  | round .. => .ok false

/-- The cards of a player that a presence counts, with their columns. -/
def present (board : Board) (player : Seat) : Presence → List (Nat × Card)
  | .use => board.occupied player
  | .wait => board.held player

/-- Whether the criterion holds for a player at the end of a round. -/
def judgeRound (board : Board) (player : Seat) : Criterion → Bool
  | round presence count quarry =>
    let found := (present board player presence).countP fun (_, card) => quarry.isFound card
    decide (count ≤ found)
  | statistic .. | score .. => false

end Criterion

namespace Achievement

/-- Whether all criteria hold, judged in order up to the first that does not. -/
def holdAll (judge : Criterion → Except Fault Bool) : List Criterion → Except Fault Bool
  | [] => .ok true
  | criterion :: rest => do
    if ← judge criterion then holdAll judge rest else pure false

/-- Whether the achievement is reached at the end of a game. -/
def judge (achievement : Achievement) (scores : Scoreboard) (player : Seat)
    (statistics : Statistics) : Except Fault Bool :=
  if achievement.criteria.isEmpty then .ok false
  else holdAll (Criterion.judge scores player statistics) achievement.criteria

/-- Whether the achievement is reached at the end of a round. -/
def judgeRound (achievement : Achievement) (board : Board) (player : Seat) : Bool :=
  !achievement.criteria.isEmpty
    && achievement.criteria.all fun criterion => criterion.judgeRound board player

end Achievement

end CardDuel.Goal
