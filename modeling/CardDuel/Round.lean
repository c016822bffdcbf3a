import CardDuel.Casting
import CardDuel.Scoreboard

/-!
# Resolving a round

`Arena.resolve` carries out the special cards and then decides one match in every column
with two cards, from left to right.  If a special card is unsupported, nothing is scored.
-/

namespace CardDuel

/-- What a resolved round produced. -/
structure RoundReport where
  resolutions : List Resolution
  /-- The columns with two cards and their outcomes, seen from the first seat. -/
  outcomes : List (Nat × Outcome)
deriving DecidableEq, Repr

/-- The wins of the first seat minus its losses. -/
def RoundReport.balance (report : RoundReport) : Int :=
  report.outcomes.foldl (fun total (_, outcome) => total + outcome.sign) 0

namespace Board

/-- The cards of the columns that have two, with their columns. -/
def fullColumns (board : Board) : List (Nat × Card × Card) :=
  (List.range board.width).filterMap fun column =>
    match board.card? .first column, board.card? .second column with
    | some mine, some theirs => some (column, mine, theirs)
    | _, _ => none

end Board

namespace Scoreboard

/-- Decide a list of matches in order. -/
def scoreAll (scores : Scoreboard) :
    List (Nat × Card × Card) → Except Fault (Scoreboard × List (Nat × Outcome))
  | [] => .ok (scores, [])
  | (column, mine, theirs) :: rest => do
    let (scores, outcome) ← scores.scoreMatch .first mine theirs
    let (scores, outcomes) ← scores.scoreAll rest
    pure (scores, (column, outcome) :: outcomes)

end Scoreboard

/-- Carry out the special cards, then score every column with two cards. -/
def Arena.resolve (arena : Arena) (scores : Scoreboard) :
    Except Fault (Arena × Scoreboard × Except GameError RoundReport) := do
  let (arena, resolutions) ← arena.castAll
  match resolutions with
  | .error error => pure (arena, scores, .error error)
  | .ok resolutions =>
    let (scores, outcomes) ← scores.scoreAll arena.board.fullColumns
    pure (arena, scores, .ok ⟨resolutions, outcomes⟩)

end CardDuel
