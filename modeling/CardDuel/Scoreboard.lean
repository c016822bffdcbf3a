import CardDuel.Card
import CardDuel.Seat

/-!
# The scoreboard

A `Scoreboard` lists suits, each with the points of both seats.  `scoreMatch` decides one
match between two facing cards and moves the points: the winner gains in its own suit and in
that of the loser, the loser loses in its own suit, and a kiss lets both seats gain in both
suits.  A suit that is not listed moves no points; a suit that is listed twice counts in its
first place.
-/

namespace CardDuel

/-- The result of a match as one of the seats sees it. -/
inductive Outcome where
  | win
  | loss
  | draw
deriving DecidableEq, Repr

namespace Outcome

/-- One for a win, minus one for a loss, zero for a draw. -/
def sign : Outcome → Int
  | win => 1
  | loss => -1
  | draw => 0

/-- The same match as the other seat sees it. -/
def flip : Outcome → Outcome
  | win => loss
  | loss => win
  | draw => draw

/-- The name of an outcome. -/
def name : Outcome → String
  | win => "Win"
  | loss => "Loss"
  | draw => "Draw"

end Outcome

/-- The points of both seats in one suit. -/
structure SuitScore where
  suit : String
  points : Pair Int
deriving DecidableEq, Repr

/-- The points of both seats, suit by suit. -/
structure Scoreboard where
  entries : List SuitScore
deriving DecidableEq, Repr

namespace Scoreboard

/-- The points that one match moves. -/
def matchPoints : Int := 10

/-- The scoreboard of a list of suits without points. -/
def ofSuits (suits : List String) : Scoreboard :=
  ⟨suits.map fun suit => ⟨suit, .both 0⟩⟩

/-- The suits in order. -/
def suits (scores : Scoreboard) : List String :=
  scores.entries.map (·.suit)

/-- The first place of a suit. -/
def place? (scores : Scoreboard) (suit : String) : Option Nat :=
  scores.entries.findIdx? fun entry => entry.suit == suit

/-- The points of a seat, suit by suit. -/
def row (scores : Scoreboard) (seat : Seat) : List Int :=
  scores.entries.map fun entry => entry.points.get seat

/-- The points of a seat in a suit. -/
def points? (scores : Scoreboard) (seat : Seat) (suit : String) : Option Int :=
  (scores.entries.find? fun entry => entry.suit == suit).map fun entry => entry.points.get seat

/-- The sum of the points of a seat. -/
def total (scores : Scoreboard) (seat : Seat) : Except Fault Int :=
  Checked.sum (scores.row seat)

/-- Change the points of a seat in a suit; an unknown suit changes nothing. -/
def update (f : Int → Except Fault Int) (seat : Seat) (suit : String) :
    List SuitScore → Except Fault (List SuitScore)
  | [] => .ok []
  | entry :: rest =>
    if entry.suit = suit then do
      let points ← f (entry.points.get seat)
      pure ({ entry with points := entry.points.set seat points } :: rest)
    else do
      let rest ← update f seat suit rest
      pure (entry :: rest)

/-- Add points of a seat in a suit. -/
def add (scores : Scoreboard) (seat : Seat) (suit : String) (amount : Int) :
    Except Fault Scoreboard :=
  (update (fun points => Checked.add points amount) seat suit scores.entries).map (⟨·⟩)

/-- Set the points of a seat in a suit. -/
def set (scores : Scoreboard) (seat : Seat) (suit : String) (points : Int) : Scoreboard :=
  match scores.place? suit with
  | none => scores
  | some place =>
    ⟨scores.entries.modify place fun entry =>
      { entry with points := entry.points.set seat points }⟩

/-- The same suits without points. -/
def reset (scores : Scoreboard) : Scoreboard := ofSuits scores.suits

/-- Credit a seat in two suits, once if they are the same. -/
def creditBoth (scores : Scoreboard) (seat : Seat) (suit other : String) :
    Except Fault Scoreboard := do
  let scores ← scores.add seat suit matchPoints
  if other = suit then pure scores else scores.add seat other matchPoints

/-- Credit the winner of a match in both suits and charge the loser in its own. -/
def creditWin (scores : Scoreboard) (winner : Seat) (winnerSuit loserSuit : String) :
    Except Fault Scoreboard := do
  let scores ← scores.creditBoth winner winnerSuit loserSuit
  scores.add winner.opponent loserSuit (-matchPoints)

end Scoreboard

/-- The outcome of a match between two values, seen from the first: a mark of special cards
draws, a kiss wins, a forced outcome decides, and otherwise the greater number wins. -/
def Outcome.ofValues (mine theirs : Value) : Outcome :=
  if mine = .special ∨ theirs = .special then .draw
  else if mine = .kiss ∨ theirs = .kiss then .win
  else if mine = .win ∨ theirs = .lose then .win
  else if mine = .lose ∨ theirs = .win then .loss
  else if mine = .draw ∨ theirs = .draw then .draw
  else
    match mine.compare? theirs with
    | some .gt => .win
    | some .lt => .loss
    | _ => .draw

namespace Scoreboard

/-- Decide the match between the card of a seat and the card that faces it, and move the
points. -/
def scoreMatch (scores : Scoreboard) (seat : Seat) (mine theirs : Card) :
    Except Fault (Scoreboard × Outcome) := do
  let outcome := Outcome.ofValues mine.face.value theirs.face.value
  let (mySuit, theirSuit) := (mine.face.suit, theirs.face.suit)
  let kissed := mine.face.value = .kiss ∨ theirs.face.value = .kiss
  let scores ←
    if kissed then
      if outcome = .win then do
        let scores ← scores.creditBoth seat mySuit theirSuit
        scores.creditBoth seat.opponent mySuit theirSuit
      else pure scores
    else
      match outcome with
      | .win => scores.creditWin seat mySuit theirSuit
      | .loss => scores.creditWin seat.opponent theirSuit mySuit
      | .draw => pure scores
  pure (scores, outcome)

end Scoreboard

end CardDuel
