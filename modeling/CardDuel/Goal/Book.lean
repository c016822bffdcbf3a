import CardDuel.Goal.Judgement
import CardDuel.Script.GoalText
import CardDuel.Statistics.Ledger

/-!
# The book of achievements

A `Book` lists achievements and the names of those that have been reached.  The checks at
the end of a round or game reach all achievements whose criteria hold and name those that
are new.  A special card that is a reward may be drawn only once one of the achievements
that it rewards has been reached.
-/

namespace CardDuel.Goal

/-- Achievements and the names of those reached. -/
structure Book where
  achievements : List Achievement
  reached : Ledger Unit := .empty
deriving DecidableEq

namespace Book

/-- The first achievement of a name. -/
def get? (book : Book) (name : String) : Option Achievement :=
  book.achievements.find? fun achievement => achievement.name == name

/-- Whether an achievement has been reached. -/
def isReached (book : Book) (name : String) : Bool :=
  book.reached.contains name

/-- Enter a name among those reached. -/
def enter (book : Book) (name : String) : Book :=
  { book with reached := book.reached.put name () }

/-- Reach an achievement: the book after it, and whether that is new.  A name that is not in
the book is not entered. -/
def unlock (book : Book) (name : String) : Book × Bool :=
  if (book.get? name).isNone then (book, false)
  else (book.enter name, !book.isReached name)

/-- The names of the achievements that are not yet reached and pass a check. -/
def fresh (book : Book) (passes : Achievement → Except Fault Bool) :
    List Achievement → Except Fault (List String)
  | [] => .ok []
  | achievement :: rest => do
    let passed ←
      if book.isReached achievement.name then pure false else passes achievement
    let names ← fresh book passes rest
    pure (if passed then achievement.name :: names else names)

/-- Reach all achievements that pass a check: the book after it and the new names. -/
def unlockPassing (book : Book) (passes : Achievement → Except Fault Bool) :
    Except Fault (Book × List String) := do
  let names ← book.fresh passes book.achievements
  pure (names.foldl enter book, names)

/-- Reach the achievements of a game. -/
def checkGame (book : Book) (scores : Scoreboard) (player : Seat) (statistics : Statistics) :
    Except Fault (Book × List String) :=
  book.unlockPassing fun achievement =>
    if achievement.isRound then .ok false else achievement.judge scores player statistics

/-- Reach the achievements of a round. -/
def checkRound (book : Book) (board : Board) (player : Seat) :
    Except Fault (Book × List String) :=
  book.unlockPassing fun achievement =>
    .ok (achievement.isRound && achievement.judgeRound board player)

/-- Whether a special card may be drawn: it is no reward, or one of the achievements that it
rewards has been reached. -/
def allows (book : Book) (special : String) : Bool :=
  let rewarding := book.achievements.filter fun achievement =>
    achievement.reward == some special
  rewarding.isEmpty || rewarding.any fun achievement => book.isReached achievement.name

/-! ### The list of achievements reached -/

/-- The achievements reached, one line each, in the order of the book. -/
def renderReached (book : Book) : String :=
  let reached := book.achievements.filter fun achievement => book.isReached achievement.name
  String.join (reached.map fun achievement => "[ACH-NAME]" ++ achievement.name ++ "\n")

open Script in
/-- Read a line of the list of achievements reached. -/
def readLine (book : Book) (line : TaggedLine) : Reading Book :=
  if line.tag = "ACH-NAME" then
    let (book, _) := book.unlock line.value
    ⟨book, if book.isReached line.value then [] else [.unknownAchievement line.value]⟩
  else ⟨book, [.unexpectedTag line.tag]⟩

open Script in
/-- Reach the achievements that a text lists; names that are not in the book are reported. -/
def readReached (book : Book) (text : String) : Parsed Book :=
  let lines := tokenize text
  let walked := Id.run (walk (fun book line => pure (readLine book line)) book lines.value)
  ⟨walked.value, lines.warnings ++ walked.warnings⟩

end Book

open Script in
/-- The book that a text describes, with nothing reached. -/
def Book.read (text : String) : Parsed Book :=
  let achievements := readAchievements text
  ⟨{ achievements := achievements.value }, achievements.warnings⟩

end CardDuel.Goal
