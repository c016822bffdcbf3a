import CardDuel.Checked
import CardDuel.Scoreboard

/-!
# Records of games

A `Record` counts games: won, lost and played, the current run of equal outcomes and the
longest run of wins.  Its text is a tuple of six fields in parentheses, and
`Record.read (record.text)` is the record again.
-/

namespace CardDuel.Statistics

/-- The outcome of the games of the current run, if there was a game. -/
abbrev Streak : Type := Option Outcome

/-- The letter of a run. -/
def Streak.symbol : Streak → String
  | some .win => "W"
  | some .loss => "L"
  | some .draw => "D"
  | none => "-"

/-- The run of a letter. -/
def Streak.ofSymbol : String → Option Streak
  | "W" => some (some .win)
  | "L" => some (some .loss)
  | "D" => some (some .draw)
  | "-" => some none
  | _ => none

/-- The counts of a series of games. -/
structure Record where
  wins : UInt32 := 0
  losses : UInt32 := 0
  played : UInt32 := 0
  /-- The length of the current run of equal outcomes. -/
  streak : UInt32 := 0
  /-- The outcome of the current run. -/
  kind : Streak := none
  /-- The length of the longest run of wins. -/
  best : UInt32 := 0
deriving DecidableEq, Repr

namespace Record

/-- The sum of two counters, a fault if it does not fit. -/
def addCounts (a b : UInt32) : Except Fault UInt32 :=
  if a.toNat + b.toNat < 4294967296 then .ok (a + b) else .error .addition

/-- Count one more game. -/
def count (record : Record) (outcome : Outcome) : Except Fault Record := do
  let played ← addCounts record.played 1
  let wins ← if outcome = .win then addCounts record.wins 1 else pure record.wins
  let losses ← if outcome = .loss then addCounts record.losses 1 else pure record.losses
  let streak ← if record.kind = some outcome then addCounts record.streak 1 else pure 1
  let best := if outcome = .win then max record.best streak else record.best
  pure { wins, losses, played, streak, kind := some outcome, best }

/-- The number of games that were neither won nor lost. -/
def draws (record : Record) : Except Fault UInt32 := do
  let decided ← addCounts record.wins record.losses
  pure (if decided ≤ record.played then record.played - decided else 0)

/-- The length of the current run of wins. -/
def winStreak (record : Record) : UInt32 :=
  if record.kind = some .win then record.streak else 0

/-- The text of a record. -/
def text (record : Record) : String :=
  let fields := [toString record.wins, toString record.losses, toString record.played,
    toString record.streak, Streak.symbol record.kind, toString record.best]
  "(" ++ ", ".intercalate fields ++ ")"

/-- The counter that a field holds. -/
def readCount (field : List Char) : Option UInt32 :=
  (Text.readUnsigned 32 (String.ofList field)).map UInt32.ofNat

/-- The text between an opening parenthesis at the start and a closing one at the end. -/
def insideParentheses (cs : List Char) : Option (List Char) :=
  match cs with
  | '(' :: rest => if rest.getLast? = some ')' then some rest.dropLast else none
  | _ => none

/-- The record whose fields are given. -/
def ofFields : List (List Char) → Option Record
  | [wins, losses, played, streak, kind, best] => do
    let wins ← readCount wins
    let losses ← readCount losses
    let played ← readCount played
    let streak ← readCount streak
    let kind ← Streak.ofSymbol (String.ofList kind)
    let best ← readCount best
    pure { wins, losses, played, streak, kind, best }
  | _ => none

/-- The record that a text writes. -/
def read (cs : List Char) : Option Record := do
  let inside ← insideParentheses (Text.trim cs)
  ofFields ((Text.pieces (· == ',') inside).map Text.trim)

end Record

end CardDuel.Statistics
