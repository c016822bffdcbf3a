import CardDuel.Script.TaggedLine
import CardDuel.Statistics.Ledger
import CardDuel.Statistics.Record

/-!
# Statistics

`Statistics` has a record of all games, one for each deck and one for each suit.
`Statistics.text` writes one line for each record, the decks and the suits by name, and
`Statistics.read` reads such a text; a line that it cannot read is skipped with a warning.
-/

namespace CardDuel

/-- The records of all games. -/
structure Statistics where
  base : Statistics.Record := {}
  decks : Ledger Statistics.Record := .empty
  suits : Ledger Statistics.Record := .empty
deriving DecidableEq

namespace Statistics

/-- Count a game in the record under a name; a name without a record gets one. -/
def countIn (ledger : Ledger Record) (name : String) (outcome : Outcome) :
    Except Fault (Ledger Record) := do
  let record ← ((ledger.get? name).getD {}).count outcome
  pure (ledger.put name record)

/-- Count a game played with a deck and its suits. -/
def recordGame (statistics : Statistics) (deck : String) (suits : List String)
    (outcome : Outcome) : Except Fault Statistics := do
  let base ← statistics.base.count outcome
  let decks ← countIn statistics.decks deck outcome
  let suits ← suits.foldlM (fun ledger suit => countIn ledger suit outcome) statistics.suits
  pure { base, decks, suits }

/-- The record of a deck or else of a suit, the record of all games if no name is given, and
an empty record for an unknown name. -/
def record (statistics : Statistics) (qualifier : Option String) : Record :=
  match qualifier with
  | none => statistics.base
  | some name => ((statistics.decks.get? name).or (statistics.suits.get? name)).getD {}

/-! ### Writing -/

/-- The line of a record under a name. -/
def entryLine (table name : String) (record : Record) : String :=
  table ++ ":" ++ name ++ ":" ++ record.text

/-- The lines of the statistics. -/
def textLines (statistics : Statistics) : List String :=
  statistics.base.text
    :: (statistics.decks.entries.map fun (name, record) => entryLine "DECK" name record)
    ++ (statistics.suits.entries.map fun (name, record) => entryLine "SUIT" name record)

/-- The text of the statistics; every line is closed by a line feed. -/
def text (statistics : Statistics) : String :=
  String.join (statistics.textLines.map (· ++ "\n"))

/-! ### Reading -/

/-- The place of a record. -/
inductive Table where
  | summary
  | deck (name : String)
  | suit (name : String)
deriving DecidableEq, Repr

/-- The place that a line names and the text of its record. -/
def splitLine (line : List Char) : Table × List Char :=
  match Text.cutAt ':' line with
  | none => (.summary, line)
  | some (table, rest) =>
    match Text.cutAt ':' rest with
    | none => (.summary, line)
    | some (name, record) =>
      match String.ofList table with
      | "DECK" => (.deck (String.ofList name), record)
      | "SUIT" => (.suit (String.ofList name), record)
      | _ => (.summary, line)

/-- The statistics read so far. -/
structure Draft where
  statistics : Statistics := {}
  /-- Whether there was a line for all games. -/
  summarised : Bool := false

open Script in
/-- Read a line. -/
def Draft.readLine (draft : Draft) (line : List Char) : Reading Draft :=
  let line := Text.trim line
  if line.isEmpty then .clean draft
  else
    let (table, text) := splitLine line
    let statistics := draft.statistics
    match Record.read text, table with
    | none, _ => ⟨draft, [.malformedRecord (String.ofList line)]⟩
    | some record, .deck name =>
      let decks := statistics.decks.put name record
      .clean { draft with statistics := { statistics with decks } }
    | some record, .suit name =>
      let suits := statistics.suits.put name record
      .clean { draft with statistics := { statistics with suits } }
    | some record, .summary =>
      if draft.summarised then ⟨draft, [.secondSummary]⟩
      else ⟨⟨{ statistics with base := record }, true⟩, []⟩

open Script in
/-- Read numbered lines one after another. -/
def Draft.readLines (draft : Draft) : List (Nat × List Char) → Parsed Draft
  | [] => ⟨draft, []⟩
  | (number, line) :: rest =>
    let next := draft.readLine line
    let last := next.value.readLines rest
    ⟨last.value, warningsAt number next.defects ++ last.warnings⟩

open Script in
/-- The statistics that a text writes. -/
def read (text : String) : Parsed Statistics :=
  let draft := Draft.readLines {} (numberedLines text)
  ⟨draft.value.statistics, draft.warnings⟩

end Statistics

end CardDuel
