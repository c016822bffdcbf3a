import CardDuel.Deck
import CardDuel.Script.RuleText
import CardDuel.Script.TaggedLine

/-!
# Deck texts

A deck text lists suits and blocks of special cards.  A block ends with its effect.  Its
requirements, at most three, must all hold, and any of its applications is enough.
`readDeck` reads a whole text; a `DeckDraft` is the deck so far and the block that is not
yet finished.
-/

namespace CardDuel.Script

/-- A block of a special card that is not yet finished. -/
structure SpecialDraft where
  name : Option String := none
  description : String := ""
  requirements : List Requirement := []
  applications : List Application := []
  /-- Whether the block has a line yet. -/
  started : Bool := false

/-- The greatest number of requirements of a special card. -/
def maxRequirements : Nat := 3

/-- The special card of a block with a given effect. -/
def SpecialDraft.finish (draft : SpecialDraft) (effect : Effect) : Reading Special :=
  let name := draft.name.getD "Unnamed"
  let application := Condition.combineAll .or draft.applications
  let defects :=
    (if draft.name.isNone then [.unnamedSpecial] else [])
      ++ (if application.isNone then [.noApplication name] else [])
  { value :=
      { name
        description := draft.description
        requirement := (Condition.combineAll .and draft.requirements).getD Requirement.nothing
        application := application.getD Application.any
        effect }
    defects }

/-- A deck and the block that is not yet finished. -/
structure DeckDraft where
  deck : Deck
  pending : SpecialDraft := {}

namespace DeckDraft

/-- Read a line with a suit. -/
def readSuit (draft : DeckDraft) (suit : String) : Reading DeckDraft :=
  if suit.isEmpty then ⟨draft, [.emptySuit]⟩
  else if draft.deck.suits.contains suit then ⟨draft, [.duplicateSuit suit]⟩
  else
    let deck := { draft.deck with suits := draft.deck.suits ++ [suit] }
    .clean { draft with deck }

/-- Read a line with the name of a special card. -/
def readName (draft : DeckDraft) (name : String) : Reading DeckDraft :=
  if draft.pending.started then
    ⟨{ draft with pending := { name := some name, started := true } }, [.unfinishedSpecial]⟩
  else .clean { draft with pending := { draft.pending with name := some name, started := true } }

/-- Read a line with a requirement. -/
def readRequirement (draft : DeckDraft) (text : String) : Except Fault (Reading DeckDraft) := do
  let requirement ← Script.readRequirement draft.deck.suits text
  let pending := { draft.pending with started := true }
  if pending.requirements.length = maxRequirements then
    pure ⟨{ draft with pending }, requirement.defects ++ [.surplusRequirement]⟩
  else
    let requirements := pending.requirements ++ [requirement.value]
    pure ⟨{ draft with pending := { pending with requirements } }, requirement.defects⟩

/-- Read a line with an application. -/
def readApplication (draft : DeckDraft) (text : String) : Except Fault (Reading DeckDraft) := do
  let application ← Script.readApplication draft.deck.suits text
  let applications := draft.pending.applications ++ [application.value]
  let pending := { draft.pending with started := true, applications }
  pure ⟨{ draft with pending }, application.defects⟩

/-- Read a line with an effect, which finishes the block. -/
def readEffect (draft : DeckDraft) (text : String) : Reading DeckDraft :=
  let effect := Script.readEffect draft.deck.suits text
  let special := draft.pending.finish effect.value
  let deck := { draft.deck with specials := draft.deck.specials ++ [special.value] }
  ⟨{ deck }, effect.defects ++ special.defects⟩

/-- Read a tagged line. -/
def step (draft : DeckDraft) (line : TaggedLine) : Except Fault (Reading DeckDraft) :=
  match line.tag with
  | "SUIT" => .ok (draft.readSuit line.value)
  | "SPECIAL-NAME" => .ok (draft.readName line.value)
  | "SPECIAL-DESC" =>
    let pending := { draft.pending with started := true, description := line.value }
    .ok (.clean { draft with pending })
  | "SPECIAL-REQ" => draft.readRequirement line.value
  | "SPECIAL-APP" => draft.readApplication line.value
  | "SPECIAL-EFF" => .ok (draft.readEffect line.value)
  | tag => .ok ⟨draft, [.unknownDeckTag tag]⟩

end DeckDraft

/-- The deck that a text describes. -/
def readDeck (name text : String) : Except Fault (Parsed Deck) := do
  let lines := tokenize text
  let draft ← walk DeckDraft.step { deck := { name } } lines.value
  let unfinished : List Defect :=
    if draft.value.pending.started then [.unfinishedLastSpecial] else []
  pure
    ⟨draft.value.deck,
      lines.warnings ++ draft.warnings ++ warningsAt (lastNumber lines.value) unfinished⟩

end CardDuel.Script
