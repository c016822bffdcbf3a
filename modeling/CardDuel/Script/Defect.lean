import CardDuel.Effect
import CardDuel.Goal.Criterion

/-!
# Tolerated defects

Definition texts are read tolerantly.  What cannot be read becomes a `Defect` and reading
goes on.  A `Reading` is a value together with the defects met on the way to it.  In a file
a defect is reported as a `Warning` with the number of its line; the line number of a text
that is read by itself is zero.
-/

namespace CardDuel.Script

/-- Something in a text that cannot be read as it stands. -/
inductive Defect where
  /-- A line that is not a tag and a value. -/
  | untagged (line : String)
  /-- A requirement without the number of cards. -/
  | noCount (requirement : String)
  /-- The word for the facing card with nothing after it. -/
  | loneVersus
  /-- A comparison without a number. -/
  | noNumber (operator operand : String)
  | unknownOperator (operator : String)
  | unknownWord (word : String)
  | emptyEffect
  | unknownEffect (word : String)
  | badPayload (kind : Effect.Kind) (payload : String)
  | emptySuit
  | duplicateSuit (suit : String)
  /-- A special card that begins before the last one is finished. -/
  | unfinishedSpecial
  | surplusRequirement
  | unnamedSpecial
  | noApplication (special : String)
  | unknownDeckTag (tag : String)
  /-- A special card that is not finished at the end of the text. -/
  | unfinishedLastSpecial
  | hugeStatistic (count : Nat)
  | noCard (presence : Goal.Presence)
  | noScope
  | onlyWithoutSuit
  | unknownRelation (operator : String)
  | noStandard
  | emptyCode
  | unnamedAchievement
  | noCriteria (achievement : String)
  /-- Round criteria together with others. -/
  | mixedCriteria (achievement : String)
  /-- An achievement that begins before the last one is finished. -/
  | noReward
  | unknownAchievementTag (tag : String)
  /-- An achievement that is not finished at the end of the text. -/
  | noLastReward
  | unexpectedTag (tag : String)
  | unknownAchievement (name : String)
  | malformedRecord (line : String)
  | secondSummary
deriving DecidableEq, Repr

/-- The text of a defect. -/
def Defect.message : Defect → String
  | untagged line => "expected [TAG]Value, found '" ++ line ++ "'"
  | noCount requirement => "requirement '" ++ requirement ++ "' has no count"
  | loneVersus => "VS without an opposing application"
  | noNumber operator operand => "'" ++ operator ++ "' needs a number, found '" ++ operand ++ "'"
  | unknownOperator operator => "unknown operator '" ++ operator ++ "'"
  | unknownWord word => "unknown word '" ++ word ++ "' in application"
  | emptyEffect => "empty effect"
  | unknownEffect word => "unknown effect '" ++ word ++ "'"
  | badPayload kind payload => "bad payload for " ++ kind.name ++ ": '" ++ payload ++ "'"
  | emptySuit => "empty SUIT"
  | duplicateSuit suit => "duplicate suit '" ++ suit ++ "'"
  | unfinishedSpecial => "previous special has no SPECIAL-EFF; dropped"
  | surplusRequirement => "more than 3 SPECIAL-REQ lines; ignored"
  | unnamedSpecial => "special without SPECIAL-NAME"
  | noApplication special =>
    "special '" ++ special ++ "' has no SPECIAL-APP; it applies to any card"
  | unknownDeckTag tag => "unknown deck tag '" ++ tag ++ "'"
  | unfinishedLastSpecial => "last special has no SPECIAL-EFF; dropped"
  | hugeStatistic count => "statistic count " ++ toString count ++ " is too large"
  | noCard presence => presence.name ++ " code without a card"
  | noScope => "score code without a scope"
  | onlyWithoutSuit => "ONLY without a suit"
  | unknownRelation operator => "unknown score operator '" ++ operator ++ "'"
  | noStandard => "score code without a target"
  | emptyCode => "empty achievement code"
  | unnamedAchievement => "achievement without ACH-NAME; dropped"
  | noCriteria achievement =>
    "achievement '" ++ achievement ++ "' has no usable ACH-CODE; dropped"
  | mixedCriteria achievement =>
    "achievement '" ++ achievement
      ++ "' mixes round and game codes; it can never be reached"
  | noReward => "previous achievement has no ACH-REWARD"
  | unknownAchievementTag tag => "unknown achievement tag '" ++ tag ++ "'"
  | noLastReward => "last achievement has no ACH-REWARD"
  | unexpectedTag tag => "unexpected tag '" ++ tag ++ "' in unlocked list"
  | unknownAchievement name => "unknown achievement '" ++ name ++ "'"
  | malformedRecord line => "malformed statistics line '" ++ line ++ "'"
  | secondSummary => "second summary line ignored"

/-- A value read from a text by itself, and the defects of the text in order. -/
structure Reading (α : Type) where
  value : α
  defects : List Defect

namespace Reading

variable {α β : Type}

/-- A value read without a defect. -/
def clean (value : α) : Reading α := ⟨value, []⟩

/-- The reading of the image of a value. -/
def map (f : α → β) (reading : Reading α) : Reading β :=
  ⟨f reading.value, reading.defects⟩

end Reading

/-- A defect and the number of the line on which it was met. -/
structure Warning where
  line : Nat
  defect : Defect
deriving DecidableEq, Repr

/-- The text of a warning; a line number of zero is left out. -/
def Warning.text (warning : Warning) : String :=
  if warning.line = 0 then warning.defect.message
  else "line " ++ toString warning.line ++ ": " ++ warning.defect.message

/-- A value read from a file, and the warnings in the order in which they arose. -/
structure Parsed (α : Type) where
  value : α
  warnings : List Warning

/-- What a text by itself gives, as if it were a file. -/
def Reading.parsed {α : Type} (reading : Reading α) : Parsed α :=
  ⟨reading.value, reading.defects.map (⟨0, ·⟩)⟩

end CardDuel.Script
