import CardDuel.Checked
import CardDuel.Script.TaggedLine

/-!
# Achievement texts

The first word of a code decides what kind of criterion it is.  A counter and a presence on
the board are followed by an optional number and by a name; a number that stands alone
after a presence is the value to look for.  All other codes relate points: an optional side,
a scope, an optional comparison and a standard.  `readAchievements` reads a whole text, in
which a block ends with the reward.
-/

namespace CardDuel.Script

open Goal

/-! ### Codes -/

/-- The number that a list of words begins with, if it does, and the other words. -/
def leadingCount : List String → Option Nat × List String
  | [] => (none, [])
  | first :: rest =>
    match Text.readUnsigned 64 first with
    | some count => (some count, rest)
    | none => (none, first :: rest)

/-- The criterion on a counter. -/
def readStatistic (counter : Counter) (rest : List String) : Reading (Option Criterion) :=
  let (count, rest) := leadingCount rest
  let count := count.getD 1
  if count < 4294967296 then
    let qualifier := if rest.isEmpty then none else some (Text.unwords rest)
    .clean (some (.statistic counter count qualifier))
  else ⟨none, [.hugeStatistic count]⟩

/-- The criterion on the cards of a round. -/
def readRound (presence : Presence) (rest : List String) : Reading (Option Criterion) :=
  match leadingCount rest with
  | (none, []) => ⟨none, [.noCard presence]⟩
  | (some value, []) =>
    .clean (some (.round presence 1 (.value (Checked.lowest32 value))))
  | (count, [word]) =>
    let quarry : Quarry :=
      match Text.readSigned 32 word with
      | some n => .value n
      | none => .name word
    .clean (some (.round presence (count.getD 1) quarry))
  | (count, words) =>
    .clean (some (.round presence (count.getD 1) (.name (Text.unwords words))))

/-- The side that a list of words begins with, and the words after it. -/
def splitSide : List String → Side × List String
  | [] => (.friendly, [])
  | first :: rest =>
    match Text.upper first with
    | "FRIENDLY" => (.friendly, rest)
    | "ENEMY" => (.enemy, rest)
    | _ => (.friendly, first :: rest)

/-- The scope that a list of words begins with, and the words after it. -/
def splitScope : List String → Except Defect (Goal.Scope × List String)
  | [] => .error .noScope
  | first :: rest =>
    match Text.upper first with
    | "EACH" => .ok (.each, rest)
    | "ANY" => .ok (.any, rest)
    | "ONE" => .ok (.one, rest)
    | "TOTAL" => .ok (.total, rest)
    | "ONLY" =>
      match rest with
      | [] => .error .onlyWithoutSuit
      | suit :: rest => .ok (.only suit, rest)
    | _ => .ok (.suit first, rest)

/-- The relation that a comparison stands for. -/
def relationOf (operator : String) : Except Defect Relation :=
  match operator with
  | "" | ">=" => .ok .atLeast
  | "<" => .ok .less
  | "=" | "==" => .ok .equal
  | _ => .error (.unknownRelation operator)

/-- The standard that a text stands for. -/
def standardOf (text : String) : Except Defect Standard :=
  match Text.upper text with
  | "" => .error .noStandard
  | "WIN" => .ok .win
  | "LOSE" => .ok .lose
  | "DRAW" => .ok .draw
  | _ =>
    match Text.readSigned 32 text with
    | some n => .ok (.points n)
    | none => .ok (.suit text)

/-- The characters of relations. -/
def isRelationChar (c : Char) : Bool :=
  c == '<' || c == '>' || c == '='

/-- The criterion on points. -/
def scoreOfWords (words : List String) : Except Defect Criterion := do
  let (side, rest) := splitSide words
  let (scope, rest) ← splitScope rest
  let text := Text.trim (Text.unwords rest).toList
  let relation ← relationOf (String.ofList (text.takeWhile isRelationChar))
  let standard ← standardOf (String.ofList (Text.trim (text.dropWhile isRelationChar)))
  pure (.score side scope relation standard)

/-- The criterion on points, or the defect that prevents it. -/
def readScore (words : List String) : Reading (Option Criterion) :=
  match scoreOfWords words with
  | .ok criterion => .clean (some criterion)
  | .error defect => ⟨none, [defect]⟩

/-- The criterion that a list of words describes. -/
def criterionOfWords : List String → Reading (Option Criterion)
  | [] => ⟨none, [.emptyCode]⟩
  | first :: rest =>
    match Text.upper first with
    | "PLAY" => readStatistic .play rest
    | "WIN" => readStatistic .win rest
    | "LOSE" => readStatistic .lose rest
    | "DRAW" => readStatistic .draw rest
    | "STREAK" => readStatistic .streak rest
    | "USE" => readRound .use rest
    | "WAIT" => readRound .wait rest
    | _ => readScore (first :: rest)

/-- The criterion that a code describes. -/
def readCriterion (code : String) : Reading (Option Criterion) :=
  criterionOfWords (Text.words Text.isBlank code)

/-! ### Whole texts -/

/-- An achievement that is not yet finished. -/
structure AchievementDraft where
  name : Option String := none
  description : String := ""
  criteria : List Criterion := []
  /-- Whether the block has a line yet. -/
  started : Bool := false

/-- The achievement of a block with a reward; a block without a name or without criteria
gives none. -/
def AchievementDraft.finish (draft : AchievementDraft) (reward : Option String) :
    Reading (List Achievement) :=
  match draft.name with
  | none => ⟨[], [.unnamedAchievement]⟩
  | some name =>
    if draft.criteria.isEmpty then ⟨[], [.noCriteria name]⟩
    else
      let mixed := draft.criteria.any Criterion.isRound && !draft.criteria.all Criterion.isRound
      let achievement : Achievement :=
        { name, description := draft.description, criteria := draft.criteria, reward }
      ⟨[achievement], if mixed then [.mixedCriteria name] else []⟩

/-- The achievements so far and the block that is not yet finished. -/
structure BookDraft where
  achievements : List Achievement := []
  pending : AchievementDraft := {}

namespace BookDraft

/-- The achievements with that of the pending block. -/
def close (draft : BookDraft) (reward : Option String) : Reading BookDraft :=
  (draft.pending.finish reward).map fun fresh =>
    { achievements := draft.achievements ++ fresh }

/-- Read a line with the name of an achievement. -/
def readName (draft : BookDraft) (name : String) : Reading BookDraft :=
  if draft.pending.started then
    let closed := draft.close none
    ⟨{ closed.value with pending := { name := some name, started := true } },
      .noReward :: closed.defects⟩
  else .clean { draft with pending := { draft.pending with name := some name, started := true } }

/-- Read a line with a code. -/
def readCode (draft : BookDraft) (code : String) : Reading BookDraft :=
  (readCriterion code).map fun criterion =>
    let criteria := draft.pending.criteria ++ criterion.toList
    { draft with pending := { draft.pending with started := true, criteria } }

/-- Read a tagged line. -/
def step (draft : BookDraft) (line : TaggedLine) : Reading BookDraft :=
  match line.tag with
  | "ACH-NAME" => draft.readName line.value
  | "ACH-DESC" =>
    let pending := { draft.pending with started := true, description := line.value }
    .clean { draft with pending }
  | "ACH-CODE" => draft.readCode line.value
  | "ACH-REWARD" => draft.close (if line.value.isEmpty then none else some line.value)
  | tag => ⟨draft, [.unknownAchievementTag tag]⟩

end BookDraft

/-- The achievements that a text describes. -/
def readAchievements (text : String) : Parsed (List Achievement) :=
  let lines := tokenize text
  let draft := Id.run (walk (fun draft line => pure (BookDraft.step draft line)) {} lines.value)
  let last : Reading BookDraft :=
    if draft.value.pending.started then
      let closed := draft.value.close none
      ⟨closed.value, .noLastReward :: closed.defects⟩
    else .clean draft.value
  ⟨last.value.achievements,
    lines.warnings ++ draft.warnings ++ warningsAt (lastNumber lines.value) last.defects⟩

end CardDuel.Script
