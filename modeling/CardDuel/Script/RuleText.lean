import CardDuel.Checked
import CardDuel.Requirement.Basic
import CardDuel.Script.Defect

/-!
# Rule texts of special cards

A requirement is an optional `MIN`, `MAX` or `EXACTLY`, a number, and an application.  An
application is a sequence of clauses: a side, suits, `HAND`, comparisons with a number, and
`VS` followed by the application that the facing card must pass.  An effect is a kind and its
payload.  Keywords are read in any case.  Where the suits of a deck are known, a suit is
given the spelling of the deck and other words are reported; without known suits any word
is a suit.
-/

namespace CardDuel.Script

/-- The words of a rule text; commas separate like blanks. -/
def ruleWords (text : String) : List String :=
  Text.words (fun c => Text.isBlank c || c == ',') text

/-! ### Suits -/

/-- Whether a word names one of the known suits. -/
def knowsSuit (known : List String) (word : String) : Bool :=
  known.any (Text.sameLetters · word)

/-- The suit that a word names. -/
def suitOf (known : List String) (word : String) : Option String :=
  if known.isEmpty then some word else known.find? (Text.sameLetters · word)

/-! ### Applications -/

/-- One word of an application. -/
inductive Clause where
  | align (alignment : Alignment)
  /-- A word that only helps the reader. -/
  | filler
  | hand
  | versus
  /-- A comparison and what follows it in the same word. -/
  | compare (operator operand : String)
  | name (word : String)
deriving DecidableEq, Repr

/-- The characters of comparisons. -/
def isOperatorChar (c : Char) : Bool :=
  c == '<' || c == '>' || c == '='

/-- The comparison at the beginning of a text, and what follows it. -/
def splitOperator (text : String) : String × String :=
  (String.ofList (text.toList.takeWhile isOperatorChar),
    String.ofList (text.toList.dropWhile isOperatorChar))

/-- What a word of an application stands for. -/
def Clause.ofWord (word : String) : Clause :=
  match Text.upper word with
  | "FRIENDLY" => align .friendly
  | "ENEMY" => align .enemy
  | "ALL" | "ANY" => align .either
  | "OR" | "CARD" | "CARDS" => filler
  | "HAND" => hand
  | "VS" => versus
  | _ =>
    let (operator, operand) := splitOperator word
    if operator.isEmpty then name word else compare operator operand

/-- The scope with the bounds that a comparison with `n` sets, nothing if there is no such
comparison. -/
def bounded (scope : Scope) (operator : String) (n : Int) : Except Fault (Option Scope) :=
  match operator with
  | ">" => (Checked.add n 1).map fun least => some { scope with min := some least }
  | ">=" => .ok (some { scope with min := some n })
  | "<" => (Checked.sub n 1).map fun greatest => some { scope with max := some greatest }
  | "<=" => .ok (some { scope with max := some n })
  | "=" | "==" => .ok (some { scope with min := some n, max := some n })
  | _ => .ok none

/-- Read a comparison into a scope. -/
def readBound (scope : Scope) (operator operand : String) : Except Fault (Reading Scope) :=
  match Text.readSigned 32 operand with
  | none => .ok ⟨scope, [.noNumber operator operand]⟩
  | some n => do
    match ← bounded scope operator n with
    | some scope => pure (.clean scope)
    | none => pure ⟨scope, [.unknownOperator operator]⟩

/-- Read a suit into the list of suits met so far. -/
def readSuit (known : List String) (suits : List String) (word : String) :
    Reading (List String) :=
  match suitOf known word, Text.readSigned 32 word with
  | some suit, none => .clean (suits ++ [suit])
  | _, _ => ⟨suits, [.unknownWord word]⟩

/-- The aim made of a scope, the suits met, and the application for the facing card. -/
def finishAim (scope : Scope) (suits : List String) (opposite : Option Application) : Aim :=
  ⟨if suits.isEmpty then scope else { scope with suits := some suits }, opposite⟩

/-- Read the clauses of an aim.  `awaited` is a comparison whose number must be the next
word. -/
def readAim (known : List String) (scope : Scope) (suits : List String)
    (awaited : Option String) : List String → Except Fault (Reading Aim)
  | [] =>
    .ok ⟨finishAim scope suits none, awaited.toList.map fun operator => .noNumber operator ""⟩
  | word :: rest =>
    match awaited with
    | some operator => do
      let bound ← readBound scope operator word
      let aim ← readAim known bound.value suits none rest
      pure ⟨aim.value, bound.defects ++ aim.defects⟩
    | none =>
      match Clause.ofWord word with
      | .align alignment => readAim known { scope with alignment } suits none rest
      | .filler => readAim known scope suits none rest
      | .hand => readAim known { scope with inHand := true } suits none rest
      | .versus =>
        if rest.isEmpty then .ok ⟨finishAim scope suits none, [.loneVersus]⟩
        else do
          let opposite ← readAim known {} [] none rest
          pure (opposite.map fun aim => finishAim scope suits (some (.test aim)))
      | .compare operator operand =>
        if operand.isEmpty then readAim known scope suits (some operator) rest
        else do
          let bound ← readBound scope operator operand
          let aim ← readAim known bound.value suits none rest
          pure ⟨aim.value, bound.defects ++ aim.defects⟩
      | .name word => do
        let suits := readSuit known suits word
        let aim ← readAim known scope suits.value none rest
        pure ⟨aim.value, suits.defects ++ aim.defects⟩

/-- The application that a list of words describes. -/
def applicationOfWords (known words : List String) : Except Fault (Reading Application) := do
  let aim ← readAim known {} [] none words
  pure (aim.map .test)

/-- The application that a text describes; an empty text reaches every card. -/
def readApplication (known : List String) (text : String) :
    Except Fault (Reading Application) :=
  applicationOfWords known (ruleWords text)

/-! ### Requirements -/

/-- The comparison that a list of words begins with, and the words after it. -/
def splitComparison : List String → Comparison × List String
  | [] => (.exactly, [])
  | first :: rest =>
    match Text.upper first with
    | "MIN" => (.atLeast, rest)
    | "MAX" => (.noMoreThan, rest)
    | "EXACTLY" => (.exactly, rest)
    | _ => (.exactly, first :: rest)

/-- The number that a list of words begins with, and the words after it. -/
def splitCount : List String → Option (Nat × List String)
  | [] => none
  | first :: rest => (Text.readUnsigned 64 first).map (·, rest)

/-- The requirement that a list of words describes. -/
def requirementOfWords (known words : List String) : Except Fault (Reading Requirement) :=
  if words.isEmpty then .ok (.clean .nothing)
  else
    let (comparison, rest) := splitComparison words
    match splitCount rest with
    | none => .ok ⟨.nothing, [.noCount (Text.unwords words)]⟩
    | some (count, []) => .ok (.clean (.counting comparison count .any))
    | some (count, style) => do
      let style ← applicationOfWords known style
      pure (style.map (.counting comparison count))

/-- The requirement that a text describes; an empty text asks for nothing. -/
def readRequirement (known : List String) (text : String) :
    Except Fault (Reading Requirement) :=
  requirementOfWords known (ruleWords text)

/-! ### Effects -/

/-- The payload of a replacement: a known suit, a value, any suit, or a suit and a value. -/
def replacement (known : List String) : List String → Option Effect.Payload
  | [word] =>
    if knowsSuit known word then (suitOf known word).map .suit
    else
      match Value.ofWord word with
      | some value => some (.value value)
      | none => if known.isEmpty then some (.suit word) else none
  | [suit, value] =>
    match suitOf known suit, Value.ofWord value with
    | some suit, some value => some (.face ⟨suit, value⟩)
    | _, _ => none
  | _ => none

/-- The payload of a buff: a number, a win or a loss. -/
def buffPayload : List String → Option Effect.Payload
  | [] => none
  | word :: _ =>
    match Value.ofWord word with
    | some (.number n) => some (.value (.number n))
    | some .win => some (.value .win)
    | some .lose => some (.value .lose)
    | _ => none

/-- The payload of a multiplier: a number, with any count of crosses before it. -/
def factorPayload : List String → Option Effect.Payload
  | [] => none
  | word :: _ =>
    let number := word.toList.dropWhile fun c => c == 'x' || c == 'X'
    (Binary64.read (String.ofList number)).map .factor

/-- The payload of a new roll: the part of the face that is rolled. -/
def fieldPayload : List String → Option Effect.Payload
  | [] => some (.field .both)
  | word :: _ =>
    match Text.upper word with
    | "SUIT" => some (.field .suit)
    | "VALUE" => some (.field .value)
    | "ALL" | "BOTH" => some (.field .both)
    | _ => none

/-- The payload that a kind of effect takes from the words after it. -/
def payloadOf (known : List String) (kind : Effect.Kind) (rest : List String) :
    Option Effect.Payload :=
  match kind with
  | .buff => buffPayload rest
  | .multiply => factorPayload rest
  | .replace => replacement known rest
  | .randomize => fieldPayload rest
  | .wait | .switch | .reverse | .kiss | .clone | .flush => some .none

/-- The effect that a list of words describes. -/
def effectOfWords (known : List String) : List String → Reading Effect
  | [] => ⟨.inert, [.emptyEffect]⟩
  | first :: rest =>
    match Effect.Kind.ofWord first with
    | none => ⟨.inert, [.unknownEffect first]⟩
    | some kind =>
      match payloadOf known kind rest with
      | some payload => .clean ⟨kind, payload⟩
      | none => ⟨.inert, [.badPayload kind (Text.unwords rest)]⟩

/-- The effect that a text describes; an unreadable text changes nothing. -/
def readEffect (known : List String) (text : String) : Reading Effect :=
  effectOfWords known (ruleWords text)

end CardDuel.Script
