import CardDuel.Effect
import CardDuel.Requirement.Basic

/-!
# Cards

A `Card` keeps the face it was printed with beside the face it shows, and the kinds of the
effects that changed it since it was last reset.  A special card is a card around the
definition of a `Special`; it shows the mark of special cards and no effect reaches it.
`Card.apply` is the rule by which effects change faces.
-/

namespace CardDuel

/-- The definition of a special card. -/
structure Special where
  name : String
  description : String
  /-- What must be played with it. -/
  requirement : Requirement
  /-- Which cards it reaches. -/
  application : Application
  /-- What happens to them. -/
  effect : Effect

/-- A card in a hand, in a pile or on the board. -/
structure Card where
  /-- The face the card was printed with. -/
  printed : Face
  /-- The face the card shows. -/
  face : Face
  /-- The kinds of effects that changed the face since the last reset, oldest first. -/
  applied : List Effect.Kind
  /-- The definition of a special card. -/
  special : Option Special

namespace Card

/-- A standard card. -/
def standard (suit : String) (value : Value) : Card where
  printed := ⟨suit, value⟩
  face := ⟨suit, value⟩
  applied := []
  special := none

/-- A card with the definition of a special. -/
def ofSpecial (special : Special) : Card where
  printed := ⟨"", .special⟩
  face := ⟨"", .special⟩
  applied := []
  special := some special

/-- Whether the card is a special card. -/
def isSpecial (card : Card) : Bool := card.special.isSome

/-- The number that the card shows. -/
def number? (card : Card) : Option Int := card.face.value.number?

/-- The name of a special card, the suit of another. -/
def name (card : Card) : String :=
  match card.special with
  | some special => special.name
  | none => card.face.suit

/-- The text of a card. -/
def text (card : Card) : String :=
  match card.special with
  | some special => special.name
  | none => card.face.text

/-- The text of a card with the rules of a special card. -/
def description (card : Card) : String :=
  match card.special with
  | some special => special.name ++ ": " ++ special.description
  | none => card.face.text

/-- Whether two cards show the same face and, as special cards, bear the same name. -/
def alike (a b : Card) : Bool :=
  a.face == b.face && a.special.map (·.name) == b.special.map (·.name)

/-- The order of two cards by value; special cards have none. -/
def compare? (a b : Card) : Option Ordering :=
  if a.isSpecial || b.isSpecial then none else a.face.value.compare? b.face.value

/-! ### Effects -/

/-- The face that an effect makes of another, if the effect bears on such a face. -/
def faceAfter (effect : Effect) (face : Face) : Except Fault (Option Face) :=
  match effect.kind, effect.payload with
  | .buff, .value .win => .ok (some { face with value := .win })
  | .buff, .value .lose => .ok (some { face with value := .lose })
  | .buff, .value (.number delta) =>
    match face.value with
    | .number n => do
      let sum ← Checked.add n delta
      pure (some { face with value := .number sum })
    | _ => .ok none
  | .multiply, .factor factor =>
    match face.value with
    | .number n => .ok (some { face with value := .number (scale n factor) })
    | _ => .ok none
  | .switch, .value value => .ok (some { face with value })
  | .reverse, _ =>
    match face.value with
    | .win => .ok (some { face with value := .lose })
    | .lose => .ok (some { face with value := .win })
    | .number n => do
      let reflected ← Checked.sub 11 n
      pure (some { face with value := .number reflected })
    | _ => .ok (some face)
  | .replace, .suit suit => .ok (some { face with suit })
  | .replace, .value value => .ok (some { face with value })
  | .replace, .face donor => .ok (some donor)
  | .clone, .face donor => .ok (some donor)
  | .kiss, _ => .ok (some { face with value := .kiss })
  | _, _ => .ok none

/-- Whether no effect changes the card: special cards, and cards that show a kiss. -/
def isImmune (card : Card) : Bool :=
  card.isSpecial || card.face.value == .kiss

/-- Apply an effect: the card after it and whether its face changed. -/
def apply (effect : Effect) (card : Card) : Except Fault (Card × Bool) :=
  if card.isImmune then .ok (card, false)
  else do
    match ← faceAfter effect card.face with
    | some face =>
      if face = card.face then pure (card, false)
      else pure ({ card with face, applied := card.applied ++ [effect.kind] }, true)
    | none => pure (card, false)

/-- The card as it was printed. -/
def reset (card : Card) : Card :=
  { card with face := card.printed, applied := [] }

end Card

end CardDuel
