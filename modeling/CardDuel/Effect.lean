import CardDuel.Binary64.Decimal
import CardDuel.Checked
import CardDuel.Value

/-!
# Effects

An `Effect` is a kind together with a payload.  Every payload can stand with every kind;
what a card does with the pair is decided where effects are applied.  `scale` is the
rounding rule of multipliers, and `Effect.delta?` is the change that an effect promises for
a numeric card.
-/

namespace CardDuel

namespace Effect

/-- What an effect does. -/
inductive Kind where
  /-- Add to the value, or force a win or a loss. -/
  | buff
  /-- Scale the value. -/
  | multiply
  /-- Keep the matched slot on the board into the next round. -/
  | wait
  /-- Trade values with the card in the facing slot. -/
  | switch
  /-- Exchange win and loss, and reflect the numbers from 1 to 10. -/
  | reverse
  /-- Overwrite suit or value. -/
  | replace
  /-- Let both sides of the match win. -/
  | kiss
  /-- Copy the face of a donor. -/
  | clone
  /-- Discard and redraw the caster's hand. -/
  | flush
  /-- Roll a part of the face anew. -/
  | randomize
deriving DecidableEq, Repr

namespace Kind

/-- The kind that the first word of an effect text names. -/
def ofWord (word : String) : Option Kind :=
  match Text.upper word with
  | "BUFF" => some buff
  | "MULTIPLY" | "MULT" => some multiply
  | "WAIT" | "HOLD" => some wait
  | "SWITCH" | "SWAP" => some switch
  | "REVERSE" => some reverse
  | "REPLACE" => some replace
  | "KISS" => some kiss
  | "CLONE" => some clone
  | "FLUSH" => some flush
  | "RANDOMIZE" | "RANDOM" => some randomize
  | _ => none

/-- The name of a kind. -/
def name : Kind → String
  | buff => "Buff"
  | multiply => "Multiply"
  | wait => "Wait"
  | switch => "Switch"
  | reverse => "Reverse"
  | replace => "Replace"
  | kiss => "Kiss"
  | clone => "Clone"
  | flush => "Flush"
  | randomize => "Randomize"

/-- The kinds that pay off most with low cards. -/
def rewardsLow : Kind → Bool
  | switch | reverse | kiss => true
  | _ => false

/-- The kinds that are a loss when a flush discards them. -/
def isKeeper : Kind → Bool
  | wait | switch | reverse | kiss | flush => true
  | _ => false

end Kind

/-- The part of a face that is rolled anew. -/
inductive Field where
  | suit
  | value
  | both
deriving DecidableEq, Repr

/-- The name of a part of a face. -/
def Field.name : Field → String
  | suit => "Suit"
  | value => "Value"
  | both => "Both"

/-- What an effect carries besides its kind. -/
inductive Payload where
  | none
  | value (v : Value)
  | factor (x : Binary64)
  | suit (suit : String)
  | face (face : Face)
  | field (field : Field)
deriving DecidableEq, Repr

end Effect

/-- A kind of change and what it needs to be carried out. -/
structure Effect where
  kind : Effect.Kind
  payload : Effect.Payload
deriving DecidableEq, Repr

/-- A value times a factor: rounded up if the factor is above one, else down. -/
def scale (v : Int) (factor : Binary64) : Int :=
  (Binary64.timesInt v factor).toWhole32 factor.exceedsOne

namespace Effect

/-- The effect that adds a number. -/
def adding (delta : Int) : Effect := ⟨.buff, .value (.number delta)⟩

/-- The effect that changes nothing. -/
def inert : Effect := adding 0

/-- The effect that gives a card a value in a trade. -/
def tradingFor (value : Value) : Effect := ⟨.switch, .value value⟩

/-- The effect that gives a card the face of a donor. -/
def copying (donor : Face) : Effect := ⟨.clone, .face donor⟩

/-- What a buff or multiplier adds to a card worth `v`. -/
def delta? (effect : Effect) (v : Int) : Except Fault (Option Int) :=
  match effect.kind, effect.payload with
  | .buff, .value (.number delta) => .ok (some delta)
  | .buff, .value .win => .ok (some 10)
  | .buff, .value .lose => .ok (some (-10))
  | .multiply, .factor factor => (Checked.sub (scale v factor) v).map some
  | _, _ => .ok Option.none

/-- The text of an effect. -/
def text (effect : Effect) : String :=
  match effect.payload with
  | .none => effect.kind.name
  | .value (.number n) =>
    effect.kind.name ++ " " ++ if effect.kind = .buff then Text.withSign n else toString n
  | .value v => effect.kind.name ++ " " ++ v.text
  | .factor x => effect.kind.name ++ " x" ++ x.render
  | .suit suit => effect.kind.name ++ " " ++ suit
  | .face face => effect.kind.name ++ " " ++ face.text
  | .field field => effect.kind.name ++ " " ++ field.name

end Effect

end CardDuel
