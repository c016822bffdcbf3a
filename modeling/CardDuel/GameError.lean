import CardDuel.Effect

/-!
# Errors that a caller must act on

Malformed text never makes an error; it is reported by warnings.  What remains are a special
card that the board cannot carry out, a hand without a legal play, and a file that is absent
or unreadable.
-/

namespace CardDuel

/-- A condition that a caller must act on. -/
inductive GameError where
  /-- The board does not carry out effects of this kind. -/
  | unsupportedEffect (special : String) (kind : Effect.Kind)
  /-- No candidate play is legal. -/
  | noPlayFound
  /-- There is no file at the path. -/
  | missingResource (path : String)
  /-- The file cannot be read as text. -/
  | unreadable
deriving DecidableEq, Repr

/-- The text of an error; the text for an unreadable file is left to the system. -/
def GameError.message : GameError → String
  | unsupportedEffect special kind =>
    "Special '" ++ special ++ "' uses unsupported effect " ++ kind.name
  | noPlayFound => "No legal play found"
  | missingResource path => "Missing resource: " ++ path
  | unreadable => ""

end CardDuel
