import CardDuel.Checked

/-!
# Settings

`GameSettings` fixes the width of the board, the size of hands and the seed of the shuffles.
`PlaySettings` holds the weights with which plays are valued and the seed with which they
are arranged.
-/

namespace CardDuel

/-- The settings of a game. -/
structure GameSettings where
  /-- The number of columns of the board. -/
  columns : Nat := 4
  /-- The number of cards to which hands are refilled. -/
  handSize : Nat := 10
  /-- The seed from which the shuffles are derived. -/
  seed : UInt64 := 42
deriving DecidableEq, Repr

/-- The settings with another width of the board, which must not be zero. -/
def GameSettings.withColumns (settings : GameSettings) (columns : Nat) :
    Except Fault GameSettings :=
  if columns = 0 then .error .noSlots else .ok { settings with columns }

/-- The weights with which plays are valued. -/
structure PlaySettings where
  /-- The seed for plays against an empty side. -/
  seed : UInt64 := 42
  /-- The value of each special card in a play. -/
  specialBonus : Int := 10
  /-- The value of beating a held card by exactly one. -/
  holdMarginBonus : Int := 10
  /-- The value of a buff on one of the player's held cards. -/
  heldFriendlyBonus : Int := 5
  /-- The cost of each good special card that a flush discards. -/
  flushPenalty : Int := 50
  /-- The preference for cards that the special card reaches itself. -/
  selfBias : Int := 50
deriving DecidableEq, Repr

end CardDuel
