import CardDuel.Play.Basic
import CardDuel.Play.Order

/-!
# Foresight

Before cards are arranged, the special cards among them are tried out on copies: buffs,
multipliers and reversals change the chosen cards and the opposing ones, and each switch
trades the lowest chosen card that it reaches for the highest opposing one.  A card traded
in this way is pinned to the column of its counterpart.
-/

namespace CardDuel.Play

/-- A card chosen for a play, as it looks after what was tried out. -/
structure Pick where
  /-- The place of the card among the chosen ones. -/
  place : Nat
  /-- The index of the card in the hand. -/
  index : Nat
  card : Card

/-- The rank of a card when cards are arranged. -/
def rank (card : Card) : Int :=
  match card.face.value with
  | .number n => n
  | .win => 100
  | .kiss => 50
  | .lose => -100
  | .draw | .special => 0

/-- The chosen cards and the opposing cards as far as they can be foreseen. -/
structure Foresight where
  mine : List Pick
  theirs : List (Option Card)
  /-- Columns with the places of the cards that must go there. -/
  pinned : List (Nat × Nat)

/-- The chosen cards of a hand before anything is tried out. -/
def picksOf (situation : Situation) (indices : List Nat) : List Pick :=
  indices.zipIdx.filterMap fun (index, place) =>
    situation.hand[index]?.map fun card => ⟨place, index, card⟩

/-- Whether trying out this kind of effect means to apply it at once. -/
def isImmediate : Effect.Kind → Bool
  | .buff | .multiply | .reverse => true
  | _ => false

namespace Foresight

/-- Apply the effect of a special card to a card that it reaches on a side. -/
def touch (special : Special) (side : Side) (card : Card) : Except Fault Card :=
  if special.application.reaches side (some card) none then
    (card.apply special.effect).map (·.1)
  else .ok card

/-- Try out a special card with an immediate effect. -/
def tryImmediate (foresight : Foresight) (special : Special) : Except Fault Foresight := do
  let mine ← foresight.mine.mapM fun pick => do
    let card ← touch special .friendly pick.card
    pure { pick with card }
  let theirs ← foresight.theirs.mapM fun slot =>
    match slot with
    | none => pure none
    | some card => (touch special .enemy card).map some
  pure { foresight with mine, theirs }

/-- The opposing card in a column. -/
def facing? (foresight : Foresight) (column : Nat) : Option Card :=
  (foresight.theirs[column]?).bind id

/-- Whether a chosen card is pinned to a column. -/
def isPinned (foresight : Foresight) (pick : Pick) : Bool :=
  foresight.pinned.any fun (_, place) => place == pick.place

/-- The lowest chosen card, not yet pinned, that a switch can trade for an opposing card. -/
def partner? (foresight : Foresight) (special : Special) (theirs : Card) : Option Pick :=
  leastBy (fun pick => rank pick.card) <|
    foresight.mine.filter fun pick =>
      !foresight.isPinned pick && pick.card.number?.isSome
        && (special.application.reaches .friendly (some pick.card) (some theirs)
          || special.application.reaches .enemy (some theirs) (some pick.card))

/-- Let a switch trade the opposing card in a column, and pin the card traded for it. -/
def tradeAt (special : Special) (foresight : Foresight) (column : Nat) :
    Except Fault Foresight :=
  match foresight.facing? column with
  | none => .ok foresight
  | some theirs =>
    match foresight.partner? special theirs with
    | none => .ok foresight
    | some pick => do
      let (mine, _) ← pick.card.apply (.tradingFor theirs.face.value)
      let (theirs, _) ← theirs.apply (.tradingFor pick.card.face.value)
      pure
        { mine := foresight.mine.map fun other =>
            if other.place = pick.place then { other with card := mine } else other
          theirs := foresight.theirs.set column (some theirs)
          pinned := foresight.pinned ++ [(column, pick.place)] }

/-- The open columns with an opposing number and without a pinned card, the highest number
first. -/
def tradeColumns (foresight : Foresight) (openColumns : List Nat) : List Nat :=
  let targets := openColumns.filterMap fun column =>
    if foresight.pinned.any fun (other, _) => other == column then none
    else ((foresight.facing? column).bind Card.number?).map fun n => (n, column)
  (sortDown (·.1) targets).map (·.2)

/-- Try out a switch. -/
def trySwitch (openColumns : List Nat) (foresight : Foresight) (special : Special) :
    Except Fault Foresight :=
  (foresight.tradeColumns openColumns).foldlM (tradeAt special) foresight

/-- What can be foreseen for the chosen cards of a hand. -/
def ofIndices (situation : Situation) (indices : List Nat) : Except Fault Foresight := do
  let mine := picksOf situation indices
  let theirs := (situation.board.row situation.opponent).map (·.card)
  let specials := mine.filterMap fun pick => pick.card.special
  let immediate := specials.filter fun special => isImmediate special.effect.kind
  let switches := specials.filter fun special => special.effect.kind == .switch
  let foresight ← immediate.foldlM tryImmediate ⟨mine, theirs, []⟩
  switches.foldlM (trySwitch situation.openColumns) foresight

end Foresight

end CardDuel.Play
