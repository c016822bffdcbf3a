import CardDuel.Play.Foresight
import CardDuel.Random.Stream

/-!
# Arranging a play

`Foresight.arrange` distributes the chosen cards over the open columns.  Pinned cards keep
their columns.  With a clone among the cards the others go from left to right by rank;
against an empty side they go in random order; otherwise each opposing number is met by the
lowest card that beats it, or else by the lowest card of all.
-/

namespace CardDuel.Play

/-- Columns with the cards that go there, and the cards that have no column yet. -/
structure Arrangement where
  placed : List (Nat × Pick)
  left : List Pick

namespace Arrangement

/-- Whether a column has a card. -/
def isTaken (arrangement : Arrangement) (column : Nat) : Bool :=
  arrangement.placed.any fun (other, _) => other == column

/-- The lowest standard card left that beats a number, or else the lowest card left. -/
def answer? (arrangement : Arrangement) (n : Int) : Option Pick :=
  let rankOf (pick : Pick) : Int := rank pick.card
  let beating := arrangement.left.filter fun pick =>
    !pick.card.isSpecial && decide (n < rankOf pick)
  (leastBy rankOf beating).or (leastBy rankOf arrangement.left)

/-- Meet the opposing number in an open column. -/
def meet (foresight : Foresight) (arrangement : Arrangement) (column : Nat) : Arrangement :=
  if arrangement.isTaken column then arrangement
  else
    match (foresight.facing? column).bind Card.number? with
    | none => arrangement
    | some n =>
      match arrangement.answer? n with
      | none => arrangement
      | some pick =>
        { placed := arrangement.placed ++ [(column, pick)]
          left := arrangement.left.filter fun other => other.place != pick.place }

/-- Distribute the cards left over the columns left, from left to right. -/
def fill (arrangement : Arrangement) (openColumns : List Nat) : List (Nat × Pick) :=
  let free := openColumns.filter fun column => !arrangement.isTaken column
  sortBy (fun a b => decide (a.1 ≤ b.1)) (arrangement.placed ++ free.zip arrangement.left)

end Arrangement

namespace Foresight

/-- The pinned cards in their columns, and the others. -/
def pinnedArrangement (foresight : Foresight) : Arrangement where
  placed := foresight.pinned.filterMap fun (column, place) =>
    (foresight.mine.find? fun pick => pick.place == place).map fun pick => (column, pick)
  left := foresight.mine.filter fun pick => !foresight.isPinned pick

/-- Whether there is a clone among the chosen cards. -/
def hasClone (foresight : Foresight) : Bool :=
  foresight.mine.any fun pick =>
    pick.card.special.any fun special => special.effect.kind == .clone

/-- Distribute the chosen cards over the open columns. -/
def arrange (foresight : Foresight) (situation : Situation) (stream : Stream) :
    List (Nat × Pick) × Stream :=
  let openColumns := situation.openColumns
  let start := foresight.pinnedArrangement
  if foresight.hasClone then
    let left := sortDown (fun pick => rank pick.card) start.left
    (Arrangement.fill { start with left } openColumns, stream)
  else if situation.board.isBare situation.opponent then
    let (left, stream) := stream.shuffle start.left
    (Arrangement.fill { start with left } openColumns, stream)
  else ((openColumns.foldl (Arrangement.meet foresight) start).fill openColumns, stream)

end Foresight

end CardDuel.Play
