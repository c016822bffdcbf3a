import CardDuel.Application.Reach
import CardDuel.Board
import CardDuel.GameError
import CardDuel.Hand

/-!
# Casting special cards

`Arena.cast` carries out one special card for its caster.  A slot is friendly when it lies
on the caster's side, and the card in the other slot of the column is the facing card.
`Arena.castAll` carries out every special card that it meets on its way along the positions
of the board, and stops at the first one that the board does not support; what was done
before remains.
-/

namespace CardDuel

/-- The side of a seat, seen from the caster. -/
def Seat.sideFor (caster seat : Seat) : Side :=
  if seat = caster then .friendly else .enemy

@[simp]
theorem Seat.sideFor_self (seat : Seat) :
  seat.sideFor seat = .friendly
  := if_pos rfl

@[simp]
theorem Seat.sideFor_opponent (seat : Seat) :
  seat.sideFor seat.opponent = .enemy
  := if_neg seat.opponent_ne

namespace Board

/-- Whether an application reaches the slot at a position. -/
def isReached (board : Board) (application : Application) (caster : Seat)
    (position : Nat × Seat) : Bool :=
  let (column, seat) := position
  application.reaches (caster.sideFor seat) (board.card? seat column)
    (board.card? seat.opponent column)

/-- Apply an effect to the slot at a position, and count the card if it changed. -/
def changeAt (effect : Effect) (state : Board × Nat) (position : Nat × Seat) :
    Except Fault (Board × Nat) := do
  let (board, touched) := state
  match ← board.applyAt position.2 position.1 effect with
  | none => pure state
  | some (board, changed) => pure (board, touched + changed.toNat)

/-- Apply the effect of a special card to every position that it reaches; each position is
judged by the board as the positions before it have left it. -/
def changeReached (board : Board) (caster : Seat) (special : Special) :
    Except Fault (Board × Nat) :=
  board.positions.foldlM
    (fun state position =>
      if state.1.isReached special.application caster position then
        changeAt special.effect state position
      else pure state)
    (board, 0)

/-- Trade the values of the two cards of a column. -/
def trade (board : Board) (caster : Seat) (column : Nat) (mine theirs : Card) :
    Except Fault Board := do
  let (mine', _) ← mine.apply (.tradingFor theirs.face.value)
  let (theirs', _) ← theirs.apply (.tradingFor mine.face.value)
  pure ((board.setCard caster column (some mine')).setCard caster.opponent column
    (some theirs'))

/-- Trade values in every column with two standard cards one of which is reached; both cards
of such a column are counted. -/
def tradeReached (board : Board) (caster : Seat) (special : Special) :
    Except Fault (Board × Nat) :=
  (List.range board.width).foldlM
    (fun (board, touched) column =>
      match board.card? caster column, board.card? caster.opponent column with
      | some mine, some theirs =>
        if mine.isSpecial || theirs.isSpecial then pure (board, touched)
        else if board.isReached special.application caster (column, caster)
            || board.isReached special.application caster (column, caster.opponent) then do
          let board ← board.trade caster column mine theirs
          pure (board, touched + 2)
        else pure (board, touched)
      | _, _ => pure (board, touched))
    (board, 0)

/-- The face that a clone copies: that of the first card it reaches. -/
def donor? (board : Board) (caster : Seat) (special : Special) : Option Face :=
  (board.positions.find? (board.isReached special.application caster)).bind
    fun (column, seat) => (board.card? seat column).map (·.face)

/-- Copy the face of the donor to every card of the caster. -/
def copyDonor (board : Board) (caster : Seat) (special : Special) :
    Except Fault (Board × Nat) :=
  match board.donor? caster special with
  | none => .ok (board, 0)
  | some donor =>
    (List.range board.width).foldlM
      (fun state column => changeAt (.copying donor) state (column, caster)) (board, 0)

/-- Hold every slot that a special card reaches. -/
def holdReached (board : Board) (caster : Seat) (special : Special) : Board × Nat :=
  let hits := board.positions.filter (board.isReached special.application caster)
  (hits.foldl (fun board (column, seat) => board.hold seat column) board, hits.length)

end Board

/-- The board and the hands on which special cards act. -/
structure Arena where
  board : Board
  hands : Pair Hand

/-- What one special card did. -/
structure Resolution where
  /-- The name of the special card. -/
  special : String
  /-- The seat that cast it. -/
  caster : Seat
  /-- The column in which it lies. -/
  column : Nat
  kind : Effect.Kind
  /-- The number of cards changed, slots held or hands flushed. -/
  touched : Nat
deriving DecidableEq, Repr

namespace Arena

/-- Carry out a special card for its caster. -/
def cast (arena : Arena) (caster : Seat) (special : Special) :
    Except Fault (Except GameError (Arena × Nat)) :=
  let onBoard (result : Board × Nat) : Except GameError (Arena × Nat) :=
    .ok ({ arena with board := result.1 }, result.2)
  match special.effect.kind with
  | .buff | .multiply | .kiss | .reverse | .replace =>
    (arena.board.changeReached caster special).map onBoard
  | .switch => (arena.board.tradeReached caster special).map onBoard
  | .clone => (arena.board.copyDonor caster special).map onBoard
  | .wait => .ok (onBoard (arena.board.holdReached caster special))
  | .flush =>
    let hands := arena.hands.modify caster fun hand => hand.flush.refill
    .ok (.ok ({ arena with hands }, 1))
  | .randomize => .ok (.error (.unsupportedEffect special.name special.effect.kind))

/-- The special card that lies at a position. -/
def specialAt (arena : Arena) (position : Nat × Seat) : Option Special :=
  (arena.board.card? position.2 position.1).bind (·.special)

/-- Carry out the special cards met along a list of positions: the arena afterwards, and
either what each special card did or the error of the first unsupported one. -/
def castAlong : List (Nat × Seat) → Arena →
    Except Fault (Arena × Except GameError (List Resolution))
  | [], arena => .ok (arena, .ok [])
  | position :: rest, arena =>
    match arena.specialAt position with
    | none => castAlong rest arena
    | some special => do
      match ← arena.cast position.2 special with
      | .error error => pure (arena, .error error)
      | .ok (arena, touched) =>
        let resolution : Resolution :=
          ⟨special.name, position.2, position.1, special.effect.kind, touched⟩
        let (arena, resolutions) ← castAlong rest arena
        pure (arena, resolutions.map (resolution :: ·))

/-- Carry out every special card on the board. -/
def castAll (arena : Arena) : Except Fault (Arena × Except GameError (List Resolution)) :=
  castAlong arena.board.positions arena

end Arena

end CardDuel
