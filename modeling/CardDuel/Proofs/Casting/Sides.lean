import CardDuel.Proofs.Aims
import CardDuel.Proofs.Casting.Alteration

/-!
# Special cards seen from the other side

Friends and enemies are relative to the caster.  So a special card that acts on the cards it
reaches does the same for one player as its flip does for the other, where the flip trades
friends and enemies at every depth of the application: `Arena.cast_flip`.  Clones and flushes
are different, as they act on the side of their caster.
-/

namespace CardDuel

theorem Seat.sideFor_opponent_left (caster seat : Seat) :
  caster.opponent.sideFor seat = (caster.sideFor seat).reversed
  := by cases caster <;> cases seat <;> rfl

/-- The special card with its application as the other player would say it. -/
def Special.flip (special : Special) : Special :=
  { special with application := special.application.flip }

namespace Board

theorem isReached_flip (board : Board) (application : Application) (caster : Seat) :
  board.isReached application.flip caster.opponent = board.isReached application caster
  := by
  funext ⟨column, seat⟩
  simp only [isReached, Seat.sideFor_opponent_left, Application.reaches_flip]

theorem changeReached_flip (board : Board) (caster : Seat) (special : Special) :
  board.changeReached caster.opponent special.flip = board.changeReached caster special
  := by
  unfold changeReached
  simp only [Special.flip, isReached_flip]

theorem holdReached_flip (board : Board) (caster : Seat) (special : Special) :
  board.holdReached caster.opponent special.flip = board.holdReached caster special
  := by
  unfold holdReached
  rw [Special.flip, isReached_flip]

/-! ### Trades -/

theorem setCard_comm {seat : Seat} {column : Nat} (board : Board) (card card' : Option Card) :
  (board.setCard seat column card).setCard seat.opponent column card'
    = (board.setCard seat.opponent column card').setCard seat column card
  := by
  unfold setCard modifySlot
  rw [List.modify_modify_eq, List.modify_modify_eq]
  congr 2
  funext slots
  cases seat <;> rfl

/-- A trade is the same for both players. -/
theorem trade_opponent (board : Board) (caster : Seat) (column : Nat) (mine theirs : Card) :
  board.trade caster.opponent column theirs mine = board.trade caster column mine theirs
  := by
  obtain ⟨mine', mineTraded⟩ := Card.exists_apply_tradingFor theirs.face.value mine
  obtain ⟨theirs', theirsTraded⟩ := Card.exists_apply_tradingFor mine.face.value theirs
  unfold trade
  rw [mineTraded, theirsTraded]
  simp only [Checked.ok_bind, Seat.opponent_opponent]
  rw [setCard_comm]

theorem tradeReached_flip (board : Board) (caster : Seat) (special : Special) :
  board.tradeReached caster.opponent special.flip = board.tradeReached caster special
  := by
  unfold tradeReached
  congr 1
  funext ⟨board, touched⟩ column
  simp only [Special.flip, isReached_flip, Seat.opponent_opponent]
  rcases board.card? caster column with _ | mine
  · rcases board.card? caster.opponent column with _ | theirs <;> rfl
  · rcases board.card? caster.opponent column with _ | theirs
    · rfl
    · simp only [Bool.or_comm theirs.isSpecial, trade_opponent,
        Bool.or_comm (board.isReached special.application caster (column, caster.opponent))]

end Board

namespace Arena

/-- A special card that acts on the cards it reaches does for one player exactly what its flip
does for the other: the board and the hands afterwards, the number of cards touched and the
fault of an overflow are the same. -/
theorem cast_flip (arena : Arena) (caster : Seat) {special : Special}
    (noClone : special.effect.kind ≠ .clone) (noFlush : special.effect.kind ≠ .flush) :
  arena.cast caster.opponent special.flip = arena.cast caster special
  := by
  have same : special.flip.effect.kind = special.effect.kind := rfl
  rcases kind : special.effect.kind
  case buff | multiply | kiss | reverse | replace =>
    simp only [cast, same, kind, Board.changeReached_flip]
  case switch =>
    simp only [cast, same, kind, Board.tradeReached_flip]
  case wait =>
    simp only [cast, same, kind, Board.holdReached_flip]
  case randomize =>
    simp only [cast, same, kind]
    rfl
  case clone => contradiction
  case flush => contradiction

/-- A special card that trades values wherever an enemy worth five or more faces a friend. -/
def barter : Special :=
  ⟨"Barter", "", .nothing,
    .test ⟨{ alignment := .enemy, min := some 5 },
      some (.test (.ofScope { alignment := .friendly }))⟩,
    ⟨.switch, .none⟩⟩

/-- A column in which a three of the first player faces a seven. -/
def barterArena : Arena where
  board := ⟨[
    ⟨{ card := some (.standard "Boyfriend" (.number 3)) },
      { card := some (.standard "Ex" (.number 7)) }⟩]⟩
  hands := Pair.both {}

theorem cast_flip_barter :
  barter.flip.application
      = .test ⟨{ alignment := .friendly, min := some 5 },
        some (.test (.ofScope { alignment := .enemy }))⟩
    ∧ ∃ arena, barterArena.cast .second barter.flip = .ok (.ok (arena, 2))
      ∧ (arena.board.card? .first 0).map (·.face) = some ⟨"Boyfriend", .number 7⟩
      ∧ (arena.board.card? .second 0).map (·.face) = some ⟨"Ex", .number 3⟩
  := by
  have traded : barterArena.cast .first barter = .ok (.ok (_, 2)) := rfl
  have same : barterArena.cast .second barter.flip = barterArena.cast .first barter :=
    cast_flip barterArena .first (by decide) (by decide)
  exact ⟨rfl, _, same.trans traded, rfl, rfl⟩

end Arena

end CardDuel
