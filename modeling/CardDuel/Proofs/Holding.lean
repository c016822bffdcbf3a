import CardDuel.Proofs.Casting.Sequence
import CardDuel.Proofs.Reach

/-!
# Held slots

`Board.move` is one change of a board during play.  As long as no slot is held by request,
holds come from special cards that make their casters wait.  Such a card holds slots with
standard cards only, and what follows takes the card and the hold of a slot together.  So no
held slot is ever empty and no special card is carried into the next round:
`Board.held_slots`.
-/

namespace CardDuel

/-! ### Moves -/

namespace Board

/-- A change of a board during play. -/
inductive Move where
  /-- Put a card into a slot; nothing happens if the slot is not open. -/
  | place (seat : Seat) (column : Nat) (card : Card)
  | take (seat : Seat) (column : Nat)
  /-- Hold a slot by request. -/
  | hold (seat : Seat) (column : Nat)
  | clear
  | nextRound
  /-- Carry out the special cards on the board for players with the given hands. -/
  | castAll (hands : Pair Hand)

/-- The board after a move. -/
def move (board : Board) : Move → Except Fault Board
  | .place seat column card => .ok ((board.place? seat column card).getD board)
  | .take seat column => .ok (board.take seat column).2
  | .hold seat column => .ok (board.hold seat column)
  | .clear => .ok board.cleared
  | .nextRound => .ok board.nextRound
  | .castAll hands => do
    let (arena, _) ← Arena.castAll ⟨board, hands⟩
    pure arena.board

/-- The board after a list of moves. -/
def run (board : Board) (moves : List Move) : Except Fault Board :=
  moves.foldlM move board

/-- Whether a move holds no slot by request, and does not place a special card whose
application has an empty join. -/
def Move.IsPermitted : Move → Prop
  | hold _ _ => False
  | place _ _ card =>
    ∀ special, card.special = some special → special.application.hasEmptyJoin = false
  | take _ _ | clear | nextRound | castAll _ => True

end Board

/-! ### The invariant -/

/-- A held slot has a standard card, and a special card has an application without empty
joins. -/
structure Slot.IsSound (slot : Slot) : Prop where
  held : slot.hold ≠ .free → ∃ card, slot.card = some card ∧ card.isSpecial = false
  filled : ∀ card special, slot.card = some card → card.special = some special →
    special.application.hasEmptyJoin = false

namespace Slot.IsSound

theorem empty :
  Slot.IsSound {}
  := by constructor <;> simp

/-- In the next round, a sound slot is sound. -/
theorem next {slot : Slot} (h : slot.IsSound) :
  slot.next.IsSound
  := by
  obtain ⟨card, hold⟩ := slot
  cases hold with
  | free | carried => apply empty
  | held => exact ⟨fun _ => h.held (by simp), h.filled⟩

/-- An altered slot is sound if it was held only with a standard card in it. -/
theorem altered {mayHold : Prop} {before after : Slot} (h : before.IsSound)
    (altered : before.Altered mayHold after)
    (standard : mayHold → ∃ card, before.card = some card ∧ card.isSpecial = false) :
  after.IsSound
  := by
  obtain ⟨cardBefore, holdBefore⟩ := before
  obtain ⟨cardAfter, holdAfter⟩ := after
  obtain ⟨cards, holds⟩ := altered
  constructor
  · intro held
    have found : ∃ card, cardBefore = some card ∧ card.isSpecial = false := by
      rcases holds with same | ⟨allowed, -⟩
      · apply h.held
        rw [← same]
        apply held
      · apply standard allowed
    obtain ⟨card, rfl, isStandard⟩ := found
    cases cards with
    | some change => exact ⟨_, rfl, change.isSpecial.trans isStandard⟩
  · intro card special cardAt definition
    cases cards with
    | none => contradiction
    | some change =>
      obtain rfl := Option.some.inj cardAt
      apply h.filled _ special rfl
      rw [← change.special]
      apply definition

end Slot.IsSound

namespace Board

/-- Every slot of the board is sound. -/
def IsSound (board : Board) : Prop :=
  ∀ seat column slot, board.slot? seat column = some slot → slot.IsSound

namespace IsSound

theorem empty (width : Nat) :
  (empty width).IsSound
  := by
  intro seat column slot slotAt
  rw [slot?_empty] at slotAt
  split at slotAt
  · obtain rfl := Option.some.inj slotAt
    exact .empty
  · contradiction

/-- A change of one slot keeps a board sound if it makes that slot sound. -/
theorem modifySlot {board : Board} (h : board.IsSound) {seat : Seat} {column : Nat}
    {f : Slot → Slot}
    (sound : ∀ slot, board.slot? seat column = some slot → (f slot).IsSound) :
  (board.modifySlot seat column f).IsSound
  := by
  intro seat' column' slot slotAt
  rw [slot?_modifySlot] at slotAt
  split at slotAt
  · rename_i here
    obtain ⟨rfl, rfl⟩ := here
    obtain ⟨slot', slotAt', rfl⟩ := Option.map_eq_some_iff.mp slotAt
    apply sound slot' slotAt'
  · apply h seat' column' slot slotAt

theorem nextRound {board : Board} (h : board.IsSound) :
  board.nextRound.IsSound
  := by
  intro seat column slot slotAt
  rw [slot?_nextRound] at slotAt
  obtain ⟨slot', slotAt', rfl⟩ := Option.map_eq_some_iff.mp slotAt
  apply (h seat column slot' slotAt').next

/-- An altered board is sound if slots were held only with standard cards in them. -/
theorem altered {mayHold : Nat × Seat → Prop} {before after : Board} (h : before.IsSound)
    (altered : before.Altered mayHold after)
    (standard : ∀ column seat, mayHold (column, seat) →
      ∃ card, before.card? seat column = some card ∧ card.isSpecial = false) :
  after.IsSound
  := by
  intro seat column slot' slotAt'
  have inside := lt_width_of_slot? slotAt'
  rw [altered.width] at inside
  obtain ⟨slot, slotAt⟩ := exists_slot?_of_lt inside seat
  obtain ⟨_, same, change⟩ := altered.slots seat column slot slotAt
  obtain rfl := Option.some.inj (slotAt'.symm.trans same)
  apply (h seat column slot slotAt).altered change
  intro held
  rw [← card?_of_slot? slotAt]
  apply standard column seat held

/-- A special card of a sound board keeps the board sound, as it holds only slots that its
application reaches. -/
theorem cast {arena arena' : Arena} {caster : Seat} {special : Special} {touched : Nat}
    (h : arena.board.IsSound) (filled : special.application.hasEmptyJoin = false)
    (cast : arena.cast caster special = .ok (.ok (arena', touched))) :
  arena'.board.IsSound
  := by
  apply h.altered (Arena.altered_cast cast)
  rintro column seat ⟨-, reached⟩
  apply Application.exists_card_of_reaches filled reached

theorem castAll {arena arena' : Arena} {answer : Except GameError (List Resolution)}
    (h : arena.board.IsSound) (cast : arena.castAll = .ok (arena', answer)) :
  arena'.board.IsSound
  := by
  have filled : ∀ standing ∈ arena.board.standing,
      standing.special.application.hasEmptyJoin = false := by
    intro standing mem
    obtain ⟨card, cardAt, definition⟩ := mem_standing.mp mem
    obtain ⟨slot, slotAt, cardIn⟩ := card?_eq_some_iff.mp cardAt
    apply (h _ _ slot slotAt).filled card _ cardIn definition
  obtain ⟨standing, resolutions, among, casts⟩ := Arena.exists_casts_of_castAll cast
  apply casts.preserves (P := fun arena => arena.board.IsSound) _ h
  intro special mem arena arena' touched sound cast
  apply sound.cast (filled special (among mem)) cast

/-- A card is placed in a slot that is not held. -/
theorem place {board board' : Board} {seat : Seat} {column : Nat} {card : Card}
    (h : board.IsSound)
    (filled : ∀ special, card.special = some special →
      special.application.hasEmptyJoin = false)
    (placed : board.place? seat column card = some board') :
  board'.IsSound
  := by
  obtain ⟨isOpen, placed⟩ := Option.ite_none_right_eq_some.mp placed
  obtain rfl := Option.some.inj placed
  obtain ⟨slot, slotAt, -, free⟩ := isOpen_iff.mp isOpen
  apply h.modifySlot
  intro slot' same
  obtain rfl := Option.some.inj (slotAt.symm.trans same)
  constructor
  · exact fun held => absurd free held
  · intro card' special cardAt
    obtain rfl := Option.some.inj cardAt
    apply filled special

/-- A permitted move keeps a board sound. -/
theorem move {board board' : Board} {move : Move} (h : board.IsSound)
    (permitted : move.IsPermitted) (moved : board.move move = .ok board') :
  board'.IsSound
  := by
  cases move with
  | place seat column card =>
    obtain rfl := Except.ok.inj moved
    rcases placed : board.place? seat column card with _ | board'
    · apply h
    · apply h.place permitted placed
  | take seat column =>
    obtain rfl := Except.ok.inj moved
    apply h.modifySlot fun _ _ => .empty
  | hold seat column => contradiction
  | clear =>
    obtain rfl := Except.ok.inj moved
    exact .empty board.width
  | nextRound =>
    obtain rfl := Except.ok.inj moved
    apply h.nextRound
  | castAll hands =>
    obtain ⟨⟨arena, answer⟩, cast, moved⟩ := Checked.bind_eq_ok_iff.mp moved
    obtain rfl := Except.ok.inj moved
    apply castAll h cast

end IsSound

/-- Permitted moves lead from the empty board to sound boards only. -/
theorem isSound_run {width : Nat} {moves : List Move} {board : Board}
    (permitted : ∀ move ∈ moves, move.IsPermitted)
    (h : (empty width).run moves = .ok board) :
  board.IsSound
  := by
  apply Checked.foldlM_preserves (P := IsSound) _ (.empty width) h
  intro move mem board board' sound moved
  apply sound.move (permitted move mem) moved

/-- Whatever permitted moves are made on an empty board, a held slot has a standard card in
it.  So a slot is open exactly if it is on the board and has no card, and the cards that a
change of rounds leaves are standard cards in carried slots. -/
theorem held_slots {width : Nat} {moves : List Move} {board : Board}
    (permitted : ∀ move ∈ moves, move.IsPermitted)
    (h : (empty width).run moves = .ok board) :
  (∀ seat column, board.isHeld seat column = true →
    ∃ card, board.card? seat column = some card ∧ card.isSpecial = false)
  ∧ (∀ seat column, board.isOpen seat column = true
    ↔ column < board.width ∧ board.card? seat column = none)
  ∧ ∀ seat column card, board.nextRound.card? seat column = some card →
    card.isSpecial = false ∧ board.nextRound.holdAt seat column = .carried
  := by
  have sound := isSound_run permitted h
  refine ⟨?_, ?_, ?_⟩
  · intro seat column held
    obtain ⟨slot, slotAt, held⟩ := isHeld_iff.mp held
    rw [card?_of_slot? slotAt]
    apply (sound seat column slot slotAt).held held
  · intro seat column
    rw [isOpen_iff]
    constructor
    · rintro ⟨slot, slotAt, vacant, -⟩
      exact ⟨lt_width_of_slot? slotAt, (card?_of_slot? slotAt).trans vacant⟩
    · rintro ⟨inside, vacant⟩
      obtain ⟨slot, slotAt⟩ := exists_slot?_of_lt inside seat
      rw [card?_of_slot? slotAt] at vacant
      refine ⟨slot, slotAt, vacant, ?_⟩
      by_contra held
      obtain ⟨card, cardIn, -⟩ := (sound seat column slot slotAt).held held
      rw [vacant] at cardIn
      contradiction
  · intro seat column card cardAt
    obtain ⟨slot', slotAt', cardIn⟩ := card?_eq_some_iff.mp cardAt
    have next := slot?_nextRound board seat column
    rw [slotAt'] at next
    obtain ⟨slot, slotAt, rfl⟩ := Option.map_eq_some_iff.mp next.symm
    obtain ⟨held, cardBefore⟩ := Slot.next_card_eq_some_iff.mp cardIn
    obtain ⟨_, same, isStandard⟩ := (sound seat column slot slotAt).held (by simp [held])
    obtain rfl := Option.some.inj (cardBefore.symm.trans same)
    rw [holdAt_of_slot? slotAt', Slot.next_hold, if_pos held]
    exact ⟨isStandard, rfl⟩

/-- A special card makes its caster wait for the seven in the facing slot. -/
def rainyMoves : List Move :=
  [.place .first 0 (.ofSpecial ⟨"Umbrella", "", .nothing, .any, ⟨.wait, .none⟩⟩),
    .place .second 0 (.standard "Ex" (.number 7)),
    .castAll (.both {}),
    .nextRound]

theorem held_slots_rainyMoves :
  ∃ board, (empty 1).run rainyMoves = .ok board
    ∧ board.isHeld .second 0 = true ∧ board.isOpen .first 0 = true
    ∧ (∃ card, board.card? .second 0 = some card ∧ card.isSpecial = false)
    ∧ ∀ seat column, board.isOpen seat column = true
      ↔ column < board.width ∧ board.card? seat column = none
  := by
  have permitted : ∀ move ∈ rainyMoves, move.IsPermitted := by
    simp [rainyMoves, Move.IsPermitted, Card.ofSpecial, Card.standard, Application.any]
  have ran : (empty 1).run rainyMoves = .ok _ := rfl
  obtain ⟨standard, vacant, -⟩ := held_slots permitted ran
  exact ⟨_, ran, rfl, rfl, standard .second 0 rfl, vacant⟩

end Board

end CardDuel
