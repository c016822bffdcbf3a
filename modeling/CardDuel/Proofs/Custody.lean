import CardDuel.Proofs.Casting.Overflow
import CardDuel.Proofs.Casting.Waiting
import CardDuel.Proofs.Holding
import CardDuel.Table
import Mathlib.Data.List.Perm.Basic

/-!
# Custody of cards

A card that a board accepts stays there until it is taken or leaves at the end of a round, and
no other card is ever on the board.  Effects may give it another face, so cards are told apart
by what effects cannot change (`Card.identity`).  A `Chronicle` records the moves that led to a
board; from it one can tell which cards were accepted and which were given back, and which
slots were marked to survive the next change of rounds: `Board.custody`.
-/

namespace CardDuel

namespace Slot

/-- In the next round the cards of a row are in their slots or have left. -/
theorem perm_next (slots : List Slot) :
  (slots.filterMap (·.card)).Perm
    ((slots.map next).filterMap (·.card) ++ slots.filterMap leaving)
  := by
  induction slots with
  | nil => exact .nil
  | cons slot rest ih =>
    obtain ⟨card, hold⟩ := slot
    rcases card with _ | card
    · cases hold <;> exact ih
    · cases hold with
      | held => exact ih.cons card
      | free | carried => exact (ih.cons card).trans List.perm_middle.symm

end Slot

/-- Changing one element of a list changes its part of what is found in the list. -/
theorem exists_perm_filterMap_modify {α β : Type} (g : α → Option β) (as : List α) (i : Nat)
    (f : α → α) :
  ∃ rest, (as.filterMap g).Perm ((as[i]?.bind g).toList ++ rest)
    ∧ ((as.modify i f).filterMap g).Perm (((as.modify i f)[i]?.bind g).toList ++ rest)
  := by
  by_cases inside : i < as.length
  · have split (a : α) :
        ((as.take i ++ a :: as.drop (i + 1)).filterMap g).Perm
          ((g a).toList ++ ((as.take i).filterMap g ++ (as.drop (i + 1)).filterMap g)) := by
      rw [List.filterMap_append, List.filterMap_cons]
      rcases g a with _ | b
      · exact .refl _
      · exact List.perm_middle
    use (as.take i).filterMap g ++ (as.drop (i + 1)).filterMap g
    constructor
    · have same := split as[i]
      rw [List.getElem_cons_drop, List.take_append_drop] at same
      rw [List.getElem?_eq_getElem inside]
      exact same
    · rw [List.getElem?_modify_eq, List.getElem?_eq_getElem inside,
        List.modify_eq_take_cons_drop inside]
      apply split
  · have outside := Nat.le_of_not_lt inside
    use as.filterMap g
    rw [List.modify_eq_self outside, List.getElem?_eq_none outside]
    exact ⟨.refl _, .refl _⟩

namespace Board

/-! ### The cards on the board -/

/-- All cards on the board, row by row. -/
def cards (board : Board) : List Card :=
  Seat.all.flatMap fun seat => (board.row seat).filterMap (·.card)

theorem cards_eq_append (board : Board) :
  board.cards
    = (board.row .first).filterMap (·.card) ++ (board.row .second).filterMap (·.card)
  := by simp [cards, Seat.all]

theorem getElem?_row (board : Board) (seat : Seat) (column : Nat) :
  (board.row seat)[column]? = board.slot? seat column
  := by simp [row, slot?]

theorem row_modifySlot (board : Board) (seat seat' : Seat) (column : Nat) (f : Slot → Slot) :
  (board.modifySlot seat column f).row seat'
    = if seat' = seat then (board.row seat').modify column f else board.row seat'
  := by
  apply List.ext_getElem?
  intro column'
  rw [getElem?_row, slot?_modifySlot]
  by_cases same : seat' = seat
  · simp only [same, true_and, if_true, List.getElem?_modify, getElem?_row]
    by_cases here : column = column'
    · simp [here]
    · simp [here, Ne.symm here]
  · simp [same, getElem?_row]

/-- Changing one slot changes its part of the cards on the board. -/
theorem exists_perm_cards_modifySlot (board : Board) (seat : Seat) (column : Nat)
    (f : Slot → Slot) :
  ∃ rest, board.cards.Perm ((board.card? seat column).toList ++ rest)
    ∧ (board.modifySlot seat column f).cards.Perm
      (((board.modifySlot seat column f).card? seat column).toList ++ rest)
  := by
  obtain ⟨rest, before, after⟩ :=
    exists_perm_filterMap_modify (·.card) (board.row seat) column f
  rw [getElem?_row] at before
  have row : (board.row seat).modify column f = (board.modifySlot seat column f).row seat := by
    rw [row_modifySlot, if_pos rfl]
  rw [row, getElem?_row] at after
  cases seat with
  | first =>
    use rest ++ (board.row .second).filterMap (·.card)
    have other : (board.modifySlot .first column f).row .second = board.row .second := by
      rw [row_modifySlot, if_neg (by simp)]
    simp only [cards_eq_append, other, ← List.append_assoc]
    exact ⟨before.append_right _, after.append_right _⟩
  | second =>
    use (board.row .first).filterMap (·.card) ++ rest
    have other : (board.modifySlot .second column f).row .first = board.row .first := by
      rw [row_modifySlot, if_neg (by simp)]
    simp only [cards_eq_append, other]
    constructor
    · exact (before.append_left _).trans (List.perm_append_comm_assoc ..)
    · exact (after.append_left _).trans (List.perm_append_comm_assoc ..)

theorem cards_empty (width : Nat) :
  (empty width).cards = []
  := by simp [cards, Seat.all, row, empty]

theorem perm_cards_place {board board' : Board} {seat : Seat} {column : Nat} {card : Card}
    (placed : board.place? seat column card = some board') :
  board'.cards.Perm (card :: board.cards)
  := by
  obtain ⟨isOpen, changed⟩ := Option.ite_none_right_eq_some.mp placed
  obtain rfl := Option.some.inj changed
  obtain ⟨slot, slotAt, vacant, -⟩ := isOpen_iff.mp isOpen
  obtain ⟨rest, before, after⟩ := board.exists_perm_cards_modifySlot seat column
    fun slot => { slot with card := some card }
  rw [card?_of_slot? slotAt, vacant] at before
  rw [card?_of_slot? (slot?_modifySlot_self slotAt _)] at after
  exact after.trans (before.symm.cons card)

theorem perm_cards_take (board : Board) (seat : Seat) (column : Nat) :
  board.cards.Perm ((board.take seat column).2.cards ++ (board.take seat column).1.toList)
  := by
  obtain ⟨rest, before, after⟩ := board.exists_perm_cards_modifySlot seat column fun _ => {}
  have vacant : (board.modifySlot seat column fun _ => {}).card? seat column = none := by
    rw [card?, slot?_modifySlot, if_pos ⟨rfl, rfl⟩]
    cases board.slot? seat column <;> rfl
  rw [vacant] at after
  exact (before.trans List.perm_append_comm).trans (after.symm.append_right _)

theorem perm_cards_hold (board : Board) (seat : Seat) (column : Nat) :
  (board.hold seat column).cards.Perm board.cards
  := by
  obtain ⟨rest, before, after⟩ := board.exists_perm_cards_modifySlot seat column
    fun slot => { slot with hold := .held }
  have same : (board.hold seat column).card? seat column = board.card? seat column := by
    rw [hold, card?, slot?_modifySlot, if_pos ⟨rfl, rfl⟩, card?]
    cases board.slot? seat column <;> rfl
  rw [← hold, same] at after
  exact after.trans before.symm

/-- In the next round all cards are on the board or have left it. -/
theorem perm_cards_nextRound (board : Board) :
  board.cards.Perm (board.nextRound.cards ++ board.leaving)
  := by
  have rows (seat : Seat) : board.nextRound.row seat = (board.row seat).map Slot.next := by
    simp [row, nextRound]
  have parts := List.Perm.flatMap_left Seat.all fun seat _ => Slot.perm_next (board.row seat)
  apply parts.trans
  simp only [cards, leaving, rows]
  apply (List.flatMap_append_perm _ _ _).symm

/-- Altering a board keeps its cards up to their faces. -/
theorem Altered.map_identity_cards {mayHold : Nat × Seat → Prop} {before after : Board}
    (h : before.Altered mayHold after) :
  after.cards.map Card.identity = before.cards.map Card.identity
  := by
  have rows (seat : Seat) :
      (after.row seat).map (fun slot => slot.card.map Card.identity)
        = (before.row seat).map fun slot => slot.card.map Card.identity := by
    apply List.ext_getElem?
    intro column
    rw [List.getElem?_map, List.getElem?_map, getElem?_row, getElem?_row]
    rcases slotAt : before.slot? seat column with _ | slot
    · have outside := slot?_eq_none_iff.mp slotAt
      rw [← h.width] at outside
      rw [slot?_eq_none_iff.mpr outside]
    · obtain ⟨slot', slotAt', altered⟩ := h.slots seat column slot slotAt
      rw [slotAt', Option.map_some, Option.map_some]
      congr 1
      obtain ⟨card, hold⟩ := slot
      obtain ⟨card', hold'⟩ := slot'
      cases altered.card with
      | none => rfl
      | some change => exact congrArg some change.identity
  have found (slots : List Slot) :
      (slots.filterMap (·.card)).map Card.identity
        = (slots.map fun slot => slot.card.map Card.identity).filterMap id := by
    rw [List.map_filterMap, List.filterMap_map]
    rfl
  simp only [cards, List.map_flatMap, found, rows]

end Board

/-! ### Moves on record -/

/-- A move and the board on which it is made. -/
structure Event where
  board : Board
  move : Board.Move

namespace Event

/-- The card that a board accepts. -/
def accepted (event : Event) : Option Card :=
  match event.move with
  | .place seat column card =>
    if (event.board.place? seat column card).isSome then some card else none
  | .take _ _ | .hold _ _ | .clear | .nextRound | .castAll _ => none

/-- The cards that are taken, or that leave when a round ends. -/
def returned (event : Event) : List Card :=
  match event.move with
  | .take seat column => (event.board.take seat column).1.toList
  | .nextRound => event.board.leaving
  | .place _ _ _ | .hold _ _ | .clear | .castAll _ => []

/-- Whether a slot is marked to survive the next change of rounds: by request, or by a special
card that makes its caster wait. -/
def Marks (event : Event) (position : Nat × Seat) : Prop :=
  match event.move with
  | .hold seat column => position = (column, seat)
  | .castAll hands =>
    (⟨event.board, hands⟩ : Arena).WaitsFor event.board.standing position
  | .place _ _ _ | .take _ _ | .clear | .nextRound => False

/-- Whether a slot loses its mark. -/
def Releases (event : Event) (position : Nat × Seat) : Prop :=
  match event.move with
  | .take seat column => position = (column, seat)
  | .clear | .nextRound => True
  | .place _ _ _ | .hold _ _ | .castAll _ => False

/-- Whether a slot was marked, and has not lost its mark since; the latest event comes
first. -/
def IsMarked (events : List Event) (position : Nat × Seat) : Prop :=
  ∃ later event earlier, events = later ++ event :: earlier ∧ event.Marks position
    ∧ ∀ other ∈ later, ¬ other.Releases position

theorem not_isMarked_nil (position : Nat × Seat) :
  ¬ IsMarked [] position
  := by
  rintro ⟨later, event, earlier, split, -⟩
  simp at split

theorem isMarked_cons {event : Event} {events : List Event} {position : Nat × Seat} :
  IsMarked (event :: events) position
    ↔ event.Marks position ∨ ¬ event.Releases position ∧ IsMarked events position
  := by
  constructor
  · rintro ⟨later, marking, earlier, split, marks, kept⟩
    rcases later with _ | ⟨latest, later⟩
    · obtain ⟨rfl, rfl⟩ := List.cons.inj split
      left
      apply marks
    · obtain ⟨rfl, rfl⟩ := List.cons.inj split
      obtain ⟨keeps, kept⟩ := List.forall_mem_cons.mp kept
      right
      exact ⟨keeps, later, marking, earlier, rfl, marks, kept⟩
  · rintro (marks | ⟨keeps, later, marking, earlier, rfl, marks, kept⟩)
    · exact ⟨[], event, events, rfl, marks, by simp⟩
    · exact ⟨event :: later, marking, earlier, rfl, marks, List.forall_mem_cons.mpr ⟨keeps, kept⟩⟩

end Event

namespace Board

open Checked

/-! ### One move -/

variable {board board' : Board} {move : Move}

theorem onlyOverflows_move (board : Board) (move : Move) :
  OnlyOverflows (board.move move)
  := by
  cases move with
  | castAll hands =>
    apply (Arena.onlyOverflows_castAlong _ _).bind
    intro answer
    apply OnlyOverflows.ok
  | place | take | hold | clear | nextRound => apply OnlyOverflows.ok

theorem onlyOverflows_run (board : Board) (moves : List Move) :
  OnlyOverflows (board.run moves)
  := by
  apply OnlyOverflows.foldlM
  intro move _ board
  apply onlyOverflows_move

/-- No move changes how many columns a board has. -/
theorem width_move (moved : board.move move = .ok board') :
  board'.width = board.width
  := by
  cases move with
  | place seat column card =>
    obtain rfl := Except.ok.inj moved
    rw [place?]
    split <;> simp [setCard]
  | take | hold =>
    obtain rfl := Except.ok.inj moved
    apply width_modifySlot
  | clear | nextRound =>
    obtain rfl := Except.ok.inj moved
    simp [cleared, nextRound, width, empty]
  | castAll hands =>
    obtain ⟨⟨arena, answer⟩, cast, moved⟩ := Checked.bind_eq_ok_iff.mp moved
    obtain rfl := Except.ok.inj moved
    apply (Arena.altered_castAll cast).width

/-- A move that does not clear the board neither loses nor invents a card. -/
theorem perm_cards_move (noClear : move ≠ .clear) (moved : board.move move = .ok board') :
  (((Event.accepted ⟨board, move⟩).toList ++ board.cards).map Card.identity).Perm
    ((board'.cards ++ Event.returned ⟨board, move⟩).map Card.identity)
  := by
  cases move with
  | place seat column card =>
    obtain rfl := Except.ok.inj moved
    rcases placed : board.place? seat column card with _ | board'
    · simp [Event.accepted, Event.returned, placed]
    · have grown := (perm_cards_place placed).symm.map Card.identity
      simpa [Event.accepted, Event.returned, placed] using grown
  | take seat column =>
    obtain rfl := Except.ok.inj moved
    apply (perm_cards_take board seat column).map
  | hold seat column =>
    obtain rfl := Except.ok.inj moved
    have same := (perm_cards_hold board seat column).symm.map Card.identity
    simpa [Event.accepted, Event.returned] using same
  | clear => contradiction
  | nextRound =>
    obtain rfl := Except.ok.inj moved
    apply (perm_cards_nextRound board).map
  | castAll hands =>
    obtain ⟨⟨arena, answer⟩, cast, moved⟩ := Checked.bind_eq_ok_iff.mp moved
    obtain rfl := Except.ok.inj moved
    -- the cards may show other faces now, so only their identities agree
    have same := (Arena.altered_castAll cast).map_identity_cards
    simp only [Event.accepted, Event.returned, Option.toList_none, List.nil_append, List.append_nil]
    rw [same]

/-- After a move a slot is held for the next change of rounds exactly if the move marks it, or
it was held before and does not lose its mark. -/
theorem holdAt_move {seat : Seat} {column : Nat} (inside : column < board.width)
    (moved : board.move move = .ok board') :
  board'.holdAt seat column = .held
    ↔ Event.Marks ⟨board, move⟩ (column, seat)
      ∨ ¬ Event.Releases ⟨board, move⟩ (column, seat) ∧ board.holdAt seat column = .held
  := by
  obtain ⟨slot, slotAt⟩ := exists_slot?_of_lt inside seat
  cases move with
  | place seat' column' card =>
    obtain rfl := Except.ok.inj moved
    simp only [Event.Marks, Event.Releases, not_false_eq_true, true_and, false_or, place?]
    split
    · rw [Option.getD_some, setCard, holdAt_modifySlot, holdAt_of_slot? slotAt, slotAt]
      simp
    · rfl
  | take seat' column' =>
    obtain rfl := Except.ok.inj moved
    simp only [take, holdAt_modifySlot, slotAt, Event.Marks, Event.Releases, Prod.mk.injEq]
    by_cases here : column = column' ∧ seat = seat'
    · simp [here]
    · simp [here, and_comm]
  | hold seat' column' =>
    obtain rfl := Except.ok.inj moved
    simp only [hold, holdAt_modifySlot, slotAt, Event.Marks, Event.Releases, Prod.mk.injEq]
    by_cases here : column = column' ∧ seat = seat'
    · simp [here]
    · simp [here, and_comm]
  | clear =>
    obtain rfl := Except.ok.inj moved
    simp [Event.Marks, Event.Releases, cleared, holdAt, slot?_empty, inside]
  | nextRound =>
    obtain rfl := Except.ok.inj moved
    rw [holdAt, slot?_nextRound, slotAt, Option.map_some, Option.map_some, Option.getD_some,
      Slot.next_hold]
    simp only [Event.Marks, Event.Releases]
    split <;> simp
  | castAll hands =>
    obtain ⟨⟨arena, answer⟩, cast, moved⟩ := Checked.bind_eq_ok_iff.mp moved
    obtain rfl := Except.ok.inj moved
    rw [Arena.holdAt_castAll cast inside]
    simp [Event.Marks, Event.Releases, or_comm]

end Board

/-! ### A run of moves -/

/-- The moves made so far, the latest first, and the board that they led to. -/
structure Chronicle where
  events : List Event
  board : Board

namespace Chronicle

/-- Make a move and put it on record. -/
def record (chronicle : Chronicle) (move : Board.Move) : Except Fault Chronicle := do
  let board ← chronicle.board.move move
  pure ⟨⟨chronicle.board, move⟩ :: chronicle.events, board⟩

/-- The chronicle of a list of moves that begins with an empty board. -/
def ofMoves (width : Nat) (moves : List Board.Move) : Except Fault Chronicle :=
  moves.foldlM record ⟨[], .empty width⟩

/-- The cards that were accepted. -/
def accepted (chronicle : Chronicle) : List Card := chronicle.events.filterMap Event.accepted

/-- The cards that were taken, or that left when a round ended. -/
def returned (chronicle : Chronicle) : List Card := chronicle.events.flatMap Event.returned

theorem accepted_cons (event : Event) (chronicle : Chronicle) (board : Board) :
  accepted ⟨event :: chronicle.events, board⟩ = event.accepted.toList ++ chronicle.accepted
  := by
  unfold accepted
  rw [List.filterMap_cons]
  cases event.accepted <;> rfl

theorem returned_cons (event : Event) (chronicle : Chronicle) (board : Board) :
  returned ⟨event :: chronicle.events, board⟩ = event.returned ++ chronicle.returned
  := List.flatMap_cons ..

variable {chronicle chronicle' : Chronicle}

/-- Keeping record does not change what moves do. -/
theorem map_board_record (chronicle : Chronicle) (moves : List Board.Move) :
  (moves.foldlM record chronicle).map (·.board) = chronicle.board.run moves
  := by
  induction moves generalizing chronicle with
  | nil => rfl
  | cons move rest ih =>
    rw [Board.run, List.foldlM_cons, List.foldlM_cons, record]
    rcases chronicle.board.move move with fault | board
    · rfl
    · apply ih

/-- Every move is on record. -/
theorem map_move_record {moves : List Board.Move}
    (h : moves.foldlM record chronicle = .ok chronicle') :
  chronicle'.events.map (·.move) = moves.reverse ++ chronicle.events.map (·.move)
  := by
  induction moves generalizing chronicle with
  | nil =>
    obtain rfl := Except.ok.inj h
    rfl
  | cons move rest ih =>
    obtain ⟨next, recorded, h⟩ := Checked.bind_eq_ok_iff.mp h
    obtain ⟨board, moved, recorded⟩ := Checked.bind_eq_ok_iff.mp recorded
    obtain rfl := Except.ok.inj recorded
    rw [ih h]
    simp

/-- The cards on the board and the holds for the next change of rounds are what the record
tells. -/
structure IsFaithful (chronicle : Chronicle) : Prop where
  cards : (chronicle.accepted.map Card.identity).Perm
    ((chronicle.board.cards ++ chronicle.returned).map Card.identity)
  holds : ∀ seat column, column < chronicle.board.width →
    (chronicle.board.holdAt seat column = .held
      ↔ Event.IsMarked chronicle.events (column, seat))

namespace IsFaithful

theorem empty (width : Nat) :
  IsFaithful ⟨[], .empty width⟩
  where
  cards := by simp [accepted, returned, Board.cards_empty]
  holds seat column _ := by
    simp only [Event.not_isMarked_nil, iff_false, Board.holdAt, Board.slot?_empty]
    split <;> simp

/-- Another move leaves a record faithful. -/
theorem record {move : Board.Move} (h : chronicle.IsFaithful) (noClear : move ≠ .clear)
    (recorded : chronicle.record move = .ok chronicle') :
  chronicle'.IsFaithful
  := by
  obtain ⟨board, moved, recorded⟩ := Checked.bind_eq_ok_iff.mp recorded
  obtain rfl := Except.ok.inj recorded
  constructor
  · have before := h.cards.append_left
      ((Event.accepted ⟨chronicle.board, move⟩).toList.map Card.identity)
    have after := (Board.perm_cards_move noClear moved).append_right
      (chronicle.returned.map Card.identity)
    rw [accepted_cons, returned_cons]
    simp only [List.map_append, List.append_assoc] at before after ⊢
    exact before.trans after
  · intro seat column inside
    rw [Board.width_move moved] at inside
    rw [Board.holdAt_move inside moved, Event.isMarked_cons, h.holds seat column inside]

end IsFaithful

/-- Moves that never clear the board leave a faithful record. -/
theorem isFaithful_ofMoves {width : Nat} {moves : List Board.Move} (noClear : .clear ∉ moves)
    (h : ofMoves width moves = .ok chronicle) :
  chronicle.IsFaithful
  := by
  apply Checked.foldlM_preserves (P := IsFaithful) _ (.empty width) h
  intro move mem chronicle chronicle' faithful recorded
  apply faithful.record _ recorded
  rintro rfl
  contradiction

end Chronicle

/-- A card that is refused is given back, and nothing else happens. -/
theorem Table.step_place_of_refused {table : Table} {seat : Seat} {column : Nat} {card : Card}
    (refused : table.board.place? seat column card = none) :
  table.step (.place seat column card) = .ok (table, .placement (some card))
  := by
  rw [Table.step, refused]

namespace Board

/-- Whatever moves other than clearing are made on an empty board, a number overflows or the
following holds.  The cards accepted so far are those on the board together with those that
were taken or left it, up to what effects can change.  A card that is refused is given back and
the board stays as it is.  And a change of rounds keeps the card of a slot exactly if the slot
was marked, by request or by a special card that makes its caster wait, after the last change
of rounds and the last time it was taken from. -/
theorem custody (width : Nat) (moves : List Move) (noClear : .clear ∉ moves) :
  (∃ fault, fault.IsOverflow ∧ (empty width).run moves = .error fault)
  ∨ ∃ chronicle, Chronicle.ofMoves width moves = .ok chronicle
    ∧ (empty width).run moves = .ok chronicle.board
    ∧ chronicle.events.map (·.move) = moves.reverse
    ∧ (chronicle.accepted.map Card.identity).Perm
        ((chronicle.board.cards ++ chronicle.returned).map Card.identity)
    ∧ (∀ seat column card, chronicle.board.place? seat column card = none →
        chronicle.board.move (.place seat column card) = .ok chronicle.board
        ∧ ∀ table : Table, table.board = chronicle.board →
          table.step (.place seat column card) = .ok (table, .placement (some card)))
    ∧ ∀ seat column card, chronicle.board.card? seat column = some card →
        (chronicle.board.nextRound.card? seat column = some card
          ↔ Event.IsMarked chronicle.events (column, seat))
  := by
  rcases ran : (empty width).run moves with fault | board
  · left
    exact ⟨fault, (onlyOverflows_run (empty width) moves).isOverflow fault ran, rfl⟩
  right
  obtain ⟨chronicle, recorded, rfl⟩ :=
    Checked.map_eq_ok_iff.mp ((Chronicle.map_board_record ⟨[], .empty width⟩ moves).trans ran)
  have faithful := Chronicle.isFaithful_ofMoves noClear recorded
  refine ⟨chronicle, recorded, rfl, ?_, faithful.cards, ?_, ?_⟩
  · simpa using Chronicle.map_move_record recorded
  · intro seat column card refused
    refine ⟨by rw [move, refused, Option.getD_none], ?_⟩
    intro table same
    apply Table.step_place_of_refused
    rw [same, refused]
  · intro seat column card cardAt
    obtain ⟨slot, slotAt, cardIn⟩ := card?_eq_some_iff.mp cardAt
    rw [← faithful.holds seat column (lt_width_of_slot? slotAt), holdAt_of_slot? slotAt, card?,
      slot?_nextRound, slotAt]
    simp [Slot.next_card_eq_some_iff, cardIn]

/-- Of two cards for the same slot the second is refused; a special card makes its caster wait
for the first. -/
def windyMoves : List Move :=
  [.place .first 0 (.ofSpecial ⟨"Umbrella", "", .nothing, .any, ⟨.wait, .none⟩⟩),
    .place .second 0 (.standard "Ex" (.number 7)),
    .place .second 0 (.standard "Ex" (.number 4)),
    .castAll (.both {})]

theorem custody_windyMoves :
  ∃ chronicle, Chronicle.ofMoves 1 windyMoves = .ok chronicle
    ∧ chronicle.accepted.map Card.name = ["Ex", "Umbrella"]
    ∧ (chronicle.accepted.map Card.identity).Perm
        ((chronicle.board.cards ++ chronicle.returned).map Card.identity)
    ∧ Event.IsMarked chronicle.events (0, .second)
    ∧ ¬ Event.IsMarked chronicle.events (0, .first)
  := by
  have ran : (empty 1).run windyMoves = .ok _ := rfl
  obtain ⟨fault, -, failed⟩ | ⟨chronicle, recorded, ran', -, cards, -, kept⟩ :=
    custody 1 windyMoves (by simp [windyMoves])
  · rw [ran] at failed
    contradiction
  have board := Except.ok.inj (ran'.symm.trans ran)
  refine ⟨chronicle, recorded, ?_, cards, ?_, ?_⟩
  · obtain rfl := Except.ok.inj recorded
    rfl
  · apply (kept .second 0 (.standard "Ex" (.number 7)) (by rw [board]; rfl)).mp
    rw [board]
    rfl
  · intro marked
    have stays := (kept .first 0 _ (by rw [board]; rfl)).mpr marked
    rw [board] at stays
    contradiction

end Board

end CardDuel
