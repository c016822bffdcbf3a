import CardDuel.Casting
import CardDuel.Proofs.Cards
import CardDuel.Proofs.Slots

/-!
# What special cards do to a board

Whatever a special card does, every slot keeps its place, an empty slot stays empty, and a
card is at most altered.  Only a special card that makes its caster wait touches holds, and
it holds exactly the slots that it reaches.  `Board.Altered` says so slot by slot, and
`Arena.altered_cast` proves it of every special card.
-/

namespace CardDuel

/-! ### Alterations -/

/-- What is left of a slot that may have been held if `mayHold`. -/
structure Slot.Altered (mayHold : Prop) (before after : Slot) : Prop where
  card : Option.Rel Card.Altered before.card after.card
  hold : after.hold = before.hold ∨ mayHold ∧ after.hold = .held

namespace Slot.Altered

variable {mayHold mayHold' : Prop}

theorem refl (slot : Slot) :
  slot.Altered mayHold slot
  := by
  constructor
  · apply Card.Altered.rel_refl
  · left
    rfl

theorem trans {a b c : Slot} (h : a.Altered mayHold b) (h' : b.Altered mayHold c) :
  a.Altered mayHold c
  := by
  obtain ⟨cardA, holdA⟩ := a
  obtain ⟨cardB, holdB⟩ := b
  obtain ⟨cardC, holdC⟩ := c
  obtain ⟨cards, holds⟩ := h
  obtain ⟨cards', holds'⟩ := h'
  constructor
  · cases cards with
    | none => apply cards'
    | some first =>
      cases cards' with
      | some second => exact .some (first.trans second)
  · rcases holds' with same | held
    · rw [same]
      apply holds
    · right
      apply held

theorem mono {before after : Slot} (h : before.Altered mayHold after)
    (weaker : mayHold → mayHold') :
  before.Altered mayHold' after
  where
  card := h.card
  hold := h.hold.imp_right (And.imp_left weaker)

end Slot.Altered

namespace Board

/-- What is left of a board whose slots may have been held where `mayHold` holds. -/
structure Altered (mayHold : Nat × Seat → Prop) (before after : Board) : Prop where
  width : after.width = before.width
  slots : ∀ seat column slot, before.slot? seat column = some slot →
    ∃ slot', after.slot? seat column = some slot' ∧ slot.Altered (mayHold (column, seat)) slot'

namespace Altered

variable {mayHold mayHold' : Nat × Seat → Prop} {before after : Board}

theorem refl (board : Board) :
  board.Altered mayHold board
  where
  width := rfl
  slots _ _ slot slotAt := ⟨slot, slotAt, .refl slot⟩

theorem trans {a b c : Board} (h : a.Altered mayHold b) (h' : b.Altered mayHold c) :
  a.Altered mayHold c
  where
  width := h'.width.trans h.width
  slots seat column slot slotAt := by
    obtain ⟨slot', slotAt', first⟩ := h.slots seat column slot slotAt
    obtain ⟨slot'', slotAt'', second⟩ := h'.slots seat column slot' slotAt'
    exact ⟨slot'', slotAt'', first.trans second⟩

theorem mono (h : before.Altered mayHold after)
    (weaker : ∀ position, mayHold position → mayHold' position) :
  before.Altered mayHold' after
  where
  width := h.width
  slots seat column slot slotAt := by
    obtain ⟨slot', slotAt', altered⟩ := h.slots seat column slot slotAt
    exact ⟨slot', slotAt', altered.mono (weaker (column, seat))⟩

/-- Every card of the board before is found altered on the board after, and no other. -/
theorem card? (h : before.Altered mayHold after) (seat : Seat) (column : Nat) :
  Option.Rel Card.Altered (before.card? seat column) (after.card? seat column)
  := by
  rcases slotAt : before.slot? seat column with _ | slot
  · have outside := slot?_eq_none_iff.mp slotAt
    rw [← h.width] at outside
    rw [Board.card?, Board.card?, slotAt, slot?_eq_none_iff.mpr outside]
    exact .none
  · obtain ⟨slot', slotAt', altered⟩ := h.slots seat column slot slotAt
    rw [card?_of_slot? slotAt, card?_of_slot? slotAt']
    apply altered.card

/-- A slot is empty after the alteration exactly if it was before. -/
theorem card?_eq_none_iff (h : before.Altered mayHold after) {seat : Seat} {column : Nat} :
  after.card? seat column = none ↔ before.card? seat column = none
  := by
  have cards := h.card? seat column
  generalize before.card? seat column = x at cards ⊢
  generalize after.card? seat column = y at cards ⊢
  cases cards <;> simp

theorem exists_card? (h : before.Altered mayHold after) {seat : Seat} {column : Nat}
    {card : Card} (cardAt : before.card? seat column = some card) :
  ∃ card', after.card? seat column = some card' ∧ card.Altered card'
  := by
  apply Card.exists_of_rel_some
  rw [← cardAt]
  apply h.card?

/-- A slot keeps its hold or is held where that may happen. -/
theorem holdAt (h : before.Altered mayHold after) (seat : Seat) (column : Nat) :
  after.holdAt seat column = before.holdAt seat column
    ∨ mayHold (column, seat) ∧ after.holdAt seat column = .held
  := by
  rcases slotAt : before.slot? seat column with _ | slot
  · left
    have outside := slot?_eq_none_iff.mp slotAt
    rw [← h.width] at outside
    rw [Board.holdAt, Board.holdAt, slotAt, slot?_eq_none_iff.mpr outside]
  · obtain ⟨slot', slotAt', altered⟩ := h.slots seat column slot slotAt
    rw [holdAt_of_slot? slotAt, holdAt_of_slot? slotAt']
    apply altered.hold

/-- The same special cards lie on the board before and after. -/
theorem special (h : before.Altered mayHold after) (seat : Seat) (column : Nat) :
  (after.card? seat column).bind (·.special) = (before.card? seat column).bind (·.special)
  := by
  have cards := h.card? seat column
  generalize before.card? seat column = x at cards
  generalize after.card? seat column = y at cards
  cases cards with
  | none => rfl
  | some altered => apply altered.special

end Altered

/-! ### Changing cards -/

variable {mayHold : Nat × Seat → Prop}

theorem altered_setCard {board : Board} {seat : Seat} {column : Nat} {card card' : Card}
    (h : board.card? seat column = some card) (altered : card.Altered card') :
  board.Altered mayHold (board.setCard seat column (some card'))
  := by
  constructor
  · simp [setCard]
  · intro seat' column' slot slotAt
    by_cases here : seat' = seat ∧ column' = column
    · obtain ⟨rfl, rfl⟩ := here
      use { slot with card := some card' }, slot?_modifySlot_self slotAt _
      constructor
      · rw [← card?_of_slot? slotAt, h]
        exact .some altered
      · left
        rfl
    · use slot, (slot?_modifySlot_of_ne here board _).trans slotAt
      exact .refl slot

/-- An effect on a position changes the card that lies there, if there is one. -/
theorem changeAt_cases {effect : Effect} {state state' : Board × Nat} {position : Nat × Seat}
    (h : changeAt effect state position = .ok state') :
  state.1.card? position.2 position.1 = none ∧ state' = state
    ∨ ∃ card card' changed, state.1.card? position.2 position.1 = some card
      ∧ card.apply effect = .ok (card', changed)
      ∧ state' = (state.1.setCard position.2 position.1 (some card'), state.2 + changed.toNat)
  := by
  obtain ⟨board, touched⟩ := state
  obtain ⟨answer, applied, h⟩ := Checked.bind_eq_ok_iff.mp h
  rw [applyAt] at applied
  rcases cardAt : board.card? position.2 position.1 with _ | card
  · obtain rfl : none = answer := by simpa [cardAt] using applied
    left
    exact ⟨rfl, (Except.ok.inj h).symm⟩
  · simp only [cardAt] at applied
    obtain ⟨⟨card', changed⟩, effective, applied⟩ := Checked.bind_eq_ok_iff.mp applied
    obtain rfl := Except.ok.inj applied
    right
    exact ⟨card, card', changed, rfl, effective, (Except.ok.inj h).symm⟩

theorem altered_changeAt {effect : Effect} {state state' : Board × Nat} {position : Nat × Seat}
    (h : changeAt effect state position = .ok state') :
  state.1.Altered mayHold state'.1
  := by
  obtain ⟨-, rfl⟩ | ⟨card, card', changed, cardAt, effective, rfl⟩ := changeAt_cases h
  · exact .refl _
  · apply altered_setCard cardAt (Card.altered_apply effective)

theorem altered_changeReached {board : Board} {caster : Seat} {special : Special}
    {result : Board × Nat} (h : board.changeReached caster special = .ok result) :
  board.Altered mayHold result.1
  := by
  refine Checked.foldlM_preserves (P := fun state : Board × Nat => board.Altered mayHold state.1)
    ?_ (.refl board) h
  intro position _ state state' altered step
  split at step
  · apply altered.trans (altered_changeAt step)
  · obtain rfl := Except.ok.inj step
    apply altered

theorem altered_trade {board board' : Board} {caster : Seat} {column : Nat} {mine theirs : Card}
    (mineAt : board.card? caster column = some mine)
    (theirsAt : board.card? caster.opponent column = some theirs)
    (h : board.trade caster column mine theirs = .ok board') :
  board.Altered mayHold board'
  := by
  obtain ⟨⟨mine', _⟩, first, h⟩ := Checked.bind_eq_ok_iff.mp h
  obtain ⟨⟨theirs', _⟩, second, h⟩ := Checked.bind_eq_ok_iff.mp h
  obtain rfl := Except.ok.inj h
  apply (altered_setCard mineAt (Card.altered_apply first)).trans
  apply altered_setCard _ (Card.altered_apply second)
  rw [card?_setCard_of_ne (by simp), theirsAt]

theorem altered_tradeReached {board : Board} {caster : Seat} {special : Special}
    {result : Board × Nat} (h : board.tradeReached caster special = .ok result) :
  board.Altered mayHold result.1
  := by
  refine Checked.foldlM_preserves (P := fun state : Board × Nat => board.Altered mayHold state.1)
    ?_ (.refl board) h
  intro column _ state state' altered step
  simp only at step
  split at step
  · rename_i mine theirs mineAt theirsAt
    split at step
    · obtain rfl := Except.ok.inj step
      apply altered
    · split at step
      · obtain ⟨board', traded, step⟩ := Checked.bind_eq_ok_iff.mp step
        obtain rfl := Except.ok.inj step
        apply altered.trans (altered_trade mineAt theirsAt traded)
      · obtain rfl := Except.ok.inj step
        apply altered
  · obtain rfl := Except.ok.inj step
    apply altered

theorem altered_copyDonor {board : Board} {caster : Seat} {special : Special}
    {result : Board × Nat} (h : board.copyDonor caster special = .ok result) :
  board.Altered mayHold result.1
  := by
  rw [copyDonor] at h
  split at h
  · obtain rfl := Except.ok.inj h
    exact .refl board
  · refine Checked.foldlM_preserves
      (P := fun state : Board × Nat => board.Altered mayHold state.1) ?_ (.refl board) h
    intro column _ state state' altered step
    apply altered.trans (altered_changeAt step)

/-! ### Holding slots -/

theorem slot?_holdAll (hits : List (Nat × Seat)) (board : Board) (seat : Seat) (column : Nat) :
  (hits.foldl (fun board (column, seat) => board.hold seat column) board).slot? seat column
    = if (column, seat) ∈ hits then
        (board.slot? seat column).map fun slot => { slot with hold := .held }
      else board.slot? seat column
  := by
  induction hits generalizing board with
  | nil => simp
  | cons hit rest ih =>
    obtain ⟨column', seat'⟩ := hit
    rw [List.foldl_cons, ih]
    by_cases here : seat = seat' ∧ column = column'
    · obtain ⟨rfl, rfl⟩ := here
      simp only [hold, slot?_modifySlot, and_self, if_true, Option.map_map, List.mem_cons_self]
      split <;> rfl
    · have other : (column, seat) ≠ (column', seat') := by
        intro same
        obtain ⟨rfl, rfl⟩ := Prod.mk.inj same
        apply here ⟨rfl, rfl⟩
      simp only [hold, slot?_modifySlot_of_ne here, List.mem_cons, other, false_or]

@[simp]
theorem width_holdAll (hits : List (Nat × Seat)) (board : Board) :
  (hits.foldl (fun board (column, seat) => board.hold seat column) board).width = board.width
  := by
  induction hits generalizing board with
  | nil => rfl
  | cons hit rest ih =>
    rw [List.foldl_cons, ih]
    apply width_modifySlot

/-- Waiting holds the slots that are reached, and changes nothing else. -/
theorem slot?_holdReached (board : Board) (caster : Seat) (special : Special) (seat : Seat)
    (column : Nat) :
  (board.holdReached caster special).1.slot? seat column
    = if board.isReached special.application caster (column, seat) then
        (board.slot? seat column).map fun slot => { slot with hold := .held }
      else board.slot? seat column
  := by
  simp only [holdReached, slot?_holdAll, List.mem_filter, mem_positions]
  by_cases inside : column < board.width
  · simp [inside]
  · rw [slot?_eq_none_iff.mpr (Nat.le_of_not_lt inside)]
    simp

theorem altered_holdReached (board : Board) (caster : Seat) (special : Special) :
  board.Altered (fun position => board.isReached special.application caster position = true)
    (board.holdReached caster special).1
  := by
  constructor
  · simp [holdReached]
  · intro seat column slot slotAt
    rw [slot?_holdReached]
    split
    · rename_i reached
      rw [slotAt]
      refine ⟨_, rfl, ?_⟩
      constructor
      · apply Card.Altered.rel_refl
      · right
        exact ⟨reached, rfl⟩
    · exact ⟨slot, slotAt, .refl slot⟩

end Board

/-! ### Casting -/

namespace Arena

/-- The arena after a special card that works on the board alone. -/
theorem onBoard_of_map_eq_ok {arena arena' : Arena} {x : Except Fault (Board × Nat)}
    {touched : Nat}
    (h : (x.map fun result =>
        (.ok ({ arena with board := result.1 }, result.2) : Except GameError (Arena × Nat)))
      = .ok (.ok (arena', touched))) :
  ∃ result, x = .ok result ∧ arena' = { arena with board := result.1 } ∧ touched = result.2
  := by
  obtain ⟨result, ok, same⟩ := Checked.map_eq_ok_iff.mp h
  obtain ⟨rfl, rfl⟩ := Prod.mk.inj (Except.ok.inj same)
  exact ⟨result, ok, rfl, rfl⟩

/-- A special card alters the board, and only if it makes its caster wait it holds slots,
which it then reaches. -/
theorem altered_cast {arena arena' : Arena} {caster : Seat} {special : Special} {touched : Nat}
    (h : arena.cast caster special = .ok (.ok (arena', touched))) :
  arena.board.Altered
    (fun position => special.effect.kind = .wait
      ∧ arena.board.isReached special.application caster position = true)
    arena'.board
  := by
  rcases kind : special.effect.kind
  case buff | multiply | kiss | reverse | replace =>
    simp only [cast, kind] at h
    obtain ⟨result, ok, rfl, -⟩ := onBoard_of_map_eq_ok h
    apply Board.altered_changeReached ok
  case switch =>
    simp only [cast, kind] at h
    obtain ⟨result, ok, rfl, -⟩ := onBoard_of_map_eq_ok h
    apply Board.altered_tradeReached ok
  case clone =>
    simp only [cast, kind] at h
    obtain ⟨result, ok, rfl, -⟩ := onBoard_of_map_eq_ok h
    apply Board.altered_copyDonor ok
  case wait =>
    simp only [cast, kind] at h
    obtain ⟨rfl, -⟩ := Prod.mk.inj (Except.ok.inj (Except.ok.inj h))
    apply (Board.altered_holdReached arena.board caster special).mono fun _ reached =>
      ⟨rfl, reached⟩
  case flush =>
    simp only [cast, kind] at h
    obtain ⟨rfl, -⟩ := Prod.mk.inj (Except.ok.inj (Except.ok.inj h))
    exact .refl arena.board
  case randomize =>
    simp [cast, kind] at h

end Arena

end CardDuel
