import CardDuel.Board
import Mathlib.Data.List.Nodup
import Mathlib.Tactic.Common

/-!
# Boards slot by slot

A board is determined by its slots.  Every change of a board is described here by what it
does to each of them, and what a slot can take follows from the card and the hold in it.
-/

namespace CardDuel

namespace Slot

/-- A card survives a change of rounds exactly in a held slot. -/
theorem next_card_eq_some_iff {slot : Slot} {card : Card} :
  slot.next.card = some card ↔ slot.hold = .held ∧ slot.card = some card
  := by
  obtain ⟨cardIn, hold⟩ := slot
  cases hold <;> simp [next]

theorem next_hold (slot : Slot) :
  slot.next.hold = if slot.hold = .held then .carried else .free
  := by
  obtain ⟨card, hold⟩ := slot
  cases hold <;> rfl

end Slot

namespace Board

/-! ### Reading slots -/

theorem slot?_eq_none_iff {board : Board} {seat : Seat} {column : Nat} :
  board.slot? seat column = none ↔ board.width ≤ column
  := by simp [slot?, width]

theorem lt_width_of_slot? {board : Board} {seat : Seat} {column : Nat} {slot : Slot}
    (h : board.slot? seat column = some slot) :
  column < board.width
  := by
  by_contra outside
  rw [slot?_eq_none_iff.mpr (Nat.le_of_not_lt outside)] at h
  contradiction

theorem exists_slot?_of_lt {board : Board} {column : Nat} (h : column < board.width)
    (seat : Seat) :
  ∃ slot, board.slot? seat column = some slot
  := by
  apply Option.ne_none_iff_exists'.mp
  rw [Ne, slot?_eq_none_iff]
  omega

theorem card?_eq_some_iff {board : Board} {seat : Seat} {column : Nat} {card : Card} :
  board.card? seat column = some card
    ↔ ∃ slot, board.slot? seat column = some slot ∧ slot.card = some card
  := by simp [card?, Option.bind_eq_some_iff]

theorem card?_of_slot? {board : Board} {seat : Seat} {column : Nat} {slot : Slot}
    (h : board.slot? seat column = some slot) :
  board.card? seat column = slot.card
  := by simp [card?, h]

theorem lt_width_of_card? {board : Board} {seat : Seat} {column : Nat} {card : Card}
    (h : board.card? seat column = some card) :
  column < board.width
  := by
  obtain ⟨slot, slotAt, -⟩ := card?_eq_some_iff.mp h
  apply lt_width_of_slot? slotAt

theorem holdAt_of_slot? {board : Board} {seat : Seat} {column : Nat} {slot : Slot}
    (h : board.slot? seat column = some slot) :
  board.holdAt seat column = slot.hold
  := by simp [holdAt, h]

theorem isOpen_iff {board : Board} {seat : Seat} {column : Nat} :
  board.isOpen seat column = true
    ↔ ∃ slot, board.slot? seat column = some slot ∧ slot.card = none ∧ slot.hold = .free
  := by simp [isOpen, Option.any_eq_true, Slot.isOpen, Slot.isHeld]

theorem isHeld_iff {board : Board} {seat : Seat} {column : Nat} :
  board.isHeld seat column = true
    ↔ ∃ slot, board.slot? seat column = some slot ∧ slot.hold ≠ .free
  := by simp [isHeld, Option.any_eq_true, Slot.isHeld]

theorem mem_positions {board : Board} {position : Nat × Seat} :
  position ∈ board.positions ↔ position.1 < board.width
  := by
  obtain ⟨column, seat⟩ := position
  cases seat <;> simp [positions, Seat.all]

theorem nodup_positions (board : Board) :
  board.positions.Nodup
  := by
  rw [positions, List.nodup_flatMap]
  constructor
  · intro column _
    simp [Seat.all]
  · apply List.nodup_range.imp
    intro column column' apart position mem mem'
    obtain ⟨seat, -, rfl⟩ := List.mem_map.mp mem
    obtain ⟨seat', -, same⟩ := List.mem_map.mp mem'
    apply apart (congrArg Prod.fst same).symm

theorem mem_openColumns {board : Board} {seat : Seat} {column : Nat} :
  column ∈ board.openColumns seat ↔ board.isOpen seat column = true
  := by
  simp only [openColumns, List.mem_filter, List.mem_range, and_iff_right_iff_imp]
  intro h
  obtain ⟨slot, slotAt, -⟩ := isOpen_iff.mp h
  apply lt_width_of_slot? slotAt

theorem nodup_openColumns (board : Board) (seat : Seat) :
  (board.openColumns seat).Nodup
  := List.nodup_range.filter _

/-! ### Listing cards -/

theorem mem_occupied {board : Board} {seat : Seat} {entry : Nat × Card} :
  entry ∈ board.occupied seat ↔ board.card? seat entry.1 = some entry.2
  := by
  obtain ⟨column, card⟩ := entry
  rw [occupied, List.mem_filterMap]
  constructor
  · rintro ⟨column', -, listed⟩
    obtain ⟨card', cardAt, same⟩ := Option.map_eq_some_iff.mp listed
    obtain ⟨rfl, rfl⟩ := Prod.mk.inj same
    apply cardAt
  · intro cardAt
    refine ⟨column, List.mem_range.mpr (lt_width_of_card? cardAt), ?_⟩
    rw [cardAt]
    rfl

theorem length_occupied_le (board : Board) (seat : Seat) :
  (board.occupied seat).length ≤ board.width
  := by
  apply Nat.le_trans (List.length_filterMap_le ..)
  apply Nat.le_of_eq List.length_range

theorem nodup_occupied (board : Board) (seat : Seat) :
  (board.occupied seat).Nodup
  := by
  apply List.nodup_range.filterMap
  intro column column' entry listed listed'
  obtain ⟨card, -, rfl⟩ := Option.map_eq_some_iff.mp listed
  obtain ⟨card', -, same⟩ := Option.map_eq_some_iff.mp listed'
  apply (congrArg Prod.fst same).symm

/-- Where all cards of a side are held, the held ones are all. -/
theorem held_eq_occupied {board : Board} {seat : Seat}
    (kept : ∀ column card, board.card? seat column = some card → board.isHeld seat column = true) :
  board.held seat = board.occupied seat
  := by
  apply List.filter_eq_self.mpr
  rintro ⟨column, card⟩ mem
  apply kept column card (mem_occupied.mp mem)

theorem card?_of_isBare {board : Board} {seat : Seat} (bare : board.isBare seat = true)
  (column : Nat) :
  board.card? seat column = none
  := by
  rw [Option.eq_none_iff_forall_ne_some]
  intro card cardAt
  obtain ⟨slot, slotAt, cardIn⟩ := card?_eq_some_iff.mp cardAt
  obtain ⟨slots, slotsAt, rfl⟩ := Option.map_eq_some_iff.mp slotAt
  have empty := List.all_eq_true.mp bare _
    (List.mem_map_of_mem (List.mem_of_getElem? slotsAt))
  rw [cardIn] at empty
  contradiction

theorem occupied_of_isBare {board : Board} {seat : Seat} (bare : board.isBare seat = true) :
  board.occupied seat = []
  := by simp [occupied, card?_of_isBare bare]

theorem held_of_isBare {board : Board} {seat : Seat} (bare : board.isBare seat = true) :
  board.held seat = []
  := by simp [held, occupied_of_isBare bare]

/-! ### Changing slots -/

@[simp]
theorem width_modifySlot (board : Board) (seat : Seat) (column : Nat) (f : Slot → Slot) :
  (board.modifySlot seat column f).width = board.width
  := by simp [modifySlot, width]

theorem slot?_modifySlot (board : Board) (seat seat' : Seat) (column column' : Nat)
    (f : Slot → Slot) :
  (board.modifySlot seat column f).slot? seat' column'
    = if seat' = seat ∧ column' = column then (board.slot? seat' column').map f
      else board.slot? seat' column'
  := by
  simp only [slot?, modifySlot, List.getElem?_modify]
  rcases board.columns[column']? with _ | slots
  · simp
  · by_cases columns : column = column'
    · subst columns
      by_cases seats : seat' = seat <;> simp [Pair.get_modify, seats]
    · simp [columns, Ne.symm columns]

theorem slot?_modifySlot_self {board : Board} {seat : Seat} {column : Nat} {slot : Slot}
    (h : board.slot? seat column = some slot) (f : Slot → Slot) :
  (board.modifySlot seat column f).slot? seat column = some (f slot)
  := by simp [slot?_modifySlot, h]

theorem slot?_modifySlot_of_ne {seat seat' : Seat} {column column' : Nat}
    (h : ¬ (seat' = seat ∧ column' = column)) (board : Board) (f : Slot → Slot) :
  (board.modifySlot seat column f).slot? seat' column' = board.slot? seat' column'
  := by rw [slot?_modifySlot, if_neg h]

theorem holdAt_modifySlot (board : Board) (seat seat' : Seat) (column column' : Nat)
    (f : Slot → Slot) :
  (board.modifySlot seat column f).holdAt seat' column'
    = if seat' = seat ∧ column' = column then
        ((board.slot? seat' column').map fun slot => (f slot).hold).getD .free
      else board.holdAt seat' column'
  := by
  unfold holdAt
  rw [slot?_modifySlot]
  split
  · rw [Option.map_map]
    rfl
  · rfl

theorem card?_setCard_self {board : Board} {seat : Seat} {column : Nat} {card : Card}
    (h : board.card? seat column = some card) (card' : Option Card) :
  (board.setCard seat column card').card? seat column = card'
  := by
  obtain ⟨slot, slotAt, -⟩ := card?_eq_some_iff.mp h
  exact card?_of_slot? (slot?_modifySlot_self slotAt _)

theorem card?_setCard_of_ne {seat seat' : Seat} {column column' : Nat}
    (h : ¬ (seat' = seat ∧ column' = column)) (board : Board) (card : Option Card) :
  (board.setCard seat column card).card? seat' column' = board.card? seat' column'
  := by
  unfold card? setCard
  rw [slot?_modifySlot_of_ne h]

theorem slot?_empty (width : Nat) (seat : Seat) (column : Nat) :
  (empty width).slot? seat column = if column < width then some {} else none
  := by
  simp only [slot?, empty, List.getElem?_replicate]
  split <;> simp

theorem slot?_nextRound (board : Board) (seat : Seat) (column : Nat) :
  board.nextRound.slot? seat column = (board.slot? seat column).map Slot.next
  := by
  simp only [slot?, nextRound, List.getElem?_map, Option.map_map]
  congr 1
  funext slots
  apply Pair.get_map

/-! ### The rows exchanged -/

section swapSides

variable (board : Board) (seat : Seat)

@[simp]
theorem width_swapSides :
  board.swapSides.width = board.width
  := by simp [swapSides, width]

@[simp]
theorem slot?_swapSides :
  board.swapSides.slot? seat = board.slot? seat.opponent
  := by
  funext column
  simp [slot?, swapSides, Function.comp_def]

@[simp]
theorem row_swapSides :
  board.swapSides.row seat = board.row seat.opponent
  := by simp [row, swapSides]

@[simp]
theorem card?_swapSides :
  board.swapSides.card? seat = board.card? seat.opponent
  := by
  funext column
  simp [card?]

@[simp]
theorem isHeld_swapSides :
  board.swapSides.isHeld seat = board.isHeld seat.opponent
  := by
  funext column
  simp [isHeld]

@[simp]
theorem isOpen_swapSides :
  board.swapSides.isOpen seat = board.isOpen seat.opponent
  := by
  funext column
  simp [isOpen]

@[simp]
theorem occupied_swapSides :
  board.swapSides.occupied seat = board.occupied seat.opponent
  := by simp [occupied]

@[simp]
theorem held_swapSides :
  board.swapSides.held seat = board.held seat.opponent
  := by simp [held]

@[simp]
theorem openColumns_swapSides :
  board.swapSides.openColumns seat = board.openColumns seat.opponent
  := by simp [openColumns]

@[simp]
theorem isBare_swapSides :
  board.swapSides.isBare seat = board.isBare seat.opponent
  := by simp [isBare]

end swapSides

end Board

end CardDuel
