import CardDuel.Play.Basic
import CardDuel.Proofs.Slots

/-!
# Putting cards on the board

Cards for distinct open slots all find their places, and no other slot changes.
-/

namespace CardDuel.Play

/-- What it means for a board to come from another by placing cards in slots of a seat. -/
structure IsPlaced (seat : Seat) (placements : List Placement) (before after : Board) : Prop where
  /-- Each card lies in its slot, which is not held. -/
  placed : ∀ placement ∈ placements,
    after.slot? seat placement.column = some { card := some placement.card, hold := .free }
  /-- Every other slot is as it was. -/
  others : ∀ seat' column, (seat' = seat → ∀ placement ∈ placements, placement.column ≠ column) →
    after.slot? seat' column = before.slot? seat' column

/-- Cards placed in open slots leave all holds as they are. -/
theorem IsPlaced.holdAt {seat : Seat} {placements : List Placement} {before after : Board}
    (h : IsPlaced seat placements before after)
    (isOpen : ∀ placement ∈ placements, before.isOpen seat placement.column = true)
    (seat' : Seat) (column : Nat) :
  after.holdAt seat' column = before.holdAt seat' column
  := by
  by_cases here : seat' = seat ∧ ∃ placement ∈ placements, placement.column = column
  · obtain ⟨rfl, placement, mem, rfl⟩ := here
    obtain ⟨slot, slotAt, -, free⟩ := Board.isOpen_iff.mp (isOpen placement mem)
    rw [Board.holdAt_of_slot? (h.placed placement mem), Board.holdAt_of_slot? slotAt, free]
  · unfold Board.holdAt
    rw [h.others seat' column fun same placement mem sameColumn =>
      here ⟨same, placement, mem, sameColumn⟩]

/-- Placing cards keeps the width of the board. -/
theorem IsPlaced.width {seat : Seat} {placements : List Placement} {before after : Board}
    (h : IsPlaced seat placements before after) :
  after.width = before.width
  := by
  have outside (column : Nat) : after.width ≤ column ↔ before.width ≤ column := by
    rw [← Board.slot?_eq_none_iff, ← Board.slot?_eq_none_iff,
      h.others seat.opponent column fun same => absurd same seat.opponent_ne]
  apply Nat.le_antisymm
  · apply (outside before.width).mpr (Nat.le_refl _)
  · apply (outside after.width).mp (Nat.le_refl _)

/-- Placing cards leaves the other side alone. -/
theorem IsPlaced.occupied_opponent {seat : Seat} {placements : List Placement}
    {before after : Board} (h : IsPlaced seat placements before after) :
  after.occupied seat.opponent = before.occupied seat.opponent
  := by
  unfold Board.occupied Board.card?
  rw [h.width]
  congr 1
  funext column
  rw [h.others seat.opponent column fun same => absurd same seat.opponent_ne]

/-- The cards of a side are those placed in open slots and those that lay there before. -/
theorem IsPlaced.occupied_perm {seat : Seat} {placements : List Placement}
    {before after : Board} (h : IsPlaced seat placements before after)
    (distinct : placements.Pairwise fun a b => a.column ≠ b.column)
    (isOpen : ∀ placement ∈ placements, before.isOpen seat placement.column = true) :
  (after.occupied seat).Perm
    (placements.map (fun placement => (placement.column, placement.card)) ++ before.occupied seat)
  := by
  have empty : ∀ placement ∈ placements, before.card? seat placement.column = none := by
    intro placement mem
    obtain ⟨slot, slotAt, noCard, -⟩ := Board.isOpen_iff.mp (isOpen placement mem)
    rw [Board.card?_of_slot? slotAt, noCard]
  apply (List.perm_ext_iff_of_nodup (Board.nodup_occupied after seat) _).mpr
  · rintro ⟨column, card⟩
    rw [List.mem_append, Board.mem_occupied, Board.mem_occupied, List.mem_map]
    constructor
    · intro cardAt
      by_cases here : ∃ placement ∈ placements, placement.column = column
      · obtain ⟨placement, mem, rfl⟩ := here
        left
        rw [Board.card?_of_slot? (h.placed placement mem)] at cardAt
        exact ⟨placement, mem, Prod.ext rfl (Option.some.inj cardAt)⟩
      · right
        rw [← cardAt, Board.card?, Board.card?, h.others seat column fun _ placement mem same =>
          here ⟨placement, mem, same⟩]
    · rintro (⟨placement, mem, same⟩ | cardAt)
      · obtain ⟨rfl, rfl⟩ := Prod.mk.inj same
        apply Board.card?_of_slot? (h.placed placement mem)
      · rw [← cardAt, Board.card?, Board.card?, h.others seat column]
        rintro - placement mem rfl
        rw [empty placement mem] at cardAt
        contradiction
  · apply List.Nodup.append _ (Board.nodup_occupied before seat)
    · intro entry placed cardAt
      obtain ⟨placement, mem, rfl⟩ := List.mem_map.mp placed
      rw [Board.mem_occupied, empty placement mem] at cardAt
      contradiction
    · apply List.pairwise_map.mpr
      apply distinct.imp
      intro placement placement' apart same
      apply apart (congrArg Prod.fst same)

/-- A card placed in an open slot. -/
theorem place?_of_isOpen {board : Board} {seat : Seat} {column : Nat}
    (h : board.isOpen seat column = true) (card : Card) :
  ∃ board', board.place? seat column card = some board'
    ∧ board'.slot? seat column = some { card := some card, hold := .free }
    ∧ ∀ seat' column', ¬ (seat' = seat ∧ column' = column) →
      board'.slot? seat' column' = board.slot? seat' column'
  := by
  obtain ⟨slot, slotAt, -, free⟩ := Board.isOpen_iff.mp h
  refine ⟨_, if_pos h, ?_, ?_⟩
  · rw [Board.setCard, Board.slot?_modifySlot_self slotAt, free]
  · intro seat' column' other
    apply Board.slot?_modifySlot_of_ne other

/-- Cards for distinct open slots can all be placed. -/
theorem placeAll_of_isOpen {seat : Seat} {placements : List Placement} {board : Board}
    (distinct : placements.Pairwise fun a b => a.column ≠ b.column)
    (isOpen : ∀ placement ∈ placements, board.isOpen seat placement.column = true) :
  ∃ board', placeAll seat placements board = (board', none)
    ∧ IsPlaced seat placements board board'
  := by
  induction placements generalizing board with
  | nil => exact ⟨board, rfl, by simp, fun _ _ _ => rfl⟩
  | cons first rest ih =>
    obtain ⟨apart, distinct⟩ := List.pairwise_cons.mp distinct
    obtain ⟨next, nextEq, here, elsewhere⟩ :=
      place?_of_isOpen (isOpen first List.mem_cons_self) first.card
    have stillOpen : ∀ placement ∈ rest, next.isOpen seat placement.column = true := by
      intro placement mem
      have other : ¬ (seat = seat ∧ placement.column = first.column) :=
        fun same => apart placement mem same.2.symm
      rw [Board.isOpen, elsewhere seat placement.column other]
      apply isOpen placement (List.mem_cons_of_mem _ mem)
    obtain ⟨board', placedAll, isPlaced⟩ := ih distinct stillOpen
    refine ⟨board', ?_, ?_, ?_⟩
    · rw [placeAll, nextEq]
      apply placedAll
    · intro placement mem
      rcases List.mem_cons.mp mem with rfl | later
      · rw [isPlaced.others seat placement.column fun _ other mem => (apart other mem).symm]
        apply here
      · apply isPlaced.placed placement later
    · intro seat' column other
      rw [isPlaced.others seat' column fun same placement mem =>
        other same placement (List.mem_cons_of_mem _ mem)]
      apply elsewhere
      rintro ⟨rfl, rfl⟩
      apply other rfl first List.mem_cons_self rfl

end CardDuel.Play
