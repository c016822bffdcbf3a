import CardDuel.Play.Planner
import CardDuel.Proofs.Play.Arrangement
import CardDuel.Proofs.Play.Placement

/-!
# Building a play

A play built from indices of the hand, no more than there are open columns, puts each of these
cards, as it was printed, into an open column of its own, and lists them from left to right:
`Play.distributes_ofIndices`.  If the indices are distinct, it uses each of them once:
`Play.fits_ofIndices`.
-/

namespace CardDuel.Play

/-- How a play fits a situation. -/
structure Fits (situation : Situation) (play : Play) : Prop where
  increasing : play.placements.Pairwise fun a b => a.column < b.column
  isOpen : ∀ placement ∈ play.placements,
    situation.board.isOpen situation.seat placement.column = true
  distinct : play.indices.Nodup
  printed : ∀ placement ∈ play.placements,
    ∃ card, situation.hand[placement.index]? = some card ∧ placement.card = card.reset

variable {situation : Situation} {settings : PlaySettings} {indices : List Nat}

/-- The placements of the chosen cards, as they were printed, in the columns given to them. -/
def Foresight.placements (foresight : Foresight) (situation : Situation) (stream : Stream) :
    List Placement :=
  (foresight.arrange situation stream).1.map fun (column, pick) =>
    ⟨column, pick.index, pick.card.reset⟩

/-- The hand indices and the cards of a play, from left to right. -/
def chosen (play : Play) : List (Nat × Card) :=
  play.placements.map fun placement => (placement.index, placement.card)

theorem indices_eq_map_chosen (play : Play) :
  play.indices = play.chosen.map (·.1)
  := by
  unfold indices chosen
  rw [List.map_map]
  rfl

theorem cards_eq_map_chosen (play : Play) :
  play.cards = play.chosen.map (·.2)
  := by
  unfold cards chosen
  rw [List.map_map]
  rfl

/-- A play comes from what is foreseen for its cards, and is valued as it lies there. -/
theorem ofIndices_eq_ok {stream stream' : Stream} {play : Play}
    (h : ofIndices situation settings indices stream = .ok (play, stream')) :
  ∃ foresight, Foresight.ofIndices situation indices = .ok foresight
    ∧ play.placements = foresight.placements situation stream
    ∧ View.value ⟨play, situation, settings⟩ = .ok play.value
  := by
  obtain ⟨foresight, foreseen, h⟩ := Checked.bind_eq_ok_iff.mp h
  obtain ⟨play', appraised, h⟩ := Checked.bind_eq_ok_iff.mp h
  obtain ⟨rfl, -⟩ := Prod.mk.inj (Except.ok.inj h)
  obtain ⟨value, valued, appraised⟩ := Checked.bind_eq_ok_iff.mp appraised
  obtain rfl := Except.ok.inj appraised
  exact ⟨foresight, foreseen, rfl, valued⟩

/-- How a play distributes the cards at some indices of the hand. -/
structure Distributes (situation : Situation) (indices : List Nat) (play : Play) : Prop where
  chosen : play.chosen.Perm <|
    (picksOf situation indices).map fun pick => (pick.index, pick.card.reset)
  isOpen : ∀ placement ∈ play.placements,
    situation.board.isOpen situation.seat placement.column = true
  increasing : play.placements.Pairwise fun a b => a.column < b.column

/-- What is foreseen for chosen cards keeps their indices and the faces they were printed
with. -/
theorem map_mine_of_ofIndices {foresight : Foresight}
    (h : Foresight.ofIndices situation indices = .ok foresight) :
  foresight.mine.map (fun pick => (pick.index, pick.card.reset))
    = (picksOf situation indices).map fun pick => (pick.index, pick.card.reset)
  := by
  have same := congrArg (List.map fun pick : Pick => (pick.index, pick.card))
    (Foresight.isSound_ofIndices h).mine
  rw [List.map_map, List.map_map] at same
  apply same

/-- With enough open columns, every chosen card is placed in an open column of its own. -/
theorem distributes_of_placements {foresight : Foresight} {stream : Stream} {play : Play}
    (room : indices.length ≤ situation.openColumns.length)
    (foreseen : Foresight.ofIndices situation indices = .ok foresight)
    (placements : play.placements = foresight.placements situation stream) :
  play.Distributes situation indices
  := by
  have room : (picksOf situation indices).length ≤ situation.openColumns.length := by
    apply Nat.le_trans (List.length_filterMap_le ..)
    rw [List.length_zipIdx]
    apply room
  have complete := Foresight.isComplete_arrange stream (nodup_place_picksOf situation indices)
    room (Foresight.isSound_ofIndices foreseen)
  rw [Foresight.placements] at placements
  constructor
  · have perm := complete.picks.map fun pick : Pick => (pick.index, pick.card.reset)
    rw [map_mine_of_ofIndices foreseen, List.map_map] at perm
    rw [chosen, placements, List.map_map]
    apply perm
  · intro placement mem
    rw [placements] at mem
    obtain ⟨⟨column, pick⟩, arranged, rfl⟩ := List.mem_map.mp mem
    apply Board.mem_openColumns.mp (complete.isOpen column (List.mem_map_of_mem arranged))
  · rw [placements, List.pairwise_map]
    apply complete.increasing

theorem distributes_ofIndices {stream stream' : Stream} {play : Play}
    (room : indices.length ≤ situation.openColumns.length)
    (h : ofIndices situation settings indices stream = .ok (play, stream')) :
  play.Distributes situation indices
  := by
  obtain ⟨foresight, foreseen, placements, -⟩ := ofIndices_eq_ok h
  apply distributes_of_placements room foreseen placements

theorem map_card_picksOf (situation : Situation) (indices : List Nat) :
  (picksOf situation indices).map (·.card) = situation.cardsAt indices
  := by
  have images : indices = (indices.zipIdx).map (·.1) := (List.zipIdx_map_fst 0 indices).symm
  conv_rhs => rw [Situation.cardsAt, images]
  rw [picksOf, List.map_filterMap, List.filterMap_map]
  congr 1
  funext entry
  simp [Function.comp_def]

namespace Distributes

variable {play : Play}

/-- The cards played are the chosen ones as they were printed. -/
theorem cards (h : play.Distributes situation indices) :
  play.cards.Perm ((situation.cardsAt indices).map Card.reset)
  := by
  have perm := h.chosen.map (·.2)
  rw [← cards_eq_map_chosen, List.map_map] at perm
  rw [← map_card_picksOf, List.map_map]
  apply perm

/-- The special cards played are the chosen ones. -/
theorem specials (h : play.Distributes situation indices) :
  play.specials.Perm ((situation.cardsAt indices).filterMap (·.special))
  := by
  have perm := h.cards.filterMap (·.special)
  rw [List.filterMap_map] at perm
  apply perm

theorem distinct (h : play.Distributes situation indices) :
  play.placements.Pairwise fun a b => a.column ≠ b.column
  := h.increasing.imp Nat.ne_of_lt

/-- The play can be put on the board. -/
theorem exists_place (h : play.Distributes situation indices) :
  ∃ board, play.place situation.board situation.seat = (board, none)
    ∧ IsPlaced situation.seat play.placements situation.board board
  := placeAll_of_isOpen h.distinct h.isOpen

end Distributes

/-- A play built from distinct indices of the hand, no more than there are open columns, fits
the situation and uses exactly these indices. -/
theorem fits_ofIndices {stream stream' : Stream} {play : Play} (distinct : indices.Nodup)
    (inHand : ∀ i ∈ indices, i < situation.hand.length)
    (room : indices.length ≤ situation.openColumns.length)
    (h : ofIndices situation settings indices stream = .ok (play, stream')) :
  play.Fits situation ∧ play.indices.Perm indices
  := by
  have distributes := distributes_ofIndices room h
  have used : play.indices.Perm indices := by
    have perm := distributes.chosen.map (·.1)
    rw [← indices_eq_map_chosen, List.map_map] at perm
    rw [← index_picksOf inHand]
    apply perm
  refine ⟨⟨distributes.increasing, distributes.isOpen, used.nodup_iff.mpr distinct, ?_⟩, used⟩
  intro placement mem
  have isChosen : (placement.index, placement.card) ∈ play.chosen := List.mem_map_of_mem mem
  rw [distributes.chosen.mem_iff] at isChosen
  obtain ⟨pick, picked, same⟩ := List.mem_map.mp isChosen
  obtain ⟨sameIndex, sameCard⟩ := Prod.mk.inj same
  rw [← sameIndex]
  exact ⟨pick.card, card_of_mem_picksOf picked, sameCard.symm⟩

end CardDuel.Play
