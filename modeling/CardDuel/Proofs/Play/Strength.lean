import CardDuel.Proofs.Play.Best
import CardDuel.Proofs.Play.Valuation
import Mathlib.Algebra.BigOperators.Group.Finset.Basic
import Mathlib.Algebra.Order.BigOperators.Group.Finset
import Mathlib.Data.Finset.Max

/-!
# The strongest cards of a plain hand

If all cards of the hand are numbers that show what was printed on them, and none of them can beat
a held number, then every candidate play is worth the sum of its numbers.  The strongest cards are
among the candidates, and an exchange shows that no other choice of as many cards has a greater
sum.  So the best play is one of the greatest sum, whatever weaker cards were proposed to beat
opposing ones: `Situation.bestPlay_isGreatest`.
-/

namespace CardDuel

/-- As many elements as others, each of which is at least as great as every other that is not among
them, have a sum at least as great. -/
theorem sum_le_sum_of_strongest {f : Nat → Int} {others strongest : Finset Nat}
    (same : others.card = strongest.card)
    (highest : ∀ i ∈ strongest, ∀ j ∈ others, j ∉ strongest → f j ≤ f i) :
  ∑ j ∈ others, f j ≤ ∑ i ∈ strongest, f i
  := by
  -- what both have in common cancels, and a weakest of the rest separates the two sides
  rw [← Finset.sum_sdiff_le_sum_sdiff]
  have exchanged : (others \ strongest).card = (strongest \ others).card :=
    Finset.card_sdiff_comm same
  rcases (strongest \ others).eq_empty_or_nonempty with none | some
  · rw [none, Finset.card_empty, Finset.card_eq_zero] at exchanged
    rw [none, exchanged]
  · obtain ⟨weakest, mem, least⟩ := Finset.exists_min_image _ f some
    have below : ∀ j ∈ others \ strongest, f j ≤ f weakest := by
      intro j other
      obtain ⟨chosen, fresh⟩ := Finset.mem_sdiff.mp other
      apply highest weakest (Finset.mem_sdiff.mp mem).1 j chosen fresh
    calc
      ∑ j ∈ others \ strongest, f j ≤ (others \ strongest).card • f weakest :=
        Finset.sum_le_card_nsmul _ _ _ below
      _ = (strongest \ others).card • f weakest := by rw [exchanged]
      _ ≤ ∑ i ∈ strongest \ others, f i := Finset.card_nsmul_le_sum _ _ _ least

namespace Situation

variable {situation : Situation} {settings : PlaySettings} {indices others : List Nat}

/-! ### Sums of chosen numbers -/

/-- The sum of the numbers on the cards at some indices of the hand. -/
def strength (situation : Situation) (indices : List Nat) : Int :=
  ((situation.cardsAt indices).filterMap Card.number?).sum

/-- The number on the card at an index of the hand, or zero. -/
def numberAt (situation : Situation) (i : Nat) : Int :=
  (situation.hand[i]?.bind Card.number?).getD 0

theorem strength_eq_sum_numberAt (situation : Situation) (indices : List Nat) :
  situation.strength indices = (indices.map situation.numberAt).sum
  := by
  unfold strength cardsAt
  rw [List.filterMap_filterMap]
  induction indices with
  | nil => rfl
  | cons i rest ih =>
    rw [List.map_cons, List.sum_cons, ← ih, List.filterMap_cons, numberAt]
    cases situation.hand[i]?.bind Card.number? <;> simp

/-- No choice of as many standard cards is stronger than the strongest. -/
theorem Strongest.strength_le (h : situation.Strongest indices) (picks : situation.Picks others)
    (enough : others.length = situation.needed)
    (standard : ∀ card ∈ situation.hand, card.isSpecial = false) :
  situation.strength others ≤ situation.strength indices
  := by
  rw [strength_eq_sum_numberAt, strength_eq_sum_numberAt,
    ← List.sum_toFinset _ picks.distinct, ← List.sum_toFinset _ h.picks.distinct]
  apply sum_le_sum_of_strongest
  · rw [List.toFinset_card_of_nodup picks.distinct, List.toFinset_card_of_nodup h.picks.distinct,
      enough, h.enough]
  · intro i mem j mem' fresh
    rw [List.mem_toFinset] at mem mem' fresh
    have cardAt := List.getElem?_eq_getElem (h.picks.inHand i mem)
    have otherAt := List.getElem?_eq_getElem (picks.inHand j mem')
    rw [numberAt, numberAt, cardAt, otherAt]
    apply h.highest i mem j fresh _ _ cardAt otherAt (standard _ (List.getElem_mem _))

/-! ### Plays of plain hands -/

/-- The cards of the hand are numbers that show what was printed on them, and the numbers that face
the open columns of the player are not held. -/
structure IsPlain (situation : Situation) : Prop where
  numeric : ∀ card ∈ situation.hand, card.IsNumeric
  printed : ∀ card ∈ situation.hand, card.face = card.printed
  unheld : ∀ column ∈ situation.openColumns, ∀ card,
    situation.board.card? situation.opponent column = some card → card.number?.isSome = true →
    situation.board.isHeld situation.opponent column = false

namespace IsPlain

theorem mem_hand {card : Card} (mem : card ∈ situation.cardsAt indices) :
  card ∈ situation.hand
  := by
  obtain ⟨i, -, cardAt⟩ := List.mem_filterMap.mp mem
  apply List.mem_of_getElem? cardAt

variable {play : Play}

/-- The numbers played are those of the chosen cards. -/
theorem sum_numbers (plain : situation.IsPlain) (h : play.Distributes situation indices) :
  play.numbers.sum = situation.strength indices
  := by
  have shown : ((situation.cardsAt indices).map Card.reset).filterMap Card.number?
      = (situation.cardsAt indices).filterMap Card.number? := by
    rw [List.filterMap_map]
    apply List.filterMap_congr
    intro card mem
    rw [Function.comp_apply, Card.number?, Card.number?, Card.reset,
      plain.printed card (mem_hand mem)]
  rw [Play.numbers, strength, ← shown]
  apply (h.cards.filterMap _).sum_eq

theorem specials_eq_nil (plain : situation.IsPlain) (h : play.Distributes situation indices) :
  play.specials = []
  := by
  have none : (situation.cardsAt indices).filterMap (·.special) = [] := by
    apply List.filterMap_eq_nil_iff.mpr
    intro card mem
    simpa [Card.isSpecial] using (plain.numeric card (mem_hand mem)).isSpecial
  have specials := h.specials
  rw [none] at specials
  apply specials.eq_nil

/-- No card of a play beats a held number. -/
theorem beatsByOne_eq_false (plain : situation.IsPlain) (h : play.Distributes situation indices)
    {placement : Placement} (mem : placement ∈ play.placements) :
  Play.View.beatsByOne ⟨play, situation, settings⟩ placement = false
  := by
  have isOpen : placement.column ∈ situation.openColumns :=
    Board.mem_openColumns.mpr (h.isOpen placement mem)
  unfold Play.View.beatsByOne Play.View.enemy
  rcases enemy : situation.board.card? situation.opponent placement.column with _ | card
  · simp
  · rcases number : card.number? with _ | target
    · simp [number]
    · rw [plain.unheld placement.column isOpen card enemy (by simp [number])]
      rfl

/-- A play is worth the sum of its numbers. -/
theorem value_eq (plain : situation.IsPlain) (h : play.Distributes situation indices) {value : Int}
    (valued : Play.View.value ⟨play, situation, settings⟩ = .ok value) :
  value = play.numbers.sum
  := by
  obtain ⟨rfl, amounts⟩ := Play.View.value_eq_sum valued
  rw [Play.View.adjustments, plain.specials_eq_nil h, List.flatMap_nil, List.append_nil]
    at amounts ⊢
  rw [Play.View.sum_swing_flatMap_marginBonus amounts]
  have none : play.placements.countP
      (Play.View.beatsByOne ⟨play, situation, settings⟩) = 0 := by
    apply List.countP_eq_zero.mpr
    intro placement mem
    simp [plain.beatsByOne_eq_false h mem]
  rw [none]
  simp

/-- A play built from chosen cards is worth as much as these are together. -/
theorem value_of_ofIndices (plain : situation.IsPlain) {stream stream' : Stream}
    (enough : indices.length = situation.needed)
    (built : Play.ofIndices situation settings indices stream = .ok (play, stream')) :
  play.numbers.sum = situation.strength indices ∧ play.value = situation.strength indices
  := by
  have room : indices.length ≤ situation.openColumns.length := by
    rw [enough]
    apply Nat.min_le_left
  have distributes := Play.distributes_ofIndices room built
  obtain ⟨-, -, -, valued⟩ := Play.ofIndices_eq_ok built
  rw [plain.value_eq distributes valued]
  exact ⟨plain.sum_numbers distributes, plain.sum_numbers distributes⟩

/-- A hand of standard cards has enough of them. -/
theorem needed_le (plain : situation.IsPlain) :
  situation.needed ≤ situation.hand.countP fun card => !card.isSpecial
  := by
  have all : situation.hand.countP (fun card => !card.isSpecial) = situation.hand.length := by
    apply List.countP_eq_length.mpr
    intro card mem
    simp [(plain.numeric card mem).isSpecial]
  rw [all]
  apply Nat.min_le_right

end IsPlain

/-! ### The best play -/

/-- If the cards of the hand are numbers that show what was printed on them, and the numbers that
face open columns are not held, then without an overflow there is a best play.  Its value is the
sum of its numbers, and this is the greatest sum of as many cards of the hand as are needed. -/
theorem bestPlay_isGreatest (situation : Situation) (settings : PlaySettings)
    (plain : situation.IsPlain)
    (noOverflow : ∀ fault, fault.IsOverflow → situation.analyze settings ≠ .error fault) :
  ∃ best, situation.bestPlay settings = .ok (.ok best)
  ∧ best.value = best.numbers.sum
  ∧ IsGreatest
    {sum | ∃ indices, situation.Picks indices
      ∧ indices.length = min situation.openColumns.length situation.hand.length
      ∧ situation.strength indices = sum}
    best.numbers.sum
  := by
  obtain ⟨plays, analyzed⟩ := (onlyOverflows_analyze situation settings).exists_ok noOverflow
  obtain ⟨candidates, found, dropped⟩ := analyze_eq_ok analyzed
  have ranks : situation.Ranks candidates plays := by
    rw [dropped]
    apply ranks_dropWhile
  obtain ⟨indices, proposed⟩ := exists_strongestProposal plain.needed_le
  have strongest := strongest_of_strongestProposal proposed
  obtain ⟨play, mem, ⟨stream, next, built⟩, -⟩ := exists_strongest_candidate found proposed
  obtain ⟨candidate, legal⟩ := List.mem_filter.mp mem
  obtain ⟨best, chosen, first⟩ := ranks.exists_head? candidate legal
  obtain ⟨indices', stream', next', proposed', built'⟩ :=
    exists_proposal_of_mem_buildAll found chosen
  obtain ⟨picks', enough'⟩ := picks_of_mem_proposals proposed'
  obtain ⟨sum, worth⟩ := plain.value_of_ofIndices enough' built'
  refine ⟨best, ?_, worth.trans sum.symm, ⟨indices', picks', enough', sum.symm⟩, ?_⟩
  · rw [bestPlay_of_analyze analyzed, first]
    rfl
  · rintro _ ⟨others, picks, enough, rfl⟩
    calc
      situation.strength others ≤ situation.strength indices :=
        strongest.strength_le picks enough fun card mem => (plain.numeric card mem).isSpecial
      _ = play.value := (plain.value_of_ofIndices strongest.enough built).2.symm
      _ ≤ best.value := ranks.value_le first candidate legal
      _ = best.numbers.sum := worth.trans sum.symm

/-- Three numbers for two columns; the four is the cheapest to beat the opposing three, and the
eight is held but faces no open column. -/
def modest : Situation where
  hand := [.standard "Ex" (.number 4), .standard "Ex" (.number 9),
    .standard "Boyfriend" (.number 7)]
  board := ⟨[
    ⟨{}, { card := some (.standard "Girlfriend" (.number 3)) }⟩,
    ⟨{ card := some (.standard "Ex" (.number 2)), hold := .carried },
      { card := some (.standard "Girlfriend" (.number 8)), hold := .held }⟩,
    ⟨{}, { hold := .held }⟩]⟩
  seat := .first

/-- The play that beats the three with the four is a candidate, but the nine and the seven are
worth more. -/
theorem bestPlay_modest :
  ∃ candidates best, modest.candidates {} = .ok candidates
    ∧ candidates.map Play.value = [16, 13]
    ∧ modest.bestPlay {} = .ok (.ok best)
    ∧ best.numbers.sum = 16
    ∧ ∀ indices, modest.Picks indices → indices.length = 2 → modest.strength indices ≤ 16
  := by
  have values : (modest.candidates {}).map (List.map Play.value) = .ok [16, 13] := by
    decide +kernel
  have ranked : (modest.analyze {}).map (List.map Play.value) = .ok [16, 13] := by
    decide +kernel
  obtain ⟨candidates, found, values⟩ := Checked.map_eq_ok_iff.mp values
  obtain ⟨plays, analyzed, ranked⟩ := Checked.map_eq_ok_iff.mp ranked
  have plain : modest.IsPlain := by
    constructor
    · decide
    · decide
    · have columns : modest.openColumns = [0, 2] := by decide
      rw [columns]
      intro column mem card cardAt _
      simp only [List.mem_cons, List.not_mem_nil, or_false] at mem
      rcases mem with rfl | rfl
      · rfl
      · contradiction
  obtain ⟨best, isBest, worth, -, greatest⟩ :=
    bestPlay_isGreatest modest {} plain (by simp [analyzed])
  have first := bestPlay_of_analyze analyzed
  rw [isBest] at first
  rcases plays with _ | ⟨play, rest⟩
  · contradiction
  · obtain rfl := Except.ok.inj (Except.ok.inj first)
    have value : best.value = 16 := (List.cons.inj ranked).1
    rw [worth] at value
    refine ⟨candidates, best, found, values, isBest, value, ?_⟩
    intro indices picks two
    rw [← value]
    exact greatest ⟨indices, picks, two, rfl⟩

end Situation
end CardDuel
