import CardDuel.Play.Planner
import CardDuel.Proofs.Slots

/-!
# Plays from the other seat

`Situation.across` exchanges the two rows of the board and puts the player into the other seat.  All
that choosing a play reads of the board is the row of the player and the row of the opponent, so the
two situations agree at every stage: what is seen of the board, what is foreseen, how cards are
arranged, what a play is worth, what is proposed and what is legal.  In the end both seats choose
from the same plays (`Situation.analyze_across`).

Functions of a situation are compared as functions, so that these equations also rewrite them where
they are handed to a fold, a filter or a map.
-/

namespace CardDuel

namespace Situation

/-- The same situation from the other seat: the rows of the board, with all cards and holds, have
changed sides along with the player. -/
def across (situation : Situation) : Situation where
  hand := situation.hand
  board := situation.board.swapSides
  seat := situation.seat.opponent

variable (situation : Situation)

/-! ### What is seen of the board -/

@[simp]
theorem hand_across :
  situation.across.hand = situation.hand
  := rfl

@[simp]
theorem board_across :
  situation.across.board = situation.board.swapSides
  := rfl

@[simp]
theorem seat_across :
  situation.across.seat = situation.seat.opponent
  := rfl

@[simp]
theorem opponent_across :
  situation.across.opponent = situation.opponent.opponent
  := rfl

@[simp]
theorem openColumns_across :
  situation.across.openColumns = situation.openColumns
  := by simp [openColumns]

@[simp]
theorem heldCards_across :
  situation.across.heldCards = situation.heldCards
  := by simp [heldCards]

@[simp]
theorem needed_across :
  situation.across.needed = situation.needed
  := by simp [needed]

@[simp]
theorem cardsAt_across :
  situation.across.cardsAt = situation.cardsAt
  := rfl

end Situation

namespace Play

variable (situation : Situation) (settings : PlaySettings)

theorem isLegal_across (play : Play) :
  play.isLegal situation.across.board situation.across.seat
    = play.isLegal situation.board situation.seat
  := by simp [isLegal]

/-! ### Foresight and arrangement -/

/-- Trying cards out meets the same opposing cards. -/
theorem Foresight.ofIndices_across (indices : List Nat) :
  ofIndices situation.across indices = ofIndices situation indices
  := by simp [ofIndices, picksOf]

/-- Cards meet the same numbers, and a side without cards leaves them to the same shuffle. -/
theorem Foresight.arrange_across (foresight : Foresight) (stream : Stream) :
  foresight.arrange situation.across stream = foresight.arrange situation stream
  := by simp [arrange]

/-! ### The value of a play -/

namespace View

/-- The same play as the other seat sees it. -/
def across (view : View) : View :=
  { view with situation := view.situation.across }

variable (view : View)

@[simp]
theorem play_across :
  view.across.play = view.play
  := rfl

@[simp]
theorem situation_across :
  view.across.situation = view.situation.across
  := rfl

@[simp]
theorem settings_across :
  view.across.settings = view.settings
  := rfl

@[simp]
theorem friendly_across :
  view.across.friendly = view.friendly
  := by
  funext column
  simp [friendly]

@[simp]
theorem enemy_across :
  view.across.enemy = view.enemy
  := by
  funext column
  simp [enemy]

@[simp]
theorem reachedNumbers_across :
  view.across.reachedNumbers = view.reachedNumbers
  := by
  funext special
  simp [reachedNumbers]

@[simp]
theorem reachedHeldNumbers_across :
  view.across.reachedHeldNumbers = view.reachedHeldNumbers
  := by
  funext special
  simp [reachedHeldNumbers]

@[simp]
theorem reachedEnemyNumbers_across :
  view.across.reachedEnemyNumbers = view.reachedEnemyNumbers
  := by
  funext special cards
  simp [reachedEnemyNumbers]

@[simp]
theorem enemyCards_across :
  view.across.enemyCards = view.enemyCards
  := by simp [enemyCards]

@[simp]
theorem enemyHeld_across :
  view.across.enemyHeld = view.enemyHeld
  := by simp [enemyHeld]

@[simp]
theorem marginBonus_across :
  view.across.marginBonus = view.marginBonus
  := by
  funext placement
  unfold marginBonus
  -- The number that is matched on has to be rewritten before the cases.
  rw [enemy_across]
  simp

@[simp]
theorem enemyCost_across :
  view.across.enemyCost = view.enemyCost
  := by
  funext special column
  simp [enemyCost]

@[simp]
theorem changeAdjustments_across :
  view.across.changeAdjustments = view.changeAdjustments
  := by
  funext special
  simp [changeAdjustments]

@[simp]
theorem lowAdjustments_across :
  view.across.lowAdjustments = view.lowAdjustments
  := by
  funext special
  simp [lowAdjustments]

@[simp]
theorem donor?_across :
  view.across.donor? = view.donor?
  := by
  funext special
  simp [donor?]

@[simp]
theorem cloneAdjustments_across :
  view.across.cloneAdjustments = view.cloneAdjustments
  := by
  funext special
  simp [cloneAdjustments, cloneGain]

@[simp]
theorem waitAdjustments_across :
  view.across.waitAdjustments = view.waitAdjustments
  := by
  funext special
  simp [waitAdjustments]

@[simp]
theorem flushAdjustments_across :
  view.across.flushAdjustments = view.flushAdjustments
  := rfl

@[simp]
theorem effectAdjustments_across :
  view.across.effectAdjustments = view.effectAdjustments
  := by
  funext special
  simp [effectAdjustments]

@[simp]
theorem adjustments_across :
  view.across.adjustments = view.adjustments
  := by simp [adjustments]

/-- A play promises the same, and its value overflows in the same place. -/
theorem value_across :
  view.across.value = view.value
  := by simp [value]

end View

theorem appraise_across (play : Play) :
  play.appraise situation.across settings = play.appraise situation settings
  := by
  unfold appraise
  rw [← View.value_across ⟨play, situation, settings⟩]
  rfl

@[simp]
theorem ofIndices_across :
  ofIndices situation.across settings = ofIndices situation settings
  := by
  funext indices stream
  simp [ofIndices, Foresight.ofIndices_across, Foresight.arrange_across, appraise_across]

end Play

namespace Situation

variable (situation : Situation) (settings : PlaySettings)

/-! ### Proposals -/

@[simp]
theorem specialIndices_across :
  situation.across.specialIndices = situation.specialIndices
  := rfl

@[simp]
theorem standardIndices_across :
  situation.across.standardIndices = situation.standardIndices
  := rfl

@[simp]
theorem byPreference_across :
  situation.across.byPreference = situation.byPreference
  := rfl

@[simp]
theorem beater?_across :
  situation.across.beater? = situation.beater?
  := rfl

@[simp]
theorem pool_across :
  situation.across.pool = situation.pool
  := by
  funext picked
  simp [pool]

@[simp]
theorem fits_across :
  situation.across.fits = situation.fits
  := by
  funext picked candidate
  simp [fits]

@[simp]
theorem pickForQuota_across :
  situation.across.pickForQuota = situation.pickForQuota
  := by
  funext pool picked quota
  simp [pickForQuota]

@[simp]
theorem pickFitting_across :
  situation.across.pickFitting = situation.pickFitting
  := by
  funext test candidates picked
  simp [pickFitting]

@[simp]
theorem isSatisfied_across :
  situation.across.isSatisfied = situation.isSatisfied
  := by
  funext picked i
  simp [isSatisfied]

@[simp]
theorem complete_across :
  situation.across.complete = situation.complete
  := by
  funext picked
  simp [complete]

/-- What a special card picks depends on the board only through the cards that are held. -/
@[simp]
theorem pickLedBy_across :
  situation.across.pickLedBy = situation.pickLedBy
  := by
  funext settings seed leader special
  simp [pickLedBy]

@[simp]
theorem ledProposals_across :
  situation.across.ledProposals = situation.ledProposals
  := by
  funext settings seed
  simp [ledProposals]

@[simp]
theorem strongestProposal_across :
  situation.across.strongestProposal = situation.strongestProposal
  := by
  funext seed
  simp [strongestProposal]

/-- Opposing cards are met from left to right from both seats. -/
@[simp]
theorem beaters_across :
  situation.across.beaters = situation.beaters
  := by simp [beaters]

theorem proposals_across :
  situation.across.proposals settings = situation.proposals settings
  := by simp [proposals]

/-! ### The choice -/

/-- Plays are built one after another from the same stream of random numbers. -/
theorem buildAll_across :
  situation.across.buildAll settings = situation.buildAll settings
  := by
  funext proposals
  induction proposals with
  | nil => rfl
  | cons proposal rest ih =>
    funext stream
    simp only [buildAll, Play.ofIndices_across, ih]

theorem candidates_across :
  situation.across.candidates settings = situation.candidates settings
  := by
  unfold candidates
  rw [buildAll_across, proposals_across]

/-- Both seats have the same plays to choose from, or meet the same fault. -/
theorem analyze_across :
  situation.across.analyze settings = situation.analyze settings
  := by
  unfold analyze
  rw [needed_across, candidates_across]
  simp only [Play.isLegal_across]

/-- A held eight faces a three, a held six faces an open column, and a clone is in the hand. -/
def threshold : Situation where
  hand := [.standard "Ex" (.number 4), .standard "Ex" (.number 9),
    .ofSpecial ⟨"Mirror", "", .nothing, .any, ⟨.clone, .none⟩⟩]
  board := ⟨[
    ⟨{ card := some (.standard "Ex" (.number 8)), hold := .held },
      { card := some (.standard "Boyfriend" (.number 3)) }⟩,
    ⟨{}, { card := some (.standard "Boyfriend" (.number 6)), hold := .held }⟩,
    ⟨{}, {}⟩]⟩
  seat := .first

/-- The first seat has the eight on one board and the three on the other; the plays are the same. -/
theorem analyze_across_threshold :
  (threshold.board.card? .first 0).bind Card.number? = some 8
    ∧ (threshold.across.board.card? .first 0).bind Card.number? = some 3
    ∧ threshold.board.isHeld .first 0 = true
    ∧ threshold.across.board.isHeld .first 0 = false
    ∧ ∃ plays, threshold.analyze {} = .ok plays
      ∧ threshold.across.analyze {} = .ok plays
      ∧ plays.map (fun play => (play.indices, play.value))
        = [([1, 2], 21), ([1, 2], 21), ([1, 0], 13), ([1, 0], 13)]
  := by
  have analyzed : (threshold.analyze {}).map
      (List.map fun play => (play.indices, play.value))
      = .ok [([1, 2], 21), ([1, 2], 21), ([1, 0], 13), ([1, 0], 13)] := by
    rfl
  obtain ⟨plays, analyzed, values⟩ := Checked.map_eq_ok_iff.mp analyzed
  have across : threshold.across.analyze {} = .ok plays := by
    rw [analyze_across, analyzed]
  exact ⟨rfl, rfl, rfl, rfl, plays, analyzed, across, values⟩

end Situation

end CardDuel
