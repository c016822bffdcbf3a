import CardDuel.Proofs.Casting.Change
import CardDuel.Proofs.Casting.Overflow
import CardDuel.Proofs.Play.Valuation
import Mathlib.Algebra.BigOperators.Group.List.Basic
import Mathlib.Tactic.Ring

/-!
# What a buff is worth

The value of a play with a buff foresees, card by card, what the buff will do once the cards
lie on the board.  If the buff does not look at facing cards and there is no open slot opposite
that it could reach, the promise is kept: `Play.value_of_buff`.
-/

namespace CardDuel

/-- All cards in sight show the mark of special cards if they are special. -/
structure Situation.IsMarked (situation : Situation) : Prop where
  hand : ∀ card ∈ situation.hand, card.IsMarked
  board : ∀ seat, ∀ entry ∈ situation.board.occupied seat, entry.2.IsMarked

namespace Play

namespace View

variable {view : View} {special : Special} {delta : Int}

/-! ### Numbers that are reached -/

theorem isSome_reached {application : Application} (ignores : application.IgnoresFacing)
    (side : Side) (card : Card) (facing : Option Card) :
  (if application.reaches side (some card) facing then card.number? else none).isSome
    = application.reachesNumber side card
  := by
  rw [Application.reachesNumber, ignores.reaches_eq side (some card) facing none]
  split <;> simp_all

theorem length_reachedNumbers (ignores : special.application.IgnoresFacing) :
  (view.reachedNumbers special).length
    = view.play.placements.countP fun placement =>
        special.application.reachesNumber .friendly placement.card
  := by simp only [reachedNumbers, List.length_filterMap_eq_countP, isSome_reached ignores]

theorem length_reachedHeldNumbers (ignores : special.application.IgnoresFacing) :
  (view.reachedHeldNumbers special).length
    = (view.situation.board.held view.situation.seat).countP fun entry =>
        special.application.reachesNumber .friendly entry.2
  := by
  simp only [reachedHeldNumbers, List.length_filterMap_eq_countP, isSome_reached ignores]

/-! ### What a buff promises -/

theorem change_adding (adding : special.effect = .adding delta) (n : Int) :
  change special.effect n = .ok delta
  := by
  rw [adding]
  rfl

theorem sum_swing_of_forall {adjustments : List Adjustment} (amount : Int)
    (each : ∀ adjustment ∈ adjustments, adjustment.swing = amount) :
  (adjustments.map Adjustment.swing).sum = amount * adjustments.length
  := by
  rw [List.sum_eq_card_nsmul _ amount (List.forall_mem_map.mpr each)]
  simp [mul_comm]

/-- In a column of the opponent a buff costs its number if it reaches a number there. -/
theorem sum_swing_enemyCost (adding : special.effect = .adding delta)
    (ignores : special.application.IgnoresFacing)
    (sheltered : view.situation.board.openColumns view.situation.opponent = []
      ∨ special.application.canReach .enemy = false) (column : Nat) :
  ((view.enemyCost special column).map Adjustment.swing).sum
    = -(delta * (view.enemy column).toList.countP (special.application.reachesNumber .enemy))
  := by
  rw [enemyCost]
  cases view.enemy column with
  | none =>
    have closed : (view.situation.board.isOpen view.situation.opponent column
        && special.application.canReach .enemy) = false := by
      rcases sheltered with none | unreachable
      · have shut : column ∉ view.situation.board.openColumns view.situation.opponent := by
          simp [none]
        rw [Board.mem_openColumns, Bool.not_eq_true] at shut
        simp [shut]
      · simp [unreachable]
    simp [closed]
  | some card =>
    dsimp only
    rw [ignores.reaches_eq .enemy (some card) (view.friendly column) none]
    by_cases reached : special.application.reaches .enemy (some card) none = true
    · cases shown : card.number? with
      | none => simp [Application.reachesNumber, shown]
      | some n => simp [Application.reachesNumber, shown, reached, change_adding adding,
          Adjustment.swing]
    · simp [Application.reachesNumber, reached]

theorem sum_swing_flatMap_enemyCost (adding : special.effect = .adding delta)
    (ignores : special.application.IgnoresFacing)
    (sheltered : view.situation.board.openColumns view.situation.opponent = []
      ∨ special.application.canReach .enemy = false) :
  (((List.range view.situation.board.width).flatMap (view.enemyCost special)).map
      Adjustment.swing).sum
    = -(delta * view.enemyCards.countP fun entry =>
        special.application.reachesNumber .enemy entry.2)
  := by
  unfold enemyCards Board.occupied
  induction List.range view.situation.board.width with
  | nil => simp
  | cons column rest ih =>
    rw [List.flatMap_cons, List.map_append, List.sum_append, ih,
      sum_swing_enemyCost adding ignores sheltered, enemy]
    cases cardAt : view.situation.board.card? view.situation.opponent column with
    | none => simp [cardAt]
    | some card =>
      by_cases reached : special.application.reachesNumber .enemy card = true
      · simp [cardAt, reached]
        ring
      · simp [cardAt, reached]

/-- All that the adjustments for a buff amount to. -/
theorem sum_swing_changeAdjustments (adding : special.effect = .adding delta)
    (ignores : special.application.IgnoresFacing)
    (sheltered : view.situation.board.openColumns view.situation.opponent = []
      ∨ special.application.canReach .enemy = false)
    (amounts : ∀ adjustment ∈ view.changeAdjustments special, ∃ n, adjustment.amount = .ok n) :
  ((view.changeAdjustments special).map Adjustment.swing).sum
    = delta * (view.play.placements.countP fun placement =>
        special.application.reachesNumber .friendly placement.card)
      + (delta + view.settings.heldFriendlyBonus)
        * ((view.situation.board.held view.situation.seat).countP fun entry =>
          special.application.reachesNumber .friendly entry.2)
      - delta * (view.enemyCards.countP fun entry =>
        special.application.reachesNumber .enemy entry.2)
  := by
  unfold changeAdjustments at amounts ⊢
  obtain ⟨amounts, -⟩ := List.forall_mem_append.mp amounts
  obtain ⟨-, held⟩ := List.forall_mem_append.mp amounts
  rw [List.map_append, List.map_append, List.sum_append, List.sum_append,
    sum_swing_flatMap_enemyCost adding ignores sheltered, sum_swing_of_forall delta,
    sum_swing_of_forall (delta + view.settings.heldFriendlyBonus), List.length_map,
    List.length_map, length_reachedNumbers ignores, length_reachedHeldNumbers ignores]
  · ring
  · intro adjustment mem
    obtain ⟨sum, added⟩ := held adjustment mem
    obtain ⟨n, -, rfl⟩ := List.mem_map.mp mem
    rw [change_adding adding, Checked.ok_bind] at added ⊢
    have added : Checked.add delta view.settings.heldFriendlyBonus = .ok sum := added
    rw [added]
    apply (Checked.add_eq_ok_iff.mp added).2.symm
  · intro adjustment mem
    obtain ⟨n, -, rfl⟩ := List.mem_map.mp mem
    rw [change_adding adding]
    rfl

end View

/-! ### What a buff does -/

section

variable {situation : Situation} {settings : PlaySettings} {indices : List Nat} {play : Play}

/-- Cards that are played from a hand of marked cards are marked. -/
theorem Distributes.isMarked (h : play.Distributes situation indices)
    (marked : ∀ card ∈ situation.hand, card.IsMarked) :
  ∀ card ∈ play.cards, card.IsMarked
  := by
  intro card mem
  rw [h.cards.mem_iff, List.mem_map] at mem
  obtain ⟨card, mem, rfl⟩ := mem
  obtain ⟨i, -, cardAt⟩ := List.mem_filterMap.mp mem
  apply (marked card (List.mem_of_getElem? cardAt)).reset

variable {special : Special} {delta : Int}

/-- The held numbers of a seat that an application reaches as they lie on the board. -/
theorem countP_held_reached {application : Application} (ignores : application.IgnoresFacing)
    (board : Board) (seat : Seat) :
  (board.held seat).countP (fun (column, card) =>
      board.isReached application seat (column, seat) && card.number?.isSome)
    = (board.held seat).countP fun entry => application.reachesNumber .friendly entry.2
  := by
  apply List.countP_congr
  rintro ⟨column, card⟩ mem
  have cardAt := Board.mem_occupied.mp (List.mem_of_mem_filter mem)
  dsimp only at cardAt ⊢
  rw [Board.isReached_of_ignoresFacing ignores, Seat.sideFor_self, cardAt,
    Application.reachesNumber]

/-- What a buff brings on the board on which a play lies: for the player its number for every
number that it reaches among the cards played and held, and the same for the opponent. -/
theorem total_of_buff {board : Board} {result : Board × Nat} (marked : situation.IsMarked)
    (kept : ∀ column card, situation.board.card? situation.seat column = some card →
      situation.board.isHeld situation.seat column = true)
    (distributes : play.Distributes situation indices)
    (isPlaced : IsPlaced situation.seat play.placements situation.board board)
    (adding : special.effect = .adding delta) (ignores : special.application.IgnoresFacing)
    (h : board.changeReached situation.seat special = .ok result) :
  result.1.total situation.seat = board.total situation.seat
      + delta * (play.placements.countP (fun placement =>
          special.application.reachesNumber .friendly placement.card)
        + (situation.board.held situation.seat).countP fun entry =>
          special.application.reachesNumber .friendly entry.2)
    ∧ result.1.total situation.opponent = board.total situation.opponent
      + delta * (situation.board.occupied situation.opponent).countP fun entry =>
        special.application.reachesNumber .enemy entry.2
  := by
  have perm := isPlaced.occupied_perm distributes.distinct distributes.isOpen
  have theirs : board.occupied situation.opponent = situation.board.occupied situation.opponent :=
    isPlaced.occupied_opponent
  constructor
  · rw [Board.total_changeReached ignores adding situation.seat _ h, perm.countP_eq,
      List.countP_append, List.countP_map, Board.held_eq_occupied kept, Seat.sideFor_self]
    · push_cast
      rfl
    · intro entry mem
      rcases List.mem_append.mp (perm.mem_iff.mp mem) with new | old
      · obtain ⟨placement, played, rfl⟩ := List.mem_map.mp new
        apply distributes.isMarked marked.hand _ (List.mem_map_of_mem played)
      · apply marked.board _ entry old
  · rw [Board.total_changeReached ignores adding situation.opponent _ h, theirs,
      Situation.opponent, Seat.sideFor_opponent]
    rw [theirs]
    apply marked.board

/-- A play with a numeric buff as its only special card is worth what it brings.  Suppose that
the buff does not look at facing cards, that it cannot reach an open slot of the opponent, and
that all cards on the player's side are held.  Then the value of the play is the sum of its
numbers, the bonuses for cards that beat held ones by exactly one, for the special card and for
held cards that it reaches, and what the cast of the special card gains for the player's total
over the opponent's. -/
theorem value_of_buff {stream stream' : Stream} (marked : situation.IsMarked)
    (kept : ∀ column card, situation.board.card? situation.seat column = some card →
      situation.board.isHeld situation.seat column = true)
    (room : indices.length ≤ situation.openColumns.length)
    (built : ofIndices situation settings indices stream = .ok (play, stream'))
    (single : play.specials = [special]) (adding : special.effect = .adding delta)
    (ignores : special.application.IgnoresFacing)
    (sheltered : situation.board.openColumns situation.opponent = []
      ∨ special.application.canReach .enemy = false)
    (hands : Pair Hand) :
  ∃ board, play.place situation.board situation.seat = (board, none)
    ∧ ((∀ fault, fault.IsOverflow →
        Arena.cast ⟨board, hands⟩ situation.seat special ≠ .error fault) →
      ∃ arena touched, Arena.cast ⟨board, hands⟩ situation.seat special = .ok (.ok (arena, touched))
        ∧ play.value = play.numbers.sum
          + settings.holdMarginBonus
            * play.placements.countP (View.beatsByOne ⟨play, situation, settings⟩)
          + settings.specialBonus
          + settings.heldFriendlyBonus
            * (situation.board.held situation.seat).countP (fun (column, card) =>
              situation.board.isReached special.application situation.seat
                  (column, situation.seat)
                && card.number?.isSome)
          + ((arena.board.total situation.seat - board.total situation.seat)
            - (arena.board.total situation.opponent - board.total situation.opponent)))
  := by
  have distributes := distributes_ofIndices room built
  obtain ⟨foresight, -, -, valued⟩ := ofIndices_eq_ok built
  obtain ⟨board, placed, isPlaced⟩ := distributes.exists_place
  refine ⟨board, placed, ?_⟩
  intro noOverflow
  have isBuff : special.effect.kind = .buff := by
    rw [adding]
    rfl
  obtain ⟨result, changed, cast⟩ := Arena.exists_onBoard
    (x := board.changeReached situation.seat special) (by simp only [Arena.cast, isBuff])
    noOverflow
  refine ⟨_, _, cast, ?_⟩
  obtain ⟨mine, theirs⟩ := total_of_buff marked kept distributes isPlaced adding ignores changed
  obtain ⟨value, amounts⟩ := View.value_of_single_special single valued
  have promised : View.effectAdjustments ⟨play, situation, settings⟩ special
      = View.changeAdjustments ⟨play, situation, settings⟩ special := by
    simp only [View.effectAdjustments, isBuff]
  rw [promised] at value amounts
  rw [View.sum_swing_changeAdjustments adding ignores sheltered amounts] at value
  rw [value, mine, theirs, countP_held_reached ignores]
  simp only [View.enemyCards]
  ring

end

/-- A buff of two for all numbers. -/
def tide : Special := ⟨"Tide", "", .nothing, .any, .adding 2⟩

/-- A four and the tide for two open slots, beside a held six and against a held three, a seven
and a slot that is held empty. -/
def harbour : Situation where
  hand := [.standard "Ex" (.number 4), .ofSpecial tide]
  board := ⟨[
    ⟨{}, { card := some (.standard "Boyfriend" (.number 3)), hold := .held }⟩,
    ⟨{ card := some (.standard "Ex" (.number 6)), hold := .carried },
      { card := some (.standard "Boyfriend" (.number 7)) }⟩,
    ⟨{}, { hold := .held }⟩]⟩
  seat := .first

/-- The four beats the three by one, and the tide lifts two numbers on either side, one of them
held by the player. -/
theorem value_of_tide :
  ∃ play stream board arena touched,
    ofIndices harbour {} [0, 1] (.ofSeed 0) = .ok (play, stream)
    ∧ play.place harbour.board .first = (board, none)
    ∧ Arena.cast ⟨board, ⟨{}, {}⟩⟩ .first tide = .ok (.ok (arena, touched))
    ∧ play.value = 29
    ∧ play.value = 4 + 10 * 1 + 10 + 5 * 1
      + ((arena.board.total .first - board.total .first)
        - (arena.board.total .second - board.total .second))
  := by
  have built : ofIndices harbour {} [0, 1] (.ofSeed 0) = .ok (⟨[⟨0, 0, .standard "Ex" (.number 4)⟩,
      ⟨2, 1, .ofSpecial tide⟩], 29⟩, .ofSeed 0) := rfl
  have marked : harbour.IsMarked := by
    constructor
    · exact List.forall_mem_cons.mpr ⟨Card.isMarked_standard "Ex" (.number 4),
        List.forall_mem_singleton.mpr (Card.isMarked_ofSpecial tide)⟩
    · rintro (_ | _) <;> decide
  have kept : ∀ column card, harbour.board.card? .first column = some card →
      harbour.board.isHeld .first column = true := by
    intro column card cardAt
    have held : ∀ entry ∈ harbour.board.occupied .first,
        harbour.board.isHeld .first entry.1 = true := by
      decide
    apply held (column, card) (Board.mem_occupied.mpr cardAt)
  have shut : harbour.board.openColumns .second = [] := rfl
  obtain ⟨board, placed, gains⟩ := value_of_buff marked kept (by decide) built rfl rfl
    (by simp [Application.IgnoresFacing, tide, Application.any, Aim.ofScope, Aim.opposite])
    (.inl shut) ⟨{}, {}⟩
  obtain rfl := congrArg Prod.fst placed
  obtain ⟨arena, touched, cast, value⟩ := gains <| by
    intro fault _ failed
    have succeeds : true = false := congrArg Except.isOk failed
    contradiction
  exact ⟨_, _, _, arena, touched, built, placed, cast, rfl, value⟩

end Play

end CardDuel
