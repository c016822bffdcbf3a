import CardDuel.Proofs.Casting.Change
import CardDuel.Proofs.Play.Valuation
import Mathlib.Algebra.BigOperators.Group.List.Basic
import Mathlib.Tactic.Ring

/-!
# What a clone is worth

The value of a play with a clone foresees that all numbers played become that of a donor.  Both
the forecast and the clone itself look for the donor from left to right; but where a column has
two candidates, the forecast prefers the card of the player and the clone that of the first seat.
So the forecast comes true for the first seat, and for the second unless the first column with a
candidate has two that differ: `Play.cloneSwing_eq_change_iff`.
-/

namespace CardDuel

/-! ### Searching from left to right -/

/-- A search for a value finds it at the first place that has one. -/
theorem findSome?_eq_bind_find? {α β : Type} {f : α → Option β} {p : α → Bool} {as : List α}
    (same : ∀ a ∈ as, (f a).isSome = p a) :
  as.findSome? f = (as.find? p).bind f
  := by
  induction as with
  | nil => rfl
  | cons a rest ih =>
    obtain ⟨here, later⟩ := List.forall_mem_cons.mp same
    rw [List.findSome?_cons, List.find?_cons, ← here]
    cases found : f a with
    | none => apply ih later
    | some b => simp [found]

namespace Board

variable {board : Board} {application : Application} {caster : Seat}

/-- The first column in which an application reaches a card. -/
def firstReached? (board : Board) (application : Application) (caster : Seat) : Option Nat :=
  (List.range board.width).find? fun column =>
    board.isReached application caster (column, .first)
      || board.isReached application caster (column, .second)

/-- The number at a position if an application reaches it. -/
def reachedNumber? (board : Board) (application : Application) (caster : Seat)
    (position : Nat × Seat) : Option Int :=
  if board.isReached application caster position then
    (board.card? position.2 position.1).bind Card.number?
  else none

/-- The first number that an application reaches, if in each column the card of one seat is
looked at before that of its opponent. -/
def firstNumber? (board : Board) (application : Application) (caster seat : Seat) : Option Int :=
  (List.range board.width).findSome? fun column =>
    (board.reachedNumber? application caster (column, seat)).or
      (board.reachedNumber? application caster (column, seat.opponent))

/-- In the first column in which an application reaches a card it reaches two, and these show
different numbers. -/
def DonorsDiffer (board : Board) (application : Application) (caster : Seat) : Prop :=
  ∃ column n m, board.firstReached? application caster = some column
    ∧ board.reachedNumber? application caster (column, .first) = some n
    ∧ board.reachedNumber? application caster (column, .second) = some m
    ∧ n ≠ m

/-- Every card that the application reaches shows a number. -/
def ReachesNumbers (board : Board) (application : Application) (caster : Seat) : Prop :=
  ∀ position, board.isReached application caster position = true →
    (board.reachedNumber? application caster position).isSome = true

theorem isSome_reachedNumber? (numbers : board.ReachesNumbers application caster)
    (position : Nat × Seat) :
  (board.reachedNumber? application caster position).isSome
    = board.isReached application caster position
  := by
  by_cases reached : board.isReached application caster position = true
  · rw [numbers position reached, reached]
  · simp [reachedNumber?, reached]

theorem firstNumber?_eq_bind (numbers : board.ReachesNumbers application caster) (seat : Seat) :
  board.firstNumber? application caster seat
    = (board.firstReached? application caster).bind fun column =>
      (board.reachedNumber? application caster (column, seat)).or
        (board.reachedNumber? application caster (column, seat.opponent))
  := by
  apply findSome?_eq_bind_find?
  intro column _
  rw [Option.isSome_or, isSome_reachedNumber? numbers, isSome_reachedNumber? numbers]
  cases seat
  · rfl
  · apply Bool.or_comm

/-- Both seats have a first number or none. -/
theorem isSome_firstNumber? (numbers : board.ReachesNumbers application caster) (seat : Seat) :
  (board.firstNumber? application caster seat).isSome
    = (board.firstNumber? application caster .first).isSome
  := by
  cases seat with
  | first => rfl
  | second =>
    rw [firstNumber?_eq_bind numbers, firstNumber?_eq_bind numbers]
    cases board.firstReached? application caster with
    | none => rfl
    | some column =>
      rw [Option.bind_some, Option.bind_some, Option.isSome_or, Option.isSome_or]
      apply Bool.or_comm

/-- To look at one seat first gives the same number as to look at the first seat first, unless
it is the other seat and the first donors differ. -/
theorem firstNumber?_eq_iff (numbers : board.ReachesNumbers application caster) (seat : Seat) :
  board.firstNumber? application caster seat = board.firstNumber? application caster .first
    ↔ ¬ (seat = .second ∧ board.DonorsDiffer application caster)
  := by
  cases seat with
  | first => simp
  | second =>
    rw [firstNumber?_eq_bind numbers, firstNumber?_eq_bind numbers, DonorsDiffer]
    cases board.firstReached? application caster with
    | none => simp
    | some column =>
      simp only [Option.bind_some, Seat.opponent, Option.some.injEq, true_and]
      cases mine : board.reachedNumber? application caster (column, .first) <;>
        cases theirs : board.reachedNumber? application caster (column, .second) <;>
        simp [mine, theirs, eq_comm]

/-- A clone copies the first number that is reached, in each column that of the first seat
before that of the second. -/
theorem number?_donor? {special : Special}
    (numbers : board.ReachesNumbers special.application caster) :
  (board.donor? caster special).bind (·.value.number?)
    = board.firstNumber? special.application caster .first
  := by
  have searched : (board.donor? caster special).bind (·.value.number?)
      = board.positions.findSome? (board.reachedNumber? special.application caster) := by
    rw [findSome?_eq_bind_find? fun position _ => isSome_reachedNumber? numbers position, donor?]
    cases found : board.positions.find? (board.isReached special.application caster) with
    | none => rfl
    | some position =>
      simp only [Option.bind_some, reachedNumber?, List.find?_some found, if_true]
      cases board.card? position.2 position.1 <;> rfl
  rw [searched, positions, firstNumber?]
  induction List.range board.width with
  | nil => rfl
  | cons column rest ih =>
    rw [List.flatMap_cons, List.findSome?_append, ih, List.findSome?_cons]
    simp only [Seat.all, Seat.opponent, List.map_cons, List.map_nil, List.findSome?_cons,
      List.findSome?_nil]
    cases board.reachedNumber? special.application caster (column, .first) with
    | some n => rfl
    | none =>
      cases board.reachedNumber? special.application caster (column, .second) <;> rfl

/-- What a clone copies is a number. -/
theorem exists_number_of_donor? {special : Special} {donor : Face}
    (numbers : board.ReachesNumbers special.application caster)
    (found : board.donor? caster special = some donor) :
  ∃ n, donor.value.number? = some n
  := by
  obtain ⟨⟨column, seat⟩, first, shown⟩ := Option.bind_eq_some_iff.mp found
  obtain ⟨card, cardAt, rfl⟩ := Option.map_eq_some_iff.mp shown
  have number := numbers (column, seat) (List.find?_some first)
  rw [reachedNumber?, if_pos (List.find?_some first), cardAt] at number
  apply Option.isSome_iff_exists.mp number

/-- The sum of the numbers of a seat in the slots of some placements. -/
def sumAt (board : Board) (seat : Seat) (placements : List Placement) : Int :=
  (placements.filterMap fun placement =>
    (board.card? seat placement.column).bind Card.number?).sum

end Board

namespace Play

/-! ### What a clone promises -/

/-- What numbers gain when a donor is copied to all of them; without a donor nothing. -/
def copyingGain (donor : Option Int) (ns : List Int) : Int :=
  (ns.map fun n => donor.getD n - n).sum

theorem copyingGain_none (ns : List Int) :
  copyingGain none ns = 0
  := by simp [copyingGain]

theorem copyingGain_some (donor : Int) (ns : List Int) :
  copyingGain (some donor) ns = ns.length * donor - ns.sum
  := by
  unfold copyingGain
  induction ns with
  | nil => simp
  | cons n rest ih =>
    rw [List.map_cons, List.sum_cons, ih, List.length_cons, List.sum_cons, Option.getD_some]
    push_cast
    ring

/-- Two donors bring the same gain only if they are equal or there is nothing to copy to. -/
theorem copyingGain_eq_iff {donor donor' : Option Int} {ns : List Int}
    (both : donor.isSome = donor'.isSome) :
  copyingGain donor ns = copyingGain donor' ns ↔ ns = [] ∨ donor = donor'
  := by
  cases donor with
  | none =>
    obtain rfl : donor' = none := by simpa using both
    simp
  | some n =>
    obtain ⟨m, rfl⟩ := Option.isSome_iff_exists.mp both.symm
    rw [copyingGain_some, copyingGain_some, sub_left_inj, mul_eq_mul_left_iff, Option.some.injEq]
    simp [or_comm]

namespace View

variable {view : View} {special : Special}

/-- What the value of a play counts for a clone: for every number played, the donor minus that
number. -/
def cloneSwing (view : View) (special : Special) : Int :=
  copyingGain (view.donor? special) view.play.numbers

/-- What the value of a play counts for a clone against held numbers: the width of the board for
those below the donor, and minus the width for the others. -/
def standoff (view : View) (special : Special) : Int :=
  match view.donor? special with
  | none => 0
  | some donor =>
    ((view.enemyHeld.filterMap fun (_, card) => card.number?).map fun n =>
      if n < donor then (view.situation.board.width : Int) else -view.situation.board.width).sum

theorem sum_swing_cloneAdjustments
    (amounts : ∀ adjustment ∈ view.cloneAdjustments special, ∃ n, adjustment.amount = .ok n) :
  ((view.cloneAdjustments special).map Adjustment.swing).sum
    = view.cloneSwing special + view.standoff special
  := by
  unfold cloneAdjustments at amounts ⊢
  unfold cloneSwing standoff
  generalize view.donor? special = found at amounts ⊢
  cases found with
  | none => simp [copyingGain_none]
  | some donor =>
    obtain ⟨⟨gain, gained⟩, -⟩ := List.forall_mem_cons.mp amounts
    have gained : view.cloneGain donor = .ok gain := gained
    have added : gain = 0 + (view.play.numbers.map fun n => donor - n).sum := by
      apply Checked.eq_add_sum_of_foldlM _ gained
      intro n _ total next step
      obtain ⟨difference, taken, added⟩ := Checked.bind_eq_ok_iff.mp step
      obtain rfl := (Checked.sub_eq_ok_iff.mp taken).2
      apply (Checked.add_eq_ok_iff.mp added).2.symm
    rw [List.map_cons, List.sum_cons, gained, added, List.map_map]
    simp [Adjustment.swing, copyingGain, Function.comp_def]

/-- The value of a play with a clone as its only special card. -/
theorem value_of_clone {value : Int} (single : view.play.specials = [special])
    (isClone : special.effect.kind = .clone) (h : view.value = .ok value) :
  value = view.play.numbers.sum
    + view.settings.holdMarginBonus * view.play.placements.countP view.beatsByOne
    + view.settings.specialBonus + view.cloneSwing special + view.standoff special
  := by
  obtain ⟨rfl, amounts⟩ := value_of_single_special single h
  have promised : view.effectAdjustments special = view.cloneAdjustments special := by
    simp only [effectAdjustments, isClone]
  rw [promised] at amounts ⊢
  rw [sum_swing_cloneAdjustments amounts]
  ring

end View

/-! ### What a clone does -/

section

variable {situation : Situation} {settings : PlaySettings} {indices : List Nat} {play : Play}
  {special : Special} {board : Board}

/-- A play is valued as it lies on the board. -/
theorem friendly_of_isPlaced
    (isPlaced : IsPlaced situation.seat play.placements situation.board board) (column : Nat) :
  View.friendly ⟨play, situation, settings⟩ column = board.card? situation.seat column
  := by
  rw [View.friendly, cardAt?]
  cases found : play.placements.find? fun placement => placement.column == column with
  | none =>
    have elsewhere : ∀ placement ∈ play.placements, placement.column ≠ column := by
      simpa using found
    rw [Option.map_none, Option.none_or, Board.card?, Board.card?,
      isPlaced.others situation.seat column fun _ => elsewhere]
  | some placement =>
    have here := List.find?_some found
    obtain rfl : placement.column = column := by simpa using here
    rw [Board.card?_of_slot? (isPlaced.placed placement (List.mem_of_find?_eq_some found))]
    rfl

theorem enemy_of_isPlaced
    (isPlaced : IsPlaced situation.seat play.placements situation.board board) (column : Nat) :
  View.enemy ⟨play, situation, settings⟩ column = board.card? situation.opponent column
  := by
  rw [View.enemy, Board.card?, Board.card?, isPlaced.others situation.opponent column]
  exact fun same => absurd same situation.seat.opponent_ne

/-- The forecast looks for a donor on the board as it will be, in each column on the side of the
player first. -/
theorem donor?_of_isPlaced
    (isPlaced : IsPlaced situation.seat play.placements situation.board board) :
  View.donor? ⟨play, situation, settings⟩ special
    = board.firstNumber? special.application situation.seat situation.seat
  := by
  rw [View.donor?, Board.firstNumber?, isPlaced.width]
  congr 1
  funext column
  rw [friendly_of_isPlaced isPlaced, enemy_of_isPlaced isPlaced]
  simp only [Board.reachedNumber?, Board.isReached, Situation.opponent, Seat.sideFor_self,
    Seat.sideFor_opponent, Seat.opponent_opponent]
  rfl

/-- Among numbers and with one special card in play, an application without empty joins reaches
only numbers. -/
theorem reachesNumbers_of_isPlaced
    (isPlaced : IsPlaced situation.seat play.placements situation.board board)
    (numbers : ∀ seat, ∀ entry ∈ situation.board.occupied seat, entry.2.IsNumeric)
    (cards : ∀ card ∈ play.cards, card.IsNumeric ∨ card = .ofSpecial special)
    {application : Application} (filled : application.hasEmptyJoin = false) (caster : Seat) :
  board.ReachesNumbers application caster
  := by
  rintro ⟨column, seat⟩ reached
  obtain ⟨card, cardAt, standard⟩ := Application.exists_card_of_reaches filled reached
  rw [Board.reachedNumber?, if_pos reached, cardAt]
  have isNumeric : card.IsNumeric := by
    by_cases here : seat = situation.seat
        ∧ ∃ placement ∈ play.placements, placement.column = column
    · obtain ⟨rfl, placement, mem, rfl⟩ := here
      rw [Board.card?_of_slot? (isPlaced.placed placement mem)] at cardAt
      obtain rfl := Option.some.inj cardAt
      apply (cards _ (List.mem_map_of_mem mem)).resolve_right
      rintro isSpecial
      rw [isSpecial] at standard
      contradiction
    · rw [Board.card?, isPlaced.others seat column fun same placement mem sameColumn =>
        here ⟨same, placement, mem, sameColumn⟩] at cardAt
      apply numbers seat (column, card) (Board.mem_occupied.mpr cardAt)
  apply isNumeric.number

theorem sumAt_of_isPlaced
    (isPlaced : IsPlaced situation.seat play.placements situation.board board) :
  board.sumAt situation.seat play.placements = play.numbers.sum
  := by
  unfold Board.sumAt numbers Play.cards
  rw [List.filterMap_map]
  congr 1
  apply List.filterMap_congr
  intro placement mem
  rw [Board.card?_of_slot? (isPlaced.placed placement mem)]
  rfl

/-- A number becomes that of the donor, and a special card stays without one. -/
theorem number?_of_apply_copying {card card' : Card} {changed : Bool} {donor : Face} {n : Int}
    (h : card.IsNumeric ∨ card = .ofSpecial special) (number : donor.value.number? = some n)
    (applied : card.apply (.copying donor) = .ok (card', changed)) :
  card'.number? = card.number?.map fun _ => n
  := by
  rcases h with isNumeric | rfl
  · obtain ⟨m, shown⟩ := Option.isSome_iff_exists.mp isNumeric.number
    rw [shown, Card.number?, isNumeric.face_of_apply_copying applied, number]
    rfl
  · obtain rfl := (Card.altered_apply applied).immune rfl
    rfl

/-- After a clone all numbers played are that of the donor. -/
theorem sumAt_of_copied {result : Board × Nat} {donor : Face} {n : Int}
    (isPlaced : IsPlaced situation.seat play.placements situation.board board)
    (cards : ∀ card ∈ play.cards, card.IsNumeric ∨ card = .ofSpecial special)
    (number : donor.value.number? = some n)
    (changes : Board.Changes
      (fun _ card card' => ∃ changed, card.apply (.copying donor) = .ok (card', changed))
      ((List.range board.width).map fun column => (column, situation.seat)) board result.1) :
  result.1.sumAt situation.seat play.placements = play.numbers.length * n
  := by
  have copies : (play.placements.filterMap fun placement =>
        (result.1.card? situation.seat placement.column).bind Card.number?)
      = play.numbers.map fun _ => n := by
    unfold numbers Play.cards
    rw [List.filterMap_map, List.map_filterMap]
    apply List.filterMap_congr
    intro placement mem
    have slotAt := isPlaced.placed placement mem
    have copied := changes.here placement.column situation.seat <|
      List.mem_map_of_mem (List.mem_range.mpr (Board.lt_width_of_slot? slotAt))
    rw [Board.card?_of_slot? slotAt] at copied
    generalize result.1.card? situation.seat placement.column = found at copied
    cases copied with
    | some copied =>
      obtain ⟨changed, applied⟩ := copied
      apply number?_of_apply_copying (cards _ (List.mem_map_of_mem mem)) number applied
  rw [Board.sumAt, copies]
  simp

/-- A clone that is cast on the board on which a play lies succeeds, and the numbers played gain
what copying the donor brings. -/
theorem exists_cast_clone
    (isPlaced : IsPlaced situation.seat play.placements situation.board board)
    (cards : ∀ card ∈ play.cards, card.IsNumeric ∨ card = .ofSpecial special)
    (numbers : board.ReachesNumbers special.application situation.seat)
    (isClone : special.effect.kind = .clone) (hands : Pair Hand) :
  ∃ arena touched, Arena.cast ⟨board, hands⟩ situation.seat special = .ok (.ok (arena, touched))
    ∧ arena.board.sumAt situation.seat play.placements
        - board.sumAt situation.seat play.placements
      = copyingGain ((board.donor? situation.seat special).bind (·.value.number?)) play.numbers
  := by
  have cast : Arena.cast ⟨board, hands⟩ situation.seat special
      = (board.copyDonor situation.seat special).map fun result =>
        .ok (⟨result.1, hands⟩, result.2) := by
    simp only [Arena.cast, isClone]
  cases found : board.donor? situation.seat special with
  | none =>
    rw [Board.copyDonor, found] at cast
    refine ⟨_, _, cast, ?_⟩
    rw [Option.bind_none, copyingGain_none]
    apply sub_self
  | some donor =>
    obtain ⟨n, number⟩ := Board.exists_number_of_donor? numbers found
    obtain ⟨result, copied, changes⟩ := Board.exists_copyDonor found
    rw [copied] at cast
    refine ⟨_, _, cast, ?_⟩
    rw [Option.bind_some, number, copyingGain_some, sumAt_of_isPlaced isPlaced,
      sumAt_of_copied isPlaced cards number changes]

/-- What the value of a play counts for a clone is what the cast of the clone makes of the
numbers played, except for the second seat if the first column with a donor has two different
ones and a number is played.  Here all cards on the board are numbers, and so are all cards
played but for the clone. -/
theorem cloneSwing_eq_change_iff {stream stream' : Stream}
    (numbers : ∀ seat, ∀ entry ∈ situation.board.occupied seat, entry.2.IsNumeric)
    (cards : ∀ card ∈ play.cards, card.IsNumeric ∨ card = .ofSpecial special)
    (room : indices.length ≤ situation.openColumns.length)
    (built : ofIndices situation settings indices stream = .ok (play, stream'))
    (single : play.specials = [special]) (isClone : special.effect.kind = .clone)
    (filled : special.application.hasEmptyJoin = false) (hands : Pair Hand) :
  ∃ board arena touched, play.place situation.board situation.seat = (board, none)
    ∧ Arena.cast ⟨board, hands⟩ situation.seat special = .ok (.ok (arena, touched))
    ∧ play.value = play.numbers.sum
        + settings.holdMarginBonus
          * play.placements.countP (View.beatsByOne ⟨play, situation, settings⟩)
        + settings.specialBonus
        + View.cloneSwing ⟨play, situation, settings⟩ special
        + View.standoff ⟨play, situation, settings⟩ special
    ∧ (View.cloneSwing ⟨play, situation, settings⟩ special
        = arena.board.sumAt situation.seat play.placements
          - board.sumAt situation.seat play.placements
      ↔ ¬ (situation.seat = .second ∧ play.numbers ≠ []
        ∧ board.DonorsDiffer special.application situation.seat))
  := by
  have distributes := distributes_ofIndices room built
  obtain ⟨foresight, -, -, valued⟩ := ofIndices_eq_ok built
  obtain ⟨board, placed, isPlaced⟩ := distributes.exists_place
  have reaches := reachesNumbers_of_isPlaced isPlaced numbers cards filled situation.seat
  obtain ⟨arena, touched, cast, change⟩ :=
    exists_cast_clone isPlaced cards reaches isClone hands
  refine ⟨board, arena, touched, placed, cast, View.value_of_clone single isClone valued, ?_⟩
  rw [change, View.cloneSwing, donor?_of_isPlaced isPlaced, Board.number?_donor? reaches,
    copyingGain_eq_iff (Board.isSome_firstNumber? reaches situation.seat),
    Board.firstNumber?_eq_iff reaches]
  tauto

end

/-- A clone of the first card it finds. -/
def looking : Special := ⟨"Mirror", "", .nothing, .any, ⟨.clone, .none⟩⟩

/-- A five and a clone beside a held eight, against a three. -/
def hall : Situation where
  hand := [.standard "Ex" (.number 5), .ofSpecial looking]
  board := ⟨[
    ⟨{ card := some (.standard "Ex" (.number 8)), hold := .held },
      { card := some (.standard "Boyfriend" (.number 3)) }⟩,
    ⟨{}, {}⟩, ⟨{}, {}⟩]⟩
  seat := .first

/-- The same seen by the second seat. -/
def farHall : Situation :=
  { hall with board := hall.board.swapSides, seat := .second }

/-- For the first seat the five gains what is counted for it, since both searches find the
eight. -/
theorem cloneSwing_hall :
  ∃ play stream board arena touched,
    ofIndices hall {} [0, 1] (.ofSeed 0) = .ok (play, stream)
    ∧ play.place hall.board .first = (board, none)
    ∧ Arena.cast ⟨board, ⟨{}, {}⟩⟩ .first looking = .ok (.ok (arena, touched))
    ∧ play.value = 5 + 10 + 3
    ∧ arena.board.sumAt .first play.placements - board.sumAt .first play.placements = 3
  := by
  have built : ofIndices hall {} [0, 1] (.ofSeed 0) = .ok (⟨[⟨1, 0, .standard "Ex" (.number 5)⟩,
      ⟨2, 1, .ofSpecial looking⟩], 18⟩, .ofSeed 0) := rfl
  obtain ⟨board, arena, touched, placed, cast, -, promised⟩ := cloneSwing_eq_change_iff
    (by rintro (_ | _) <;> decide)
    (List.forall_mem_cons.mpr ⟨.inl (by decide), List.forall_mem_singleton.mpr (.inr rfl)⟩)
    (by decide) built rfl rfl rfl ⟨{}, {}⟩
  refine ⟨_, _, board, arena, touched, built, placed, cast, rfl, ?_⟩
  apply (promised.mpr _).symm
  rintro ⟨second, -⟩
  contradiction

/-- For the second seat the same play counts on a gain of three, but the clone finds the three of
the first seat and the five loses two. -/
theorem cloneSwing_farHall :
  ∃ play stream board arena touched,
    ofIndices farHall {} [0, 1] (.ofSeed 0) = .ok (play, stream)
    ∧ play.place farHall.board .second = (board, none)
    ∧ Arena.cast ⟨board, ⟨{}, {}⟩⟩ .second looking = .ok (.ok (arena, touched))
    ∧ View.cloneSwing ⟨play, farHall, {}⟩ looking = 3
    ∧ arena.board.sumAt .second play.placements - board.sumAt .second play.placements = -2
  := ⟨_, _, _, _, _, rfl, rfl, rfl, rfl, rfl⟩

end Play

end CardDuel
