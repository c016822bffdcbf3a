import CardDuel.Play.Basic

/-!
# The value of a play

`Play.appraise` adds up what a play is expected to bring.  It starts from the sum of the
numbers played and goes through a list of adjustments: a bonus for each held opposing card
beaten by exactly one, and for each special card a bonus and what its effect promises.  A
card that is not on the board yet is taken to be worth `unknownValue`.
-/

namespace CardDuel.Play

/-- The value expected of a card that is not on the board yet. -/
def unknownValue : Int := 5

/-- Something to be added to the value of a play, or to be taken from it. -/
inductive Adjustment where
  | gain (amount : Except Fault Int)
  | cost (amount : Except Fault Int)

/-- The value after an adjustment. -/
def Adjustment.applyTo (value : Int) : Adjustment → Except Fault Int
  | gain amount => do
    let amount ← amount
    Checked.add value amount
  | cost amount => do
    let amount ← amount
    Checked.sub value amount

/-- A play as it would lie on the board of a situation. -/
structure View where
  play : Play
  situation : Situation
  settings : PlaySettings

namespace View

/-- The player's card in a column: the one played there or the one that lies there. -/
def friendly (view : View) (column : Nat) : Option Card :=
  (view.play.cardAt? column).or
    (view.situation.board.card? view.situation.seat column)

/-- The opposing card in a column. -/
def enemy (view : View) (column : Nat) : Option Card :=
  view.situation.board.card? view.situation.opponent column

/-- The numbers played that a special card reaches. -/
def reachedNumbers (view : View) (special : Special) : List Int :=
  view.play.placements.filterMap fun placement =>
    if special.application.reaches .friendly (some placement.card) (view.enemy placement.column)
    then placement.card.number?
    else none

/-- The numbers on the player's held cards that a special card reaches. -/
def reachedHeldNumbers (view : View) (special : Special) : List Int :=
  (view.situation.board.held view.situation.seat).filterMap fun (column, card) =>
    if special.application.reaches .friendly (some card) (view.enemy column) then card.number?
    else none

/-- The numbers on the opponent's cards in a list that a special card reaches. -/
def reachedEnemyNumbers (view : View) (special : Special) (cards : List (Nat × Card)) :
    List Int :=
  cards.filterMap fun (column, card) =>
    if special.application.reaches .enemy (some card) (view.friendly column) then card.number?
    else none

/-- The opponent's cards on the board with their columns. -/
def enemyCards (view : View) : List (Nat × Card) :=
  view.situation.board.occupied view.situation.opponent

/-- The opponent's held cards with their columns. -/
def enemyHeld (view : View) : List (Nat × Card) :=
  view.situation.board.held view.situation.opponent

/-! ### Adjustments -/

/-- The bonus for a card that beats a held opposing card by exactly one. -/
def marginBonus (view : View) (placement : Placement) : List Adjustment :=
  match placement.card.number?, (view.enemy placement.column).bind Card.number? with
  | some mine, some target =>
    if view.situation.board.isHeld view.situation.opponent placement.column then
      [.gain ((Checked.add target 1).map fun next =>
        if mine = next then view.settings.holdMarginBonus else 0)]
    else []
  | _, _ => []

/-- What a buff or multiplier adds to a number. -/
def change (effect : Effect) (n : Int) : Except Fault Int :=
  (effect.delta? n).map (·.getD 0)

/-- What a buff or multiplier costs in a column of the opponent: what it adds to a card that
it reaches, and in an open slot that it can reach what it adds to an unknown card. -/
def enemyCost (view : View) (special : Special) (column : Nat) : List Adjustment :=
  match view.enemy column with
  | some card =>
    if special.application.reaches .enemy (some card) (view.friendly column) then
      card.number?.toList.map fun n => .cost (change special.effect n)
    else []
  | none =>
    if view.situation.board.isOpen view.situation.opponent column
        && special.application.canReach .enemy then
      [.cost (change special.effect unknownValue)]
    else []

/-- The adjustments for a buff or multiplier. -/
def changeAdjustments (view : View) (special : Special) : List Adjustment :=
  (view.reachedNumbers special).map (fun n => .gain (change special.effect n))
    ++ (view.reachedHeldNumbers special).map (fun n =>
      .gain do
        let amount ← change special.effect n
        Checked.add amount view.settings.heldFriendlyBonus)
    ++ (List.range view.situation.board.width).flatMap (view.enemyCost special)

/-- The adjustments for an effect that pays off with low cards. -/
def lowAdjustments (view : View) (special : Special) : List Adjustment :=
  (view.reachedNumbers special).map (fun n =>
    .gain do
      let amount ← Checked.sub 10 n
      Checked.add amount (if n < 5 then 5 else 0))
    ++ (view.reachedEnemyNumbers special view.enemyHeld).map fun n => .gain (Checked.sub n 5)

/-- The number that a clone would copy: that of the first card it reaches that shows one. -/
def donor? (view : View) (special : Special) : Option Int :=
  (List.range view.situation.board.width).findSome? fun column =>
    let mine := view.friendly column
    let theirs := view.enemy column
    let ours : Option Int :=
      if special.application.reaches .friendly mine theirs then mine.bind Card.number? else none
    let other : Option Int :=
      if special.application.reaches .enemy theirs mine then theirs.bind Card.number? else none
    ours.or other

/-- What copying a number to all numbers played adds to their sum. -/
def cloneGain (view : View) (donor : Int) : Except Fault Int :=
  (view.play.cards.filterMap Card.number?).foldlM
    (fun total n => do
      let difference ← Checked.sub donor n
      Checked.add total difference)
    0

/-- The adjustments for a clone. -/
def cloneAdjustments (view : View) (special : Special) : List Adjustment :=
  match view.donor? special with
  | none => []
  | some donor =>
    let width : Int := view.situation.board.width
    .gain (view.cloneGain donor)
      :: (view.enemyHeld.filterMap fun (_, card) => card.number?).map fun n =>
        .gain (.ok (if n < donor then width else -width))

/-- The adjustments for an effect that holds slots. -/
def waitAdjustments (view : View) (special : Special) : List Adjustment :=
  (view.reachedNumbers special).map (fun n => .gain (Checked.sub n 5))
    ++ (view.reachedEnemyNumbers special view.enemyCards).map fun n => .cost (Checked.sub n 5)

/-- The adjustments for a flush: what becomes of the cards that stay in the hand. -/
def flushAdjustments (view : View) : List Adjustment :=
  let staying := view.situation.hand.zipIdx.filter fun (_, i) => !view.play.indices.contains i
  staying.flatMap fun (card, _) =>
    match card.special with
    | some special =>
      if special.effect.kind.isKeeper then [.cost (.ok view.settings.flushPenalty)] else []
    | none => card.number?.toList.map fun n => .gain (Checked.sub 5 n)

/-- The adjustments for the effect of a special card. -/
def effectAdjustments (view : View) (special : Special) : List Adjustment :=
  match special.effect.kind with
  | .buff | .multiply => view.changeAdjustments special
  | .switch | .reverse | .kiss => view.lowAdjustments special
  | .clone => view.cloneAdjustments special
  | .wait => view.waitAdjustments special
  | .flush => view.flushAdjustments
  | .replace | .randomize => []

/-- All adjustments of a play in order. -/
def adjustments (view : View) : List Adjustment :=
  view.play.placements.flatMap view.marginBonus
    ++ view.play.specials.flatMap fun special =>
      .gain (.ok view.settings.specialBonus) :: view.effectAdjustments special

/-- The sum of the numbers played, adjusted in order. -/
def value (view : View) : Except Fault Int := do
  let start ← Checked.sum (view.play.cards.filterMap Card.number?)
  view.adjustments.foldlM Adjustment.applyTo start

end View

/-- The play with the value expected of it. -/
def appraise (play : Play) (situation : Situation) (settings : PlaySettings) :
    Except Fault Play := do
  let value ← View.value ⟨play, situation, settings⟩
  pure { play with value }

end CardDuel.Play
