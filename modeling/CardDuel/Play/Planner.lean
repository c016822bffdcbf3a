import CardDuel.GameError
import CardDuel.Play.Appraisal
import CardDuel.Play.Arrangement

/-!
# Choosing a play

The planner proposes lists of hand indices, builds a play from each and sorts the plays by
value.  A proposal is led by a special card and completed with the cards that its
requirement asks for and those that its effect favours; or it consists of the strongest
standard cards; or it starts from cheap cards that beat opposing ones.  `Situation.analyze`
gives the plays from the first legal one on, and `Situation.bestPlay` that first one.
-/

namespace CardDuel

/-- Build a play from hand indices: try the special cards out, arrange the cards, and value
the result. -/
def Play.ofIndices (situation : Situation) (settings : PlaySettings) (indices : List Nat)
    (stream : Stream) : Except Fault (Play × Stream) := do
  let foresight ← Play.Foresight.ofIndices situation indices
  let (arranged, stream) := foresight.arrange situation stream
  let placements := arranged.map fun (column, pick) =>
    (⟨column, pick.index, pick.card.reset⟩ : Placement)
  let play ← Play.appraise ⟨placements, 0⟩ situation settings
  pure (play, stream)

namespace Situation

/-! ### Plays led by a special card -/

/-- The indices of the special cards of the hand that are not in a list. -/
def specialIndices (situation : Situation) (skip : List Nat) : List Nat :=
  (List.range situation.hand.length).filter fun i =>
    !skip.contains i && situation.hand[i]?.any Card.isSpecial

/-- The indices of the standard cards of the hand that are not in a list. -/
def standardIndices (situation : Situation) (skip : List Nat) : List Nat :=
  (List.range situation.hand.length).filter fun i =>
    !skip.contains i && situation.hand[i]?.any fun card => !card.isSpecial

/-- The picked cards together with those held on the board. -/
def pool (situation : Situation) (picked : List Nat) : List Card :=
  situation.cardsAt picked ++ situation.heldCards

/-- Whether one more card keeps every quota with a cap within its bound. -/
def fits (situation : Situation) (picked : List Nat) (candidate : Nat) : Bool :=
  let pool := situation.pool (picked ++ [candidate])
  let quotas := (pool.filterMap (·.special)).flatMap fun special => special.requirement.leaves
  (quotas.filter fun quota => quota.comparison.isCap).all fun quota =>
    decide (quota.tally pool ≤ quota.count)

/-- How much a card is wanted beside a special card. -/
def preference (settings : PlaySettings) (special : Special) (card : Card) :
    Except Fault Int := do
  let value := card.number?.getD 0
  let base ← if special.effect.kind.rewardsLow then Checked.sub 11 value else pure value
  if special.application.reaches .friendly (some card) none then
    Checked.add base settings.selfBias
  else pure base

/-- The elements of a list with their keys.  A single element needs no key; otherwise the
second key is the first that sorting asks for. -/
def keyed {α : Type} (key : α → Except Fault Int) : List α → Except Fault (List (Int × α))
  | [] => .ok []
  | [a] => .ok [(0, a)]
  | a :: b :: rest => do
    let second ← key b
    let first ← key a
    let others ← rest.mapM fun c => (key c).map fun k => (k, c)
    pure ((first, a) :: (second, b) :: others)

/-- Indices of the hand, the most wanted beside a special card first. -/
def byPreference (situation : Situation) (settings : PlaySettings) (special : Special)
    (indices : List Nat) : Except Fault (List Nat) := do
  let keyed ← keyed
    (fun i =>
      match situation.hand[i]? with
      | some card => preference settings special card
      | none => pure 0)
    indices
  pure ((Play.sortDown (·.1) keyed).map (·.2))

/-- Pick from a pool the cards that a quota asks for, as long as they fit. -/
def pickForQuota (situation : Situation) (pool picked : List Nat) (quota : Quota) : List Nat :=
  if quota.comparison = .noMoreThan then picked
  else
    pool.foldl
      (fun picked i =>
        if quota.count ≤ quota.tally (situation.pool picked)
            || situation.needed ≤ picked.length then picked
        else if !picked.contains i && situation.hand[i]?.any quota.counts
            && situation.fits picked i then picked ++ [i]
        else picked)
      picked

/-- Pick from a list what fits and passes a test, until enough is picked. -/
def pickFitting (situation : Situation) (test : List Nat → Nat → Bool)
    (candidates picked : List Nat) : List Nat :=
  candidates.foldl
    (fun picked i =>
      if situation.needed ≤ picked.length then picked
      else if !picked.contains i && situation.fits picked i && test picked i then picked ++ [i]
      else picked)
    picked

/-- Whether the requirement of another special card is met by the cards picked. -/
def isSatisfied (situation : Situation) (picked : List Nat) (i : Nat) : Bool :=
  (situation.hand[i]?.bind (·.special)).any fun special =>
    special.requirement.verify (situation.pool picked)

/-- The cards for a play led by a special card, on top of those already picked. -/
def pickLedBy (situation : Situation) (settings : PlaySettings) (seed : List Nat)
    (leader : Nat) (special : Special) : Except Fault (List Nat) := do
  let picked := seed ++ [leader]
  let pool ← situation.byPreference settings special (situation.standardIndices picked)
  let picked := special.requirement.leaves.foldl (situation.pickForQuota pool) picked
  let picked := situation.pickFitting (fun _ _ => true) pool picked
  pure (situation.pickFitting situation.isSatisfied (situation.specialIndices seed) picked)

/-- A proposal, if it has as many cards as are needed. -/
def complete (situation : Situation) (picked : List Nat) : Option (List Nat) :=
  if picked.length = situation.needed then some picked else none

/-- The proposals led by the special cards of the hand, on top of those already picked. -/
def ledProposals (situation : Situation) (settings : PlaySettings) (seed : List Nat) :
    List (Except Fault (Option (List Nat))) :=
  if situation.needed ≤ seed.length then []
  else
    (situation.specialIndices seed).filterMap fun leader =>
      (situation.hand[leader]?.bind (·.special)).map fun special =>
        (situation.pickLedBy settings seed leader special).map situation.complete

/-! ### Plays of standard cards -/

/-- The proposal of the strongest standard cards on top of those already picked. -/
def strongestProposal (situation : Situation) (seed : List Nat) : Option (List Nat) :=
  let number (i : Nat) : Int := (situation.hand[i]?.bind Card.number?).getD 0
  let standard := Play.sortDown number (situation.standardIndices seed)
  situation.complete (seed ++ standard.take (situation.needed - seed.length))

/-- The cheapest card, not yet picked, that beats a number. -/
def beater? (situation : Situation) (picked : List Nat) (target : Int) : Option Nat :=
  let beating := (List.range situation.hand.length).filterMap fun i =>
    if picked.contains i then none
    else
      match situation.hand[i]?.bind Card.number? with
      | some n => if target < n then some (n, i) else none
      | none => none
  (Play.leastBy (·.1) beating).map (·.2)

/-- The cheapest cards that beat the opposing cards in the open columns, from left to
right. -/
def beaters (situation : Situation) : List Nat :=
  situation.openColumns.foldl
    (fun picked column =>
      if situation.needed ≤ picked.length then picked
      else
        match (situation.board.card? situation.opponent column).bind Card.number? with
        | none => picked
        | some target => picked ++ (situation.beater? picked target).toList)
    []

/-! ### The choice -/

/-- All proposals in the order in which they are made. -/
def proposals (situation : Situation) (settings : PlaySettings) :
    List (Except Fault (Option (List Nat))) :=
  let seed := situation.beaters
  situation.ledProposals settings [] ++ [.ok (situation.strongestProposal [])]
    ++ if seed.isEmpty then []
      else situation.ledProposals settings seed ++ [.ok (situation.strongestProposal seed)]

/-- Build the plays of a list of proposals, one after another on the same stream. -/
def buildAll (situation : Situation) (settings : PlaySettings) :
    List (Except Fault (Option (List Nat))) → Stream → Except Fault (List Play)
  | [], _ => .ok []
  | proposal :: rest, stream => do
    match ← proposal with
    | none => situation.buildAll settings rest stream
    | some indices =>
      let (play, stream) ← Play.ofIndices situation settings indices stream
      let plays ← situation.buildAll settings rest stream
      pure (play :: plays)

/-- All candidate plays in the order in which they are made. -/
def candidates (situation : Situation) (settings : PlaySettings) : Except Fault (List Play) :=
  situation.buildAll settings (situation.proposals settings)
    ((Stream.ofSeed settings.seed).within "arrange")

/-- The candidate plays by value, from the first legal one on.  Where no card is needed, the
play that places nothing is the only one. -/
def analyze (situation : Situation) (settings : PlaySettings) : Except Fault (List Play) :=
  if situation.needed = 0 then .ok [.empty]
  else do
    let plays ← situation.candidates settings
    pure ((Play.sortDown (·.value) plays).dropWhile fun play =>
      !play.isLegal situation.board situation.seat)

/-- The most valuable legal play. -/
def bestPlay (situation : Situation) (settings : PlaySettings) :
    Except Fault (Except GameError Play) := do
  let plays ← situation.analyze settings
  pure (match plays with
    | [] => .error .noPlayFound
    | best :: _ => .ok best)

end Situation

end CardDuel
