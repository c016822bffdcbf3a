import CardDuel.Proofs.Play.Planner
import CardDuel.Proofs.Reach

/-!
# Caps on what is picked

Some quotas put a cap on the cards that count for them.  Every card that is picked on top of the
leader of a play is first tried against all caps: those of the cards picked so far, of the card
itself and of the cards held on the board (`Situation.fits_iff`).  So the caps are kept as soon as
one more card is picked, whatever it is picked for (`Situation.endures_guarded`), and the play that
is built keeps them too: `Situation.keepsCaps_of_led`.
-/

namespace CardDuel

/-- No quota with a cap, of a special card in the pool, counts more cards of the pool than its cap
allows. -/
def KeepsCaps (pool : List Card) : Prop :=
  ∀ card ∈ pool, ∀ special ∈ card.special, ∀ quota ∈ special.requirement.leaves,
    (quota.comparison = .exactly ∨ quota.comparison = .noMoreThan) →
      quota.tally pool ≤ quota.count

theorem Comparison.isCap_iff {comparison : Comparison} :
  comparison.isCap = true ↔ comparison = .exactly ∨ comparison = .noMoreThan
  := by cases comparison <;> simp [isCap]

/-- A card that shows the face it was printed with counts as it does after a reset. -/
theorem Quota.counts_reset (quota : Quota) {card : Card} (printed : card.face = card.printed) :
  quota.counts card.reset = quota.counts card
  := by
  have admits (scope : Scope) (side : Side) :
      scope.admits side card.reset = scope.admits side card := by
    simp only [Scope.admits, Scope.admitsFace, Card.isSpecial, Card.number?, Card.reset, printed]
  unfold counts
  rcases quota.style with _ | style
  · rfl
  · apply Condition.eval_congr
    intro aim _
    rw [Aim.accepts_some, Aim.accepts_some, admits]
    -- No card faces it, so nothing else of the aim is looked at.
    cases aim.opposite <;> rfl

namespace KeepsCaps

variable {cards pool pool' : List Card}

/-- Whether caps are kept does not depend on the order of the cards. -/
theorem perm (h : KeepsCaps pool) (perm : pool.Perm pool') :
  KeepsCaps pool'
  := by
  intro card mem special isSpecial quota leaf cap
  rw [Quota.tally, ← perm.countP_eq]
  apply h card (perm.mem_iff.mpr mem) special isSpecial quota leaf cap

/-- Cards that show the faces they were printed with keep caps also after a reset. -/
theorem reset (h : KeepsCaps (cards ++ pool)) (printed : ∀ card ∈ cards, card.face = card.printed) :
  KeepsCaps (cards.map Card.reset ++ pool)
  := by
  have tally (quota : Quota) :
      quota.tally (cards.map Card.reset ++ pool) = quota.tally (cards ++ pool) := by
    simp only [Quota.tally, List.countP_append, List.countP_map]
    congr 1
    apply List.countP_congr
    intro card mem
    rw [Function.comp_apply, quota.counts_reset (printed card mem)]
  intro card mem special isSpecial quota leaf cap
  rw [tally]
  rcases List.mem_append.mp mem with mem | mem
  · obtain ⟨card, here, rfl⟩ := List.mem_map.mp mem
    apply h card (List.mem_append_left _ here) special isSpecial quota leaf cap
  · apply h card (List.mem_append_right _ mem) special isSpecial quota leaf cap

end KeepsCaps

namespace Situation

variable {situation : Situation} {settings : PlaySettings} {seed : List Nat}

/-- A card fits if all caps are kept with it. -/
theorem fits_iff {picked : List Nat} {i : Nat} :
  situation.fits picked i = true ↔ KeepsCaps (situation.pool (picked ++ [i]))
  := by
  simp only [fits, KeepsCaps, List.all_eq_true, List.mem_filter, List.mem_flatMap,
    List.mem_filterMap, decide_eq_true_eq, Comparison.isCap_iff]
  constructor
  · intro fits card mem special isSpecial quota leaf cap
    apply fits quota ⟨⟨special, ⟨card, mem, isSpecial⟩, leaf⟩, cap⟩
  · rintro keeps quota ⟨⟨special, ⟨card, mem, isSpecial⟩, leaf⟩, cap⟩
    apply keeps card mem special isSpecial quota leaf cap

/-- Nothing is picked on top of a start yet, or all caps are kept. -/
def Guarded (situation : Situation) (start picked : List Nat) : Prop :=
  picked = start ∨ KeepsCaps (situation.pool picked)

theorem endures_guarded (situation : Situation) (start : List Nat) :
  situation.Endures (situation.Guarded start)
  := by
  intro picked i _ _ fits _
  right
  apply fits_iff.mp fits

/-- The chosen cards have some of the indices by which they were chosen. -/
theorem index_picksOf_sublist (situation : Situation) (indices : List Nat) :
  ((Play.picksOf situation indices).map (·.index)).Sublist indices
  := by
  unfold Play.picksOf
  generalize 0 = start
  induction indices generalizing start with
  | nil => exact .slnil
  | cons i rest ih =>
    rw [List.zipIdx_cons, List.filterMap_cons]
    dsimp only
    rcases situation.hand[i]? with _ | card
    · apply (ih (start + 1)).cons
    · apply (ih (start + 1)).cons_cons

/-- A play that a special card leads keeps all caps if it has a card beside the leader and those
picked before. -/
theorem keepsCaps_of_led {indices : List Nat} {stream stream' : Stream} {play : Play}
    (printed : ∀ card ∈ situation.hand, card.face = card.printed)
    (proposed : .ok (some indices) ∈ situation.ledProposals settings seed)
    (built : Play.ofIndices situation settings indices stream = .ok (play, stream'))
    (more : 2 ≤ play.indices.countP fun i => !seed.contains i) :
  KeepsCaps (play.cards ++ situation.heldCards)
  := by
  obtain ⟨enough, leader, leads, special, led⟩ := exists_pickLedBy_of_mem_ledProposals proposed
  have room : indices.length ≤ situation.openColumns.length := by
    rw [enough]
    apply Nat.min_le_left
  have distributes := Play.distributes_ofIndices room built
  have beside : indices ≠ seed ++ [leader] := by
    rintro rfl
    have used : play.indices.Perm ((Play.picksOf situation (seed ++ [leader])).map (·.index)) := by
      have perm := distributes.chosen.map (·.1)
      rw [← Play.indices_eq_map_chosen, List.map_map] at perm
      apply perm
    have few : (seed ++ [leader]).countP (fun i => !seed.contains i) ≤ 1 := by
      rw [List.countP_append, List.countP_eq_zero.mpr (by simp), Nat.zero_add]
      apply List.countP_le_length
    rw [used.countP_eq] at more
    have fewer := Nat.le_trans (index_picksOf_sublist situation (seed ++ [leader])).countP_le few
    omega
  have keeps : KeepsCaps (situation.pool indices) :=
    ((endures_guarded situation _).pickLedBy (.inl rfl) led).resolve_left beside
  apply KeepsCaps.perm _ (distributes.cards.symm.append_right _)
  apply keeps.reset
  intro card mem
  obtain ⟨i, -, cardAt⟩ := List.mem_filterMap.mp mem
  apply printed card (List.mem_of_getElem? cardAt)

/-- Where the hand shows the faces it was printed with, the plays that special cards lead on top of
some cards have a result unless a number leaves its range.  Every one of them that has at least two
cards more keeps the caps of all special cards that are played or held. -/
theorem ledPlays_keepCaps (situation : Situation) (settings : PlaySettings) (seed : List Nat)
    (stream : Stream) (printed : ∀ card ∈ situation.hand, card.face = card.printed)
    (noOverflow : ∀ fault, fault.IsOverflow →
      situation.buildAll settings (situation.ledProposals settings seed) stream ≠ .error fault) :
  ∃ plays, situation.buildAll settings (situation.ledProposals settings seed) stream = .ok plays
    ∧ ∀ play ∈ plays, 2 ≤ (play.indices.countP fun i => !seed.contains i) →
      KeepsCaps (play.cards ++ situation.heldCards)
  := by
  obtain ⟨plays, all⟩ :=
    (onlyOverflows_buildAll onlyOverflows_ledProposals stream).exists_ok noOverflow
  refine ⟨plays, all, ?_⟩
  intro play mem more
  obtain ⟨indices, stream, stream', proposed, built⟩ := exists_proposal_of_mem_buildAll all mem
  apply keepsCaps_of_led printed proposed built more

/-- A special card that tolerates one card of a suit. -/
def jealous (name : String) (effect : Effect) : Card :=
  .ofSpecial ⟨name, "", .counting .noMoreThan 1 (.test (.ofScope { suits := some ["Ex"] })), .any,
    effect⟩

/-- Two cards of a suit of which a special card on the board, which is held, tolerates one. -/
def guarded : Situation where
  hand := [.standard "Ex" (.number 9), .standard "Ex" (.number 7),
    .standard "Boyfriend" (.number 2), jealous "Rose" ⟨.buff, .value (.number 1)⟩]
  board := ⟨[⟨{ card := some (jealous "Thorn" ⟨.kiss, .none⟩), hold := .held }, {}⟩, ⟨{}, {}⟩,
    ⟨{}, {}⟩, ⟨{}, {}⟩]⟩
  seat := .first

/-- With a nine in the seed, the two is played and not the seven, although that is worth more. -/
theorem ledPlays_keepCaps_guarded :
  ∃ plays, guarded.buildAll {} (guarded.ledProposals {} [0]) (Stream.ofSeed 0) = .ok plays
    ∧ (∀ card ∈ guarded.hand, card.face = card.printed)
    ∧ ∃ play ∈ plays, play.indices = [0, 3, 2]
      ∧ 2 ≤ (play.indices.countP fun i => !([0].contains i))
      ∧ KeepsCaps (play.cards ++ guarded.heldCards)
  := by
  have built : (guarded.buildAll {} (guarded.ledProposals {} [0]) (Stream.ofSeed 0)).map
      (List.map Play.indices) = .ok [[0, 3, 2]] := by
    decide +kernel
  have printed : ∀ card ∈ guarded.hand, card.face = card.printed := by
    simp [guarded, jealous, Card.standard, Card.ofSpecial]
  obtain ⟨plays, built, indices⟩ := Checked.map_eq_ok_iff.mp built
  obtain ⟨plays', same, keep⟩ :=
    ledPlays_keepCaps guarded {} [0] (Stream.ofSeed 0) printed (by simp [built])
  obtain rfl := Except.ok.inj (built.symm.trans same)
  obtain ⟨play, rfl, used⟩ := List.map_eq_singleton_iff.mp indices
  have more : 2 ≤ (play.indices.countP fun i => !([0].contains i)) := by
    rw [used]
    decide
  exact ⟨[play], built, printed, play, List.mem_singleton_self play, used, more,
    keep play (List.mem_singleton_self play) more⟩

end Situation

end CardDuel
