import CardDuel.Proofs.Play.Building
import CardDuel.Proofs.Play.Overflow
import CardDuel.Proofs.Play.Placement

/-!
# Every play can be made

Whatever a proposal is led by, it picks distinct cards of the hand (`Situation.Picks`), and
only proposals with as many cards as needed become plays.  So every play of an analysis can
be made: `Situation.analyze_playable`.
-/

namespace CardDuel.Situation

variable {situation : Situation} {settings : PlaySettings}

/-! ### Picking -/

/-- Distinct indices of the hand. -/
structure Picks (situation : Situation) (picked : List Nat) : Prop where
  distinct : picked.Nodup
  inHand : ∀ i ∈ picked, i < situation.hand.length

/-- The indices of the cards that pass a test and are not in a list. -/
theorem mem_filter_range {test : Card → Bool} {skip : List Nat} {i : Nat} :
  i ∈ (List.range situation.hand.length).filter
      (fun i => !skip.contains i && situation.hand[i]?.any test)
    ↔ i ∉ skip ∧ ∃ card, situation.hand[i]? = some card ∧ test card = true
  := by
  simp only [List.mem_filter, List.mem_range, Bool.and_eq_true, Bool.not_eq_true',
    List.contains_eq_mem, decide_eq_false_iff_not, Option.any_eq_true]
  constructor
  · rintro ⟨-, fresh, passes⟩
    exact ⟨fresh, passes⟩
  · rintro ⟨fresh, card, cardAt, passes⟩
    exact ⟨(List.getElem?_eq_some_iff.mp cardAt).1, fresh, card, cardAt, passes⟩

theorem mem_specialIndices {skip : List Nat} {i : Nat} :
  i ∈ situation.specialIndices skip
    ↔ i ∉ skip ∧ ∃ card, situation.hand[i]? = some card ∧ card.isSpecial = true
  := mem_filter_range

theorem mem_standardIndices {skip : List Nat} {i : Nat} :
  i ∈ situation.standardIndices skip
    ↔ i ∉ skip ∧ ∃ card, situation.hand[i]? = some card ∧ card.isSpecial = false
  := by
  rw [standardIndices, mem_filter_range]
  simp

theorem picks_filter_range (test : Nat → Bool) :
  situation.Picks ((List.range situation.hand.length).filter test)
  where
  distinct := List.nodup_range.filter test
  inHand _ mem := List.mem_range.mp (List.mem_filter.mp mem).1

theorem picks_specialIndices (skip : List Nat) :
  situation.Picks (situation.specialIndices skip)
  := picks_filter_range _

theorem picks_standardIndices (skip : List Nat) :
  situation.Picks (situation.standardIndices skip)
  := picks_filter_range _

namespace Picks

variable {picked : List Nat}

theorem nil (situation : Situation) :
  situation.Picks []
  := ⟨.nil, by simp⟩

theorem append {others : List Nat} (h : situation.Picks picked) (h' : situation.Picks others)
    (disjoint : ∀ i ∈ others, i ∉ picked) :
  situation.Picks (picked ++ others)
  where
  distinct := h.distinct.append h'.distinct fun i mem mem' => disjoint i mem' mem
  inHand i mem := by
    rcases List.mem_append.mp mem with mem | mem
    · apply h.inHand i mem
    · apply h'.inHand i mem

theorem concat {i : Nat} (h : situation.Picks picked) (inside : i < situation.hand.length)
    (fresh : i ∉ picked) :
  situation.Picks (picked ++ [i])
  := by
  apply h.append ⟨List.nodup_singleton i, by simpa using inside⟩
  simpa using fresh

theorem perm {picked' : List Nat} (h : situation.Picks picked) (perm : picked'.Perm picked) :
  situation.Picks picked'
  where
  distinct := perm.nodup_iff.mpr h.distinct
  inHand i mem := h.inHand i (perm.mem_iff.mp mem)

theorem sublist {picked' : List Nat} (h : situation.Picks picked)
    (sublist : picked'.Sublist picked) :
  situation.Picks picked'
  where
  distinct := h.distinct.sublist sublist
  inHand i mem := h.inHand i (sublist.subset mem)

end Picks

/-! ### Picking what fits -/

/-- What stays true of picked cards with every further card of the hand that is not picked yet and
fits. -/
def Endures (situation : Situation) (motive : List Nat → Prop) : Prop :=
  ∀ picked i, i < situation.hand.length → i ∉ picked → situation.fits picked i = true →
    motive picked → motive (picked ++ [i])

namespace Endures

variable {motive : List Nat → Prop} {picked : List Nat}

theorem pickForQuota (endures : situation.Endures motive) {pool : List Nat} {quota : Quota}
    (inHand : ∀ i ∈ pool, i < situation.hand.length) (h : motive picked) :
  motive (situation.pickForQuota pool picked quota)
  := by
  rw [Situation.pickForQuota]
  split
  · apply h
  · apply List.foldlRecOn _ _ h
    intro picked h i mem
    split
    · apply h
    · split
      · rename_i test
        simp only [Bool.and_eq_true, Bool.not_eq_true', List.contains_eq_mem,
          decide_eq_false_iff_not] at test
        apply endures picked i (inHand i mem) test.1.1 test.2 h
      · apply h

theorem pickFitting (endures : situation.Endures motive) {test : List Nat → Nat → Bool}
    {candidates : List Nat} (inHand : ∀ i ∈ candidates, i < situation.hand.length)
    (h : motive picked) :
  motive (situation.pickFitting test candidates picked)
  := by
  apply List.foldlRecOn _ _ h
  intro picked h i mem
  split
  · apply h
  · split
    · rename_i test
      simp only [Bool.and_eq_true, Bool.not_eq_true', List.contains_eq_mem,
        decide_eq_false_iff_not] at test
      apply endures picked i (inHand i mem) test.1.1 test.1.2 h
    · apply h

end Endures

/-! ### Proposals -/

theorem map_snd_keyed {α : Type} {key : α → Except Fault Int} {as : List α}
    {pairs : List (Int × α)} (h : keyed key as = .ok pairs) :
  pairs.map (·.2) = as
  := by
  match as with
  | [] =>
    obtain rfl := Except.ok.inj h
    rfl
  | [a] =>
    obtain rfl := Except.ok.inj h
    rfl
  | a :: b :: rest =>
    obtain ⟨second, -, h⟩ := Checked.bind_eq_ok_iff.mp h
    obtain ⟨first, -, h⟩ := Checked.bind_eq_ok_iff.mp h
    obtain ⟨others, keys, h⟩ := Checked.bind_eq_ok_iff.mp h
    obtain rfl := Except.ok.inj h
    have later : others.map (·.2) = rest.map id := by
      apply Checked.map_eq_of_mapM _ keys
      intro c _ pair found
      obtain ⟨k, -, rfl⟩ := Checked.map_eq_ok_iff.mp found
      rfl
    simpa using later

/-- Ordering by preference keeps the indices. -/
theorem byPreference_perm {special : Special} {indices ordered : List Nat}
    (h : situation.byPreference settings special indices = .ok ordered) :
  ordered.Perm indices
  := by
  obtain ⟨pairs, keys, h⟩ := Checked.bind_eq_ok_iff.mp h
  obtain rfl := Except.ok.inj h
  have perm := (Play.sortBy_perm (fun a b : Int × Nat => decide (b.1 ≤ a.1)) pairs).map (·.2)
  rw [map_snd_keyed keys] at perm
  apply perm

/-- What holds of the leader on top of the cards picked before, and endures, holds of all cards of a
play that is led. -/
theorem Endures.pickLedBy {motive : List Nat → Prop} (endures : situation.Endures motive)
    {seed picked : List Nat} {leader : Nat} {special : Special} (start : motive (seed ++ [leader]))
    (h : situation.pickLedBy settings seed leader special = .ok picked) :
  motive picked
  := by
  obtain ⟨pool, preferred, h⟩ := Checked.bind_eq_ok_iff.mp h
  obtain rfl := Except.ok.inj h
  have poolPicks : situation.Picks pool :=
    (picks_standardIndices _).perm (byPreference_perm preferred)
  apply endures.pickFitting (picks_specialIndices seed).inHand
  apply endures.pickFitting poolPicks.inHand
  apply List.foldlRecOn _ _ start
  intro picked h quota _
  apply endures.pickForQuota poolPicks.inHand h

/-- A play led by a special card picks. -/
theorem picks_pickLedBy {seed picked : List Nat} {leader : Nat} {special : Special}
    (seeds : situation.Picks seed) (leads : leader ∈ situation.specialIndices seed)
    (h : situation.pickLedBy settings seed leader special = .ok picked) :
  situation.Picks picked
  := by
  have endures : situation.Endures situation.Picks := by
    intro picked i inside fresh _ picks
    apply picks.concat inside fresh
  have inside := (picks_specialIndices seed).inHand leader leads
  apply endures.pickLedBy _ h
  apply seeds.concat inside (mem_specialIndices.mp leads).1

theorem complete_eq_some_iff {picked indices : List Nat} :
  situation.complete picked = some indices
    ↔ picked.length = situation.needed ∧ picked = indices
  := by
  rw [complete]
  split <;> simp_all

/-- A proposal that a special card leads is a play led by it, with as many cards as are needed. -/
theorem exists_pickLedBy_of_mem_ledProposals {seed indices : List Nat}
    (h : .ok (some indices) ∈ situation.ledProposals settings seed) :
  indices.length = situation.needed ∧ ∃ leader ∈ situation.specialIndices seed, ∃ special,
    situation.pickLedBy settings seed leader special = .ok indices
  := by
  rw [ledProposals] at h
  split at h
  · contradiction
  · obtain ⟨leader, leads, led⟩ := List.mem_filterMap.mp h
    obtain ⟨special, -, led⟩ := Option.map_eq_some_iff.mp led
    obtain ⟨picked, picks, complete⟩ := Checked.map_eq_ok_iff.mp led
    obtain ⟨enough, rfl⟩ := complete_eq_some_iff.mp complete
    exact ⟨enough, leader, leads, special, picks⟩

/-- The proposals that special cards lead, on top of picked cards, pick as many cards as are
needed. -/
theorem picks_of_mem_ledProposals {seed indices : List Nat} (seeds : situation.Picks seed)
    (h : .ok (some indices) ∈ situation.ledProposals settings seed) :
  situation.Picks indices ∧ indices.length = situation.needed
  := by
  obtain ⟨enough, leader, leads, special, led⟩ := exists_pickLedBy_of_mem_ledProposals h
  exact ⟨picks_pickLedBy seeds leads led, enough⟩

/-- The strongest standard cards on top of picked cards, if there are enough of them. -/
theorem picks_strongestProposal {seed indices : List Nat} (seeds : situation.Picks seed)
    (h : situation.strongestProposal seed = some indices) :
  situation.Picks indices ∧ indices.length = situation.needed
  := by
  obtain ⟨enough, rfl⟩ := complete_eq_some_iff.mp h
  refine ⟨?_, enough⟩
  have standard : situation.Picks (situation.standardIndices seed) := picks_standardIndices seed
  apply seeds.append ((standard.perm (Play.sortBy_perm _ _)).sublist (List.take_sublist _ _))
  intro i mem
  have mem := Play.mem_sortBy.mp (List.mem_of_mem_take mem)
  apply (mem_standardIndices.mp mem).1

/-- A card that beats a number is not picked yet. -/
theorem beater?_eq_some {picked : List Nat} {target : Int} {i : Nat}
    (h : situation.beater? picked target = some i) :
  i < situation.hand.length ∧ i ∉ picked
  := by
  obtain ⟨⟨n, _⟩, least, rfl⟩ := Option.map_eq_some_iff.mp h
  obtain ⟨j, inside, found⟩ := List.mem_filterMap.mp (Play.leastBy_mem least)
  split at found
  · contradiction
  · rename_i fresh
    split at found
    · split at found
      · obtain ⟨-, rfl⟩ := Prod.mk.inj (Option.some.inj found)
        exact ⟨List.mem_range.mp inside, by simpa using fresh⟩
      · contradiction
    · contradiction

/-- The cards that beat opposing ones are picked. -/
theorem picks_beaters (situation : Situation) :
  situation.Picks situation.beaters
  := by
  apply List.foldlRecOn _ _ (.nil situation)
  intro picked picks column _
  split
  · apply picks
  · split
    · apply picks
    · rename_i target _
      rcases beater : situation.beater? picked target with _ | i
      · simpa using picks
      · obtain ⟨inside, fresh⟩ := beater?_eq_some beater
        apply picks.concat inside fresh

/-- Every proposal picks as many cards as are needed. -/
theorem picks_of_mem_proposals {indices : List Nat}
    (h : .ok (some indices) ∈ situation.proposals settings) :
  situation.Picks indices ∧ indices.length = situation.needed
  := by
  have led : ∀ seed, situation.Picks seed →
      .ok (some indices) ∈ situation.ledProposals settings seed
        ++ [.ok (situation.strongestProposal seed)] →
      situation.Picks indices ∧ indices.length = situation.needed := by
    intro seed seeds mem
    rcases List.mem_append.mp mem with mem | mem
    · apply picks_of_mem_ledProposals seeds mem
    · obtain same := Except.ok.inj (List.mem_singleton.mp mem)
      apply picks_strongestProposal seeds same.symm
  rw [proposals] at h
  rcases List.mem_append.mp h with mem | mem
  · apply led [] (.nil situation) mem
  · split at mem
    · contradiction
    · apply led situation.beaters (picks_beaters situation) mem

/-! ### The analysis -/

/-- Every play that is built comes from a proposal. -/
theorem exists_proposal_of_mem_buildAll {proposals : List (Except Fault (Option (List Nat)))}
    {stream : Stream} {plays : List Play} {play : Play}
    (h : situation.buildAll settings proposals stream = .ok plays) (mem : play ∈ plays) :
  ∃ indices stream stream', .ok (some indices) ∈ proposals
    ∧ Play.ofIndices situation settings indices stream = .ok (play, stream')
  := by
  induction proposals generalizing stream plays with
  | nil =>
    obtain rfl := Except.ok.inj h
    contradiction
  | cons proposal rest ih =>
    obtain ⟨answer, rfl, answered⟩ := Checked.bind_eq_ok_iff.mp h
    rcases answer with _ | indices
    · obtain ⟨indices, stream, stream', later, built⟩ := ih answered mem
      exact ⟨indices, stream, stream', List.mem_cons_of_mem _ later, built⟩
    · obtain ⟨⟨first, next⟩, built, continued⟩ := Checked.bind_eq_ok_iff.mp answered
      obtain ⟨others, buildRest, finished⟩ := Checked.bind_eq_ok_iff.mp continued
      obtain rfl := Except.ok.inj finished
      rcases List.mem_cons.mp mem with rfl | later
      · exact ⟨indices, stream, next, List.mem_cons_self, built⟩
      · obtain ⟨indices', stream', stream'', mem', built'⟩ := ih buildRest later
        exact ⟨indices', stream', stream'', List.mem_cons_of_mem _ mem', built'⟩

/-- Every play of an analysis fits the situation and has as many cards as are needed. -/
theorem fits_of_mem_analyze {plays : List Play} {play : Play}
    (h : situation.analyze settings = .ok plays) (mem : play ∈ plays) :
  play.Fits situation ∧ play.placements.length = situation.needed
  := by
  rw [analyze] at h
  split at h
  · rename_i none
    obtain rfl := Except.ok.inj h
    obtain rfl := List.mem_singleton.mp mem
    exact ⟨⟨.nil, by simp [Play.empty], .nil, by simp [Play.empty]⟩, none.symm⟩
  · obtain ⟨candidates, built, h⟩ := Checked.bind_eq_ok_iff.mp h
    obtain rfl := Except.ok.inj h
    have candidate : play ∈ candidates :=
      Play.mem_sortBy.mp ((List.dropWhile_sublist _).subset mem)
    obtain ⟨indices, stream, stream', proposed, built⟩ :=
      exists_proposal_of_mem_buildAll built candidate
    obtain ⟨picks, enough⟩ := picks_of_mem_proposals proposed
    have room : indices.length ≤ situation.openColumns.length := by
      rw [enough]
      apply Nat.min_le_left ..
    obtain ⟨fits, used⟩ := Play.fits_ofIndices picks.distinct picks.inHand room built
    refine ⟨fits, ?_⟩
    rw [← enough, ← used.length_eq, Play.indices, List.length_map]

/-- Without an overflow an analysis has plays, and every one of them can be made.  It has as
many cards as are needed, for distinct open slots from left to right; they are distinct cards
of the hand as they were printed; and all of them can be placed, each in its slot, while every
other slot stays as it is. -/
theorem analyze_playable (situation : Situation) (settings : PlaySettings)
    (noOverflow : ∀ fault, fault.IsOverflow → situation.analyze settings ≠ .error fault) :
  ∃ plays, situation.analyze settings = .ok plays ∧ ∀ play ∈ plays,
    play.placements.length = min situation.openColumns.length situation.hand.length
    ∧ play.placements.Pairwise (fun a b => a.column < b.column)
    ∧ (∀ placement ∈ play.placements,
      situation.board.isOpen situation.seat placement.column = true)
    ∧ play.indices.Nodup
    ∧ (∀ placement ∈ play.placements, ∃ card,
      situation.hand[placement.index]? = some card ∧ placement.card = card.reset)
    ∧ ∃ board, play.place situation.board situation.seat = (board, none)
      ∧ (∀ placement ∈ play.placements, board.slot? situation.seat placement.column
        = some { card := some placement.card, hold := .free })
      ∧ (∀ seat column,
        (seat = situation.seat → ∀ placement ∈ play.placements, placement.column ≠ column) →
        board.slot? seat column = situation.board.slot? seat column)
      ∧ ∀ seat column, board.holdAt seat column = situation.board.holdAt seat column
  := by
  obtain ⟨plays, analyzed⟩ := (onlyOverflows_analyze situation settings).exists_ok noOverflow
  refine ⟨plays, analyzed, ?_⟩
  intro play mem
  obtain ⟨fits, enough⟩ := fits_of_mem_analyze analyzed mem
  have apart : play.placements.Pairwise fun a b => a.column ≠ b.column :=
    fits.increasing.imp Nat.ne_of_lt
  obtain ⟨board, placed, isPlaced⟩ := Play.placeAll_of_isOpen apart fits.isOpen
  exact ⟨enough, fits.increasing, fits.isOpen, fits.distinct, fits.printed, board, placed,
    isPlaced.placed, isPlaced.others, isPlaced.holdAt fits.isOpen⟩

/-- A clone beside three numbers, against a five that is held, with an empty slot that is held
as well. -/
def mirrored : Situation where
  hand := [.standard "Ex" (.number 4), .standard "Ex" (.number 9),
    .ofSpecial ⟨"Mirror", "", .nothing, .any, ⟨.clone, .none⟩⟩, .standard "Ex" (.number 6)]
  board := ⟨[
    ⟨{}, { card := some (.standard "Boyfriend" (.number 5)), hold := .held }⟩,
    ⟨{ hold := .held }, {}⟩,
    ⟨{}, {}⟩]⟩
  seat := .first

theorem analyze_mirrored :
  ∃ plays, mirrored.analyze {} = .ok plays
    ∧ plays.map (fun play => play.placements.map fun placement =>
        (placement.column, placement.index))
      = [[(0, 3), (2, 2)], [(0, 3), (2, 1)], [(0, 3), (2, 1)], [(0, 1), (2, 2)]]
    ∧ ∀ play ∈ plays, ∃ board, play.place mirrored.board .first = (board, none)
      ∧ board.holdAt .first 1 = .held
  := by
  have analyzed : (mirrored.analyze {}).map (List.map fun play =>
        play.placements.map fun placement => (placement.column, placement.index))
      = .ok [[(0, 3), (2, 2)], [(0, 3), (2, 1)], [(0, 3), (2, 1)], [(0, 1), (2, 2)]] := by
    rfl
  obtain ⟨plays, analyzed, placements⟩ := Checked.map_eq_ok_iff.mp analyzed
  obtain ⟨plays', same, playable⟩ := analyze_playable mirrored {} (by simp [analyzed])
  obtain rfl := Except.ok.inj (analyzed.symm.trans same)
  refine ⟨plays, analyzed, placements, ?_⟩
  intro play mem
  obtain ⟨-, -, -, -, -, board, placed, -, -, holds⟩ := playable play mem
  exact ⟨board, placed, holds .first 1⟩

end CardDuel.Situation
