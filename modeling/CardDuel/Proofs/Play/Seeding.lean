import CardDuel.Proofs.Play.Planner
import CardDuel.Proofs.Play.Valuation
import CardDuel.Proofs.Requirements
import Mathlib.Algebra.BigOperators.Group.List.Basic

/-!
# What the seed of a player changes

The seed of a player enters a play only where cards go in random order against an empty side.
There no card faces another, so the value of a play does not depend on the columns of its
cards: two seeds give plays that are equal up to a rearrangement (`Play.Rearranged`), and the
whole analysis agrees position by position (`Situation.analyze_reseeded`).
-/

namespace CardDuel

/-! ### Against an empty side -/

namespace Play

/-- Plays of the same cards for the same value. -/
structure Rearranged (play play' : Play) : Prop where
  chosen : play.chosen.Perm play'.chosen
  value : play.value = play'.value

namespace Rearranged

variable {play play' : Play}

theorem indices (h : play.Rearranged play') :
  play.indices.Perm play'.indices
  := by
  rw [indices_eq_map_chosen, indices_eq_map_chosen]
  apply h.chosen.map

/-- Whether a play is legal does not depend on the columns of its cards. -/
theorem isLegal (h : play.Rearranged play') (board : Board) (seat : Seat) :
  play.isLegal board seat = play'.isLegal board seat
  := by
  have cards : play.cards.Perm play'.cards := by
    rw [cards_eq_map_chosen, cards_eq_map_chosen]
    apply h.chosen.map
  unfold Play.isLegal Play.specials
  rw [(cards.filterMap _).all_eq]
  congr 1
  funext special
  apply Requirement.verify_perm
  apply cards.append_right

end Rearranged

namespace View

variable {situation : Situation} {settings : PlaySettings} {play play' : Play}

/-- What a special card that is no clone promises against an empty side depends on the cards
played alone. -/
theorem effectAdjustments_perm {special : Special} (noClone : special.effect.kind ≠ .clone)
    (bare : situation.board.isBare situation.opponent = true)
    (h : play.chosen.Perm play'.chosen) :
  (effectAdjustments ⟨play, situation, settings⟩ special).Perm
    (effectAdjustments ⟨play', situation, settings⟩ special)
  := by
  have reached : (reachedNumbers ⟨play, situation, settings⟩ special).Perm
      (reachedNumbers ⟨play', situation, settings⟩ special) := by
    have perm := h.filterMap fun chosen : Nat × Card =>
      if special.application.reaches .friendly (some chosen.2) none then chosen.2.number?
      else none
    unfold chosen at perm
    rw [List.filterMap_map, List.filterMap_map] at perm
    simpa [reachedNumbers, enemy, Board.card?_of_isBare bare] using perm
  have enemyCost (column : Nat) : enemyCost ⟨play, situation, settings⟩ special column
      = enemyCost ⟨play', situation, settings⟩ special column := by
    simp [View.enemyCost, enemy, Board.card?_of_isBare bare]
  rcases kind : special.effect.kind
  case buff | multiply =>
    simp only [effectAdjustments, kind, changeAdjustments, funext enemyCost]
    apply ((reached.map _).append_right _).append_right
  case switch | reverse | kiss =>
    simp only [effectAdjustments, kind, lowAdjustments, enemyHeld, Board.held_of_isBare bare,
      reachedEnemyNumbers, List.filterMap_nil, List.map_nil, List.append_nil]
    apply reached.map
  case wait =>
    simp only [effectAdjustments, kind, waitAdjustments, enemyCards,
      Board.occupied_of_isBare bare, reachedEnemyNumbers, List.filterMap_nil, List.map_nil,
      List.append_nil]
    apply reached.map
  case flush =>
    have indices := h.map (·.1)
    rw [← indices_eq_map_chosen, ← indices_eq_map_chosen] at indices
    simp [effectAdjustments, kind, flushAdjustments, indices.mem_iff]
  case clone => contradiction
  case replace | randomize => simp [effectAdjustments, kind]

/-- Against an empty side, and without a clone, all adjustments depend on the cards played
alone. -/
theorem adjustments_perm (noClone : ∀ special ∈ play.specials, special.effect.kind ≠ .clone)
    (bare : situation.board.isBare situation.opponent = true)
    (h : play.chosen.Perm play'.chosen) :
  (adjustments ⟨play, situation, settings⟩).Perm (adjustments ⟨play', situation, settings⟩)
  := by
  have margins (play : Play) :
      play.placements.flatMap (marginBonus ⟨play, situation, settings⟩) = [] := by
    apply List.flatMap_eq_nil_iff.mpr
    intro placement _
    simp [marginBonus, enemy, Board.card?_of_isBare bare]
  have specials : play.specials.Perm play'.specials := by
    unfold Play.specials
    rw [cards_eq_map_chosen, cards_eq_map_chosen]
    apply (h.map _).filterMap
  simp only [adjustments, margins, List.nil_append]
  apply specials.flatMap
  intro special mem
  apply (effectAdjustments_perm (noClone special mem) bare h).cons

/-- Against an empty side, and without a clone, the same cards have the same value in all
columns. -/
theorem value_eq_of_chosen_perm
    (noClone : ∀ special ∈ play.specials, special.effect.kind ≠ .clone)
    (bare : situation.board.isBare situation.opponent = true)
    (h : play.chosen.Perm play'.chosen) {value value' : Int}
    (valued : View.value ⟨play, situation, settings⟩ = .ok value)
    (valued' : View.value ⟨play', situation, settings⟩ = .ok value') :
  value = value'
  := by
  have numbers : play.numbers.Perm play'.numbers := by
    unfold Play.numbers
    rw [cards_eq_map_chosen, cards_eq_map_chosen]
    apply (h.map _).filterMap
  rw [(value_eq_sum valued).1, (value_eq_sum valued').1, numbers.sum_eq,
    ((adjustments_perm noClone bare h).map _).sum_eq]

end View

/-! ### Building a play twice -/

section

variable {situation : Situation} {settings : PlaySettings} {indices : List Nat}
  {stream₁ stream₂ : Stream} {play play₁ play₂ : Play}

/-- Without a random order, cards are arranged in one way. -/
theorem Foresight.placements_of_not_bare {foresight : Foresight}
    (settled : foresight.hasClone = true
      ∨ situation.board.isBare situation.opponent = false) (stream₁ stream₂ : Stream) :
  foresight.placements situation stream₁ = foresight.placements situation stream₂
  := by
  unfold Foresight.placements Foresight.arrange
  rcases settled with clone | occupied
  · simp [clone]
  · by_cases clone : foresight.hasClone = true
    · simp [clone]
    · simp [clone, occupied]

/-- Where no clone was seen among the chosen cards, none is played. -/
theorem kind_ne_clone_of_mem_specials {foresight : Foresight}
    (foreseen : Foresight.ofIndices situation indices = .ok foresight)
    (noClone : foresight.hasClone = false) (h : play.Distributes situation indices) :
  ∀ special ∈ play.specials, special.effect.kind ≠ .clone
  := by
  intro special mem isClone
  obtain ⟨card, cardMem, isSpecial⟩ := List.mem_filterMap.mp mem
  have perm := h.chosen
  rw [← map_mine_of_ofIndices foreseen] at perm
  rw [cards_eq_map_chosen, (perm.map _).mem_iff, List.map_map] at cardMem
  obtain ⟨pick, pickMem, rfl⟩ := List.mem_map.mp cardMem
  apply Bool.eq_false_iff.mp noClone
  apply List.any_eq_true.mpr
  use pick, pickMem
  rw [show pick.card.special = some special from isSpecial]
  simpa using isClone

/-- The value of a play does not look at the seed. -/
theorem View.value_reseeded (play : Play) (situation : Situation) (settings : PlaySettings)
    (seed : UInt64) :
  View.value ⟨play, situation, { settings with seed }⟩ = View.value ⟨play, situation, settings⟩
  := rfl

/-- The value of a play is that of its placements. -/
theorem View.value_eq_of_placements_eq (h : play₁.placements = play₂.placements) :
  View.value ⟨play₁, situation, settings⟩ = View.value ⟨play₂, situation, settings⟩
  := by
  obtain ⟨placements, value₁⟩ := play₁
  obtain ⟨_, value₂⟩ := play₂
  obtain rfl : placements = _ := h
  rfl

/-- Two plays of the same cards, built with different seeds on different streams, are equal up
to a rearrangement. -/
theorem rearranged_ofIndices {seed : UInt64} {next₁ next₂ : Stream}
    (room : indices.length ≤ situation.openColumns.length)
    (h₁ : ofIndices situation settings indices stream₁ = .ok (play₁, next₁))
    (h₂ : ofIndices situation { settings with seed } indices stream₂ = .ok (play₂, next₂)) :
  play₁.Rearranged play₂
  := by
  have distributes₁ := distributes_ofIndices room h₁
  have distributes₂ := distributes_ofIndices room h₂
  obtain ⟨foresight, foreseen, placements₁, valued₁⟩ := ofIndices_eq_ok h₁
  obtain ⟨_, foreseen₂, placements₂, valued₂⟩ := ofIndices_eq_ok h₂
  obtain rfl := Except.ok.inj (foreseen.symm.trans foreseen₂)
  rw [View.value_reseeded] at valued₂
  have chosen := distributes₁.chosen.trans distributes₂.chosen.symm
  refine ⟨chosen, ?_⟩
  by_cases settled : foresight.hasClone = true
      ∨ situation.board.isBare situation.opponent = false
  · have same : play₁.placements = play₂.placements := by
      rw [placements₁, placements₂]
      apply Foresight.placements_of_not_bare settled
    rw [View.value_eq_of_placements_eq same, valued₂] at valued₁
    apply (Except.ok.inj valued₁).symm
  · obtain ⟨noClone, bare⟩ := not_or.mp settled
    apply View.value_eq_of_chosen_perm _ _ chosen valued₁ valued₂
    · apply kind_ne_clone_of_mem_specials foreseen (by simpa using noClone) distributes₁
    · simpa using bare

theorem map_fst_ofIndices :
  (ofIndices situation settings indices stream).map (·.1)
    = Foresight.ofIndices situation indices >>= fun foresight =>
        appraise ⟨foresight.placements situation stream, 0⟩ situation settings
  := by
  rw [ofIndices]
  rcases Foresight.ofIndices situation indices with fault | foresight
  · rfl
  · change ((appraise ⟨foresight.placements situation stream, 0⟩ situation settings).bind
      fun play => .ok (play, (foresight.arrange situation stream).2)).map (·.1) = _
    rw [Checked.ok_bind]
    rcases appraise ⟨foresight.placements situation stream, 0⟩ situation settings with
      fault | play <;> rfl

/-- Against a side with cards, a play does not depend on the seed and the stream. -/
theorem map_fst_ofIndices_of_not_bare (settings : PlaySettings) (seed : UInt64)
    (occupied : situation.board.isBare situation.opponent = false) (indices : List Nat)
    (stream₁ stream₂ : Stream) :
  (ofIndices situation settings indices stream₁).map (·.1)
    = (ofIndices situation { settings with seed } indices stream₂).map (·.1)
  := by
  rw [map_fst_ofIndices, map_fst_ofIndices]
  congr 1
  funext foresight
  rw [Foresight.placements_of_not_bare (.inr occupied) stream₁ stream₂]
  rfl

end

end Play

/-! ### Two analyses -/

namespace Situation

variable {situation : Situation} {settings : PlaySettings} {seed : UInt64}

/-- Proposals do not look at the seed. -/
theorem proposals_reseeded (situation : Situation) (settings : PlaySettings) (seed : UInt64) :
  situation.proposals { settings with seed } = situation.proposals settings
  := rfl

/-- The same proposals, built with different seeds on different streams, give plays that are
equal up to rearrangements, in the same order. -/
theorem forall₂_buildAll {proposals : List (Except Fault (Option (List Nat)))}
    (room : ∀ indices, .ok (some indices) ∈ proposals →
      indices.length ≤ situation.openColumns.length)
    {stream₁ stream₂ : Stream} {plays₁ plays₂ : List Play}
    (h₁ : situation.buildAll settings proposals stream₁ = .ok plays₁)
    (h₂ : situation.buildAll { settings with seed } proposals stream₂ = .ok plays₂) :
  List.Forall₂ Play.Rearranged plays₁ plays₂
  := by
  induction proposals generalizing stream₁ stream₂ plays₁ plays₂ with
  | nil =>
    obtain rfl := Except.ok.inj h₁
    obtain rfl := Except.ok.inj h₂
    exact .nil
  | cons proposal rest ih =>
    have later : ∀ indices, .ok (some indices) ∈ rest →
        indices.length ≤ situation.openColumns.length := by
      intro indices mem
      apply room indices (List.mem_cons_of_mem _ mem)
    obtain ⟨answer, rfl, answered₁⟩ := Checked.bind_eq_ok_iff.mp h₁
    obtain ⟨answer', same, answered₂⟩ := Checked.bind_eq_ok_iff.mp h₂
    obtain rfl : answer = answer' := Except.ok.inj same
    rcases answer with _ | indices
    · apply ih later answered₁ answered₂
    · obtain ⟨⟨play₁, next₁⟩, built₁, continued₁⟩ := Checked.bind_eq_ok_iff.mp answered₁
      obtain ⟨⟨play₂, next₂⟩, built₂, continued₂⟩ := Checked.bind_eq_ok_iff.mp answered₂
      obtain ⟨others₁, rest₁, finished₁⟩ := Checked.bind_eq_ok_iff.mp continued₁
      obtain ⟨others₂, rest₂, finished₂⟩ := Checked.bind_eq_ok_iff.mp continued₂
      obtain rfl := Except.ok.inj finished₁
      obtain rfl := Except.ok.inj finished₂
      apply List.Forall₂.cons _ (ih later rest₁ rest₂)
      apply Play.rearranged_ofIndices (room indices List.mem_cons_self) built₁ built₂

/-- Against a side with cards, building plays does not depend on the seed and the stream. -/
theorem buildAll_of_not_bare (seed : UInt64)
    (occupied : situation.board.isBare situation.opponent = false)
    (proposals : List (Except Fault (Option (List Nat)))) (stream₁ stream₂ : Stream) :
  situation.buildAll { settings with seed } proposals stream₂
    = situation.buildAll settings proposals stream₁
  := by
  induction proposals generalizing stream₁ stream₂ with
  | nil => rfl
  | cons proposal rest ih =>
    rcases proposal with fault | _ | indices
    · rfl
    · apply ih
    · have same := Play.map_fst_ofIndices_of_not_bare settings seed occupied indices stream₁
        stream₂
      simp only [buildAll, Checked.ok_bind]
      generalize Play.ofIndices situation settings indices stream₁ = built₁ at same ⊢
      generalize Play.ofIndices situation { settings with seed } indices stream₂ = built₂
        at same ⊢
      rcases built₁ with fault | ⟨play, next₁⟩ <;> rcases built₂ with fault' | ⟨play', next₂⟩
      · obtain rfl : fault = fault' := Except.error.inj same
        rfl
      · contradiction
      · contradiction
      · obtain rfl : play = play' := Except.ok.inj same
        simp only [Checked.ok_bind, ih next₁ next₂]

/-- Two analyses that differ only in the seed list plays that are equal up to rearrangements, in
the same order. -/
theorem forall₂_analyze {plays plays' : List Play}
    (h : situation.analyze settings = .ok plays)
    (h' : situation.analyze { settings with seed } = .ok plays') :
  List.Forall₂ Play.Rearranged plays plays'
  := by
  rw [analyze] at h h'
  by_cases full : situation.needed = 0
  · rw [if_pos full] at h h'
    obtain rfl := Except.ok.inj h
    obtain rfl := Except.ok.inj h'
    exact .cons ⟨.refl _, rfl⟩ .nil
  · rw [if_neg full] at h h'
    obtain ⟨found, built, h⟩ := Checked.bind_eq_ok_iff.mp h
    obtain ⟨found', built', h'⟩ := Checked.bind_eq_ok_iff.mp h'
    obtain rfl := Except.ok.inj h
    obtain rfl := Except.ok.inj h'
    rw [candidates] at built
    rw [candidates, proposals_reseeded] at built'
    apply Play.forall₂_dropWhile
    · intro play play' same
      rw [same.isLegal]
    · apply Play.forall₂_sortDown
      · intro play play' same
        apply same.value
      · apply forall₂_buildAll _ built built'
        intro indices mem
        rw [(picks_of_mem_proposals mem).2]
        apply Nat.min_le_left

/-- Against a side with cards, the seed does not matter at all. -/
theorem analyze_of_not_bare (settings : PlaySettings) (seed : UInt64)
    (occupied : situation.board.isBare situation.opponent = false) :
  situation.analyze { settings with seed } = situation.analyze settings
  := by
  unfold analyze candidates
  rw [proposals_reseeded, buildAll_of_not_bare seed occupied]

/-- Without overflows, two analyses that differ only in the seed list the same number of
plays, and plays in the same position have the same value and use the same cards of the hand.
If the opposing side has a card, the two are equal. -/
theorem analyze_reseeded (situation : Situation) (settings : PlaySettings) (seed : UInt64)
    (noOverflow : ∀ fault, fault.IsOverflow → situation.analyze settings ≠ .error fault)
    (noOverflow' : ∀ fault, fault.IsOverflow →
      situation.analyze { settings with seed } ≠ .error fault) :
  ∃ plays plays', situation.analyze settings = .ok plays
    ∧ situation.analyze { settings with seed } = .ok plays'
    ∧ plays.length = plays'.length
    ∧ List.Forall₂ (fun play play' =>
        play.value = play'.value ∧ play.indices.Perm play'.indices) plays plays'
    ∧ ((∃ column card, situation.board.card? situation.opponent column = some card) →
      plays = plays')
  := by
  obtain ⟨plays, analyzed⟩ := (onlyOverflows_analyze situation settings).exists_ok noOverflow
  obtain ⟨plays', analyzed'⟩ := (onlyOverflows_analyze situation _).exists_ok noOverflow'
  have rearranged := forall₂_analyze analyzed analyzed'
  refine ⟨plays, plays', analyzed, analyzed', rearranged.length_eq, ?_, ?_⟩
  · apply rearranged.imp
    intro play play' same
    exact ⟨same.value, same.indices⟩
  · rintro ⟨column, card, cardAt⟩
    have occupied : situation.board.isBare situation.opponent = false := by
      by_contra bare
      rw [Board.card?_of_isBare (by simpa using bare)] at cardAt
      contradiction
    rw [analyze_of_not_bare settings seed occupied, analyzed] at analyzed'
    apply Except.ok.inj analyzed'

/-- Two numbers and a buff for two columns, against an empty side. -/
def unopposed : Situation where
  hand := [.standard "Ex" (.number 4), .standard "Ex" (.number 9),
    .ofSpecial ⟨"Storm", "", .nothing, .any, ⟨.buff, .value (.number 1)⟩⟩]
  board := ⟨[⟨{}, {}⟩, ⟨{}, {}⟩]⟩
  seat := .first

/-- Here the seeds 0 and 3 lead to different columns, but not to different values or cards. -/
theorem analyze_unopposed :
  ∃ plays plays', unopposed.analyze { seed := 0 } = .ok plays
    ∧ unopposed.analyze { seed := 3 } = .ok plays'
    ∧ plays.map Play.indices = [[1, 2], [1, 0]]
    ∧ plays'.map Play.indices = [[2, 1], [0, 1]]
    ∧ plays.length = plays'.length
    ∧ List.Forall₂ (fun play play' =>
        play.value = play'.value ∧ play.indices.Perm play'.indices) plays plays'
  := by
  have analyzed : (unopposed.analyze { seed := 0 }).map (List.map Play.indices)
      = .ok [[1, 2], [1, 0]] := by
    decide +kernel
  have analyzed' : (unopposed.analyze { seed := 3 }).map (List.map Play.indices)
      = .ok [[2, 1], [0, 1]] := by
    decide +kernel
  obtain ⟨plays, analyzed, indices⟩ := Checked.map_eq_ok_iff.mp analyzed
  obtain ⟨plays', analyzed', indices'⟩ := Checked.map_eq_ok_iff.mp analyzed'
  obtain ⟨_, _, same, same', length, agree, -⟩ :=
    analyze_reseeded unopposed { seed := 0 } 3 (by simp [analyzed]) (by simp [analyzed'])
  obtain rfl := Except.ok.inj (analyzed.symm.trans same)
  obtain rfl := Except.ok.inj (analyzed'.symm.trans same')
  exact ⟨plays, plays', analyzed, analyzed', indices, indices', length, agree⟩

end Situation

end CardDuel
