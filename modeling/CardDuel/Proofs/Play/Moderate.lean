import CardDuel.Proofs.Play.Best
import CardDuel.Proofs.Play.Budget
import Mathlib.Tactic.Common

/-!
# Moderate situations are analyzed without an overflow

The planner ranks cards by preference, foresees what proposed cards lead to, and values the plays
that it builds.  In a moderate situation none of these numbers leaves its range, since a proposal
never has more cards than there are columns, and a play is valued by the faces with which its cards
were printed.  So there always is an analysis, and with it an answer to what the best play is:
`Situation.analyze_of_isModerate`.
-/

namespace CardDuel

open Checked (Ensures)

variable {situation : Situation} {settings : PlaySettings}

/-! ### Building plays -/

namespace Play

variable {indices : List Nat}

/-- A play of at most a hundred chosen cards of a moderate situation is valued in a moderate
view. -/
theorem Distributes.isModerate {play : Play} (h : play.Distributes situation indices)
    (moderate : situation.IsModerate) (weights : settings.IsModerate)
    (few : indices.length ≤ 100) :
  View.IsModerate ⟨play, situation, settings⟩
  where
  situation := moderate
  settings := weights
  cards_length := by
    rw [h.cards.length_eq, List.length_map]
    apply (List.length_filterMap_le ..).trans few
  face card played := by
    obtain ⟨chosen, mem, rfl⟩ := List.mem_map.mp (h.cards.mem_iff.mp played)
    obtain ⟨i, -, cardAt⟩ := List.mem_filterMap.mp mem
    apply (moderate.hand chosen (List.mem_of_getElem? cardAt)).printed
  effect special played := by
    obtain ⟨chosen, mem, isSpecial⟩ := List.mem_filterMap.mp (h.specials.mem_iff.mp played)
    obtain ⟨i, -, cardAt⟩ := List.mem_filterMap.mp mem
    apply moderate.effect chosen (List.mem_of_getElem? cardAt) special isSpecial

theorem exists_ofIndices (moderate : situation.IsModerate) (weights : settings.IsModerate)
    (room : indices.length ≤ situation.openColumns.length) (few : indices.length ≤ 100)
    (stream : Stream) :
  ∃ result, ofIndices situation settings indices stream = .ok result
  := by
  obtain ⟨foresight, foreseen⟩ := Foresight.exists_ofIndices moderate few
  have distributes : Distributes situation indices ⟨foresight.placements situation stream, 0⟩ :=
    distributes_of_placements room foreseen rfl
  obtain ⟨value, valued⟩ := (distributes.isModerate moderate weights few).exists_value
  have appraised : appraise ⟨foresight.placements situation stream, 0⟩ situation settings
      = .ok ⟨foresight.placements situation stream, value⟩ :=
    Checked.bind_eq_ok_iff.mpr ⟨value, valued, rfl⟩
  use (⟨foresight.placements situation stream, value⟩, (foresight.arrange situation stream).2)
  rw [ofIndices, foreseen, Checked.ok_bind]
  change appraise ⟨foresight.placements situation stream, 0⟩ situation settings >>= _ = _
  rw [appraised]
  rfl

end Play

/-! ### Proposals -/

namespace Situation

/-- How much a card is wanted can be computed. -/
theorem exists_preference (weights : settings.IsModerate) (special : Special) {card : Card}
    (within : card.face.IsWithin 1000) :
  ∃ key, preference settings special card = .ok key
  := by
  have value : (card.number?.getD 0).natAbs ≤ 1000 := by
    cases shown : card.number? with
    | none => simp
    | some n => apply within n shown
  have biased {base : Int} (near : base.natAbs ≤ 1011) :
      Ensures True (fun key => key.natAbs ≤ 2011)
        (if special.application.reaches .friendly (some card) none then
          Checked.add base settings.selfBias
        else pure base) := by
    split
    · apply Ensures.add_of_natAbs_le (Nat.add_le_add near weights.selfBias) (by decide)
    · exact Ensures.ok (near.trans (by decide))
  have wanted : Ensures True (fun key => key.natAbs ≤ 2011) (preference settings special card) := by
    rw [preference]
    dsimp only
    split
    · apply (Ensures.sub_of_natAbs_le (Nat.add_le_add_left value 11) (by decide)).bind
      intro base near
      apply biased near
    · apply biased (value.trans (by decide))
  apply wanted.exists_ok trivial

theorem exists_keyed {α : Type} {key : α → Except Fault Int} (h : ∀ a, ∃ k, key a = .ok k)
    (as : List α) :
  ∃ pairs, keyed key as = .ok pairs
  := by
  match as with
  | [] => exact ⟨[], rfl⟩
  | [a] => exact ⟨[(0, a)], rfl⟩
  | a :: b :: rest =>
    apply Checked.exists_bind_eq_ok (h b)
    intro second
    apply Checked.exists_bind_eq_ok (h a)
    intro first
    apply Checked.exists_bind_eq_ok
    · apply Checked.exists_mapM_eq_ok
      intro c _
      obtain ⟨k, found⟩ := h c
      exact ⟨(k, c), Checked.map_eq_ok_iff.mpr ⟨k, found, rfl⟩⟩
    · intro others
      exact ⟨_, rfl⟩

theorem exists_pickLedBy (moderate : situation.IsModerate) (weights : settings.IsModerate)
    (seed : List Nat) (leader : Nat) (special : Special) :
  ∃ picked, situation.pickLedBy settings seed leader special = .ok picked
  := by
  apply Checked.exists_bind_eq_ok
  · apply Checked.exists_bind_eq_ok
    · apply exists_keyed
      intro i
      split
      · rename_i card cardAt
        have inHand := moderate.hand card (List.mem_of_getElem? cardAt)
        apply exists_preference weights special inHand.face
      · exact ⟨0, rfl⟩
    · intro pairs
      exact ⟨_, rfl⟩
  · intro pool
    exact ⟨_, rfl⟩

/-- Every proposal can be made. -/
theorem exists_of_mem_proposals (moderate : situation.IsModerate) (weights : settings.IsModerate) :
  ∀ proposal ∈ situation.proposals settings, ∃ answer, proposal = .ok answer
  := by
  have led : ∀ seed, ∀ proposal ∈ situation.ledProposals settings seed
      ++ [.ok (situation.strongestProposal seed)], ∃ answer, proposal = .ok answer := by
    intro seed proposal mem
    rcases List.mem_append.mp mem with mem | mem
    · rw [ledProposals] at mem
      split at mem
      · contradiction
      · obtain ⟨leader, -, led⟩ := List.mem_filterMap.mp mem
        obtain ⟨special, -, rfl⟩ := Option.map_eq_some_iff.mp led
        obtain ⟨picked, found⟩ := exists_pickLedBy moderate weights seed leader special
        rw [found]
        exact ⟨_, rfl⟩
    · obtain rfl := List.mem_singleton.mp mem
      exact ⟨_, rfl⟩
  rw [proposals]
  intro proposal mem
  rcases List.mem_append.mp mem with mem | mem
  · apply led [] proposal mem
  · split at mem
    · contradiction
    · apply led situation.beaters proposal mem

/-! ### The analysis -/

/-- Plays can be built from proposals if each of them can be made and each play of the cards that
it proposes can be built. -/
theorem exists_buildAll {proposals : List (Except Fault (Option (List Nat)))}
    (made : ∀ proposal ∈ proposals, ∃ answer, proposal = .ok answer)
    (built : ∀ indices, .ok (some indices) ∈ proposals → ∀ stream,
      ∃ result, Play.ofIndices situation settings indices stream = .ok result)
    (stream : Stream) :
  ∃ plays, situation.buildAll settings proposals stream = .ok plays
  := by
  induction proposals generalizing stream with
  | nil => exact ⟨[], rfl⟩
  | cons proposal rest ih =>
    obtain ⟨⟨answer, rfl⟩, others⟩ := List.forall_mem_cons.mp made
    have later := ih others fun indices mem => built indices (List.mem_cons_of_mem _ mem)
    cases answer with
    | none => apply later stream
    | some indices =>
      rw [buildAll, Checked.ok_bind]
      dsimp only
      apply Checked.exists_bind_eq_ok (built indices List.mem_cons_self stream)
      rintro ⟨play, next⟩
      apply Checked.exists_bind_eq_ok (later next)
      intro plays
      exact ⟨play :: plays, rfl⟩

/-- In a moderate situation and with moderate weights an analysis never overflows, whichever player
it is made for, and so the search for the best play has an answer. -/
theorem analyze_of_isModerate (situation : Situation) (settings : PlaySettings)
    (moderate : situation.IsModerate) (weights : settings.IsModerate) :
  (∃ plays, situation.analyze settings = .ok plays)
    ∧ ∃ answer, situation.bestPlay settings = .ok answer
  := by
  have analyzed : ∃ plays, situation.analyze settings = .ok plays := by
    rw [analyze]
    split
    · exact ⟨_, rfl⟩
    · have found : ∃ plays, situation.candidates settings = .ok plays := by
        apply exists_buildAll (exists_of_mem_proposals moderate weights)
        intro indices proposed stream
        have enough := (picks_of_mem_proposals proposed).2
        rw [needed] at enough
        have few := moderate.hand_length
        apply Play.exists_ofIndices moderate weights
        · omega
        · omega
      obtain ⟨plays, found⟩ := found
      rw [found]
      exact ⟨_, rfl⟩
  obtain ⟨plays, analyzed⟩ := analyzed
  exact ⟨⟨plays, analyzed⟩, _, bestPlay_of_analyze analyzed⟩

/-- A buff and a reversal beside a number, all of them as large as they may be, against the largest
number below zero. -/
def stakes : Situation where
  hand := [.standard "Ex" (.number 1000),
    .ofSpecial ⟨"Boast", "", .nothing, .any, .adding 1000⟩,
    .ofSpecial ⟨"Mirror", "", .nothing, .any, ⟨.reverse, .none⟩⟩]
  board := ⟨[⟨{}, { card := some (.standard "Ex" (.number (-1000))), hold := .held }⟩, ⟨{}, {}⟩]⟩
  seat := .first

theorem analyze_stakes :
  stakes.IsModerate
    ∧ PlaySettings.IsModerate { specialBonus := 1000, flushPenalty := -1000 }
    ∧ (∃ plays, stakes.analyze { specialBonus := 1000, flushPenalty := -1000 } = .ok plays)
    ∧ ∃ answer, stakes.bestPlay { specialBonus := 1000, flushPenalty := -1000 } = .ok answer
  := by
  have moderate : stakes.IsModerate := by
    constructor
    · decide
    · decide
    · intro card mem
      simp only [stakes, List.mem_cons, List.not_mem_nil, or_false] at mem
      rcases mem with rfl | rfl | rfl <;> exact ⟨by decide, by decide⟩
    · intro seat slot mem card shown
      cases seat <;>
        simp only [stakes, Board.row, List.map_cons, List.map_nil, Pair.get, List.mem_cons,
          List.not_mem_nil, or_false] at mem
      · rcases mem with rfl | rfl <;> cases shown
      · rcases mem with rfl | rfl
        · cases shown
          exact ⟨by decide, by decide⟩
        · cases shown
    · intro card mem special isSpecial
      simp only [stakes, List.mem_cons, List.not_mem_nil, or_false] at mem
      rcases mem with rfl | rfl | rfl
      · cases isSpecial
      · cases isSpecial
        constructor
        · decide
        · rintro delta ⟨⟩
          decide
      · cases isSpecial
        constructor
        · decide
        · rintro delta ⟨⟩
  have weights : PlaySettings.IsModerate { specialBonus := 1000, flushPenalty := -1000 } := by
    constructor <;> decide
  exact ⟨moderate, weights, analyze_of_isModerate stakes _ moderate weights⟩

end Situation

end CardDuel
