import CardDuel.Proofs.Play.Seeding
import Mathlib.Data.List.TakeWhile

/-!
# The best play

An analysis sorts the candidate plays by value and drops illegal ones only from the front.
Still it keeps every legal candidate, so the play that it lists first is the best of them.  The
strongest standard cards of the hand, if there are enough of them, always make a candidate, and
no requirement can make it illegal; so the best play is worth at least as much:
`Situation.bestPlay_spec`.
-/

namespace CardDuel.Situation

variable {situation : Situation} {settings : PlaySettings}

/-! ### The strongest standard cards -/

/-- As many standard cards of the hand as are needed, such that no other shows a greater
number. -/
structure Strongest (situation : Situation) (indices : List Nat) : Prop where
  picks : situation.Picks indices
  enough : indices.length = situation.needed
  standard : ∀ i ∈ indices, ∃ card, situation.hand[i]? = some card ∧ card.isSpecial = false
  highest : ∀ i ∈ indices, ∀ j ∉ indices, ∀ card other, situation.hand[i]? = some card →
    situation.hand[j]? = some other → other.isSpecial = false →
    other.number?.getD 0 ≤ card.number?.getD 0

theorem countP_range_getElem? {α : Type} (test : α → Bool) (as : List α) :
  (List.range as.length).countP (fun i => as[i]?.any test) = as.countP test
  := by
  induction as with
  | nil => rfl
  | cons a rest ih =>
    rw [List.length_cons, List.range_succ_eq_map, List.countP_cons, List.countP_map,
      List.countP_cons, ← ih]
    rfl

theorem length_standardIndices (situation : Situation) :
  (situation.standardIndices []).length = situation.hand.countP fun card => !card.isSpecial
  := by
  rw [← countP_range_getElem?, List.countP_eq_length_filter]
  rfl

/-- The proposal of the strongest standard cards deserves its name. -/
theorem strongest_of_strongestProposal {indices : List Nat}
    (h : situation.strongestProposal [] = some indices) :
  situation.Strongest indices
  := by
  obtain ⟨picks, enough⟩ := picks_strongestProposal (.nil situation) h
  obtain ⟨-, rfl⟩ := complete_eq_some_iff.mp h
  refine ⟨picks, enough, ?_, ?_⟩
  · intro i mem
    have mem := Play.mem_sortBy.mp (List.mem_of_mem_take (by simpa [Play.sortDown] using mem))
    apply (mem_standardIndices.mp mem).2
  · intro i mem j other card card' cardAt cardAt' standard
    have isStandard : j ∈ situation.standardIndices [] :=
      mem_standardIndices.mpr ⟨by simp, card', cardAt', standard⟩
    have le := Play.key_le_of_not_mem_take (Play.sortDown_pairwise _ _) mem
      (Play.mem_sortBy.mpr isStandard) other
    simpa [cardAt, cardAt'] using le

/-- With enough standard cards in the hand, the strongest of them are proposed. -/
theorem exists_strongestProposal
    (h : situation.needed ≤ situation.hand.countP fun card => !card.isSpecial) :
  ∃ indices, situation.strongestProposal [] = some indices
  := by
  refine ⟨_, complete_eq_some_iff.mpr ⟨?_, rfl⟩⟩
  rw [← length_standardIndices] at h
  rw [List.nil_append, List.length_take, Play.sortDown, (Play.sortBy_perm _ _).length_eq]
  apply Nat.min_eq_left h

theorem strongestProposal_mem_proposals (situation : Situation) (settings : PlaySettings) :
  .ok (situation.strongestProposal []) ∈ situation.proposals settings
  := by simp [proposals]

/-- A play of standard cards is legal. -/
theorem isLegal_of_standard {indices : List Nat} {play : Play}
    (standard : ∀ i ∈ indices, ∃ card, situation.hand[i]? = some card ∧ card.isSpecial = false)
    (h : play.Distributes situation indices) (board : Board) (seat : Seat) :
  play.isLegal board seat = true
  := by
  have noSpecials : (situation.cardsAt indices).filterMap (·.special) = [] := by
    apply List.filterMap_eq_nil_iff.mpr
    intro card mem
    obtain ⟨i, index, cardAt⟩ := List.mem_filterMap.mp mem
    obtain ⟨card', cardAt', plain⟩ := standard i index
    obtain rfl : card = card' := Option.some.inj (cardAt.symm.trans cardAt')
    simpa [Card.isSpecial] using plain
  have specials := h.specials
  rw [noSpecials] at specials
  rw [Play.isLegal, specials.eq_nil]
  rfl

/-! ### Candidates -/

/-- Every proposal of cards is built. -/
theorem exists_mem_buildAll {proposals : List (Except Fault (Option (List Nat)))}
    {stream : Stream} {plays : List Play} {indices : List Nat}
    (h : situation.buildAll settings proposals stream = .ok plays)
    (mem : .ok (some indices) ∈ proposals) :
  ∃ play ∈ plays, ∃ stream stream',
    Play.ofIndices situation settings indices stream = .ok (play, stream')
  := by
  induction proposals generalizing stream plays with
  | nil => contradiction
  | cons proposal rest ih =>
    obtain ⟨answer, rfl, answered⟩ := Checked.bind_eq_ok_iff.mp h
    rcases answer with _ | first
    · apply ih answered
      simpa using mem
    · obtain ⟨⟨play, next⟩, built, continued⟩ := Checked.bind_eq_ok_iff.mp answered
      obtain ⟨others, buildRest, finished⟩ := Checked.bind_eq_ok_iff.mp continued
      obtain rfl := Except.ok.inj finished
      rcases List.mem_cons.mp mem with same | later
      · obtain rfl := Option.some.inj (Except.ok.inj same)
        exact ⟨play, List.mem_cons_self, stream, next, built⟩
      · obtain ⟨play', mem', found⟩ := ih buildRest later
        exact ⟨play', List.mem_cons_of_mem _ mem', found⟩

/-- A play built from no cards is the empty one. -/
theorem exists_ofIndices_nil (situation : Situation) (settings : PlaySettings) (stream : Stream) :
  ∃ next, Play.ofIndices situation settings [] stream = .ok (.empty, next)
  := by
  let foresight : Play.Foresight :=
    ⟨[], (situation.board.row situation.opponent).map (·.card), []⟩
  have foreseen : Play.Foresight.ofIndices situation [] = .ok foresight := rfl
  have complete := Play.Foresight.isComplete_arrange stream
    (Play.nodup_place_picksOf situation []) (Nat.zero_le _)
    (Play.Foresight.isSound_ofIndices foreseen)
  have nothing : (foresight.arrange situation stream).1 = [] :=
    List.map_eq_nil_iff.mp complete.picks.eq_nil
  use (foresight.arrange situation stream).2
  rw [Play.ofIndices, foreseen, Checked.ok_bind]
  dsimp only
  rw [nothing]
  rfl

/-- Where no card is needed, the empty play is the only candidate. -/
theorem candidates_of_needed_eq_zero (none : situation.needed = 0) :
  situation.candidates settings = .ok [.empty]
  := by
  have noBeaters : situation.beaters = [] := by
    unfold beaters
    simp only [none, Nat.zero_le, if_true]
    apply List.foldl_fixed
  have noLeaders : situation.ledProposals settings [] = [] := by simp [ledProposals, none]
  have strongest : situation.strongestProposal [] = some [] := by
    apply complete_eq_some_iff.mpr
    simp [none]
  obtain ⟨next, built⟩ := exists_ofIndices_nil situation settings
    ((Stream.ofSeed settings.seed).within "arrange")
  rw [candidates, proposals, noBeaters, noLeaders, strongest]
  change (Play.ofIndices situation settings [] _ >>= _) = _
  rw [built]
  rfl

/-- The legal ones of a list of plays. -/
def legalPlays (situation : Situation) (plays : List Play) : List Play :=
  plays.filter fun play => play.isLegal situation.board situation.seat

/-- An analysis sorts all candidates and drops illegal ones from the front. -/
theorem analyze_eq_ok {plays : List Play} (h : situation.analyze settings = .ok plays) :
  ∃ candidates, situation.candidates settings = .ok candidates
    ∧ plays = (Play.sortDown (·.value) candidates).dropWhile fun play =>
        !play.isLegal situation.board situation.seat
  := by
  rw [analyze] at h
  split at h
  · rename_i none
    obtain rfl := Except.ok.inj h
    exact ⟨[.empty], candidates_of_needed_eq_zero none, rfl⟩
  · obtain ⟨candidates, found, h⟩ := Checked.bind_eq_ok_iff.mp h
    exact ⟨candidates, found, (Except.ok.inj h).symm⟩

/-- How plays are ranked among candidates: the most valuable come first, they start with a
legal one, and no legal candidate is missing. -/
structure Ranks (situation : Situation) (candidates plays : List Play) : Prop where
  falling : plays.Pairwise fun earlier later => later.value ≤ earlier.value
  isCandidate : ∀ play ∈ plays, play ∈ candidates
  isLegal : ∀ best ∈ plays.head?, best.isLegal situation.board situation.seat = true
  legalPlays : (situation.legalPlays plays).Perm (situation.legalPlays candidates)

theorem ranks_dropWhile (situation : Situation) (candidates : List Play) :
  situation.Ranks candidates <|
    (Play.sortDown (·.value) candidates).dropWhile fun play =>
      !play.isLegal situation.board situation.seat
  where
  falling := (Play.sortDown_pairwise _ candidates).sublist (List.dropWhile_sublist _)
  isCandidate _ mem := Play.mem_sortBy.mp ((List.dropWhile_sublist _).subset mem)
  isLegal best first := by
    rw [← List.find?_not_eq_head?_dropWhile] at first
    simpa using List.find?_some first
  legalPlays := by
    rw [Situation.legalPlays, Play.filter_dropWhile]
    apply (Play.sortBy_perm _ candidates).filter

namespace Ranks

variable {candidates plays : List Play}

/-- A legal candidate is listed. -/
theorem mem (h : situation.Ranks candidates plays) {play : Play} (candidate : play ∈ candidates)
    (legal : play.isLegal situation.board situation.seat = true) :
  play ∈ plays
  := by
  have mem : play ∈ situation.legalPlays candidates := List.mem_filter.mpr ⟨candidate, legal⟩
  apply List.mem_of_mem_filter (h.legalPlays.mem_iff.mpr mem)

/-- No legal candidate is worth more than the play listed first. -/
theorem value_le (h : situation.Ranks candidates plays) {best play : Play}
    (first : plays.head? = some best) (candidate : play ∈ candidates)
    (legal : play.isLegal situation.board situation.seat = true) :
  play.value ≤ best.value
  := by
  obtain ⟨rest, rfl⟩ := List.head?_eq_some_iff.mp first
  rcases List.mem_cons.mp (h.mem candidate legal) with rfl | later
  · apply Int.le_refl
  · apply (List.pairwise_cons.mp h.falling).1 play later

/-- Where some candidate is legal, one is listed first. -/
theorem exists_head? (h : situation.Ranks candidates plays) {play : Play}
    (candidate : play ∈ candidates)
    (legal : play.isLegal situation.board situation.seat = true) :
  ∃ best ∈ candidates, plays.head? = some best
  := by
  rcases plays with _ | ⟨best, rest⟩
  · have listed := h.mem candidate legal
    contradiction
  · exact ⟨best, h.isCandidate best List.mem_cons_self, rfl⟩

end Ranks

/-! ### The choice -/

theorem bestPlay_of_analyze {plays : List Play} (h : situation.analyze settings = .ok plays) :
  situation.bestPlay settings = .ok (plays.head?.elim (.error .noPlayFound) .ok)
  := by
  rw [bestPlay, h]
  rcases plays <;> rfl

/-- The play of the strongest standard cards is a legal candidate, worth the same on every
stream. -/
theorem exists_strongest_candidate {candidates : List Play} {indices : List Nat}
    (found : situation.candidates settings = .ok candidates)
    (strongest : situation.strongestProposal [] = some indices) :
  ∃ play ∈ situation.legalPlays candidates,
    (∃ stream next, Play.ofIndices situation settings indices stream = .ok (play, next))
    ∧ ∀ stream play' next,
        Play.ofIndices situation settings indices stream = .ok (play', next) →
        play'.value = play.value
  := by
  have proposed := strongestProposal_mem_proposals situation settings
  rw [strongest] at proposed
  obtain ⟨play, candidate, stream, next, built⟩ := exists_mem_buildAll found proposed
  have isStrongest := strongest_of_strongestProposal strongest
  have room : indices.length ≤ situation.openColumns.length := by
    rw [isStrongest.enough]
    apply Nat.min_le_left
  refine ⟨play, ?_, ⟨stream, next, built⟩, ?_⟩
  · apply List.mem_filter.mpr
    refine ⟨candidate, ?_⟩
    apply isLegal_of_standard isStrongest.standard (Play.distributes_ofIndices room built)
  · -- the stream decides the columns at most, as the seed does
    intro stream' play' next' built'
    apply (Play.rearranged_ofIndices room built' built).value

/-- Without an overflow an analysis ranks the candidates, and the best play is the one that it
lists first, if there is one; no legal candidate is worth more.  With enough standard cards in
the hand there is a best play, and it is worth at least as much as the play of the strongest of
them, on whatever stream that is built. -/
theorem bestPlay_spec (situation : Situation) (settings : PlaySettings)
    (noOverflow : ∀ fault, fault.IsOverflow → situation.analyze settings ≠ .error fault) :
  ∃ candidates plays, situation.candidates settings = .ok candidates
    ∧ situation.analyze settings = .ok plays
    ∧ situation.Ranks candidates plays
    ∧ (∀ best, situation.bestPlay settings = .ok (.ok best) ↔ plays.head? = some best)
    ∧ (∀ best, situation.bestPlay settings = .ok (.ok best) →
        ∀ play ∈ situation.legalPlays candidates, play.value ≤ best.value)
    ∧ (situation.needed ≤ situation.hand.countP (fun card => !card.isSpecial) →
        ∃ best indices play, situation.bestPlay settings = .ok (.ok best)
          ∧ situation.strongestProposal [] = some indices
          ∧ situation.Strongest indices
          ∧ play ∈ situation.legalPlays candidates
          ∧ (∃ stream next, Play.ofIndices situation settings indices stream = .ok (play, next))
          ∧ ∀ stream play' next,
              Play.ofIndices situation settings indices stream = .ok (play', next) →
              play'.value ≤ best.value)
  := by
  obtain ⟨plays, analyzed⟩ := (onlyOverflows_analyze situation settings).exists_ok noOverflow
  obtain ⟨candidates, found, dropped⟩ := analyze_eq_ok analyzed
  have ranks : situation.Ranks candidates plays := by
    rw [dropped]
    apply ranks_dropWhile
  have first (best : Play) :
      situation.bestPlay settings = .ok (.ok best) ↔ plays.head? = some best := by
    rw [bestPlay_of_analyze analyzed]
    rcases plays.head? <;> simp
  refine ⟨candidates, plays, found, analyzed, ranks, first, ?_, ?_⟩
  · intro best isBest play mem
    obtain ⟨candidate, legal⟩ := List.mem_filter.mp mem
    apply ranks.value_le ((first best).mp isBest) candidate legal
  · intro enough
    obtain ⟨indices, strongest⟩ := exists_strongestProposal enough
    obtain ⟨play, mem, built, same⟩ := exists_strongest_candidate found strongest
    obtain ⟨candidate, legal⟩ := List.mem_filter.mp mem
    obtain ⟨best, isFirst⟩ : ∃ best, plays.head? = some best := by
      apply Option.isSome_iff_exists.mp
      apply List.isSome_head?.mpr
      apply List.ne_nil_of_mem (ranks.mem candidate legal)
    refine ⟨best, indices, play, (first best).mpr isFirst, strongest,
      strongest_of_strongestProposal strongest, mem, built, ?_⟩
    intro stream play' next built'
    rw [same stream play' next built']
    apply ranks.value_le isFirst candidate legal

/-- Two numbers, and a strong buff that asks for three cards, for two columns. -/
def boastful : Situation where
  hand := [.standard "Ex" (.number 4), .standard "Ex" (.number 9),
    .ofSpecial ⟨"Boast", "", .counting .atLeast 3 .any,
      .test (.ofScope { alignment := .friendly }), ⟨.buff, .value (.number 9)⟩⟩]
  board := ⟨[⟨{}, {}⟩, ⟨{}, {}⟩]⟩
  seat := .first

/-- Here the play that the buff leads would be worth more than the two numbers, but it is not
legal. -/
theorem bestPlay_boastful :
  ∃ candidates best play, boastful.candidates {} = .ok candidates
    ∧ candidates.map Play.value = [28, 13]
    ∧ boastful.bestPlay {} = .ok (.ok best)
    ∧ best.value = 13
    ∧ play ∈ boastful.legalPlays candidates
    ∧ (∃ stream next, Play.ofIndices boastful {} [1, 0] stream = .ok (play, next))
    ∧ play.value ≤ best.value
  := by
  have values : (boastful.candidates {}).map (List.map Play.value) = .ok [28, 13] := by
    decide +kernel
  have ranked : (boastful.analyze {}).map (List.map Play.value) = .ok [13] := by
    decide +kernel
  obtain ⟨candidates, found, values⟩ := Checked.map_eq_ok_iff.mp values
  obtain ⟨plays, analyzed, ranked⟩ := Checked.map_eq_ok_iff.mp ranked
  obtain ⟨candidates', plays', found', analyzed', -, first, most, strongest⟩ :=
    bestPlay_spec boastful {} (by simp [analyzed])
  obtain rfl := Except.ok.inj (found.symm.trans found')
  obtain rfl := Except.ok.inj (analyzed.symm.trans analyzed')
  obtain ⟨best, indices, play, isBest, proposed, -, mem, built, -⟩ := strongest (by decide)
  obtain rfl : [1, 0] = indices := Option.some.inj (Eq.trans (by decide) proposed)
  obtain ⟨rest, rfl⟩ := List.head?_eq_some_iff.mp ((first best).mp isBest)
  exact ⟨candidates, best, play, found, values, isBest, (List.cons.inj ranked).1, mem, built,
    most best isBest play mem⟩

end CardDuel.Situation
