import CardDuel.Proofs.Casting.Overflow
import CardDuel.Proofs.Casting.Sequence
import CardDuel.Round

/-!
# Rounds

A round either carries out every special card and scores every column with two cards, or it
stops at the first unsupported special card and scores nothing: `Arena.resolve_outcome`.
-/

namespace CardDuel

open Checked (OnlyOverflows)

/-! ### Matches -/

namespace Scoreboard

theorem onlyOverflows_add (scores : Scoreboard) (seat : Seat) (suit : String) (amount : Int) :
  OnlyOverflows (scores.add seat suit amount)
  := by
  apply OnlyOverflows.map
  induction scores.entries with
  | nil => apply OnlyOverflows.ok
  | cons entry rest ih =>
    rw [update]
    split
    · apply (OnlyOverflows.add ..).bind
      intro points
      apply OnlyOverflows.ok
    · apply ih.bind
      intro rest'
      apply OnlyOverflows.ok

theorem onlyOverflows_creditBoth (scores : Scoreboard) (seat : Seat) (suit other : String) :
  OnlyOverflows (scores.creditBoth seat suit other)
  := by
  apply (onlyOverflows_add ..).bind
  intro scores'
  split
  · apply OnlyOverflows.ok
  · apply onlyOverflows_add

theorem onlyOverflows_creditWin (scores : Scoreboard) (winner : Seat)
    (winnerSuit loserSuit : String) :
  OnlyOverflows (scores.creditWin winner winnerSuit loserSuit)
  := by
  apply (onlyOverflows_creditBoth ..).bind
  intro scores'
  apply onlyOverflows_add

theorem onlyOverflows_scoreMatch (scores : Scoreboard) (seat : Seat) (mine theirs : Card) :
  OnlyOverflows (scores.scoreMatch seat mine theirs)
  := by
  rw [scoreMatch]
  dsimp only
  split
  · split
    · apply (onlyOverflows_creditBoth ..).bind
      intro scores'
      apply (onlyOverflows_creditBoth ..).bind
      intro scores''
      apply OnlyOverflows.ok
    · apply OnlyOverflows.ok
  · split
    · apply (onlyOverflows_creditWin ..).bind
      intro scores'
      apply OnlyOverflows.ok
    · apply (onlyOverflows_creditWin ..).bind
      intro scores'
      apply OnlyOverflows.ok
    · apply OnlyOverflows.ok

theorem onlyOverflows_scoreAll (matches' : List (Nat × Card × Card)) (scores : Scoreboard) :
  OnlyOverflows (scores.scoreAll matches')
  := by
  induction matches' generalizing scores with
  | nil => apply OnlyOverflows.ok
  | cons first rest ih =>
    apply (onlyOverflows_scoreMatch ..).bind
    intro decided
    apply (ih _).bind
    intro others
    apply OnlyOverflows.ok

/-- `Scores scores matches outcomes scores'`: deciding `matches` one after another, each seen
from the first seat, leads from `scores` to `scores'` with the given outcomes. -/
inductive Scores :
    Scoreboard → List (Nat × Card × Card) → List (Nat × Outcome) → Scoreboard → Prop where
  | nil (scores : Scoreboard) : Scores scores [] [] scores
  | cons {scores scores' scores'' : Scoreboard} {column : Nat} {mine theirs : Card}
      {outcome : Outcome} {rest : List (Nat × Card × Card)} {outcomes : List (Nat × Outcome)} :
    scores.scoreMatch .first mine theirs = .ok (scores', outcome) →
    Scores scores' rest outcomes scores'' →
    Scores scores ((column, mine, theirs) :: rest) ((column, outcome) :: outcomes) scores''

theorem scores_of_scoreAll {matches' : List (Nat × Card × Card)} {scores scores' : Scoreboard}
    {outcomes : List (Nat × Outcome)} (h : scores.scoreAll matches' = .ok (scores', outcomes)) :
  Scores scores matches' outcomes scores'
  := by
  induction matches' generalizing scores outcomes with
  | nil =>
    obtain ⟨rfl, rfl⟩ := Prod.mk.inj (Except.ok.inj h)
    exact .nil scores
  | cons first rest ih =>
    obtain ⟨column, mine, theirs⟩ := first
    obtain ⟨⟨next, outcome⟩, decided, h⟩ := Checked.bind_eq_ok_iff.mp h
    obtain ⟨⟨last, others⟩, later, h⟩ := Checked.bind_eq_ok_iff.mp h
    obtain ⟨rfl, rfl⟩ := Prod.mk.inj (Except.ok.inj h)
    exact .cons decided (ih later)

end Scoreboard

/-! ### Columns with two cards -/

namespace Board

theorem mem_fullColumns {board : Board} {column : Nat} {mine theirs : Card} :
  (column, mine, theirs) ∈ board.fullColumns
    ↔ board.card? .first column = some mine ∧ board.card? .second column = some theirs
  := by
  simp only [fullColumns, List.mem_filterMap, List.mem_range]
  constructor
  · rintro ⟨column', -, found⟩
    split at found
    · rename_i mineAt theirsAt
      obtain ⟨rfl, rfl, rfl⟩ := by simpa using found
      exact ⟨mineAt, theirsAt⟩
    · contradiction
  · rintro ⟨mineAt, theirsAt⟩
    exact ⟨column, lt_width_of_card? mineAt, by simp [mineAt, theirsAt]⟩

/-- Columns with two cards are listed from left to right, each once. -/
theorem pairwise_fullColumns (board : Board) :
  board.fullColumns.Pairwise fun left right => left.1 < right.1
  := by
  apply List.Pairwise.filterMap _ _ List.pairwise_lt_range
  intro column column' less left leftAt right rightAt
  have leftColumn : left.1 = column := by
    split at leftAt
    · rw [← Option.some.inj leftAt]
    · contradiction
  have rightColumn : right.1 = column' := by
    split at rightAt
    · rw [← Option.some.inj rightAt]
    · contradiction
  rw [leftColumn, rightColumn]
  apply less

end Board

/-! ### Rounds -/

namespace Arena

/-- A round has a result unless a card value or points leave their range. -/
theorem onlyOverflows_resolve (arena : Arena) (scores : Scoreboard) :
  OnlyOverflows (arena.resolve scores)
  := by
  apply (onlyOverflows_castAlong arena.board.positions arena).bind
  rintro ⟨arena', error | resolutions⟩
  · apply OnlyOverflows.ok
  · apply (Scoreboard.onlyOverflows_scoreAll ..).bind
    intro scored
    apply OnlyOverflows.ok

/-- A round ends with the error of its special cards, or its columns are scored. -/
theorem resolve_cases {arena arena' : Arena} {scores scores' : Scoreboard}
    {answer : Except GameError RoundReport}
    (h : arena.resolve scores = .ok (arena', scores', answer)) :
  (∃ error, arena.castAll = .ok (arena', .error error) ∧ scores' = scores
    ∧ answer = .error error)
  ∨ ∃ resolutions outcomes, arena.castAll = .ok (arena', .ok resolutions)
    ∧ scores.scoreAll arena'.board.fullColumns = .ok (scores', outcomes)
    ∧ answer = .ok ⟨resolutions, outcomes⟩
  := by
  obtain ⟨⟨last, error | resolutions⟩, cast, h⟩ := Checked.bind_eq_ok_iff.mp h
  · injection h with h
    injection h with arenas h
    injection h with boards answers
    subst arenas
    left
    exact ⟨error, cast, boards.symm, answers.symm⟩
  · obtain ⟨⟨scores'', outcomes⟩, scored, h⟩ := Checked.bind_eq_ok_iff.mp h
    injection h with h
    injection h with arenas h
    injection h with boards answers
    subst arenas
    subst boards
    right
    exact ⟨resolutions, outcomes, cast, scored, answers.symm⟩

/-- Without an overflow a round ends in an error exactly if an unsupported special card stands
on the board.  Then the error names the first one, those before it have been carried out and
nothing is scored.  Otherwise every special card that stands on the board is carried out and
reported once, in order, and on the board that results every column with two cards is decided
once, from left to right. -/
theorem resolve_outcome (arena : Arena) (scores : Scoreboard)
    (noOverflow : ∀ fault, fault.IsOverflow → arena.resolve scores ≠ .error fault) :
  ∃ arena' scores' answer, arena.resolve scores = .ok (arena', scores', answer)
  ∧ ((∃ error, answer = .error error)
    ↔ ∃ special ∈ arena.board.standing, special.IsUnsupported)
  ∧ (∀ error, answer = .error error →
    ∃ before culprit after resolutions,
      arena.board.standing = before ++ culprit :: after
      ∧ (∀ special ∈ before, ¬ special.IsUnsupported) ∧ culprit.IsUnsupported
      ∧ error = .unsupportedEffect culprit.special.name culprit.special.effect.kind
      ∧ Casts arena before resolutions arena'
      ∧ scores' = scores)
  ∧ ∀ report, answer = .ok report →
    Casts arena arena.board.standing report.resolutions arena'
    ∧ report.resolutions.map (fun resolution =>
        (resolution.special, resolution.caster, resolution.column, resolution.kind))
      = arena.board.standing.map (fun special =>
        (special.special.name, special.caster, special.column, special.special.effect.kind))
    ∧ ∃ columns : List (Nat × Card × Card),
      (∀ column mine theirs, (column, mine, theirs) ∈ columns
        ↔ arena'.board.card? .first column = some mine
          ∧ arena'.board.card? .second column = some theirs)
      ∧ columns.Pairwise (fun left right => left.1 < right.1)
      ∧ Scoreboard.Scores scores columns report.outcomes scores'
  := by
  obtain ⟨⟨arena', scores', answer⟩, h⟩ :=
    (onlyOverflows_resolve arena scores).exists_ok noOverflow
  refine ⟨arena', scores', answer, h, ?_⟩
  rcases resolve_cases h with ⟨error, cast, rfl, rfl⟩ |
    ⟨resolutions, outcomes, cast, scored, rfl⟩
  · obtain ⟨_, wrong, -⟩ | ⟨before, culprit, after, resolutions, split, unsupported, same, casts⟩ :=
      castAll_cases cast
    · contradiction
    obtain rfl := Except.error.inj same
    refine ⟨?_, ?_, ?_⟩
    · rw [split]
      constructor
      · intro _
        use culprit, List.mem_append_right _ List.mem_cons_self
      · intro _
        exact ⟨_, rfl⟩
    · rintro _ ⟨⟩
      use before, culprit, after, resolutions, split, casts.supported
    · intro report wrong
      contradiction
  · obtain ⟨_, same, casts⟩ | ⟨_, _, _, _, -, -, wrong, -⟩ := castAll_cases cast
    · obtain rfl := Except.ok.inj same
      refine ⟨?_, ?_, ?_⟩
      · simpa using casts.supported
      · intro error wrong
        contradiction
      · rintro _ ⟨⟩
        use casts, casts.reports, arena'.board.fullColumns
        refine ⟨?_, Board.pairwise_fullColumns arena'.board, Scoreboard.scores_of_scoreAll scored⟩
        intro column mine theirs
        apply Board.mem_fullColumns
    · contradiction

/-- Two columns: a special card that adds two to every card faces a seven, and an unsupported
special card faces nothing. -/
def unluckyArena : Arena where
  board := ⟨[
    ⟨{ card := some (.ofSpecial ⟨"Rose", "", .nothing, .any, .adding 2⟩) },
      { card := some (.standard "Ex" (.number 7)) }⟩,
    ⟨{}, { card := some (.ofSpecial ⟨"Chaos", "", .nothing, .any, ⟨.randomize, .none⟩⟩) }⟩]⟩
  hands := Pair.both {}

/-- The same special card, and a five that faces a four. -/
def luckyArena : Arena where
  board := ⟨[
    ⟨{ card := some (.ofSpecial ⟨"Rose", "", .nothing, .any, .adding 2⟩) },
      { card := some (.standard "Ex" (.number 7)) }⟩,
    ⟨{ card := some (.standard "Boyfriend" (.number 5)) },
      { card := some (.standard "Ex" (.number 4)) }⟩]⟩
  hands := Pair.both {}

/-- The first round ends in an error, after the seven has become a nine and before anything is
scored.  The second one is scored: the special card draws against a nine, and the five, now a seven,
beats what is now a six. -/
theorem resolve_outcome_either_way :
  (∃ before culprit after resolutions arena',
    unluckyArena.resolve (.ofSuits ["Ex"])
      = .ok (arena', .ofSuits ["Ex"], .error (.unsupportedEffect "Chaos" .randomize))
    ∧ unluckyArena.board.standing = before ++ culprit :: after
    ∧ culprit.IsUnsupported
    ∧ Casts unluckyArena before resolutions arena'
    ∧ arena'.board.card? .second 0 = some ⟨⟨"Ex", .number 7⟩, ⟨"Ex", .number 9⟩, [.buff], none⟩)
  ∧ ∃ arena' columns,
    luckyArena.resolve (.ofSuits ["Ex", "Boyfriend"])
      = .ok (arena', ⟨[⟨"Ex", ⟨10, -10⟩⟩, ⟨"Boyfriend", ⟨10, 0⟩⟩]⟩,
        .ok ⟨[⟨"Rose", .first, 0, .buff, 3⟩], [(0, .draw), (1, .win)]⟩)
    ∧ Casts luckyArena luckyArena.board.standing [⟨"Rose", .first, 0, .buff, 3⟩] arena'
    ∧ arena'.board.card? .first 1
      = some ⟨⟨"Boyfriend", .number 5⟩, ⟨"Boyfriend", .number 7⟩, [.buff], none⟩
    ∧ Scoreboard.Scores (.ofSuits ["Ex", "Boyfriend"]) columns [(0, .draw), (1, .win)]
      ⟨[⟨"Ex", ⟨10, -10⟩⟩, ⟨"Boyfriend", ⟨10, 0⟩⟩]⟩
  := by
  constructor
  · have resolved : unluckyArena.resolve (.ofSuits ["Ex"])
        = .ok (_, .ofSuits ["Ex"], .error (.unsupportedEffect "Chaos" .randomize)) := rfl
    obtain ⟨arena', scores', answer, same, -, failed, -⟩ :=
      resolve_outcome unluckyArena (.ofSuits ["Ex"]) (by simp [resolved])
    obtain ⟨rfl, rfl, rfl⟩ := by simpa using resolved.symm.trans same
    obtain ⟨before, culprit, after, resolutions, split, -, unsupported, -, casts, -⟩ :=
      failed _ rfl
    exact ⟨before, culprit, after, resolutions, _, resolved, split, unsupported, casts, rfl⟩
  · have resolved : luckyArena.resolve (.ofSuits ["Ex", "Boyfriend"])
        = .ok (_, ⟨[⟨"Ex", ⟨10, -10⟩⟩, ⟨"Boyfriend", ⟨10, 0⟩⟩]⟩,
          .ok ⟨[⟨"Rose", .first, 0, .buff, 3⟩], [(0, .draw), (1, .win)]⟩) := rfl
    obtain ⟨arena', scores', answer, same, -, -, succeeded⟩ :=
      resolve_outcome luckyArena (.ofSuits ["Ex", "Boyfriend"]) (by simp [resolved])
    obtain ⟨rfl, rfl, rfl⟩ := by simpa using resolved.symm.trans same
    obtain ⟨casts, -, columns, -, -, scored⟩ := succeeded _ rfl
    exact ⟨_, columns, resolved, casts, rfl, scored⟩

end Arena

end CardDuel
