import CardDuel.Goal.Judgement
import CardDuel.Proofs.Statistics.History
import CardDuel.Proofs.Statistics.Saving

/-!
# Drawn games of records that are read

A text may hold any record (`Statistics.exists_read`), also one that no series of games leaves
behind.  Its drawn games are those played less those won and lost, and none where more were
decided than played; but a record in which the games won and lost together do not fit a counter
has no answer.  Every other count of every record that is read can be judged:
`Statistics.draws_read_iff`.
-/

namespace CardDuel

namespace Statistics

/-- Every record is read from some text. -/
theorem exists_read (record : Record) :
  ∃ text, read text = ⟨{ base := record }, []⟩
  := by
  use text { base := record }
  apply read_text
  intro name mem
  contradiction

theorem Record.draws_of_not_fits {record : Record} (large : ¬ record.Fits) :
  record.draws = .error .addition
  := by
  rw [Fits] at large
  rw [draws, addCounts, if_neg large]
  rfl

end Statistics

namespace Goal

/-- The only counter that may be unreadable is that of drawn games. -/
theorem Counter.exists_read_iff {counter : Counter} {record : Statistics.Record} :
  (∃ value, counter.read record = .ok value) ↔ (counter = .draw → record.Fits)
  := by
  cases counter with
  | play | win | lose | streak => simp [read]
  | draw =>
    constructor
    · rintro ⟨value, answered⟩ -
      by_contra large
      rw [read, Statistics.Record.draws_of_not_fits large] at answered
      cases answered
    · intro fits
      obtain ⟨draws, answered, -⟩ := Statistics.Record.exists_draws (fits rfl)
      exact ⟨draws, answered⟩

theorem Criterion.exists_judge_statistic_iff {scores : Scoreboard} {player : Seat}
    {statistics : Statistics} {counter : Counter} {count : Nat} {qualifier : Option String} :
  (∃ answer, (statistic counter count qualifier).judge scores player statistics = .ok answer)
    ↔ (counter = .draw → (statistics.record qualifier).Fits)
  := by
  rw [← Counter.exists_read_iff, judge]
  constructor
  · rintro ⟨answer, judged⟩
    obtain ⟨value, answered, -⟩ := Checked.bind_eq_ok_iff.mp judged
    exact ⟨value, answered⟩
  · rintro ⟨value, answered⟩
    exact ⟨_, Checked.bind_eq_ok_iff.mpr ⟨value, answered, rfl⟩⟩

end Goal

namespace Statistics

open Goal (Counter Criterion)

/-- The drawn games of whatever record is read are counted exactly if the games won and lost
together fit a counter, and no criterion on another counter depends on that. -/
theorem draws_read_iff (text : String) (qualifier : Option String) :
  let statistics := (read text).value
  let record := statistics.record qualifier
  ((∃ draws, record.draws = .ok draws
      ∧ (draws.toNat : Int)
        = max 0 ((record.played.toNat : Int) - record.wins.toNat - record.losses.toNat))
    ↔ record.Fits)
  ∧ ∀ (counter : Counter) (count : Nat) (scores : Scoreboard) (player : Seat),
    (∃ answer,
      (Criterion.statistic counter count qualifier).judge scores player statistics = .ok answer)
    ↔ (counter = .draw → record.Fits)
  := by
  intro statistics record
  refine ⟨?_, fun counter count scores player => Criterion.exists_judge_statistic_iff⟩
  constructor
  · rintro ⟨draws, answered, -⟩
    by_contra large
    rw [Record.draws_of_not_fits large] at answered
    cases answered
  · intro fits
    obtain ⟨draws, answered, left⟩ := Record.exists_draws fits
    exact ⟨draws, answered, by omega⟩

/-- A line of six counters that no games leave behind is read without a warning, and its drawn
games have no answer. -/
theorem draws_read_damaged :
  read "(4294967295, 1, 0, 0, -, 0)" = ⟨{ base := { wins := 4294967295, losses := 1 } }, []⟩
    ∧ ((read "(4294967295, 1, 0, 0, -, 0)").value.record none).draws = .error .addition
    ∧ ∀ scores player, (Criterion.statistic .draw 1 none).judge scores player
        (read "(4294967295, 1, 0, 0, -, 0)").value = .error .addition
  := by
  have damaged : read "(4294967295, 1, 0, 0, -, 0)"
      = ⟨{ base := { wins := 4294967295, losses := 1 } }, []⟩ := rfl
  rw [damaged]
  exact ⟨rfl, rfl, fun scores player => rfl⟩

end Statistics

end CardDuel
