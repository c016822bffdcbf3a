import CardDuel.Goal.Book
import CardDuel.Proofs.Overflow

/-!
# Overflow in judgements

Judging achievements adds up points and counters, and fails at most because a sum overflows
(`Achievement.onlyOverflows_judge`).  At the end of a round nothing is added up.
-/

namespace CardDuel

open Checked (OnlyOverflows)

theorem Statistics.Record.onlyOverflows_addCounts (a b : UInt32) :
  OnlyOverflows (addCounts a b)
  := by
  rw [addCounts]
  split
  · apply OnlyOverflows.ok
  · apply OnlyOverflows.error
    trivial

namespace Goal

theorem Counter.onlyOverflows_read (counter : Counter) (record : Statistics.Record) :
  OnlyOverflows (counter.read record)
  := by
  cases counter with
  | draw => apply (Statistics.Record.onlyOverflows_addCounts _ _).bind fun _ => .ok _
  | play | win | lose | streak => apply OnlyOverflows.ok

theorem onlyOverflows_judgeScore (scores : Scoreboard) (side : Seat) (scope : Scope)
    (relation : Relation) (standard : Standard) :
  OnlyOverflows (judgeScore scores side scope relation standard)
  := by
  cases scope with
  | total =>
    apply (OnlyOverflows.sum _).bind
    intro ours
    apply (OnlyOverflows.sum _).bind fun _ => .ok _
  | suit | each | any | one | only => apply OnlyOverflows.ok

theorem Criterion.onlyOverflows_judge (scores : Scoreboard) (player : Seat)
    (statistics : Statistics) (criterion : Criterion) :
  OnlyOverflows (criterion.judge scores player statistics)
  := by
  cases criterion with
  | statistic counter count qualifier =>
    apply (counter.onlyOverflows_read _).bind fun _ => .ok _
  | score => apply onlyOverflows_judgeScore
  | round => apply OnlyOverflows.ok

namespace Achievement

theorem onlyOverflows_holdAll {judge : Criterion → Except Fault Bool}
    (step : ∀ criterion, OnlyOverflows (judge criterion)) (criteria : List Criterion) :
  OnlyOverflows (holdAll judge criteria)
  := by
  induction criteria with
  | nil => apply OnlyOverflows.ok
  | cons criterion rest ih =>
    rw [holdAll]
    apply (step criterion).bind
    intro holds
    split
    · apply ih
    · apply OnlyOverflows.ok

theorem onlyOverflows_judge (achievement : Achievement) (scores : Scoreboard) (player : Seat)
    (statistics : Statistics) :
  OnlyOverflows (achievement.judge scores player statistics)
  := by
  rw [judge]
  split
  · apply OnlyOverflows.ok
  · apply onlyOverflows_holdAll
    apply Criterion.onlyOverflows_judge

end Achievement

end Goal

end CardDuel
