import CardDuel.Goal.Judgement
import Mathlib.Tactic.Common

/-!
# Points compared with those of the other side

A standard that compares the points of both sides is met by one side exactly if its dual is met by
the other (`Standard.met_dual`).  So every column has the same verdict from both sides
(`verdicts_dual`), and so has everything that is read off the columns and the totals
(`judgeScore_dual`).  In one column, and in the totals, one side is ahead or behind or neither:
`isDecided_met`.
-/

namespace CardDuel

/-- The only way in which a sum fails. -/
theorem Checked.fault_of_sum {ns : List Int} {fault : Fault} (h : sum ns = .error fault) :
  fault = .addition
  := by
  rw [sum] at h
  generalize (0 : Int) = start at h
  induction ns generalizing start with
  | nil => cases h
  | cons n rest ih =>
    rw [List.foldlM_cons] at h
    rcases add_cases start n with fits | overflow
    · rw [fits, ok_bind] at h
      apply ih _ h
    · rw [overflow, error_bind] at h
      exact (Except.error.inj h).symm

namespace Goal

/-! ### Standards that compare both sides -/

/-- The standards that compare the points of both sides. -/
def Standard.relational : List Standard := [win, lose, draw]

/-- The standard that the other side meets instead. -/
def Standard.dual : Standard → Standard
  | win => lose
  | lose => win
  | standard => standard

variable {scores : Scoreboard} {side : Seat} {relation : Relation} {standard : Standard}

theorem Standard.met_dual (h : standard ∈ relational) (ours theirs : Int) :
  standard.dual.met scores side.opponent relation theirs ours
    = standard.met scores side relation ours theirs
  := by
  cases standard with
  | win | lose => rfl
  | draw =>
    unfold met dual
    rw [decide_eq_decide]
    apply eq_comm
  | points | suit => simp [relational] at h

/-- Exactly one of the standards that compare both sides is met. -/
def IsDecided (verdict : Standard → Except Fault Bool) : Prop :=
  ∃ standard ∈ Standard.relational, ∀ other ∈ Standard.relational,
    verdict other = .ok (decide (other = standard))

/-- Of two numbers, one is greater, or less, or they are equal. -/
theorem isDecided_met (scores : Scoreboard) (side : Seat) (relation : Relation)
    (ours theirs : Int) :
  IsDecided fun standard => .ok (standard.met scores side relation ours theirs)
  := by
  rcases Int.lt_trichotomy ours theirs with behind | rfl | ahead
  · use .lose, by simp [Standard.relational]
    simp [Standard.relational, Standard.met, behind, Int.ne_of_lt behind, Int.le_of_lt behind]
  · use .draw, by simp [Standard.relational]
    simp [Standard.relational, Standard.met]
  · use .win, by simp [Standard.relational]
    simp [Standard.relational, Standard.met, ahead, Int.ne_of_gt ahead, Int.le_of_lt ahead]

/-! ### Columns and totals -/

/-- Each column has the same verdict from both sides. -/
theorem verdicts_dual (h : standard ∈ Standard.relational) :
  verdicts scores side.opponent relation standard.dual = verdicts scores side relation standard
  := by
  unfold verdicts
  apply List.map_congr_left
  intro entry _
  rw [Seat.opponent_opponent, Standard.met_dual h]

/-- The judgement in the column of a suit is that of its first entry. -/
theorem exists_judgeScore_suit {suit : String} (known : suit ∈ scores.suits) (side : Seat)
    (relation : Relation) :
  ∃ points : Pair Int, ∀ standard, judgeScore scores side (.suit suit) relation standard
    = .ok (standard.met scores side relation (points.get side) (points.get side.opponent))
  := by
  obtain ⟨entry, mem, rfl⟩ := List.mem_map.mp known
  obtain ⟨first, found⟩ : ∃ first, scores.entries.find? (fun other => other.suit == entry.suit)
      = some first := by
    rw [← Option.isSome_iff_exists, List.find?_isSome]
    exact ⟨entry, mem, beq_self_eq_true entry.suit⟩
  use first.points
  intro standard
  simp only [judgeScore, verdicts, List.find?_map]
  rw [Function.comp_def, found]
  rfl

/-- The totals of both sides are judged, or one of them overflows and nothing is. -/
theorem judgeScore_total (scores : Scoreboard) (side : Seat) (relation : Relation) :
  (∃ ours theirs, ∀ standard, judgeScore scores side .total relation standard
      = .ok (standard.met scores side relation ours theirs))
    ∨ (∃ seat, scores.total seat = .error .addition)
      ∧ ∀ standard, judgeScore scores side .total relation standard = .error .addition
  := by
  simp only [judgeScore]
  rcases mine : scores.total side with fault | ours
  · obtain rfl := Checked.fault_of_sum mine
    right
    exact ⟨⟨side, mine⟩, fun standard => rfl⟩
  · rcases other : scores.total side.opponent with fault | theirs
    · obtain rfl := Checked.fault_of_sum other
      right
      exact ⟨⟨side.opponent, other⟩, fun standard => rfl⟩
    · left
      exact ⟨ours, theirs, fun standard => rfl⟩

/-- What one side meets in the columns of a scope, the other side meets dually. -/
theorem judgeScore_dual (h : standard ∈ Standard.relational) (scores : Scoreboard) (side : Seat)
    (scope : Scope) (relation : Relation) :
  judgeScore scores side.opponent scope relation standard.dual
    = judgeScore scores side scope relation standard
  := by
  cases scope with
  | suit | each | any | one | only =>
    unfold judgeScore
    rw [verdicts_dual h]
  | total =>
    unfold judgeScore
    rw [Seat.opponent_opponent]
    rcases mine : scores.total side with fault | ours <;>
      rcases other : scores.total side.opponent with fault' | theirs
    · obtain rfl := Checked.fault_of_sum mine
      obtain rfl := Checked.fault_of_sum other
      rfl
    · rfl
    · rfl
    · exact congrArg Except.ok (Standard.met_dual h ours theirs)

theorem seatOf_reversed (player : Seat) (side : Side) :
  seatOf player side.reversed = (seatOf player side).opponent
  := by cases side <;> simp [seatOf, Side.reversed]

/-- At the same player, one side is ahead exactly if the other is behind, and both are level
together, in whatever columns a criterion looks at; if a total overflows, both judgements fail
alike.
In the column of a listed suit, and in the totals unless one overflows, exactly one of the three
holds. -/
theorem Criterion.judge_dual (scores : Scoreboard) (player : Seat) (statistics : Statistics)
    (relation : Relation) (side : Side) :
  (∀ scope,
    judge scores player statistics (.score side scope relation .win)
      = judge scores player statistics (.score side.reversed scope relation .lose)
    ∧ judge scores player statistics (.score side scope relation .draw)
      = judge scores player statistics (.score side.reversed scope relation .draw))
  ∧ (∀ suit ∈ scores.suits, IsDecided fun standard =>
      judge scores player statistics (.score side (.suit suit) relation standard))
  ∧ ((IsDecided fun standard =>
      judge scores player statistics (.score side .total relation standard))
    ∨ (∃ seat, scores.total seat = .error .addition) ∧ ∀ standard,
      judge scores player statistics (.score side .total relation standard) = .error .addition)
  := by
  refine ⟨?_, ?_, ?_⟩
  · have win : Standard.win ∈ Standard.relational := by decide
    have draw : Standard.draw ∈ Standard.relational := by decide
    intro scope
    simp only [judge, seatOf_reversed]
    constructor
    · symm
      apply judgeScore_dual win
    · symm
      apply judgeScore_dual draw
  · intro suit known
    obtain ⟨points, judged⟩ := exists_judgeScore_suit known (seatOf player side) relation
    simp only [judge, judged]
    apply isDecided_met
  · simp only [judge]
    apply (judgeScore_total scores (seatOf player side) relation).imp_left
    rintro ⟨ours, theirs, judged⟩
    simp only [judged]
    apply isDecided_met

/-- A suit that is listed twice, in which the sides are ahead once each. -/
def rivalry : Scoreboard :=
  ⟨[⟨"Ex", ⟨10, -10⟩⟩, ⟨"Ex", ⟨0, 20⟩⟩, ⟨"Boyfriend", ⟨0, 0⟩⟩]⟩

/-- The first entry of the suit decides its column, and the totals are level. -/
theorem Criterion.judge_dual_rivalry :
  "Ex" ∈ rivalry.suits
    ∧ (IsDecided fun standard =>
      judge rivalry .second {} (.score .friendly (.suit "Ex") .atLeast standard))
    ∧ judge rivalry .second {} (.score .friendly (.suit "Ex") .atLeast .lose) = .ok true
    ∧ judge rivalry .second {} (.score .friendly .total .atLeast .draw) = .ok true
  := by
  have known : "Ex" ∈ rivalry.suits := by decide
  obtain ⟨-, inSuit, -⟩ := judge_dual rivalry .second {} .atLeast .friendly
  exact ⟨known, inSuit "Ex" known, rfl, rfl⟩

/-- A total that overflows leaves nothing to compare, whichever side it is on. -/
example (standard : Standard) :
  Criterion.judge ⟨[⟨"Ex", ⟨2147483647, 0⟩⟩, ⟨"Boyfriend", ⟨1, 0⟩⟩]⟩ .second {}
    (.score .friendly .total .less standard) = .error .addition
  := rfl

end Goal

end CardDuel
