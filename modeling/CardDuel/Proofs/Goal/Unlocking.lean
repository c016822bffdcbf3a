import CardDuel.Proofs.Goal.Announcements
import CardDuel.Proofs.Goal.Overflow

/-!
# Reaching achievements

An occasion earns an achievement that has criteria if all of them are for such an occasion and
hold (`Occasion.Earns`).  A check reaches exactly the achievements that are earned and were not
reached before, and announces them (`Book.Settles`).  Whatever happens to a book, nothing that
has been reached is lost, nothing but its achievements is reached, and no special card that may
be drawn is withdrawn (`Book.Grows`).
-/

namespace CardDuel

open Checked (OnlyOverflows)

namespace Goal

/-! ### What an occasion earns -/

/-- Criteria are judged to hold together if each is judged to hold. -/
theorem Achievement.holdAll_eq_ok_true_iff {judge : Criterion → Except Fault Bool}
    {criteria : List Criterion} :
  holdAll judge criteria = .ok true ↔ ∀ criterion ∈ criteria, judge criterion = .ok true
  := by
  induction criteria with
  | nil => simp [holdAll]
  | cons criterion rest ih =>
    rw [holdAll, List.forall_mem_cons, ← ih, Checked.bind_eq_ok_iff]
    constructor
    · rintro ⟨holds, judged, others⟩
      cases holds with
      | true => exact ⟨judged, others⟩
      | false => cases others
    · rintro ⟨judged, others⟩
      exact ⟨true, judged, others⟩

theorem Achievement.isRound_iff {achievement : Achievement} :
  achievement.isRound = true
    ↔ achievement.criteria ≠ [] ∧ ∀ criterion ∈ achievement.criteria, criterion.isRound = true
  := by simp [isRound]

namespace Occasion

/-- Whether rounds end with the occasion. -/
def isRound : Occasion → Bool
  | game .. => false
  | round .. => true

/-- Whether a criterion is judged to hold on an occasion. -/
def Holds (criterion : Criterion) : Occasion → Prop
  | game scores player statistics => criterion.judge scores player statistics = .ok true
  | round board player => criterion.judgeRound board player = true

/-- An achievement that has criteria is earned if all of them are for such an occasion, and all
hold. -/
structure Earns (occasion : Occasion) (achievement : Achievement) : Prop where
  some : achievement.criteria ≠ []
  fitting : ∀ criterion ∈ achievement.criteria, criterion.isRound = occasion.isRound
  holds : ∀ criterion ∈ achievement.criteria, occasion.Holds criterion

/-- A criterion holds only on an occasion that it is for. -/
theorem isRound_of_holds {occasion : Occasion} {criterion : Criterion}
    (h : occasion.Holds criterion) :
  criterion.isRound = occasion.isRound
  := by
  cases occasion with
  | game scores player statistics =>
    cases criterion with
    | round => cases h
    | statistic | score => rfl
  | round board player =>
    cases criterion with
    | round => rfl
    | statistic | score => cases h

/-- An achievement is judged to be reached exactly if it is earned. -/
theorem judge_eq_ok_true_iff {occasion : Occasion} {achievement : Achievement} :
  occasion.judge achievement = .ok true ↔ occasion.Earns achievement
  := by
  cases occasion with
  | game scores player statistics =>
    rw [judge]
    constructor
    · intro judged
      split at judged
      · cases judged
      · rw [Achievement.judge] at judged
        split at judged
        · cases judged
        · rename_i some
          have holds := Achievement.holdAll_eq_ok_true_iff.mp judged
          refine ⟨by simpa using some, ?_, holds⟩
          intro criterion mem
          exact isRound_of_holds (holds criterion mem)
    · rintro ⟨some, fitting, holds⟩
      obtain ⟨criterion, mem⟩ := List.exists_mem_of_ne_nil _ some
      have noRound : ¬ achievement.isRound = true := by
        intro rounds
        have round := (Achievement.isRound_iff.mp rounds).2 criterion mem
        rw [fitting criterion mem] at round
        contradiction
      rw [if_neg noRound, Achievement.judge, if_neg (by simpa using some)]
      apply Achievement.holdAll_eq_ok_true_iff.mpr holds
  | round board player =>
    have verdict : judge (round board player) achievement = .ok true
        ↔ achievement.isRound = true ∧ achievement.judgeRound board player = true := by
      simp [judge]
    have held : achievement.judgeRound board player = true ↔ achievement.criteria ≠ []
        ∧ ∀ criterion ∈ achievement.criteria, criterion.judgeRound board player = true := by
      simp [Achievement.judgeRound]
    rw [verdict, held, Achievement.isRound_iff]
    constructor
    · rintro ⟨⟨some, fitting⟩, -, holds⟩
      exact ⟨some, fitting, holds⟩
    · rintro ⟨some, fitting, holds⟩
      exact ⟨⟨some, fitting⟩, some, holds⟩

theorem admits_iff_earns {occasion : Occasion} {achievement : Achievement} :
  occasion.admits achievement = true ↔ occasion.Earns achievement
  := by
  rw [← judge_eq_ok_true_iff, admits]
  rcases occasion.judge achievement with fault | passed
  · simp
  · rw [Except.ok.injEq]

theorem onlyOverflows_judge (occasion : Occasion) (achievement : Achievement) :
  OnlyOverflows (occasion.judge achievement)
  := by
  cases occasion with
  | game scores player statistics =>
    rw [judge]
    split
    · apply OnlyOverflows.ok
    · apply Achievement.onlyOverflows_judge
  | round => apply OnlyOverflows.ok

end Occasion

namespace Book

/-! ### What one check does -/

/-- A check reaches the names that it announces and no others.  It announces the achievements
that were not reached and are earned, so the same check has nothing more to announce. -/
structure Settles (before : Book) (occasion : Occasion) (after : Book) (names : List String) :
    Prop where
  reached : ∀ name, after.isReached name = true ↔ before.isReached name = true ∨ name ∈ names
  announced : ∀ name, name ∈ names ↔ before.isReached name = false
    ∧ ∃ achievement ∈ before.achievements, achievement.name = name ∧ occasion.Earns achievement
  again : after.check occasion = .ok (after, [])

/-- A check has nothing to announce if all that is earned has been reached. -/
theorem check_eq_self {book : Book} {occasion : Occasion}
    (judged : ∀ achievement ∈ book.achievements, book.isReached achievement.name = false →
      ∃ passed, occasion.judge achievement = .ok passed)
    (done : ∀ achievement ∈ book.achievements, occasion.Earns achievement →
      book.isReached achievement.name = true) :
  book.check occasion = .ok (book, [])
  := by
  have none : book.achievements.filter (book.isFresh occasion) = [] := by
    apply List.filter_eq_nil_iff.mpr
    intro achievement mem fresh
    obtain ⟨unreached, admitted⟩ := Bool.and_eq_true_iff.mp fresh
    rw [done achievement mem (Occasion.admits_iff_earns.mp admitted)] at unreached
    contradiction
  rw [check_eq_ok_iff, none]
  exact ⟨judged, rfl, rfl⟩

theorem settles_of_check {before after : Book} {occasion : Occasion} {names : List String}
    (h : before.check occasion = .ok (after, names)) :
  before.Settles occasion after names
  := by
  obtain ⟨judged, named, entered⟩ := check_eq_ok_iff.mp h
  have reached : ∀ name, after.isReached name = true
      ↔ before.isReached name = true ∨ name ∈ names := by
    intro name
    rw [entered, isReached_foldl_enter, or_comm]
  have announced : ∀ name, name ∈ names ↔ before.isReached name = false
      ∧ ∃ achievement ∈ before.achievements, achievement.name = name
        ∧ occasion.Earns achievement := by
    intro name
    simp only [named, List.mem_map, List.mem_filter, isFresh, Bool.and_eq_true,
      Bool.not_eq_true', Occasion.admits_iff_earns]
    constructor
    · rintro ⟨achievement, ⟨mem, unreached, earned⟩, rfl⟩
      exact ⟨unreached, achievement, mem, rfl, earned⟩
    · rintro ⟨unreached, achievement, mem, rfl, earned⟩
      exact ⟨achievement, ⟨mem, unreached, earned⟩, rfl⟩
  have extended := entered ▸ extends_foldl_enter names before
  refine ⟨reached, announced, check_eq_self ?_ ?_⟩
  · intro achievement mem unreached
    rw [extended.achievements] at mem
    apply judged achievement mem
    by_contra before
    rw [extended.reached _ (by simpa using before)] at unreached
    contradiction
  · intro achievement mem earned
    rw [extended.achievements] at mem
    rw [reached, announced]
    by_cases before : before.isReached achievement.name = true
    · left
      apply before
    · right
      exact ⟨by simpa using before, achievement, mem, rfl, earned⟩

/-- Whether a check overflows, in the judgement of an achievement that has not been reached. -/
def Overflows (book : Book) (occasion : Occasion) : Prop :=
  ∃ achievement ∈ book.achievements, book.isReached achievement.name = false
    ∧ ∃ fault, fault.IsOverflow ∧ occasion.judge achievement = .error fault

/-- A check that does not overflow has a result. -/
theorem check_cases (book : Book) (occasion : Occasion) :
  book.Overflows occasion ∨ ∃ later names, book.check occasion = .ok (later, names)
  := by
  by_cases judged : ∀ achievement ∈ book.achievements, book.isReached achievement.name = false →
      ∃ passed, occasion.judge achievement = .ok passed
  · right
    exact ⟨_, _, check_eq_ok_iff.mpr ⟨judged, rfl, rfl⟩⟩
  · left
    push Not at judged
    obtain ⟨achievement, mem, unreached, failing⟩ := judged
    refine ⟨achievement, mem, unreached, ?_⟩
    rcases verdict : occasion.judge achievement with fault | passed
    · exact ⟨fault, (occasion.onlyOverflows_judge achievement).isOverflow fault verdict, rfl⟩
    · exact absurd verdict (failing passed)

/-! ### What a run does -/

/-- Whether a book has an achievement of a name. -/
def Lists (book : Book) (name : String) : Prop :=
  ∃ achievement ∈ book.achievements, achievement.name = name

/-- A book in which more may have been reached, of its own achievements only, and more special
cards may be drawn. -/
structure Grows (before after : Book) : Prop extends before.Extends after where
  listed : ∀ name, after.isReached name = true → before.isReached name = true ∨ before.Lists name
  allowed : ∀ special, before.allows special = true → after.allows special = true

theorem allows_iff {book : Book} {special : String} :
  book.allows special = true
    ↔ (∀ achievement ∈ book.achievements, achievement.reward ≠ some special)
      ∨ ∃ achievement ∈ book.achievements, achievement.reward = some special
        ∧ book.isReached achievement.name = true
  := by simp [allows]

/-- What may be drawn depends on nothing else than on what has been reached. -/
theorem Extends.grows {before after : Book} (h : before.Extends after)
    (listed : ∀ name, after.isReached name = true →
      before.isReached name = true ∨ before.Lists name) :
  before.Grows after
  := by
  refine ⟨h, listed, ?_⟩
  intro special allowed
  rw [allows_iff, h.achievements]
  rcases allows_iff.mp allowed with free | ⟨achievement, mem, rewards, reached⟩
  · left
    apply free
  · right
    exact ⟨achievement, mem, rewards, h.reached _ reached⟩

namespace Grows

theorem refl (book : Book) :
  book.Grows book
  := (Extends.refl book).grows fun _ => .inl

theorem trans {a b c : Book} (h : a.Grows b) (h' : b.Grows c) :
  a.Grows c
  := by
  refine ⟨h.toExtends.trans h'.toExtends, ?_, ?_⟩
  · intro name reached
    rcases h'.listed name reached with before | listed
    · apply h.listed name before
    · right
      rwa [Lists, h.achievements] at listed
  · intro special allowed
    apply h'.allowed special (h.allowed special allowed)

end Grows

theorem isNone_get?_iff {book : Book} {name : String} :
  (book.get? name).isNone = true ↔ ¬ book.Lists name
  := by
  rw [get?, Option.isNone_iff_eq_none, List.find?_eq_none, Lists]
  simp

theorem grows_unlock (book : Book) (name : String) :
  book.Grows (book.unlock name).1
  := by
  apply (extends_unlock book name).grows
  intro name' reached
  rw [unlock] at reached
  split at reached
  · left
    apply reached
  · rename_i listed
    rw [isReached_enter, Bool.or_eq_true, beq_iff_eq] at reached
    rcases reached with rfl | before
    · right
      rwa [isNone_get?_iff, not_not] at listed
    · left
      apply before

theorem grows_readReached (book : Book) (text : String) :
  book.Grows (book.readReached text).value
  := by
  simp only [readReached, Script.value_walk]
  apply List.foldlRecOn (motive := book.Grows) _ _ (.refl book)
  intro book' before line _
  apply before.trans
  rw [readLine]
  split
  · apply grows_unlock
  · exact .refl book'

theorem grows_move {book book' : Book} {move : Move} {names : List String}
    (h : book.move move = .ok (book', names)) :
  book.Grows book'
  := by
  cases move with
  | check occasion =>
    apply (extends_move h).grows
    intro name reached
    have settles := settles_of_check h
    apply ((settles.reached name).mp reached).imp_right
    intro announced
    obtain ⟨-, achievement, mem, named, -⟩ := (settles.announced name).mp announced
    exact ⟨achievement, mem, named⟩
  | unlock name =>
    obtain ⟨rfl, -⟩ := Prod.mk.inj (Except.ok.inj h)
    apply grows_unlock
  | readReached text =>
    obtain ⟨rfl, -⟩ := Prod.mk.inj (Except.ok.inj h)
    apply grows_readReached

theorem grows_run {book book' : Book} {moves : List Move} {announced : List String}
    (h : book.run moves = .ok (book', announced)) :
  book.Grows book'
  := by
  apply Checked.foldlM_preserves (P := fun state => book.Grows state.1) _ _ h
  · intro move _ state state' grown step
    obtain ⟨⟨book', names⟩, moved, result⟩ := Checked.bind_eq_ok_iff.mp step
    obtain rfl := Except.ok.inj result
    apply grown.trans (grows_move moved)
  · exact .refl book

/-- Whether one of the checks of a run overflows. -/
def OverflowsIn (start : Book) (moves : List Move) : Prop :=
  ∃ before occasion after book announced, moves = before ++ .check occasion :: after
    ∧ start.run before = .ok (book, announced) ∧ book.Overflows occasion

/-- A run in which no check overflows has a result. -/
theorem run_cases (start : Book) (moves : List Move) :
  start.OverflowsIn moves ∨ ∃ book announced, start.run moves = .ok (book, announced)
  := by
  rcases ran : start.run moves with fault | ⟨book, announced⟩
  · left
    obtain ⟨before, move, after, ⟨book, announced⟩, parts, reached, failed⟩ :=
      Checked.exists_of_foldlM_eq_error ran
    cases move with
    | check occasion =>
      refine ⟨before, occasion, after, book, announced, parts, reached, ?_⟩
      apply (check_cases book occasion).resolve_right
      rintro ⟨later, names, checked⟩
      rw [announce, Book.move, checked] at failed
      cases failed
    | unlock | readReached => cases failed
  · right
    exact ⟨book, announced, rfl⟩

/-- In a run that has a result no check overflows. -/
theorem not_overflowsIn_of_run {start book : Book} {moves : List Move} {announced : List String}
    (ran : start.run moves = .ok (book, announced)) :
  ¬ start.OverflowsIn moves
  := by
  rintro ⟨before, occasion, after, book', announced', rfl, reached, overflows⟩
  obtain ⟨achievement, mem, unreached, fault, -, failed⟩ := overflows
  rw [run, List.foldlM_append] at ran
  obtain ⟨state, same, later⟩ := Checked.bind_eq_ok_iff.mp ran
  obtain rfl := Except.ok.inj (reached.symm.trans same)
  rw [List.foldlM_cons] at later
  obtain ⟨state, moved, -⟩ := Checked.bind_eq_ok_iff.mp later
  obtain ⟨⟨book'', names⟩, checked, -⟩ := Checked.bind_eq_ok_iff.mp moved
  obtain ⟨passed, verdict⟩ := (check_eq_ok_iff.mp checked).1 achievement mem unreached
  rw [failed] at verdict
  contradiction

/-- A run in which no check overflows makes the book grow, and there a check on any occasion
settles what is reached, unless it overflows. -/
theorem run_settles (start : Book) (moves : List Move) :
  start.OverflowsIn moves
    ∨ ∃ book announced, start.run moves = .ok (book, announced) ∧ start.Grows book
      ∧ ∀ occasion, book.Overflows occasion
        ∨ ∃ later names, book.check occasion = .ok (later, names)
          ∧ book.Settles occasion later names
  := by
  apply (run_cases start moves).imp_right
  rintro ⟨book, announced, ran⟩
  refine ⟨book, announced, ran, grows_run ran, ?_⟩
  intro occasion
  apply (check_cases book occasion).imp_right
  rintro ⟨later, names, checked⟩
  exact ⟨later, names, checked, settles_of_check checked⟩

end Book

end Goal

end CardDuel
