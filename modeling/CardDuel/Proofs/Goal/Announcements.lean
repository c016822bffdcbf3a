import CardDuel.Goal.Book
import CardDuel.Proofs.Ledger
import Mathlib.Data.List.Nodup

/-!
# Announcing achievements

`Book.move` is one thing that happens to a book of achievements: a check at the end of a game
or a round, an achievement that is unlocked by name, or a list of those reached that is read.
A check announces only what has not been reached before, and then it has been reached.  So a
name is announced twice only by one check that two achievements of this name pass:
`Book.announced_twice_iff`.
-/

namespace CardDuel

namespace Script

/-- Where a walk along lines ends. -/
theorem value_walk {σ : Type} (step : σ → TaggedLine → Reading σ) (state : σ)
    (lines : List TaggedLine) :
  (Id.run (walk (fun state line => pure (step state line)) state lines)).value
    = lines.foldl (fun state line => (step state line).value) state
  := by
  induction lines generalizing state with
  | nil => rfl
  | cons line rest ih => exact ih (step state line).value

end Script

namespace Goal

/-! ### Moves -/

/-- The end of a game or of a round, when achievements are judged. -/
inductive Occasion where
  | game (scores : Scoreboard) (player : Seat) (statistics : Statistics)
  | round (board : Board) (player : Seat)

namespace Occasion

/-- Whether an achievement is reached on an occasion; those for rounds are reached at the end
of rounds only, and all others at the end of games only. -/
def judge (occasion : Occasion) (achievement : Achievement) : Except Fault Bool :=
  match occasion with
  | game scores player statistics =>
    if achievement.isRound then .ok false else achievement.judge scores player statistics
  | round board player => .ok (achievement.isRound && achievement.judgeRound board player)

/-- Whether an achievement is judged to be reached. -/
def admits (occasion : Occasion) (achievement : Achievement) : Bool :=
  match occasion.judge achievement with
  | .ok passed => passed
  | .error _ => false

/-- All numbers that are judged have 32 binary digits: the points at the end of a game, and the
numbers that cards show at the end of a round. -/
def InRange : Occasion → Prop
  | game scores _ _ => ∀ seat, ∀ points ∈ scores.row seat, Checked.InRange 32 points
  | round board _ =>
    ∀ seat, ∀ entry ∈ board.occupied seat, ∀ n ∈ entry.2.number?, Checked.InRange 32 n

theorem admits_of_judge {occasion : Occasion} {achievement : Achievement} {passed : Bool}
    (h : occasion.judge achievement = .ok passed) :
  occasion.admits achievement = passed
  := by rw [admits, h]

end Occasion

namespace Book

/-- Something that happens to a book. -/
inductive Move where
  | check (occasion : Occasion)
  | unlock (name : String)
  /-- Read a list of achievements reached. -/
  | readReached (text : String)

/-- Judge the achievements on an occasion: the book after it and the names announced. -/
def check (book : Book) : Occasion → Except Fault (Book × List String)
  | .game scores player statistics => book.checkGame scores player statistics
  | .round board player => book.checkRound board player

/-- The book after a move and the names that it announces. -/
def move (book : Book) : Move → Except Fault (Book × List String)
  | .check occasion => book.check occasion
  | .unlock name => .ok ((book.unlock name).1, [])
  | .readReached text => .ok ((book.readReached text).value, [])

/-- The book after one more move, and all names announced so far. -/
def announce (state : Book × List String) (move : Move) : Except Fault (Book × List String) := do
  let (book, names) ← state.1.move move
  pure (book, state.2 ++ names)

/-- The book after a list of moves, and all names announced by them in order. -/
def run (book : Book) (moves : List Move) : Except Fault (Book × List String) :=
  moves.foldlM announce (book, [])

theorem check_eq_unlockPassing (book : Book) (occasion : Occasion) :
  book.check occasion = book.unlockPassing occasion.judge
  := by cases occasion <;> rfl

/-! ### Reaching achievements -/

/-- A book with the same achievements in which everything reached before is reached. -/
structure Extends (before after : Book) : Prop where
  achievements : after.achievements = before.achievements
  reached : ∀ name, before.isReached name = true → after.isReached name = true

namespace Extends

theorem refl (book : Book) :
  book.Extends book
  := ⟨rfl, fun _ => id⟩

theorem trans {a b c : Book} (h : a.Extends b) (h' : b.Extends c) :
  a.Extends c
  where
  achievements := h'.achievements.trans h.achievements
  reached name before := h'.reached name (h.reached name before)

end Extends

theorem isReached_enter (book : Book) (name name' : String) :
  (book.enter name).isReached name' = (name' == name || book.isReached name')
  := book.reached.contains_put name name' ()

theorem extends_enter (book : Book) (name : String) :
  book.Extends (book.enter name)
  := by
  refine ⟨rfl, ?_⟩
  intro name' before
  rw [isReached_enter, before, Bool.or_true]

theorem extends_unlock (book : Book) (name : String) :
  book.Extends (book.unlock name).1
  := by
  rw [unlock]
  split
  · exact .refl book
  · apply extends_enter

theorem extends_readReached (book : Book) (text : String) :
  book.Extends (book.readReached text).value
  := by
  simp only [readReached, Script.value_walk]
  apply List.foldlRecOn (motive := book.Extends) _ _ (.refl book)
  intro book' before line _
  apply before.trans
  rw [readLine]
  split
  · apply extends_unlock
  · exact .refl book'

/-- Entering names reaches exactly these besides those reached before. -/
theorem isReached_foldl_enter (names : List String) (book : Book) (name : String) :
  (names.foldl enter book).isReached name = true ↔ name ∈ names ∨ book.isReached name = true
  := by
  induction names generalizing book with
  | nil => simp
  | cons first rest ih =>
    rw [List.foldl_cons, ih, isReached_enter, List.mem_cons, Bool.or_eq_true, beq_iff_eq]
    tauto

theorem extends_foldl_enter (names : List String) (book : Book) :
  book.Extends (names.foldl enter book)
  := by
  apply List.foldlRecOn (motive := book.Extends) _ _ (.refl book)
  intro book' before name _
  apply before.trans (extends_enter book' name)

/-! ### Checks -/

/-- Whether an achievement that has not been reached is judged to be reached. -/
def isFresh (book : Book) (occasion : Occasion) (achievement : Achievement) : Bool :=
  !book.isReached achievement.name && occasion.admits achievement

/-- A check judges the achievements that have not been reached, and names those that pass. -/
theorem fresh_eq_ok_iff {book : Book} {occasion : Occasion} {achievements : List Achievement}
    {names : List String} :
  book.fresh occasion.judge achievements = .ok names
    ↔ (∀ achievement ∈ achievements, book.isReached achievement.name = false →
        ∃ passed, occasion.judge achievement = .ok passed)
      ∧ names = (achievements.filter (book.isFresh occasion)).map (·.name)
  := by
  induction achievements generalizing names with
  | nil =>
    constructor
    · intro h
      obtain rfl := Except.ok.inj h
      simp
    · rintro ⟨-, rfl⟩
      rfl
  | cons achievement rest ih =>
    rw [fresh, List.forall_mem_cons, List.filter_cons, isFresh]
    rcases reached : book.isReached achievement.name
    · rw [if_neg (by simp)]
      constructor
      · intro h
        obtain ⟨passed, verdict, h⟩ := Checked.bind_eq_ok_iff.mp h
        obtain ⟨others, later, h⟩ := Checked.bind_eq_ok_iff.mp h
        obtain rfl := Except.ok.inj h
        obtain ⟨judged, rfl⟩ := ih.mp later
        rw [Occasion.admits_of_judge verdict]
        refine ⟨⟨fun _ => ⟨passed, verdict⟩, judged⟩, ?_⟩
        cases passed <;> rfl
      · rintro ⟨⟨first, judged⟩, rfl⟩
        obtain ⟨passed, verdict⟩ := first rfl
        rw [verdict, ih.mpr ⟨judged, rfl⟩, Occasion.admits_of_judge verdict]
        cases passed <;> rfl
    · rw [if_pos rfl]
      constructor
      · intro h
        obtain ⟨passed, skipped, h⟩ := Checked.bind_eq_ok_iff.mp h
        obtain rfl := Except.ok.inj skipped
        obtain ⟨others, later, h⟩ := Checked.bind_eq_ok_iff.mp h
        obtain rfl := Except.ok.inj h
        obtain ⟨judged, rfl⟩ := ih.mp later
        exact ⟨⟨nofun, judged⟩, rfl⟩
      · rintro ⟨⟨-, judged⟩, rfl⟩
        rw [ih.mpr ⟨judged, rfl⟩]
        rfl

/-- What a check does, if nothing in it fails. -/
theorem check_eq_ok_iff {book book' : Book} {occasion : Occasion} {names : List String} :
  book.check occasion = .ok (book', names)
    ↔ (∀ achievement ∈ book.achievements, book.isReached achievement.name = false →
        ∃ passed, occasion.judge achievement = .ok passed)
      ∧ names = (book.achievements.filter (book.isFresh occasion)).map (·.name)
      ∧ book' = names.foldl enter book
  := by
  rw [check_eq_unlockPassing, unlockPassing, Checked.bind_eq_ok_iff]
  constructor
  · rintro ⟨names', fresh, h⟩
    obtain ⟨rfl, rfl⟩ := Prod.mk.inj (Except.ok.inj h)
    obtain ⟨judged, named⟩ := fresh_eq_ok_iff.mp fresh
    exact ⟨judged, named, rfl⟩
  · rintro ⟨judged, named, rfl⟩
    exact ⟨names, fresh_eq_ok_iff.mpr ⟨judged, named⟩, rfl⟩

theorem extends_move {book book' : Book} {move : Move} {names : List String}
    (h : book.move move = .ok (book', names)) :
  book.Extends book'
  := by
  cases move with
  | check occasion =>
    obtain ⟨-, -, rfl⟩ := check_eq_ok_iff.mp h
    apply extends_foldl_enter
  | unlock name =>
    obtain ⟨rfl, -⟩ := Prod.mk.inj (Except.ok.inj h)
    apply extends_unlock
  | readReached text =>
    obtain ⟨rfl, -⟩ := Prod.mk.inj (Except.ok.inj h)
    apply extends_readReached

/-- Only checks announce names. -/
theorem exists_check_of_mem {book book' : Book} {move : Move} {names : List String} {name : String}
    (h : book.move move = .ok (book', names)) (announced : name ∈ names) :
  ∃ occasion, move = .check occasion ∧ book.check occasion = .ok (book', names)
  := by
  cases move with
  | check occasion => exact ⟨occasion, rfl, h⟩
  | unlock _ | readReached _ =>
    obtain ⟨-, rfl⟩ := Prod.mk.inj (Except.ok.inj h)
    contradiction

/-- The number of achievements of a name that pass on an occasion. -/
def passing (book : Book) (occasion : Occasion) (name : String) : Nat :=
  book.achievements.countP fun achievement =>
    achievement.name == name && occasion.admits achievement

/-- A check announces a name once for each achievement of this name that passes, unless the
name has been reached before. -/
theorem count_of_check {book book' : Book} {occasion : Occasion} {names : List String}
    (h : book.check occasion = .ok (book', names)) (name : String) :
  names.count name = if book.isReached name then 0 else book.passing occasion name
  := by
  obtain ⟨-, rfl, -⟩ := check_eq_ok_iff.mp h
  rw [List.count, List.countP_map, List.countP_filter, passing]
  split
  · rename_i reached
    apply List.countP_eq_zero.mpr
    intro achievement _
    simp only [Function.comp_apply, isFresh, Bool.and_eq_true, beq_iff_eq, not_and]
    rintro rfl
    simp [reached]
  · rename_i open_
    apply List.countP_congr
    intro achievement _
    simp only [Function.comp_apply, isFresh, Bool.and_eq_true, beq_iff_eq]
    constructor
    · rintro ⟨named, -, passes⟩
      exact ⟨named, passes⟩
    · rintro ⟨rfl, passes⟩
      exact ⟨rfl, by simpa using open_, passes⟩

/-- What a check announces is reached afterwards. -/
theorem isReached_of_check {book book' : Book} {occasion : Occasion} {names : List String}
    (h : book.check occasion = .ok (book', names)) {name : String} (announced : name ∈ names) :
  book'.isReached name = true
  := by
  obtain ⟨-, -, rfl⟩ := check_eq_ok_iff.mp h
  apply (isReached_foldl_enter names book name).mpr
  left
  apply announced

/-! ### Runs -/

/-- Whether an occasion on which all achievements of a name are judged, without overflow, has
two of them pass. -/
structure Collides (book : Book) (occasion : Occasion) (name : String) : Prop where
  judged : ∀ achievement ∈ book.achievements, achievement.name = name →
    ∃ passed, occasion.judge achievement = .ok passed
  twice : 2 ≤ book.passing occasion name

/-- What a run keeps as long as a name is announced at most once. -/
structure IsSingle (start : Book) (name : String) (state : Book × List String) : Prop where
  extended : start.Extends state.1
  reached : name ∈ state.2 → state.1.isReached name = true
  once : state.2.count name ≤ 1

/-- Where no two achievements of a name collide, one more move does not announce it twice. -/
theorem IsSingle.announce {start : Book} {name : String} {state state' : Book × List String}
    {move : Move} (apart : ∀ occasion, move = .check occasion → ¬ start.Collides occasion name)
    (h : IsSingle start name state) (announced : announce state move = .ok state') :
  IsSingle start name state'
  := by
  obtain ⟨⟨book', names⟩, moved, result⟩ := Checked.bind_eq_ok_iff.mp announced
  obtain rfl := Except.ok.inj result
  have extended := extends_move moved
  refine ⟨h.extended.trans extended, ?_, ?_⟩
  · intro mem
    rcases List.mem_append.mp mem with before | now
    · apply extended.reached name (h.reached before)
    · obtain ⟨occasion, -, checked⟩ := exists_check_of_mem moved now
      apply isReached_of_check checked now
  · rw [List.count_append]
    by_cases now : name ∈ names
    · obtain ⟨occasion, checks, checked⟩ := exists_check_of_mem moved now
      have count := count_of_check checked name
      have new : state.1.isReached name = false := by
        by_contra reached
        rw [if_pos (by simpa using reached)] at count
        exact List.count_eq_zero.mp count now
      have before : name ∉ state.2 := by
        intro old
        rw [h.reached old] at new
        contradiction
      rw [new, if_neg (by simp)] at count
      rw [List.count_eq_zero.mpr before, Nat.zero_add]
      by_contra many
      apply apart occasion checks
      constructor
      · intro achievement mem named
        rw [← h.extended.achievements] at mem
        apply (check_eq_ok_iff.mp checked).1 achievement mem
        rw [named, new]
      · rw [passing, ← h.extended.achievements, ← passing, ← count]
        omega
    · rw [List.count_eq_zero.mpr now]
      apply h.once

theorem isSingle_run {book book' : Book} {name : String} {moves : List Move}
    {announced : List String}
    (apart : ∀ occasion, .check occasion ∈ moves → ¬ book.Collides occasion name)
    (h : book.run moves = .ok (book', announced)) :
  IsSingle book name (book', announced)
  := by
  apply Checked.foldlM_preserves (P := IsSingle book name) _ _ h
  · intro move mem state state' single moved
    apply single.announce _ moved
    rintro occasion rfl
    apply apart occasion mem
  · exact ⟨.refl book, by simp, by simp⟩

/-- Unlocking achievements of the book by their names. -/
theorem foldlM_announce_unlock {names : List String} (book : Book)
    (known : ∀ name ∈ names, ∃ achievement ∈ book.achievements, achievement.name = name)
    (announced : List String) :
  (names.map Move.unlock).foldlM announce (book, announced)
    = .ok (names.foldl enter book, announced)
  := by
  induction names generalizing book with
  | nil => rfl
  | cons name rest ih =>
    obtain ⟨⟨achievement, mem, named⟩, others⟩ := List.forall_mem_cons.mp known
    have found : (book.get? name).isNone = false := by
      rw [get?, Option.isNone_eq_false_iff, List.find?_isSome]
      exact ⟨achievement, mem, by simpa using named⟩
    have unlocked :
        announce (book, announced) (.unlock name) = .ok (book.enter name, announced) := by
      simp [announce, move, unlock, found, pure, Except.pure]
    rw [List.map_cons, List.foldlM_cons, unlocked, Checked.ok_bind]
    apply ih (book.enter name) others

/-- Where two achievements of a name collide, a run announces it twice: unlock all others, so
that nothing else is judged, then check. -/
theorem exists_run_of_collides {book : Book} {occasion : Occasion} {name : String}
    (fresh : ∀ name, book.isReached name = false) (h : book.Collides occasion name) :
  ∃ moves book' announced, (∀ other, .check other ∈ moves → other = occasion)
    ∧ book.run moves = .ok (book', announced) ∧ 2 ≤ announced.count name
  := by
  let others := (book.achievements.map (·.name)).filter fun other => other != name
  have known : ∀ other ∈ others, ∃ achievement ∈ book.achievements,
      achievement.name = other := by
    intro other mem
    obtain ⟨achievement, listed, named⟩ := List.mem_map.mp (List.mem_filter.mp mem).1
    exact ⟨achievement, listed, named⟩
  have reached : ∀ other, (others.foldl enter book).isReached other = true ↔ other ∈ others := by
    intro other
    rw [isReached_foldl_enter, fresh]
    simp
  have same := (extends_foldl_enter others book).achievements
  have judged : ∃ result, (others.foldl enter book).check occasion = .ok result := by
    refine ⟨_, check_eq_ok_iff.mpr ⟨?_, rfl, rfl⟩⟩
    intro achievement mem unreached
    rw [same] at mem
    apply h.judged achievement mem
    by_contra other
    have listed : achievement.name ∈ others :=
      List.mem_filter.mpr ⟨List.mem_map_of_mem mem, by simpa using other⟩
    rw [(reached _).mpr listed] at unreached
    contradiction
  obtain ⟨⟨book', names⟩, checked⟩ := judged
  refine ⟨others.map .unlock ++ [.check occasion], book', names, ?_, ?_, ?_⟩
  · intro other mem
    simpa using mem
  · have announced : announce (others.foldl enter book, []) (.check occasion)
        = .ok (book', names) := by
      rw [announce, move, checked]
      rfl
    rw [run, List.foldlM_append, foldlM_announce_unlock book known, Checked.ok_bind,
      List.foldlM_cons, announced]
    rfl
  · have unreached : (others.foldl enter book).isReached name ≠ true := by
      rw [Ne, reached, List.mem_filter]
      simp
    rw [count_of_check checked, if_neg unreached, passing, same]
    apply h.twice

/-- Where all achievements have different names, no name is announced twice. -/
theorem nodup_announced {book book' : Book} {moves : List Move} {announced : List String}
    (distinct : (book.achievements.map (·.name)).Nodup)
    (h : book.run moves = .ok (book', announced)) :
  announced.Nodup
  := by
  apply List.nodup_iff_count_le_one.mpr
  intro name
  apply (isSingle_run _ h).once
  intro occasion _ collides
  have named : book.passing occasion name ≤ (book.achievements.map (·.name)).count name := by
    rw [List.count, List.countP_map]
    apply List.countP_mono_left
    intro achievement _ both
    exact (Bool.and_eq_true_iff.mp both).1
  have once := List.nodup_iff_count_le_one.mp distinct name
  have twice := collides.twice
  omega

/-- Whatever text describes a book, some moves announce a name twice exactly if on some occasion
two achievements of this name pass, where all points and numbers of cards have 32 binary digits. -/
theorem announced_twice_iff (text name : String) :
  (∃ moves book announced, (∀ occasion, .check occasion ∈ moves → occasion.InRange)
      ∧ (Book.read text).value.run moves = .ok (book, announced)
      ∧ 2 ≤ announced.count name)
    ↔ ∃ occasion, occasion.InRange ∧ (Book.read text).value.Collides occasion name
  := by
  constructor
  · rintro ⟨moves, book, announced, inRange, ran, twice⟩
    by_contra apart
    have single : IsSingle (Book.read text).value name (book, announced) := by
      apply isSingle_run _ ran
      intro occasion mem collides
      exact apart ⟨occasion, inRange occasion mem, collides⟩
    exact absurd single.once (Nat.not_le.mpr twice)
  · rintro ⟨occasion, inRange, collides⟩
    have fresh (name : String) : (Book.read text).value.isReached name = false := rfl
    obtain ⟨moves, book, announced, only, ran, twice⟩ := exists_run_of_collides fresh collides
    refine ⟨moves, book, announced, ?_, ran, twice⟩
    intro other mem
    rw [only other mem]
    apply inRange

/-- Two achievements of one name, both reached by the end of any game. -/
def twins : String :=
  "[ACH-NAME]Twin\n[ACH-CODE]PLAY 0\n[ACH-REWARD]\n"
    ++ "[ACH-NAME]Twin\n[ACH-CODE]PLAY 0\n[ACH-REWARD]\n"

/-- One check announces both twins. -/
theorem twins_announced_twice :
  ∃ moves book announced, (∀ occasion, .check occasion ∈ moves → occasion.InRange)
    ∧ (Book.read twins).value.run moves = .ok (book, announced)
    ∧ ¬ announced.Nodup
  := by
  refine ⟨[.check (.game (.ofSuits ["Ex"]) .first {})], _, ["Twin", "Twin"], ?_, rfl, by decide⟩
  intro occasion mem
  obtain rfl : occasion = .game (.ofSuits ["Ex"]) .first {} := by simpa using mem
  intro seat points mem
  obtain rfl : points = 0 := by
    cases seat <;> simpa [Scoreboard.row, Scoreboard.ofSuits, Pair.get, Pair.both] using mem
  decide

end Book

end Goal

end CardDuel
