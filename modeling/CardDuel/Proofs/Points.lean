import CardDuel.Proofs.Answers
import CardDuel.Proofs.Scoring
import Mathlib.Algebra.BigOperators.Group.List.Basic
import Mathlib.Tactic.Common

/-!
# How far points move

One match moves the points of a seat by ten in at most two suits.  So after `n` matches the points
of a seat in a suit are a multiple of ten and at most `10 * n` away from zero, and the absolute
values of its row add up to at most `20 * n`.  As long as that fits into the range, no match and no
total overflows: `Scoreboard.afterMatches_bounded`.
-/

namespace CardDuel

open Checked (Ensures)

/-- Two cards that face each other, seen from one of the seats. -/
structure Match where
  seat : Seat
  mine : Card
  theirs : Card

namespace Scoreboard

/-- The points after some matches. -/
def afterMatches (scores : Scoreboard) (played : List Match) : Except Fault Scoreboard :=
  played.foldlM
    (fun scores faced => (scores.scoreMatch faced.seat faced.mine faced.theirs).map (·.1)) scores

/-! ### Adding points to one entry -/

/-- The entries after points of a seat have been added in the first entry of a suit, if there is
one. -/
inductive Gained (amount : Int) (seat : Seat) (suit : String) :
    List SuitScore → List SuitScore → Prop
  | none : Gained amount seat suit [] []
  | here {entry : SuitScore} (rest : List SuitScore) : entry.suit = suit →
    Gained amount seat suit (entry :: rest)
      ({ entry with points := entry.points.set seat (entry.points.get seat + amount) } :: rest)
  | later {entry : SuitScore} {rest rest' : List SuitScore} : Gained amount seat suit rest rest' →
    Gained amount seat suit (entry :: rest) (entry :: rest')

theorem ensures_gain {safe : Prop} {amount : Int} {seat : Seat} {suit : String}
    {entries : List SuitScore}
    (inRange : safe → ∀ entry ∈ entries, entry.suit = suit →
      Checked.InRange 32 (entry.points.get seat + amount)) :
  Ensures safe (Gained amount seat suit entries) (gain amount seat suit entries)
  := by
  induction entries with
  | nil => apply Ensures.ok .none
  | cons entry rest ih =>
    by_cases here : entry.suit = suit
    · rw [gain_cons_self here]
      apply Ensures.map
      apply Ensures.add _ (.here rest here)
      intro isSafe
      apply inRange isSafe entry List.mem_cons_self here
    · rw [gain_cons_of_ne here]
      apply Ensures.map
      apply (ih _).mono fun rest' gained => .later gained
      intro isSafe entry' later
      apply inRange isSafe entry' (List.mem_cons_of_mem _ later)

namespace Gained

variable {amount : Int} {seat : Seat} {suit : String} {entries entries' : List SuitScore}

/-- An entry is as it was, but for the points added to the seat in the suit. -/
theorem exists_entry (h : Gained amount seat suit entries entries') :
  ∀ entry' ∈ entries', ∃ entry ∈ entries, entry'.suit = entry.suit
    ∧ ∀ other, entry'.points.get other = entry.points.get other
      ∨ other = seat ∧ entry.suit = suit
        ∧ entry'.points.get other = entry.points.get other + amount
  := by
  induction h with
  | none => simp
  | @here entry rest same =>
    rw [List.forall_mem_cons]
    constructor
    · refine ⟨entry, List.mem_cons_self, rfl, ?_⟩
      intro other
      rcases eq_or_ne other seat with rfl | apart
      · right
        exact ⟨rfl, same, Pair.get_set_self ..⟩
      · left
        apply Pair.get_set_of_ne apart
    · intro entry' mem
      exact ⟨entry', List.mem_cons_of_mem _ mem, rfl, fun _ => .inl rfl⟩
  | @later entry rest rest' _ ih =>
    rw [List.forall_mem_cons]
    constructor
    · exact ⟨entry, List.mem_cons_self, rfl, fun _ => .inl rfl⟩
    · intro entry' mem
      obtain ⟨before, isBefore, same⟩ := ih entry' mem
      exact ⟨before, List.mem_cons_of_mem _ isBefore, same⟩

/-- The absolute values of a row grow by no more than what is added to its seat. -/
theorem sum_natAbs_le (h : Gained amount seat suit entries entries') (other : Seat) :
  (entries'.map fun entry => (entry.points.get other).natAbs).sum
    ≤ (entries.map fun entry => (entry.points.get other).natAbs).sum
      + if other = seat then amount.natAbs else 0
  := by
  induction h with
  | none => simp
  | @here entry rest _ =>
    simp only [List.map_cons, List.sum_cons]
    rcases eq_or_ne other seat with rfl | apart
    · rw [Pair.get_set_self, if_pos rfl]
      omega
    · rw [Pair.get_set_of_ne apart, if_neg apart]
      omega
  | later _ ih =>
    simp only [List.map_cons, List.sum_cons]
    omega

end Gained

/-! ### Leeway -/

/-- How far the points of a seat may be from zero in one suit, and in all suits together. -/
structure Leeway where
  each : Seat → String → Nat
  all : Seat → Nat

namespace Leeway

/-- The leeway after `n` matches. -/
def ofMatches (n : Nat) : Leeway where
  each _ _ := 10 * n
  all _ := 20 * n

/-- The leeway after points of a seat have moved in a suit. -/
def widen (leeway : Leeway) (seat : Seat) (suit : String) : Leeway where
  each other suit' := leeway.each other suit' + if other = seat ∧ suit' = suit then 10 else 0
  all other := leeway.all other + if other = seat then 10 else 0

/-- The leeway after points of a seat have moved in up to two suits. -/
def widenRow (leeway : Leeway) (seat : Seat) : Leeway where
  each other suit := leeway.each other suit + if other = seat then 10 else 0
  all other := leeway.all other + if other = seat then 20 else 0

variable (leeway : Leeway) (seat other : Seat) (suit suit' : String) (n : Nat)

@[simp, grind =]
theorem each_ofMatches :
  (ofMatches n).each seat suit = 10 * n
  := rfl

@[simp, grind =]
theorem all_ofMatches :
  (ofMatches n).all seat = 20 * n
  := rfl

@[simp, grind =]
theorem each_widen :
  (leeway.widen seat suit).each other suit'
    = leeway.each other suit' + if other = seat ∧ suit' = suit then 10 else 0
  := rfl

@[simp, grind =]
theorem all_widen :
  (leeway.widen seat suit).all other = leeway.all other + if other = seat then 10 else 0
  := rfl

@[simp, grind =]
theorem each_widenRow :
  (leeway.widenRow seat).each other suit
    = leeway.each other suit + if other = seat then 10 else 0
  := rfl

@[simp, grind =]
theorem all_widenRow :
  (leeway.widenRow seat).all other = leeway.all other + if other = seat then 20 else 0
  := rfl

end Leeway

/-- All points are multiples of ten and keep to a leeway. -/
structure KeepsTo (leeway : Leeway) (scores : Scoreboard) : Prop where
  ten_dvd : ∀ entry ∈ scores.entries, ∀ seat, 10 ∣ entry.points.get seat
  each : ∀ entry ∈ scores.entries, ∀ seat,
    (entry.points.get seat).natAbs ≤ leeway.each seat entry.suit
  all : ∀ seat,
    (scores.entries.map fun entry => (entry.points.get seat).natAbs).sum ≤ leeway.all seat

namespace KeepsTo

variable {leeway : Leeway} {scores : Scoreboard}

theorem mono {leeway' : Leeway} (h : scores.KeepsTo leeway)
    (each : ∀ seat suit, leeway.each seat suit ≤ leeway'.each seat suit)
    (all : ∀ seat, leeway.all seat ≤ leeway'.all seat) :
  scores.KeepsTo leeway'
  where
  ten_dvd := h.ten_dvd
  each entry mem seat := Nat.le_trans (h.each entry mem seat) (each seat entry.suit)
  all seat := Nat.le_trans (h.all seat) (all seat)

/-- Ten points move. -/
theorem gained (h : scores.KeepsTo leeway) {amount : Int} {seat : Seat} {suit : String}
    (ten : amount.natAbs = 10) {entries : List SuitScore}
    (gained : Gained amount seat suit scores.entries entries) :
  KeepsTo (leeway.widen seat suit) ⟨entries⟩
  where
  ten_dvd entry' mem other := by
    obtain ⟨entry, isBefore, -, points⟩ := gained.exists_entry entry' mem
    have divides := h.ten_dvd entry isBefore other
    rcases points other with same | ⟨-, -, moved⟩
    · rw [same]
      apply divides
    · rw [moved]
      omega
  each entry' mem other := by
    obtain ⟨entry, isBefore, suits, points⟩ := gained.exists_entry entry' mem
    have bound := h.each entry isBefore other
    rw [suits, Leeway.each_widen]
    rcases points other with same | ⟨sameSeat, sameSuit, moved⟩
    · rw [same]
      omega
    · rw [moved, if_pos ⟨sameSeat, sameSuit⟩]
      omega
  all other := by
    have bound := h.all other
    have grown := gained.sum_natAbs_le other
    rw [ten] at grown
    rw [Leeway.all_widen]
    dsimp only
    omega

theorem ensures_add {safe : Prop} (h : scores.KeepsTo leeway) {seat : Seat} {suit : String}
    {amount : Int} (ten : amount.natAbs = 10)
    (room : safe → leeway.each seat suit + 10 ≤ 2147483647) :
  Ensures safe (KeepsTo (leeway.widen seat suit)) (scores.add seat suit amount)
  := by
  apply Ensures.map
  apply (ensures_gain _).mono fun entries gained => h.gained ten gained
  rintro isSafe entry mem rfl
  have bound := h.each entry mem seat
  have room := room isSafe
  apply Checked.inRange_of_natAbs_le
  omega

/-- Credit moves points in two suits, once in each of them; if they are the same, it moves them
once. -/
theorem ensures_creditBoth {safe : Prop} (h : scores.KeepsTo leeway) {seat : Seat}
    (room : safe → ∀ suit, leeway.each seat suit + 10 ≤ 2147483647) (suit other : String) :
  Ensures safe (KeepsTo (leeway.widenRow seat)) (scores.creditBoth seat suit other)
  := by
  have first : Ensures safe (KeepsTo (leeway.widen seat suit))
      (scores.add seat suit matchPoints) :=
    h.ensures_add rfl fun isSafe => room isSafe suit
  rcases eq_or_ne other suit with rfl | apart
  · rw [creditBoth_self]
    apply first.mono
    intro scores' moved
    apply moved.mono
    · grind
    · grind
  · rw [creditBoth_of_ne apart]
    apply first.bind
    intro scores' moved
    have second : Ensures safe (KeepsTo ((leeway.widen seat suit).widen seat other))
        (scores'.add seat other matchPoints) := by
      apply moved.ensures_add rfl
      intro isSafe
      rw [Leeway.each_widen, if_neg fun same => apart same.2]
      apply room isSafe other
    apply second.mono
    intro scores'' movedTwice
    apply movedTwice.mono
    · grind
    · grind

end KeepsTo

/-! ### Matches -/

section

variable {scores : Scoreboard} {n : Nat} {safe : Prop}

/-- The winner is credited in two suits and the loser charged in one. -/
theorem ensures_creditWin (h : scores.KeepsTo (.ofMatches n))
    (room : safe → 10 * n + 10 ≤ 2147483647) (winner : Seat) (winnerSuit loserSuit : String) :
  Ensures safe (KeepsTo (.ofMatches (n + 1))) (scores.creditWin winner winnerSuit loserSuit)
  := by
  apply (h.ensures_creditBoth (fun isSafe _ => room isSafe) winnerSuit loserSuit).bind
  intro scores' credited
  have charged : Ensures safe
      (KeepsTo (((Leeway.ofMatches n).widenRow winner).widen winner.opponent loserSuit))
      (scores'.add winner.opponent loserSuit (-matchPoints)) := by
    apply credited.ensures_add rfl
    intro isSafe
    rw [Leeway.each_widenRow, if_neg winner.opponent_ne]
    apply room isSafe
  apply charged.mono
  intro scores'' settled
  have apart := winner.opponent_ne
  apply settled.mono
  · grind
  · grind

/-- With a kiss both seats are credited in both suits. -/
theorem ensures_creditKiss (h : scores.KeepsTo (.ofMatches n))
    (room : safe → 10 * n + 10 ≤ 2147483647) (seat : Seat) (mine theirs : String) :
  Ensures safe (KeepsTo (.ofMatches (n + 1)))
    (scores.creditBoth seat mine theirs >>= fun scores =>
      scores.creditBoth seat.opponent mine theirs)
  := by
  apply (h.ensures_creditBoth (fun isSafe _ => room isSafe) mine theirs).bind
  intro scores' credited
  have both : Ensures safe
      (KeepsTo (((Leeway.ofMatches n).widenRow seat).widenRow seat.opponent))
      (scores'.creditBoth seat.opponent mine theirs) := by
    apply credited.ensures_creditBoth
    intro isSafe suit
    rw [Leeway.each_widenRow, if_neg seat.opponent_ne]
    apply room isSafe
  apply both.mono
  intro scores'' settled
  have apart := seat.opponent_ne
  apply settled.mono
  · grind
  · grind

theorem KeepsTo.later (h : scores.KeepsTo (.ofMatches n)) :
  scores.KeepsTo (.ofMatches (n + 1))
  := by
  apply h.mono
  · grind
  · grind

/-- One match keeps the points to the leeway of one match more. -/
theorem ensures_scoreMatch (h : scores.KeepsTo (.ofMatches n))
    (room : safe → 10 * n + 10 ≤ 2147483647) (seat : Seat) (mine theirs : Card) :
  Ensures safe (fun result => result.1.KeepsTo (.ofMatches (n + 1)))
    (scores.scoreMatch seat mine theirs)
  := by
  by_cases special : mine.face.value = .special ∨ theirs.face.value = .special
  · rw [scoreMatch_special special]
    apply Ensures.ok
    apply h.later
  by_cases kiss : mine.face.value = .kiss ∨ theirs.face.value = .kiss
  · rw [scoreMatch_kiss kiss special]
    apply Ensures.map
    apply ensures_creditKiss h room
  · obtain ⟨mineKiss, theirsKiss⟩ := not_or.mp kiss
    rw [scoreMatch_eq_settle mineKiss theirsKiss]
    apply Ensures.map
    cases Outcome.ofValues mine.face.value theirs.face.value with
    | win => apply ensures_creditWin h room
    | loss => apply ensures_creditWin h room
    | draw => apply Ensures.ok h.later

theorem keepsTo_ofSuits (suits : List String) :
  (ofSuits suits).KeepsTo (.ofMatches 0)
  := by
  constructor
  · simp [ofSuits]
  · simp [ofSuits]
  · intro seat
    simp [ofSuits, Function.comp_def, List.map_const']

/-- So many matches keep the points to the leeway of so many. -/
theorem ensures_afterMatches (suits : List String) {played : List Match}
    (room : safe → 10 * played.length ≤ 2147483647) :
  Ensures safe (KeepsTo (.ofMatches played.length)) ((ofSuits suits).afterMatches played)
  := by
  apply Ensures.foldlM (P := fun n => KeepsTo (.ofMatches n)) _ (keepsTo_ofSuits suits)
  intro faced _ n fewer scores' keeps
  apply Ensures.map
  apply ensures_scoreMatch keeps
  intro isSafe
  have room := room isSafe
  omega

end

/-- After any matches every points of a seat in a suit are a multiple of ten, at most ten times the
number of matches away from zero, and the absolute values of a row add up to at most twenty times
that number.  If so much fits into the range, then all matches are decided and each total is the
sum of its row. -/
theorem afterMatches_bounded (suits : List String) (played : List Match) :
  (∀ scores, (ofSuits suits).afterMatches played = .ok scores → ∀ seat,
    (∀ points ∈ scores.row seat, 10 ∣ points
      ∧ -(10 * played.length) ≤ points ∧ points ≤ 10 * played.length)
    ∧ ((scores.row seat).map Int.natAbs).sum ≤ 20 * played.length)
  ∧ (20 * played.length ≤ 2147483647 →
    ∃ scores, (ofSuits suits).afterMatches played = .ok scores
      ∧ ∀ seat, scores.total seat = .ok (scores.row seat).sum)
  := by
  have ensures : Ensures (20 * played.length ≤ 2147483647)
      (KeepsTo (.ofMatches played.length)) ((ofSuits suits).afterMatches played) := by
    apply ensures_afterMatches
    omega
  have sum (scores : Scoreboard) (seat : Seat) : ((scores.row seat).map Int.natAbs).sum
      = (scores.entries.map fun entry => (entry.points.get seat).natAbs).sum := by
    rw [row, List.map_map]
    rfl
  constructor
  · intro scores decided seat
    have keeps := ensures.result scores decided
    constructor
    · intro points mem
      obtain ⟨entry, isEntry, rfl⟩ := List.mem_map.mp mem
      have bound := keeps.each entry isEntry seat
      rw [Leeway.each_ofMatches] at bound
      refine ⟨keeps.ten_dvd entry isEntry seat, ?_, ?_⟩
      · omega
      · omega
    · rw [sum]
      apply keeps.all seat
  · intro room
    obtain ⟨scores, decided⟩ := ensures.exists_ok room
    refine ⟨scores, decided, ?_⟩
    intro seat
    apply Checked.sum_eq_ok
    rw [sum]
    apply Nat.le_trans ((ensures.result scores decided).all seat) room

/-- A win over another suit, a kiss seen from the second seat, and a win over the same suit. -/
def courtship : List Match :=
  [⟨.first, .standard "Boyfriend" (.number 7), .standard "Ex" (.number 3)⟩,
    ⟨.second, .standard "Ex" .kiss, .standard "Boyfriend" (.number 1)⟩,
    ⟨.second, .standard "Ex" .win, .standard "Ex" (.number 9)⟩]

theorem afterMatches_bounded_courtship :
  ∃ scores, (ofSuits ["Boyfriend", "Ex"]).afterMatches courtship = .ok scores
    ∧ scores = ⟨[⟨"Boyfriend", ⟨20, 10⟩⟩, ⟨"Ex", ⟨10, 10⟩⟩]⟩
    ∧ (∀ points ∈ scores.row .first, 10 ∣ points ∧ -30 ≤ points ∧ points ≤ 30)
    ∧ ((scores.row .first).map Int.natAbs).sum ≤ 60
    ∧ scores.total .first = .ok 30
  := by
  obtain ⟨bounded, answers⟩ := afterMatches_bounded ["Boyfriend", "Ex"] courtship
  obtain ⟨scores, decided, totals⟩ := answers (by decide)
  obtain ⟨each, all⟩ := bounded scores decided .first
  obtain rfl : (⟨[⟨"Boyfriend", ⟨20, 10⟩⟩, ⟨"Ex", ⟨10, 10⟩⟩]⟩ : Scoreboard) = scores :=
    Except.ok.inj decided
  exact ⟨_, decided, rfl, each, all, totals .first⟩

end Scoreboard

end CardDuel
