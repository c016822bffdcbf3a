import CardDuel.Scoreboard
import Mathlib.Tactic.Common

/-!
# Scoring is the same from either seat

A match may be scored from the point of view of either of the two cards.  Adding points of
different seats or in different suits can be done in either order, faults included, so a
kiss credits the same points in whatever order seats and suits are named.  Where no kiss is
shown, the two points of view see flipped outcomes and credit the same winner, unless both
cards show a win or both show a loss.
-/

namespace CardDuel

namespace Outcome

/-- Seen from the other side a match has the flipped outcome, except for a kiss, which wins
on either side, and for two wins or two losses, which the first side wins. -/
theorem ofValues_comm {mine theirs : Value} (mineKiss : mine ≠ .kiss)
    (theirsKiss : theirs ≠ .kiss) (wins : ¬ (mine = .win ∧ theirs = .win))
    (losses : ¬ (mine = .lose ∧ theirs = .lose)) :
  ofValues theirs mine = (ofValues mine theirs).flip
  := by
  cases mine with
  | number m =>
    cases theirs with
    | number n =>
      rcases Int.lt_trichotomy m n with less | rfl | greater
      · have forward : compare m n = .lt := Int.compare_eq_lt.mpr less
        have backward : compare n m = .gt := Int.compare_eq_gt.mpr less
        simp [ofValues, Value.compare?, forward, backward, flip]
      · simp [ofValues, Value.compare?, flip]
      · have forward : compare m n = .gt := Int.compare_eq_gt.mpr greater
        have backward : compare n m = .lt := Int.compare_eq_lt.mpr greater
        simp [ofValues, Value.compare?, forward, backward, flip]
    | _ => simp_all [ofValues, flip]
  | _ => cases theirs <;> simp_all [ofValues, flip]

theorem ofValues_special {mine theirs : Value} (h : mine = .special ∨ theirs = .special) :
  ofValues mine theirs = .draw
  := if_pos h

theorem ofValues_kiss {mine theirs : Value} (h : mine = .kiss ∨ theirs = .kiss)
    (standard : ¬ (mine = .special ∨ theirs = .special)) :
  ofValues mine theirs = .win
  := by
  rw [ofValues]
  rw [if_neg standard, if_pos h]

end Outcome

namespace Scoreboard

/-! ### Adding points in either order -/

/-- Add points of a seat in the first entry of a suit. -/
def gain (amount : Int) : Seat → String → List SuitScore → Except Fault (List SuitScore) :=
  update fun points => Checked.add points amount

theorem add_eq_map_gain (scores : Scoreboard) (seat : Seat) (suit : String) (amount : Int) :
  scores.add seat suit amount = Scoreboard.mk <$> gain amount seat suit scores.entries
  := rfl

theorem gain_cons_self {entry : SuitScore} {suit : String} (h : entry.suit = suit)
    (amount : Int) (seat : Seat) (rest : List SuitScore) :
  gain amount seat suit (entry :: rest)
    = (fun points => { entry with points := entry.points.set seat points } :: rest)
      <$> Checked.add (entry.points.get seat) amount
  := by simp [gain, update, h]

theorem gain_cons_of_ne {entry : SuitScore} {suit : String} (h : entry.suit ≠ suit)
    (amount : Int) (seat : Seat) (rest : List SuitScore) :
  gain amount seat suit (entry :: rest) = (entry :: ·) <$> gain amount seat suit rest
  := by simp [gain, update, h]

/-- Adding points fails with the one fault of additions, if it fails. -/
theorem gain_cases (amount : Int) (seat : Seat) (suit : String) (entries : List SuitScore) :
  (∃ entries', gain amount seat suit entries = .ok entries')
    ∨ gain amount seat suit entries = .error .addition
  := by
  induction entries with
  | nil =>
    left
    exact ⟨[], rfl⟩
  | cons entry rest ih =>
    by_cases h : entry.suit = suit
    · rw [gain_cons_self h]
      rcases Checked.add_cases (entry.points.get seat) amount with sum | fault
      · rw [sum]
        left
        exact ⟨_, rfl⟩
      · rw [fault]
        right
        rfl
    · rw [gain_cons_of_ne h]
      rcases ih with ⟨rest', sum⟩ | fault
      · rw [sum]
        left
        exact ⟨_, rfl⟩
      · rw [fault]
        right
        rfl

/-- An entry of another suit stays in front. -/
theorem map_cons_bind_gain {entry : SuitScore} {suit : String} (h : entry.suit ≠ suit)
    (amount : Int) (seat : Seat) (x : Except Fault (List SuitScore)) :
  ((entry :: ·) <$> x >>= gain amount seat suit)
    = (entry :: ·) <$> (x >>= gain amount seat suit)
  := by
  cases x with
  | error fault => rfl
  | ok rest => apply gain_cons_of_ne h

/-- Points in the suit of the first entry and points in a later entry can be added in either
order. -/
theorem gain_comm_of_head {entry : SuitScore} {suit : String} (h : entry.suit ≠ suit)
    (a b : Int) (seat seat' : Seat) (rest : List SuitScore) :
  (gain a seat entry.suit (entry :: rest) >>= gain b seat' suit)
    = (gain b seat' suit (entry :: rest) >>= gain a seat entry.suit)
  := by
  rw [gain_cons_self rfl, gain_cons_of_ne h]
  rcases Checked.add_cases (entry.points.get seat) a with sum | fault <;>
    rcases gain_cases b seat' suit rest with ⟨rest', sum'⟩ | fault' <;>
    simp [*, gain_cons_self, gain_cons_of_ne]

/-- Points of different seats or in different suits can be added in either order. -/
theorem gain_comm {seat seat' : Seat} {suit suit' : String} (h : seat ≠ seat' ∨ suit ≠ suit')
    (a b : Int) (entries : List SuitScore) :
  (gain a seat suit entries >>= gain b seat' suit')
    = (gain b seat' suit' entries >>= gain a seat suit)
  := by
  induction entries with
  | nil => rfl
  | cons entry rest ih =>
    by_cases first : entry.suit = suit <;> by_cases second : entry.suit = suit'
    · subst first
      subst second
      have seats : seat ≠ seat' := by simpa using h
      rw [gain_cons_self rfl, gain_cons_self rfl]
      rcases Checked.add_cases (entry.points.get seat) a with sum | fault <;>
        rcases Checked.add_cases (entry.points.get seat') b with sum' | fault' <;>
        simp [*, gain_cons_self, Pair.get_set_of_ne, Pair.set_comm seats, seats.symm]
    · subst first
      apply gain_comm_of_head second
    · subst second
      symm
      apply gain_comm_of_head first
    · rw [gain_cons_of_ne first, gain_cons_of_ne second, map_cons_bind_gain second,
        map_cons_bind_gain first, ih]

theorem add_comm {seat seat' : Seat} {suit suit' : String} (h : seat ≠ seat' ∨ suit ≠ suit')
    (a b : Int) (scores : Scoreboard) :
  (scores.add seat suit a >>= fun scores => scores.add seat' suit' b)
    = (scores.add seat' suit' b >>= fun scores => scores.add seat suit a)
  := by
  have comm := congrArg (Scoreboard.mk <$> ·) (gain_comm h a b scores.entries)
  simp only [add_eq_map_gain, bind_map_left, map_bind] at comm ⊢
  apply comm

/-! ### Credit in either order -/

theorem creditBoth_of_ne {suit other : String} (h : other ≠ suit) (scores : Scoreboard)
    (seat : Seat) :
  scores.creditBoth seat suit other
    = (scores.add seat suit matchPoints >>= fun scores => scores.add seat other matchPoints)
  := by simp [creditBoth, h]

@[simp]
theorem creditBoth_self (scores : Scoreboard) (seat : Seat) (suit : String) :
  scores.creditBoth seat suit suit = scores.add seat suit matchPoints
  := by simp [creditBoth]

theorem creditBoth_suits_comm (scores : Scoreboard) (seat : Seat) (suit other : String) :
  scores.creditBoth seat other suit = scores.creditBoth seat suit other
  := by
  by_cases h : other = suit
  · rw [h]
  · rw [creditBoth_of_ne h, creditBoth_of_ne (Ne.symm h)]
    apply add_comm
    right
    apply h

theorem add_creditBoth_comm {seat seat' : Seat} (h : seat ≠ seat') (scores : Scoreboard)
    (amount : Int) (suit mine theirs : String) :
  (scores.add seat suit amount >>= fun scores => scores.creditBoth seat' mine theirs)
    = (scores.creditBoth seat' mine theirs >>= fun scores => scores.add seat suit amount)
  := by
  by_cases same : theirs = mine
  · subst same
    simp only [creditBoth_self]
    apply add_comm (.inl h)
  · simp only [creditBoth_of_ne same]
    rw [← bind_assoc, add_comm (.inl h), bind_assoc, bind_assoc]
    congr 1
    funext scores
    apply add_comm (.inl h)

theorem creditBoth_comm {seat seat' : Seat} (h : seat ≠ seat') (scores : Scoreboard)
    (mine theirs mine' theirs' : String) :
  (scores.creditBoth seat mine theirs >>= fun scores => scores.creditBoth seat' mine' theirs')
    = (scores.creditBoth seat' mine' theirs' >>= fun scores =>
      scores.creditBoth seat mine theirs)
  := by
  by_cases same : theirs = mine
  · subst same
    simp only [creditBoth_self]
    apply add_creditBoth_comm h
  · simp only [creditBoth_of_ne same]
    rw [bind_assoc, ← bind_assoc (scores.creditBoth seat' mine' theirs'),
      ← add_creditBoth_comm h, bind_assoc]
    congr 1
    funext scores
    apply add_creditBoth_comm h

/-! ### A match from either seat -/

theorem scoreMatch_special {mine theirs : Card}
    (h : mine.face.value = .special ∨ theirs.face.value = .special) (scores : Scoreboard)
    (seat : Seat) :
  scores.scoreMatch seat mine theirs = .ok (scores, .draw)
  := by
  by_cases kiss : mine.face.value = .kiss ∨ theirs.face.value = .kiss <;>
    simp [scoreMatch, Outcome.ofValues_special h, kiss] <;> rfl

theorem scoreMatch_kiss {mine theirs : Card}
    (h : mine.face.value = .kiss ∨ theirs.face.value = .kiss)
    (standard : ¬ (mine.face.value = .special ∨ theirs.face.value = .special))
    (scores : Scoreboard) (seat : Seat) :
  scores.scoreMatch seat mine theirs
    = (·, Outcome.win) <$> (scores.creditBoth seat mine.face.suit theirs.face.suit >>=
      fun scores => scores.creditBoth seat.opponent mine.face.suit theirs.face.suit)
  := by simp [scoreMatch, Outcome.ofValues_kiss h standard, h]

/-- Move the points of a match without a kiss. -/
def settle (scores : Scoreboard) (seat : Seat) (mine theirs : String) :
    Outcome → Except Fault Scoreboard
  | .win => scores.creditWin seat mine theirs
  | .loss => scores.creditWin seat.opponent theirs mine
  | .draw => pure scores

theorem settle_flip (scores : Scoreboard) (seat : Seat) (mine theirs : String)
    (outcome : Outcome) :
  scores.settle seat.opponent theirs mine outcome.flip = scores.settle seat mine theirs outcome
  := by cases outcome <;> simp [settle, Outcome.flip]

theorem scoreMatch_eq_settle {mine theirs : Card} (mineKiss : mine.face.value ≠ .kiss)
    (theirsKiss : theirs.face.value ≠ .kiss) (scores : Scoreboard) (seat : Seat) :
  scores.scoreMatch seat mine theirs
    = (·, Outcome.ofValues mine.face.value theirs.face.value)
      <$> scores.settle seat mine.face.suit theirs.face.suit
        (Outcome.ofValues mine.face.value theirs.face.value)
  := by
  simp only [scoreMatch, mineKiss, theirsKiss, or_self, if_false]
  cases Outcome.ofValues mine.face.value theirs.face.value <;> simp [settle]

theorem scoreMatch_kiss_comm {mine theirs : Card}
    (h : mine.face.value = .kiss ∨ theirs.face.value = .kiss)
    (standard : ¬ (mine.face.value = .special ∨ theirs.face.value = .special))
    (scores : Scoreboard) (seat : Seat) :
  scores.scoreMatch seat.opponent theirs mine = scores.scoreMatch seat mine theirs
  := by
  rw [scoreMatch_kiss h standard, scoreMatch_kiss h.symm (by rwa [or_comm])]
  simp only [Seat.opponent_opponent]
  rw [creditBoth_comm (Seat.opponent_ne seat), creditBoth_suits_comm]
  simp only [creditBoth_suits_comm _ _ mine.face.suit theirs.face.suit]

/-- A match leaves the same points, or ends in the same fault, whichever of its two cards is
named first.  Without a kiss the two sides see flipped outcomes, unless both cards show a win
or both a loss; a kiss wins for both sides, and the mark of a special card draws. -/
theorem scoreMatch_from_either_seat (scores : Scoreboard) (seat : Seat) (mine theirs : Card) :
  (mine.face.value ≠ .kiss → theirs.face.value ≠ .kiss →
    ¬ (mine.face.value = .win ∧ theirs.face.value = .win) →
    ¬ (mine.face.value = .lose ∧ theirs.face.value = .lose) →
      scores.scoreMatch seat.opponent theirs mine
        = (scores.scoreMatch seat mine theirs).map fun result => (result.1, result.2.flip))
  ∧ (mine.face.value = .kiss ∨ theirs.face.value = .kiss →
    ¬ (mine.face.value = .special ∨ theirs.face.value = .special) →
      scores.scoreMatch seat.opponent theirs mine = scores.scoreMatch seat mine theirs
      ∧ ∀ scores' outcome,
        scores.scoreMatch seat mine theirs = .ok (scores', outcome) → outcome = .win)
  ∧ (mine.face.value = .special ∨ theirs.face.value = .special →
      scores.scoreMatch seat mine theirs = .ok (scores, .draw)
      ∧ scores.scoreMatch seat.opponent theirs mine = .ok (scores, .draw))
  := by
  constructor
  · intro mineKiss theirsKiss wins losses
    have outcome := Outcome.ofValues_comm mineKiss theirsKiss wins losses
    rw [scoreMatch_eq_settle mineKiss theirsKiss, scoreMatch_eq_settle theirsKiss mineKiss,
      outcome, settle_flip]
    cases scores.settle seat mine.face.suit theirs.face.suit
      (Outcome.ofValues mine.face.value theirs.face.value) <;> rfl
  constructor
  · intro kiss standard
    use scoreMatch_kiss_comm kiss standard scores seat
    intro scores' outcome h
    rw [scoreMatch_kiss kiss standard] at h
    obtain ⟨_, -, same⟩ := Checked.map_eq_ok_iff.mp h
    apply (Prod.mk.inj same).2.symm
  · intro special
    constructor
    · apply scoreMatch_special special
    · apply scoreMatch_special special.symm

/-- A seven against a three, a kiss against a seven, and a kiss against a special card. -/
theorem scoreMatch_from_either_seat_cases :
  (ofSuits ["Boyfriend", "Ex"]).scoreMatch .second
      (.standard "Ex" (.number 3)) (.standard "Boyfriend" (.number 7))
    = .ok (⟨[⟨"Boyfriend", ⟨10, 0⟩⟩, ⟨"Ex", ⟨10, -10⟩⟩]⟩, .loss)
  ∧ (ofSuits ["Boyfriend", "Ex"]).scoreMatch .second
      (.standard "Boyfriend" (.number 7)) (.standard "Ex" .kiss)
    = .ok (⟨[⟨"Boyfriend", ⟨10, 10⟩⟩, ⟨"Ex", ⟨10, 10⟩⟩]⟩, .win)
  ∧ (ofSuits ["Boyfriend", "Ex"]).scoreMatch .second
      (.standard "" .special) (.standard "Ex" .kiss)
    = .ok (ofSuits ["Boyfriend", "Ex"], .draw)
  := by
  constructor
  · apply ((scoreMatch_from_either_seat (ofSuits ["Boyfriend", "Ex"]) .first
      (.standard "Boyfriend" (.number 7)) (.standard "Ex" (.number 3))).1
      (by decide) (by decide) (by decide) (by decide)).trans
    rfl
  constructor
  · apply ((scoreMatch_from_either_seat (ofSuits ["Boyfriend", "Ex"]) .first
      (.standard "Ex" .kiss) (.standard "Boyfriend" (.number 7))).2.1
      (by decide) (by decide)).1.trans
    rfl
  · apply ((scoreMatch_from_either_seat (ofSuits ["Boyfriend", "Ex"]) .first
      (.standard "Ex" .kiss) (.standard "" .special)).2.2 (by decide)).2

/-- Two cards that both show a win, and likewise two that both show a loss, are won by the
card that is named first, and a kiss against a special card wins for neither. -/
theorem scoreMatch_order_matters :
  (ofSuits ["Boyfriend", "Ex"]).scoreMatch .first
      (.standard "Boyfriend" .win) (.standard "Ex" .win)
    = .ok (⟨[⟨"Boyfriend", ⟨10, 0⟩⟩, ⟨"Ex", ⟨10, -10⟩⟩]⟩, .win)
  ∧ (ofSuits ["Boyfriend", "Ex"]).scoreMatch .second
      (.standard "Ex" .win) (.standard "Boyfriend" .win)
    = .ok (⟨[⟨"Boyfriend", ⟨-10, 10⟩⟩, ⟨"Ex", ⟨0, 10⟩⟩]⟩, .win)
  ∧ (ofSuits ["Boyfriend", "Ex"]).scoreMatch .first
      (.standard "Boyfriend" .lose) (.standard "Ex" .lose)
    = .ok (⟨[⟨"Boyfriend", ⟨10, 0⟩⟩, ⟨"Ex", ⟨10, -10⟩⟩]⟩, .win)
  ∧ (ofSuits ["Boyfriend", "Ex"]).scoreMatch .second
      (.standard "Ex" .lose) (.standard "Boyfriend" .lose)
    = .ok (⟨[⟨"Boyfriend", ⟨-10, 10⟩⟩, ⟨"Ex", ⟨0, 10⟩⟩]⟩, .win)
  ∧ (ofSuits ["Boyfriend", "Ex"]).scoreMatch .first
      (.standard "Ex" .kiss) (.standard "" .special)
    = .ok (ofSuits ["Boyfriend", "Ex"], .draw)
  := ⟨rfl, rfl, rfl, rfl, rfl⟩

end Scoreboard

end CardDuel
