import CardDuel.Proofs.Casting.Alteration
import CardDuel.Proofs.Reach
import Mathlib.Data.List.Forall2
import Mathlib.Tactic.Ring

/-!
# Changing cards one by one

An effect that goes along some positions of the board changes at each of them the card that
lies there, and nothing else: `Board.Changes`.  If it does not look at facing cards, it treats
every card as if it lay on the board alone, so a buff changes the total of a seat by its
number for every number that it reaches (`Board.total_changeReached`).
-/

namespace CardDuel

namespace Board

/-- Each card at some positions has become one to which `R` relates it, and no other card has
changed. -/
structure Changes (R : Nat × Seat → Card → Card → Prop) (positions : List (Nat × Seat))
    (before after : Board) : Prop where
  width : after.width = before.width
  here : ∀ column seat, (column, seat) ∈ positions →
    Option.Rel (R (column, seat)) (before.card? seat column) (after.card? seat column)
  elsewhere : ∀ column seat, (column, seat) ∉ positions →
    after.card? seat column = before.card? seat column

namespace Changes

variable {R : Nat × Seat → Card → Card → Prop} {positions : List (Nat × Seat)}
  {before after : Board}

theorem nil (R : Nat × Seat → Card → Card → Prop) (board : Board) :
  Changes R [] board board
  where
  width := rfl
  here _ _ := nofun
  elsewhere _ _ _ := rfl

theorem cons {position : Nat × Seat} {a b c : Board} (first : Changes R [position] a b)
    (others : Changes R positions b c) (apart : position ∉ positions) :
  Changes R (position :: positions) a c
  where
  width := others.width.trans first.width
  here column seat mem := by
    by_cases same : (column, seat) = position
    · rw [others.elsewhere column seat (same ▸ apart)]
      apply first.here column seat (by simp [same])
    · rw [← first.elsewhere column seat (by simp [same])]
      apply others.here column seat ((List.mem_cons.mp mem).resolve_left same)
  elsewhere column seat other := by
    rw [List.mem_cons, not_or] at other
    rw [others.elsewhere column seat other.2,
      first.elsewhere column seat (by simpa using other.1)]

/-- A fold along distinct positions, each step of which changes the card at one position,
changes the cards at all of them.  The steps may rely on what every step keeps. -/
theorem foldlM_of_keeps {motive : Board → Prop}
    {step : Board × Nat → Nat × Seat → Except Fault (Board × Nat)} (distinct : positions.Nodup)
    (each : ∀ position ∈ positions, ∀ state state', motive state.1 →
      step state position = .ok state' → motive state'.1 ∧ Changes R [position] state.1 state'.1)
    {state state' : Board × Nat} (start : motive state.1)
    (h : positions.foldlM step state = .ok state') :
  Changes R positions state.1 state'.1
  := by
  induction positions generalizing state with
  | nil =>
    obtain rfl := Except.ok.inj h
    apply nil
  | cons position rest ih =>
    obtain ⟨apart, distinct⟩ := List.nodup_cons.mp distinct
    rw [List.foldlM_cons, Checked.bind_eq_ok_iff] at h
    obtain ⟨next, first, others⟩ := h
    obtain ⟨kept, here⟩ := each position List.mem_cons_self state next start first
    apply here.cons _ apart
    apply ih distinct _ kept others
    intro position' later
    apply each position' (List.mem_cons_of_mem _ later)

theorem foldlM {step : Board × Nat → Nat × Seat → Except Fault (Board × Nat)}
    (distinct : positions.Nodup)
    (each : ∀ position ∈ positions, ∀ state state', step state position = .ok state' →
      Changes R [position] state.1 state'.1)
    {state state' : Board × Nat} (h : positions.foldlM step state = .ok state') :
  Changes R positions state.1 state'.1
  := by
  apply foldlM_of_keeps (motive := fun _ => True) distinct _ trivial h
  intro position mem state state' _ step
  exact ⟨trivial, each position mem state state' step⟩

/-- If all positions were gone through, every card has become one to which it is related. -/
theorem exists_card? (h : Changes R before.positions before after) {seat : Seat} {column : Nat}
    {card : Card} (cardAt : before.card? seat column = some card) :
  ∃ card', after.card? seat column = some card' ∧ R (column, seat) card card'
  := by
  apply Card.exists_of_rel_some
  rw [← cardAt]
  apply h.here column seat (mem_positions.mpr (lt_width_of_card? cardAt))

/-- If all positions were gone through, the cards of a seat correspond one by one. -/
theorem forall₂_occupied (h : Changes R before.positions before after) (seat : Seat) :
  List.Forall₂ (fun entry entry' => entry.1 = entry'.1 ∧ R (entry.1, seat) entry.2 entry'.2)
    (before.occupied seat) (after.occupied seat)
  := by
  unfold occupied
  rw [h.width]
  apply List.rel_filterMap (R := fun column column' => column = column' ∧ column < before.width)
  · rintro column _ ⟨rfl, inside⟩
    have related := h.here column seat (mem_positions.mpr inside)
    dsimp only
    generalize before.card? seat column = x at related ⊢
    generalize after.card? seat column = y at related ⊢
    cases related with
    | none => exact .none
    | some related => exact .some ⟨rfl, related⟩
  · apply List.forall₂_same.mpr
    intro column mem
    exact ⟨rfl, List.mem_range.mp mem⟩

end Changes

/-! ### Single positions -/

namespace Changes

variable {R : Nat × Seat → Card → Card → Prop} {position : Nat × Seat}

theorem same {board : Board}
    (kept : ∀ card, board.card? position.2 position.1 = some card → R position card card) :
  Changes R [position] board board
  where
  width := rfl
  here column seat mem := by
    obtain rfl := List.mem_singleton.mp mem
    rcases cardAt : board.card? seat column with _ | card
    · exact .none
    · exact .some (kept card cardAt)
  elsewhere _ _ _ := rfl

/-- An effect on a position changes the card there as the effect says. -/
theorem changeAt {effect : Effect} {state state' : Board × Nat}
    (effective : ∀ card card' changed, state.1.card? position.2 position.1 = some card →
      card.apply effect = .ok (card', changed) → R position card card')
    (h : Board.changeAt effect state position = .ok state') :
  Changes R [position] state.1 state'.1
  := by
  obtain ⟨empty, rfl⟩ | ⟨card, card', changed, cardAt, applied, rfl⟩ := changeAt_cases h
  · apply same
    intro card cardAt
    rw [empty] at cardAt
    contradiction
  · constructor
    · apply width_modifySlot
    · intro column seat mem
      obtain rfl := List.mem_singleton.mp mem
      rw [cardAt, card?_setCard_self cardAt]
      exact .some (effective card card' changed cardAt applied)
    · intro column seat other
      apply card?_setCard_of_ne
      rintro ⟨rfl, rfl⟩
      apply other (List.mem_singleton_self _)

end Changes

end Board

/-! ### Reaching card by card -/

/-- A special card that ignores facing cards makes one card of another on a side. -/
def Special.Touches (special : Special) (side : Side) (card card' : Card) : Prop :=
  if special.application.reaches side (some card) none then
    ∃ changed, card.apply special.effect = .ok (card', changed)
  else card' = card

namespace Board

variable {board : Board} {caster : Seat} {special : Special} {result : Board × Nat}

theorem isReached_of_ignoresFacing {application : Application}
    (ignores : application.IgnoresFacing) (board : Board) (caster : Seat)
    (position : Nat × Seat) :
  board.isReached application caster position
    = application.reaches (caster.sideFor position.2) (board.card? position.2 position.1) none
  := ignores.reaches_eq ..

/-- If facing cards are ignored, every card of the board is touched for itself. -/
theorem changes_changeReached (ignores : special.application.IgnoresFacing)
    (h : board.changeReached caster special = .ok result) :
  Changes (fun position => special.Touches (caster.sideFor position.2)) board.positions
    board result.1
  := by
  apply Changes.foldlM (nodup_positions board) _ h
  intro position _ state state' step
  rw [isReached_of_ignoresFacing ignores] at step
  split at step
  · rename_i reached
    apply Changes.changeAt _ step
    intro card card' changed cardAt applied
    rw [cardAt] at reached
    rw [Special.Touches, if_pos reached]
    exact ⟨changed, applied⟩
  · rename_i missed
    obtain rfl := Except.ok.inj step
    apply Changes.same
    intro card cardAt
    rw [cardAt] at missed
    rw [Special.Touches, if_neg missed]

theorem exists_changeAt_copying (donor : Face) (state : Board × Nat) (position : Nat × Seat) :
  ∃ state', changeAt (.copying donor) state position = .ok state'
  := by
  obtain ⟨board, touched⟩ := state
  unfold changeAt applyAt
  dsimp only
  cases board.card? position.2 position.1 with
  | none => exact ⟨_, rfl⟩
  | some card =>
    obtain ⟨⟨card', changed⟩, applied⟩ := Card.exists_apply_copying donor card
    simp only [applied, Checked.ok_bind]
    exact ⟨_, rfl⟩

/-- A clone always copies, and every card of its caster takes over what the donor shows. -/
theorem exists_copyDonor {donor : Face} (found : board.donor? caster special = some donor) :
  ∃ result, board.copyDonor caster special = .ok result
    ∧ Changes (fun _ card card' => ∃ changed, card.apply (.copying donor) = .ok (card', changed))
      ((List.range board.width).map fun column => (column, caster)) board result.1
  := by
  simp only [copyDonor, found]
  rw [← List.foldlM_map (f := fun column => (column, caster))
    (g := fun state position => changeAt (.copying donor) state position)]
  obtain ⟨result, copied⟩ := Checked.exists_foldlM_eq_ok
    (fun position _ state => exists_changeAt_copying donor state position) (board, 0)
  refine ⟨result, copied, ?_⟩
  apply Changes.foldlM _ _ copied
  · apply List.nodup_range.map
    intro column column' same
    apply congrArg Prod.fst same
  · intro position _ state state' step
    apply Changes.changeAt _ step
    intro card card' changed _ applied
    exact ⟨changed, applied⟩

end Board

/-! ### Totals -/

/-- Whether an application reaches a card that shows a number, whatever faces it. -/
def Application.reachesNumber (application : Application) (side : Side) (card : Card) : Bool :=
  application.reaches side (some card) none && card.number?.isSome

/-- The sum of the numbers that cards show. -/
def sumOfNumbers (entries : List (Nat × Card)) : Int :=
  (entries.filterMap fun entry => entry.2.number?).sum

/-- The sum of the numbers of a seat on the board. -/
def Board.total (board : Board) (seat : Seat) : Int :=
  sumOfNumbers (board.occupied seat)

variable {special : Special} {delta : Int}

theorem Special.Touches.number? {side : Side} {card card' : Card} (marked : card.IsMarked)
    (adding : special.effect = .adding delta) (h : special.Touches side card card') :
  card'.number? = if special.application.reaches side (some card) none
    then card.number?.map (· + delta) else card.number?
  := by
  rw [Touches] at h
  split at h
  · rename_i reached
    obtain ⟨changed, applied⟩ := h
    rw [adding] at applied
    rw [if_pos reached, Card.number?_of_apply_adding marked applied]
  · rename_i missed
    rw [if_neg missed, h]

/-- Touching cards with a buff adds its number once for every number that it reaches. -/
theorem sumOfNumbers_of_touches {side : Side} {entries entries' : List (Nat × Card)}
    (marked : ∀ entry ∈ entries, entry.2.IsMarked) (adding : special.effect = .adding delta)
    (h : List.Forall₂ (fun entry entry' => entry.1 = entry'.1
      ∧ special.Touches side entry.2 entry'.2) entries entries') :
  sumOfNumbers entries' = sumOfNumbers entries
    + delta * entries.countP fun entry => special.application.reachesNumber side entry.2
  := by
  unfold sumOfNumbers
  induction h with
  | nil => simp
  | @cons entry entry' entries entries' first others ih =>
    obtain ⟨here, later⟩ := List.forall_mem_cons.mp marked
    have changed := first.2.number? here adding
    have rest := ih later
    rw [List.countP_cons, Application.reachesNumber]
    rcases shown : entry.2.number? with _ | n
    · simp [shown, changed, rest]
    · by_cases reached : special.application.reaches side (some entry.2) none = true
      · simp [shown, changed, reached, rest]
        ring
      · simp [shown, changed, reached, rest]
        ring

/-- A buff that ignores facing cards changes the total of a seat by its number for every
number of the seat that it reaches. -/
theorem Board.total_changeReached {board : Board} {caster : Seat} {result : Board × Nat}
    (ignores : special.application.IgnoresFacing) (adding : special.effect = .adding delta)
    (seat : Seat) (marked : ∀ entry ∈ board.occupied seat, entry.2.IsMarked)
    (h : board.changeReached caster special = .ok result) :
  result.1.total seat = board.total seat + delta * (board.occupied seat).countP fun entry =>
    special.application.reachesNumber (caster.sideFor seat) entry.2
  := by
  apply sumOfNumbers_of_touches marked adding
  apply (changes_changeReached ignores h).forall₂_occupied seat

end CardDuel
