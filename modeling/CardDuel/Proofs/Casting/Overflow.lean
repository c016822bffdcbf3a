import CardDuel.Casting
import CardDuel.Proofs.Overflow

/-!
# Special cards fail only by overflow

Special cards are carried out with checked arithmetic on card values, so they have a result
unless one of these leaves its range.
-/

namespace CardDuel

open Checked (OnlyOverflows)

namespace Board

theorem onlyOverflows_changeAt (effect : Effect) (state : Board × Nat) (position : Nat × Seat) :
  OnlyOverflows (changeAt effect state position)
  := by
  apply OnlyOverflows.bind
  · rw [applyAt]
    split
    · apply OnlyOverflows.ok
    · apply (Card.onlyOverflows_apply effect _).bind
      intro result
      apply OnlyOverflows.ok
  · intro answer
    cases answer <;> apply OnlyOverflows.ok

theorem onlyOverflows_changeReached (board : Board) (caster : Seat) (special : Special) :
  OnlyOverflows (board.changeReached caster special)
  := by
  apply OnlyOverflows.foldlM
  intro position _ state
  split
  · apply onlyOverflows_changeAt
  · apply OnlyOverflows.ok

theorem onlyOverflows_trade (board : Board) (caster : Seat) (column : Nat) (mine theirs : Card) :
  OnlyOverflows (board.trade caster column mine theirs)
  := by
  apply (Card.onlyOverflows_apply _ mine).bind
  intro mine'
  apply (Card.onlyOverflows_apply _ theirs).bind
  intro theirs'
  apply OnlyOverflows.ok

theorem onlyOverflows_tradeReached (board : Board) (caster : Seat) (special : Special) :
  OnlyOverflows (board.tradeReached caster special)
  := by
  apply OnlyOverflows.foldlM
  intro column _ state
  dsimp only
  split
  · split
    · apply OnlyOverflows.ok
    · split
      · apply (onlyOverflows_trade ..).bind
        intro board'
        apply OnlyOverflows.ok
      · apply OnlyOverflows.ok
  · apply OnlyOverflows.ok

theorem onlyOverflows_copyDonor (board : Board) (caster : Seat) (special : Special) :
  OnlyOverflows (board.copyDonor caster special)
  := by
  rw [copyDonor]
  split
  · apply OnlyOverflows.ok
  · apply OnlyOverflows.foldlM
    intro column _ state
    apply onlyOverflows_changeAt

end Board

namespace Arena

theorem onlyOverflows_cast (arena : Arena) (caster : Seat) (special : Special) :
  OnlyOverflows (arena.cast caster special)
  := by
  rcases kind : special.effect.kind
  case buff | multiply | kiss | reverse | replace =>
    simp only [cast, kind]
    apply (Board.onlyOverflows_changeReached ..).map
  case switch =>
    simp only [cast, kind]
    apply (Board.onlyOverflows_tradeReached ..).map
  case clone =>
    simp only [cast, kind]
    apply (Board.onlyOverflows_copyDonor ..).map
  case wait | flush | randomize =>
    simp only [cast, kind]
    apply OnlyOverflows.ok

/-- A special card that works on the board alone is carried out, unless a result overflows. -/
theorem exists_onBoard {arena : Arena} {caster : Seat} {special : Special}
    {x : Except Fault (Board × Nat)}
    (works : arena.cast caster special
      = x.map fun result => .ok ({ arena with board := result.1 }, result.2))
    (noOverflow : ∀ fault, fault.IsOverflow → arena.cast caster special ≠ .error fault) :
  ∃ result, x = .ok result
    ∧ arena.cast caster special = .ok (.ok ({ arena with board := result.1 }, result.2))
  := by
  obtain ⟨answer, ok⟩ := (onlyOverflows_cast arena caster special).exists_ok noOverflow
  rw [works] at ok
  obtain ⟨result, rfl, -⟩ := Checked.map_eq_ok_iff.mp ok
  exact ⟨result, rfl, works⟩

theorem onlyOverflows_castAlong (positions : List (Nat × Seat)) (arena : Arena) :
  OnlyOverflows (castAlong positions arena)
  := by
  induction positions generalizing arena with
  | nil => apply OnlyOverflows.ok
  | cons position rest ih =>
    rw [castAlong]
    split
    · apply ih
    · apply (onlyOverflows_cast ..).bind
      rintro (error | ⟨next, touched⟩)
      · apply OnlyOverflows.ok
      · apply (ih next).bind
        intro answer
        apply OnlyOverflows.ok

end Arena

end CardDuel
