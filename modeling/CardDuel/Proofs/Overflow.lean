import CardDuel.Card
import Mathlib.Tactic.Common

/-!
# Faults that are overflows

Cards, rounds and plays are computed with checked arithmetic, and nothing else in them fails:
`Checked.OnlyOverflows` says so of one computation, and passes from steps to chains of them.
`Card.Overflows` says which effects fail on which faces.
-/

namespace CardDuel

/-- Whether a fault is a result that left its range. -/
def Fault.IsOverflow : Fault → Prop
  | addition | subtraction | multiplication => True
  | noSuchSeat | noSlots => False

namespace Checked

variable {α β : Type}

/-- A computation that fails at most because a result leaves its range. -/
structure OnlyOverflows (x : Except Fault α) : Prop where
  isOverflow : ∀ fault, x = .error fault → fault.IsOverflow

namespace OnlyOverflows

variable {x : Except Fault α}

theorem ok (a : α) :
  OnlyOverflows (.ok a)
  := by
  constructor
  intro fault wrong
  contradiction

theorem error {fault : Fault} (h : fault.IsOverflow) :
  OnlyOverflows (.error fault : Except Fault α)
  := by
  constructor
  intro fault' failed
  obtain rfl := Except.error.inj failed
  apply h

theorem guard {bits : Nat} {fault : Fault} (h : fault.IsOverflow) (n : Int) :
  OnlyOverflows (guard bits fault n)
  := by
  rw [Checked.guard]
  split
  · apply ok
  · apply error h

theorem add (a b : Int) :
  OnlyOverflows (add a b)
  := by
  apply guard
  trivial

theorem sub (a b : Int) :
  OnlyOverflows (sub a b)
  := by
  apply guard
  trivial

theorem bind {f : α → Except Fault β} (h : OnlyOverflows x) (step : ∀ a, OnlyOverflows (f a)) :
  OnlyOverflows (x >>= f)
  := by
  cases x with
  | error fault => apply error (h.isOverflow fault rfl)
  | ok a => apply step

theorem map (h : OnlyOverflows x) (f : α → β) :
  OnlyOverflows (x.map f)
  := by
  cases x with
  | error fault => apply error (h.isOverflow fault rfl)
  | ok a => apply ok

theorem foldlM {f : β → α → Except Fault β} {as : List α}
    (step : ∀ a ∈ as, ∀ b, OnlyOverflows (f b a)) (b : β) :
  OnlyOverflows (as.foldlM f b)
  := by
  induction as generalizing b with
  | nil => apply ok
  | cons a rest ih =>
    rw [List.foldlM_cons]
    apply bind (step a List.mem_cons_self b)
    intro b'
    apply ih
    intro a' later
    apply step a' (List.mem_cons_of_mem a later)

theorem mapM {f : α → Except Fault β} {as : List α} (step : ∀ a ∈ as, OnlyOverflows (f a)) :
  OnlyOverflows (as.mapM f)
  := by
  induction as with
  | nil => apply ok
  | cons a rest ih =>
    rw [List.mapM_cons]
    apply bind (step a List.mem_cons_self)
    intro b
    apply bind
    · apply ih
      intro a' later
      apply step a' (List.mem_cons_of_mem a later)
    · intro bs
      apply ok

theorem sum (ns : List Int) :
  OnlyOverflows (sum ns)
  := by
  apply foldlM
  intro n _ total
  apply add

/-- A computation that fails at most by an overflow, and not by an overflow, has a result. -/
theorem exists_ok (h : OnlyOverflows x)
    (noOverflow : ∀ fault, fault.IsOverflow → x ≠ .error fault) :
  ∃ a, x = .ok a
  := by
  cases x with
  | error fault => exact absurd rfl (noOverflow fault (h.isOverflow fault rfl))
  | ok a => exact ⟨a, rfl⟩

end OnlyOverflows

/-- A chain of computations that fails does so in a step after steps that succeed. -/
theorem exists_of_foldlM_eq_error {f : β → α → Except Fault β} {as : List α} {b : β}
    {fault : Fault} (h : as.foldlM f b = .error fault) :
  ∃ before a after b', as = before ++ a :: after ∧ before.foldlM f b = .ok b'
    ∧ f b' a = .error fault
  := by
  induction as generalizing b with
  | nil => cases h
  | cons a rest ih =>
    rw [List.foldlM_cons] at h
    rcases first : f b a with fault' | next
    · rw [first] at h
      obtain rfl := Except.error.inj h
      exact ⟨[], a, rest, b, rfl, rfl, first⟩
    · rw [first, ok_bind] at h
      obtain ⟨before, a', after, b', rfl, reached, failed⟩ := ih h
      refine ⟨a :: before, a', after, b', rfl, ?_, failed⟩
      rw [List.foldlM_cons, first, ok_bind, reached]

end Checked

open Checked (OnlyOverflows)

/-! ### Cards -/

namespace Card

theorem onlyOverflows_faceAfter (effect : Effect) (face : Face) :
  OnlyOverflows (faceAfter effect face)
  := by
  rw [faceAfter]
  split
  case h_3 =>
    cases face.value with
    | number n => apply (OnlyOverflows.add n _).bind fun _ => .ok _
    | _ => apply OnlyOverflows.ok
  case h_4 => cases face.value <;> apply OnlyOverflows.ok
  case h_6 =>
    cases face.value with
    | number n => apply (OnlyOverflows.sub 11 n).bind fun _ => .ok _
    | _ => apply OnlyOverflows.ok
  all_goals apply OnlyOverflows.ok

/-- Whether an effect takes the number of a face out of its range: by adding to it, or by
reflecting it. -/
def Overflows (effect : Effect) (face : Face) : Prop :=
  ∃ n, face.value = .number n
    ∧ ((∃ delta, effect = .adding delta ∧ ¬ Checked.InRange 32 (n + delta))
      ∨ effect.kind = .reverse ∧ ¬ Checked.InRange 32 (11 - n))

/-- An effect fails to make something of a face only if it takes a number out of its range. -/
theorem overflows_of_faceAfter {effect : Effect} {face : Face} {fault : Fault}
    (h : faceAfter effect face = .error fault) :
  Overflows effect face
  := by
  obtain ⟨kind, payload⟩ := effect
  rw [faceAfter] at h
  split at h
  case h_3 delta isBuff adds =>
    obtain rfl : kind = .buff := isBuff
    obtain rfl : payload = .value (.number delta) := adds
    rcases shown : face.value with n | _ | _ | _ | _ | _
    case number =>
      rw [shown] at h
      refine ⟨n, shown, .inl ⟨delta, rfl, ?_⟩⟩
      intro fits
      simp [Checked.add, Checked.guard_of_inRange fits, pure, Except.pure] at h
    all_goals simp [shown] at h
  case h_4 => cases shown : face.value <;> simp [shown] at h
  case h_6 reflects =>
    rcases shown : face.value with n | _ | _ | _ | _ | _
    case number =>
      rw [shown] at h
      refine ⟨n, shown, .inr ⟨reflects, ?_⟩⟩
      intro fits
      simp [Checked.sub, Checked.guard_of_inRange fits, pure, Except.pure] at h
    all_goals simp [shown] at h
  all_goals cases h

theorem onlyOverflows_apply (effect : Effect) (card : Card) :
  OnlyOverflows (card.apply effect)
  := by
  rw [apply]
  split
  · apply OnlyOverflows.ok
  · apply (onlyOverflows_faceAfter effect card.face).bind
    intro answer
    split
    · split <;> apply OnlyOverflows.ok
    · apply OnlyOverflows.ok

theorem overflows_of_apply {effect : Effect} {card : Card} {fault : Fault}
    (h : card.apply effect = .error fault) :
  card.isImmune = false ∧ Overflows effect card.face
  := by
  rw [apply] at h
  split at h
  · cases h
  · rename_i mutable
    refine ⟨by simpa using mutable, ?_⟩
    rcases after : faceAfter effect card.face with fault' | answer
    · apply overflows_of_faceAfter after
    · rw [after, Checked.ok_bind] at h
      split at h
      · split at h <;> cases h
      · cases h

end Card

end CardDuel
