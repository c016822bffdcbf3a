import CardDuel.Card
import Mathlib.Tactic.Common

/-!
# Cards under effects

`Card.apply_cases` says all that an effect can do to a card.  `Card.Altered` is what remains
of that over any number of effects: the card keeps the face it was printed with and its
definition as a special card (`Card.identity`), and an immune card stays as it is.  So a special
card always shows its mark (`Card.IsMarked`), and a buff that adds a number changes exactly the
numbers.
-/

namespace CardDuel.Card

/-- An effect leaves a card as it is, or it gives another face to a card that is not immune
and notes its kind. -/
theorem apply_cases {effect : Effect} {card card' : Card} {changed : Bool}
    (h : card.apply effect = .ok (card', changed)) :
  card' = card ∧ changed = false
    ∨ ∃ face, card.isImmune = false ∧ faceAfter effect card.face = .ok (some face)
      ∧ face ≠ card.face ∧ changed = true
      ∧ card' = { card with face, applied := card.applied ++ [effect.kind] }
  := by
  rw [apply] at h
  split at h
  · left
    simpa [eq_comm] using h
  · rename_i mutable
    obtain ⟨answer, after, h⟩ := Checked.bind_eq_ok_iff.mp h
    split at h
    · rename_i face
      split at h
      · left
        simpa [pure, Except.pure, eq_comm] using h
      · rename_i other
        right
        obtain ⟨rfl, rfl⟩ := Prod.mk.inj (Except.ok.inj h)
        exact ⟨face, by simpa using mutable, after, other, rfl, rfl⟩
    · left
      simpa [pure, Except.pure, eq_comm] using h

/-- A card is related only to a card. -/
theorem exists_of_rel_some {R : Card → Card → Prop} {card : Card} {card? : Option Card}
    (h : Option.Rel R (some card) card?) :
  ∃ card', card? = some card' ∧ R card card'
  := by
  cases h with
  | some related => exact ⟨_, rfl, related⟩

/-- What effects leave of a card. -/
structure Altered (before after : Card) : Prop where
  printed : after.printed = before.printed
  special : after.special = before.special
  immune : before.isImmune = true → after = before

namespace Altered

theorem refl (card : Card) :
  card.Altered card
  := ⟨rfl, rfl, fun _ => rfl⟩

theorem rel_refl (card : Option Card) :
  Option.Rel Card.Altered card card
  := by
  cases card with
  | none => apply Option.Rel.none
  | some card => apply Option.Rel.some (refl card)

theorem trans {a b c : Card} (h : a.Altered b) (h' : b.Altered c) :
  a.Altered c
  where
  printed := h'.printed.trans h.printed
  special := h'.special.trans h.special
  immune immune := by
    obtain rfl := h.immune immune
    apply h'.immune immune

theorem isSpecial {before after : Card} (h : before.Altered after) :
  after.isSpecial = before.isSpecial
  := by
  unfold Card.isSpecial
  rw [h.special]

theorem reset {before after : Card} (h : before.Altered after) :
  after.reset = before.reset
  := by
  obtain ⟨printed, face, applied, special⟩ := before
  obtain ⟨printed', face', applied', special'⟩ := after
  obtain ⟨rfl, rfl, -⟩ := h
  rfl

end Altered

/-- What no effect changes about a card: the face that it was printed with and its definition
as a special card. -/
def identity (card : Card) : Face × Option Special := (card.printed, card.special)

theorem Altered.identity {before after : Card} (h : before.Altered after) :
  after.identity = before.identity
  := by
  unfold Card.identity
  rw [h.printed, h.special]

theorem altered_apply {effect : Effect} {card card' : Card} {changed : Bool}
    (h : card.apply effect = .ok (card', changed)) :
  card.Altered card'
  := by
  obtain ⟨rfl, -⟩ | ⟨face, mutable, -, -, -, rfl⟩ := apply_cases h
  · apply Altered.refl
  · exact ⟨rfl, rfl, fun immune => by simp [mutable] at immune⟩

/-! ### Marked cards -/

/-- A special card was printed with the mark of special cards and shows it. -/
def IsMarked (card : Card) : Prop :=
  card.isSpecial = true → card.printed.value = .special ∧ card.face.value = .special

instance (card : Card) : Decidable card.IsMarked :=
  inferInstanceAs (Decidable (_ → _))

theorem isMarked_standard (suit : String) (value : Value) :
  (standard suit value).IsMarked
  := nofun

theorem isMarked_ofSpecial (special : Special) :
  (ofSpecial special).IsMarked
  := fun _ => ⟨rfl, rfl⟩

namespace IsMarked

variable {card card' : Card}

theorem reset (h : card.IsMarked) :
  card.reset.IsMarked
  := fun special => ⟨(h special).1, (h special).1⟩

/-- Effects do not change the mark of a special card. -/
theorem altered (h : card.IsMarked) (altered : card.Altered card') :
  card'.IsMarked
  := by
  intro special
  rw [altered.isSpecial] at special
  obtain rfl := altered.immune (by simp [isImmune, special])
  apply h special

/-- An immune card shows no number. -/
theorem number?_of_isImmune (h : card.IsMarked) (immune : card.isImmune = true) :
  card.number? = none
  := by
  rw [isImmune, Bool.or_eq_true] at immune
  unfold number?
  rcases immune with special | kiss
  · rw [(h special).2]
    rfl
  · rw [eq_of_beq kiss]
    rfl

end IsMarked

/-- A card that is not immune shows afterwards the face that the effect makes of its own, if
the effect bears on it. -/
theorem face_of_apply {effect : Effect} {card card' : Card} {changed : Bool}
    (mutable : card.isImmune = false) (h : card.apply effect = .ok (card', changed)) :
  ∃ answer, faceAfter effect card.face = .ok answer ∧ card'.face = answer.getD card.face
  := by
  rw [apply, if_neg (by simp [mutable])] at h
  obtain ⟨answer, after, h⟩ := Checked.bind_eq_ok_iff.mp h
  refine ⟨answer, after, ?_⟩
  cases answer with
  | none =>
    obtain ⟨rfl, -⟩ := Prod.mk.inj (Except.ok.inj h)
    rfl
  | some face =>
    dsimp only at h
    split at h
    · rename_i same
      obtain ⟨rfl, -⟩ := Prod.mk.inj (Except.ok.inj h)
      apply same.symm
    · obtain ⟨rfl, -⟩ := Prod.mk.inj (Except.ok.inj h)
      rfl

/-- A buff adds its number to the number of a card, if the card shows one. -/
theorem number?_of_apply_adding {card card' : Card} {changed : Bool} {delta : Int}
    (marked : card.IsMarked) (h : card.apply (.adding delta) = .ok (card', changed)) :
  card'.number? = card.number?.map (· + delta)
  := by
  rcases immune : card.isImmune
  · obtain ⟨answer, after, face⟩ := face_of_apply immune h
    unfold number?
    rw [face]
    rcases shown : card.face.value with n | _ | _ | _ | _ | _
    case number =>
      simp only [faceAfter, Effect.adding, shown] at after
      obtain ⟨sum, added, after⟩ := Checked.bind_eq_ok_iff.mp after
      obtain rfl := Except.ok.inj after
      obtain rfl := (Checked.add_eq_ok_iff.mp added).2
      rfl
    all_goals
      simp only [faceAfter, Effect.adding, shown] at after
      obtain rfl := Except.ok.inj after
      simp [shown, Value.number?]
  · obtain ⟨rfl, -⟩ | ⟨face, mutable, -⟩ := apply_cases h
    · rw [marked.number?_of_isImmune immune]
      rfl
    · rw [immune] at mutable
      contradiction

/-- A card that is not immune takes over whatever a clone copies to it. -/
theorem face_of_apply_copying {card card' : Card} {changed : Bool} {donor : Face}
    (mutable : card.isImmune = false)
    (applied : card.apply (.copying donor) = .ok (card', changed)) :
  card'.face = donor
  := by
  obtain ⟨answer, after, face⟩ := face_of_apply mutable applied
  obtain rfl := Except.ok.inj after
  apply face

/-! ### Numbers as donors -/

/-- A standard card that shows a number. -/
structure IsNumeric (card : Card) : Prop where
  isSpecial : card.isSpecial = false
  number : card.number?.isSome = true

instance (card : Card) : Decidable card.IsNumeric :=
  decidable_of_iff (card.isSpecial = false ∧ card.number?.isSome = true)
    ⟨fun h => ⟨h.1, h.2⟩, fun h => ⟨h.1, h.2⟩⟩

theorem IsNumeric.isImmune {card : Card} (h : card.IsNumeric) :
  card.isImmune = false
  := by
  rw [Card.isImmune, h.isSpecial, Bool.false_or, beq_eq_false_iff_ne]
  intro kiss
  have number := h.number
  rw [number?, kiss] at number
  contradiction

/-- A number takes over whatever a clone copies to it. -/
theorem IsNumeric.face_of_apply_copying {card card' : Card} {changed : Bool} {donor : Face}
    (h : card.IsNumeric) (applied : card.apply (.copying donor) = .ok (card', changed)) :
  card'.face = donor
  := Card.face_of_apply_copying h.isImmune applied

/-- An effect that makes something of every face, or bears on none, never fails on a card. -/
theorem exists_apply {effect : Effect}
    (total : ∀ face, ∃ answer, faceAfter effect face = .ok answer) (card : Card) :
  ∃ result, card.apply effect = .ok result
  := by
  rw [apply]
  split
  · exact ⟨_, rfl⟩
  · obtain ⟨answer, after⟩ := total card.face
    rw [after, Checked.ok_bind]
    cases answer with
    | none => exact ⟨_, rfl⟩
    | some face =>
      dsimp only
      split <;> exact ⟨_, rfl⟩

/-- Copying a face never fails. -/
theorem exists_apply_copying (donor : Face) (card : Card) :
  ∃ result, card.apply (.copying donor) = .ok result
  := exists_apply (fun _ => ⟨_, rfl⟩) card

/-- Taking over a value in a trade never fails. -/
theorem exists_apply_tradingFor (value : Value) (card : Card) :
  ∃ result, card.apply (.tradingFor value) = .ok result
  := exists_apply (fun _ => ⟨_, rfl⟩) card

end CardDuel.Card
