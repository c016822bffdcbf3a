import CardDuel.Proofs.Casting.Sequence

/-!
# Which slots special cards hold

A special card that makes its caster wait holds the slots that it reaches when its turn comes,
and no other special card holds any.  So after all special cards of a board have been carried
out, a slot is held for the next change of rounds exactly if it was before or one of them
waited for it: `Arena.holdAt_castAll`.
-/

namespace CardDuel.Arena

/-- One of the special cards of a list makes its caster wait for the slot at a position: when
those before it have been carried out, it reaches that position. -/
def WaitsFor (arena : Arena) (standing : List Standing) (position : Nat × Seat) : Prop :=
  ∃ before waiting after resolutions arena',
    standing = before ++ waiting :: after
    ∧ arena.Casts before resolutions arena'
    ∧ waiting.special.effect.kind = .wait
    ∧ arena'.board.isReached waiting.special.application waiting.caster position = true

variable {arena arena' : Arena} {position : Nat × Seat}

theorem not_waitsFor_nil :
  ¬ arena.WaitsFor [] position
  := by
  rintro ⟨before, waiting, after, resolutions, arena', split, -⟩
  simp at split

/-- Either the first special card makes its caster wait for a slot, or one of the others does
on the board that the first leaves. -/
theorem waitsFor_cons {first : Standing} {rest : List Standing} {touched : Nat}
    (cast : arena.cast first.caster first.special = .ok (.ok (arena', touched))) :
  arena.WaitsFor (first :: rest) position
    ↔ first.special.effect.kind = .wait
        ∧ arena.board.isReached first.special.application first.caster position = true
      ∨ arena'.WaitsFor rest position
  := by
  constructor
  · rintro ⟨before, waiting, after, resolutions, last, split, casts, waits, reached⟩
    cases casts with
    | nil =>
      obtain ⟨rfl, rfl⟩ := List.cons.inj split
      left
      exact ⟨waits, reached⟩
    | cons cast' casts' =>
      obtain ⟨rfl, rfl⟩ := List.cons.inj split
      rw [cast] at cast'
      obtain ⟨rfl, rfl⟩ := Prod.mk.inj (Except.ok.inj (Except.ok.inj cast'))
      right
      exact ⟨_, waiting, after, _, last, rfl, casts', waits, reached⟩
  · rintro (⟨waits, reached⟩ |
      ⟨before, waiting, after, resolutions, last, rfl, casts, waits, reached⟩)
    · exact ⟨[], first, rest, [], arena, rfl, .nil arena, waits, reached⟩
    · exact ⟨first :: before, waiting, after, _, last, rfl, .cons cast casts, waits, reached⟩

/-- Nothing from the first unsupported special card on makes its caster wait. -/
theorem waitsFor_append_unsupported {before after : List Standing} {culprit : Standing}
    (unsupported : culprit.IsUnsupported) :
  arena.WaitsFor (before ++ culprit :: after) position ↔ arena.WaitsFor before position
  := by
  have apart {waiting : Standing} (waits : waiting.special.effect.kind = .wait) :
      waiting ≠ culprit := by
    rintro rfl
    rw [Standing.IsUnsupported, waits] at unsupported
    contradiction
  constructor
  · rintro ⟨before', waiting, after', resolutions, last, split, casts, waits, reached⟩
    -- the culprit is neither carried out before the waiting card nor that card itself
    rcases List.append_eq_append_iff.mp split with ⟨skipped, rfl, others⟩ | ⟨kept, rfl, others⟩
    · rcases skipped with _ | ⟨first, skipped⟩
      · obtain ⟨same, -⟩ := List.cons.inj others
        exact absurd same.symm (apart waits)
      · obtain ⟨rfl, -⟩ := List.cons.inj others
        exact absurd unsupported (casts.supported culprit (by simp))
    · rcases kept with _ | ⟨first, kept⟩
      · obtain ⟨same, -⟩ := List.cons.inj others
        exact absurd same (apart waits)
      · obtain ⟨rfl, -⟩ := List.cons.inj others
        exact ⟨before', waiting, kept, resolutions, last, rfl, casts, waits, reached⟩
  · rintro ⟨before', waiting, after', resolutions, last, rfl, casts, waits, reached⟩
    exact ⟨before', waiting, after' ++ culprit :: after, resolutions, last, by simp, casts,
      waits, reached⟩

/-! ### Holds -/

variable {seat : Seat} {column : Nat}

/-- A special card holds a slot for the next change of rounds only if it makes its caster wait
for it. -/
theorem holdAt_cast {caster : Seat} {special : Special} {touched : Nat}
    (cast : arena.cast caster special = .ok (.ok (arena', touched)))
    (inside : column < arena.board.width) :
  arena'.board.holdAt seat column = .held
    ↔ arena.board.holdAt seat column = .held
      ∨ special.effect.kind = .wait
        ∧ arena.board.isReached special.application caster (column, seat) = true
  := by
  obtain ⟨slot, slotAt⟩ := Board.exists_slot?_of_lt inside seat
  rw [Board.holdAt_of_slot? slotAt]
  by_cases waits : special.effect.kind = .wait
  · simp only [Arena.cast, waits] at cast
    obtain ⟨rfl, -⟩ := Prod.mk.inj (Except.ok.inj (Except.ok.inj cast))
    have after := Board.slot?_holdReached arena.board caster special seat column
    rw [slotAt] at after
    split at after
    · rename_i reached
      rw [Board.holdAt_of_slot? after]
      simp [waits, reached]
    · rename_i missed
      rw [Board.holdAt_of_slot? after]
      simp [missed]
  · obtain ⟨slot', slotAt', altered⟩ := (altered_cast cast).slots seat column slot slotAt
    rw [Board.holdAt_of_slot? slotAt']
    rcases altered.hold with same | ⟨⟨wait, -⟩, -⟩
    · rw [same]
      simp [waits]
    · contradiction

/-- After special cards have been carried out, a slot is held for the next change of rounds
exactly if it was before or one of them waited for it. -/
theorem Casts.holdAt {standing : List Standing} {resolutions : List Resolution}
    (casts : arena.Casts standing resolutions arena') (inside : column < arena.board.width) :
  arena'.board.holdAt seat column = .held
    ↔ arena.board.holdAt seat column = .held ∨ arena.WaitsFor standing (column, seat)
  := by
  induction casts with
  | nil => simp [not_waitsFor_nil]
  | cons cast _ ih =>
    have width := (altered_cast cast).width
    rw [ih (by rwa [width]), holdAt_cast cast inside, waitsFor_cons cast, or_assoc]

theorem holdAt_castAll {answer : Except GameError (List Resolution)}
    (h : arena.castAll = .ok (arena', answer)) (inside : column < arena.board.width) :
  arena'.board.holdAt seat column = .held
    ↔ arena.board.holdAt seat column = .held
      ∨ arena.WaitsFor arena.board.standing (column, seat)
  := by
  obtain ⟨resolutions, -, casts⟩ |
    ⟨before, culprit, after, resolutions, split, unsupported, -, casts⟩ := castAll_cases h
  · apply casts.holdAt inside
  · rw [split, waitsFor_append_unsupported unsupported]
    apply casts.holdAt inside

end CardDuel.Arena
