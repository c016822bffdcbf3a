import CardDuel.Proofs.Aims
import CardDuel.Proofs.Casting.Change
import CardDuel.Proofs.Casting.Overflow
import CardDuel.Proofs.Casting.Sequence

/-!
# Special cards in any order

A kiss, and a buff that adds a number, keep the suit of every card.  So if an application sets
no bounds, it reaches the same slots before and after such special cards, and what they make of
one card does not depend on their order: `Arena.castEach_perm`.
-/

namespace CardDuel

/-! ### Gentle effects -/

namespace Effect

/-- The effect makes a kiss of a card or adds a number to it. -/
def IsGentle (effect : Effect) : Prop :=
  effect.kind = .kiss ∨ ∃ delta, effect = .adding delta

/-- The face that a gentle effect makes of a face; a sum may have any size. -/
def nudge (effect : Effect) (face : Face) : Face :=
  match effect.kind, effect.payload, face.value with
  | .kiss, _, _ => { face with value := .kiss }
  | .buff, .value (.number delta), .number n => { face with value := .number (n + delta) }
  | _, _, _ => face

theorem nudge_of_kiss {effect : Effect} (kiss : effect.kind = .kiss) (face : Face) :
  effect.nudge face = { face with value := .kiss }
  := by simp [nudge, kiss]

theorem nudge_adding (delta : Int) (face : Face) :
  (adding delta).nudge face
    = match face.value with
      | .number n => { face with value := .number (n + delta) }
      | _ => face
  := by
  unfold nudge adding
  split <;> simp_all

theorem nudge_kiss {effect : Effect} (gentle : effect.IsGentle) (suit : String) :
  effect.nudge ⟨suit, .kiss⟩ = ⟨suit, .kiss⟩
  := by
  rcases gentle with kiss | ⟨delta, rfl⟩
  · apply nudge_of_kiss kiss
  · rfl

theorem suit_nudge {effect : Effect} (gentle : effect.IsGentle) (face : Face) :
  (effect.nudge face).suit = face.suit
  := by
  rcases gentle with kiss | ⟨delta, rfl⟩
  · rw [nudge_of_kiss kiss]
  · rw [nudge_adding]
    split <;> rfl

/-- Two gentle effects make the same of a face in either order. -/
theorem nudge_comm {a b : Effect} (gentle : a.IsGentle) (gentle' : b.IsGentle) (face : Face) :
  b.nudge (a.nudge face) = a.nudge (b.nudge face)
  := by
  rcases gentle with kiss | ⟨delta, rfl⟩
  · rw [nudge_of_kiss kiss, nudge_of_kiss kiss, nudge_kiss gentle', suit_nudge gentle']
  · rcases gentle' with kiss | ⟨delta', rfl⟩
    · rw [nudge_of_kiss kiss, nudge_of_kiss kiss, nudge_kiss (.inr ⟨delta, rfl⟩),
        suit_nudge (.inr ⟨delta, rfl⟩)]
    · rcases face with ⟨suit, n | _ | _ | _ | _ | _⟩
      case number =>
        simp only [nudge_adding]
        rw [Int.add_right_comm]
      all_goals rfl

end Effect

namespace Card

variable {effect : Effect} {card card' : Card} {changed : Bool}

/-- A gentle effect nudges the face of a standard card. -/
theorem face_of_apply_gentle (gentle : effect.IsGentle) (standard : card.isSpecial = false)
    (h : card.apply effect = .ok (card', changed)) :
  card'.face = effect.nudge card.face
  := by
  rcases immune : card.isImmune
  · obtain ⟨answer, after, face⟩ := face_of_apply immune h
    rw [face]
    rcases gentle with kiss | ⟨delta, rfl⟩
    · simp only [faceAfter, kiss] at after
      obtain rfl := Except.ok.inj after
      rw [Effect.nudge_of_kiss kiss]
      rfl
    · rw [Effect.nudge_adding]
      rcases shown : card.face.value with n | _ | _ | _ | _ | _
      case number =>
        simp only [faceAfter, Effect.adding, shown] at after
        obtain ⟨sum, added, after⟩ := Checked.bind_eq_ok_iff.mp after
        obtain rfl := Except.ok.inj after
        obtain rfl := (Checked.add_eq_ok_iff.mp added).2
        rfl
      all_goals
        simp only [faceAfter, Effect.adding, shown] at after
        obtain rfl := Except.ok.inj after
        rfl
  · have kissed : card.face = ⟨card.face.suit, .kiss⟩ := by
      have value : card.face.value = .kiss := by simpa [isImmune, standard] using immune
      rw [← value]
    obtain rfl := (altered_apply h).immune immune
    rw [kissed, Effect.nudge_kiss gentle]

/-- What a gentle effect makes of a card, if it reaches the card. -/
structure Nudged (effect : Effect) (reached : Bool) (before after : Card) : Prop where
  special : after.special = before.special
  face : after.face = if reached && !before.isSpecial then effect.nudge before.face
    else before.face

theorem nudged_apply (gentle : effect.IsGentle) (h : card.apply effect = .ok (card', changed)) :
  card.Nudged effect true card'
  := by
  have altered := altered_apply h
  constructor
  · apply altered.special
  · rcases standard : card.isSpecial
    · apply face_of_apply_gentle gentle standard h
    · obtain rfl := altered.immune (by simp [isImmune, standard])
      rfl

theorem nudged_missed (effect : Effect) (card : Card) :
  card.Nudged effect false card
  := ⟨rfl, rfl⟩

namespace Nudged

variable {reached : Bool}

theorem isSpecial (h : card.Nudged effect reached card') :
  card'.isSpecial = card.isSpecial
  := by
  unfold Card.isSpecial
  rw [h.special]

theorem resembles (gentle : effect.IsGentle) (h : card.Nudged effect reached card') :
  card.Resembles card'
  := by
  constructor
  · rw [h.face]
    split
    · apply Effect.suit_nudge gentle
    · rfl
  · apply h.isSpecial

end Nudged

end Card

/-! ### Boards that resemble each other -/

namespace Board

/-- In each slot of the two boards lie cards that resemble each other, or no cards. -/
def Resembles (before after : Board) : Prop :=
  ∀ seat column, Option.Rel Card.Resembles (before.card? seat column) (after.card? seat column)

namespace Resembles

theorem refl (board : Board) :
  board.Resembles board
  := by
  intro seat column
  cases board.card? seat column with
  | none => exact .none
  | some card => exact .some (.refl card)

theorem trans {a b c : Board} (h : a.Resembles b) (h' : b.Resembles c) :
  a.Resembles c
  := by
  intro seat column
  have first := h seat column
  have second := h' seat column
  generalize a.card? seat column = x at first ⊢
  generalize b.card? seat column = y at first second
  generalize c.card? seat column = z at second ⊢
  cases first with
  | none => apply second
  | some first =>
    cases second with
    | some second => exact .some (first.trans second)

/-- Without bounds an application reaches the same positions of boards that resemble each
other. -/
theorem isReached {before after : Board} (h : before.Resembles after)
    {application : Application} (unbounded : application.isUnbounded = true) (caster : Seat)
    (position : Nat × Seat) :
  after.isReached application caster position = before.isReached application caster position
  := by
  apply Application.reaches_congr unbounded
  · apply h
  · apply h

end Resembles

/-- Where cards change into cards that resemble them, the board resembles itself. -/
theorem Changes.resembles {R : Nat × Seat → Card → Card → Prop} {positions : List (Nat × Seat)}
    {before after : Board} (h : Changes R positions before after)
    (resembling : ∀ position card card', R position card card' → card.Resembles card') :
  before.Resembles after
  := by
  intro seat column
  by_cases mem : (column, seat) ∈ positions
  · have related := h.here column seat mem
    generalize before.card? seat column = x at related ⊢
    generalize after.card? seat column = y at related ⊢
    cases related with
    | none => exact .none
    | some related => exact .some (resembling _ _ _ related)
  · rw [h.elsewhere column seat mem]
    apply Resembles.refl

end Board

/-! ### Gentle special cards -/

/-- The special card has a gentle effect, and no aim of it sets bounds. -/
structure Special.IsGentle (special : Special) : Prop where
  effect : special.effect.IsGentle
  unbounded : special.application.isUnbounded = true

namespace Board

/-- A gentle special card nudges the cards that it reaches on the board before it. -/
theorem nudged_changeReached {board : Board} {caster : Seat} {special : Special}
    {result : Board × Nat} (gentle : special.IsGentle)
    (h : board.changeReached caster special = .ok result) :
  Changes (fun position => Card.Nudged special.effect
      (board.isReached special.application caster position))
    board.positions board result.1
  := by
  apply Changes.foldlM_of_keeps (motive := board.Resembles) (nodup_positions board) _
    (.refl board) h
  intro position _ state state' kept step
  rw [kept.isReached gentle.unbounded] at step
  have changes : Changes (fun position => Card.Nudged special.effect
      (board.isReached special.application caster position)) [position] state.1 state'.1 := by
    split at step
    · rename_i reached
      apply Changes.changeAt _ step
      intro card card' changed _ applied
      rw [reached]
      apply Card.nudged_apply gentle.effect applied
    · rename_i missed
      obtain rfl := Except.ok.inj step
      apply Changes.same
      intro card _
      rw [eq_false_of_ne_true missed]
      apply Card.nudged_missed
  refine ⟨kept.trans (changes.resembles ?_), changes⟩
  intro position card card' nudged
  apply nudged.resembles gentle.effect

/-- The face that special cards make of another at a position, if all of them are judged by the
same board. -/
def nudged (board : Board) (position : Nat × Seat) (specials : List (Seat × Special))
    (face : Face) : Face :=
  specials.foldl (fun face entry =>
    if board.isReached entry.2.application entry.1 position then entry.2.effect.nudge face
    else face) face

/-- What gentle special cards make of a face does not depend on their order. -/
theorem nudged_perm {specials specials' : List (Seat × Special)}
    (same : specials.Perm specials') (gentle : ∀ entry ∈ specials, entry.2.IsGentle)
    (board : Board) (position : Nat × Seat) (face : Face) :
  board.nudged position specials face = board.nudged position specials' face
  := by
  apply same.foldl_eq'
  intro first mem second mem' face
  split
  · split
    · apply Effect.nudge_comm (gentle _ mem).effect (gentle _ mem').effect
    · rfl
  · rfl

/-- Boards that resemble each other judge special cards without bounds in the same way. -/
theorem Resembles.nudged {before after : Board} (h : before.Resembles after)
    {specials : List (Seat × Special)} (gentle : ∀ entry ∈ specials, entry.2.IsGentle)
    (position : Nat × Seat) (face : Face) :
  after.nudged position specials face = before.nudged position specials face
  := by
  apply List.foldl_ext
  intro face entry mem
  rw [h.isReached (gentle entry mem).unbounded]

end Board

namespace Arena

/-- Carry out special cards one after another, each for its caster; the first unsupported one
ends this. -/
def castEach (arena : Arena) : List (Seat × Special) → Except Fault (Except GameError Arena)
  | [] => .ok (.ok arena)
  | (caster, special) :: rest => do
    match ← arena.cast caster special with
    | .error error => pure (.error error)
    | .ok (arena, _) => castEach arena rest

theorem onlyOverflows_castEach (arena : Arena) (specials : List (Seat × Special)) :
  Checked.OnlyOverflows (arena.castEach specials)
  := by
  induction specials generalizing arena with
  | nil => apply Checked.OnlyOverflows.ok
  | cons entry rest ih =>
    apply (onlyOverflows_cast ..).bind
    rintro (error | ⟨next, touched⟩)
    · apply Checked.OnlyOverflows.ok
    · apply ih

/-- A gentle special card holds no slot and nudges the cards that it reaches. -/
theorem nudged_cast {arena arena' : Arena} {caster : Seat} {special : Special} {touched : Nat}
    (gentle : special.IsGentle) (cast : arena.cast caster special = .ok (.ok (arena', touched))) :
  arena.board.Altered (fun _ => False) arena'.board
    ∧ Board.Changes (fun position => Card.Nudged special.effect
        (arena.board.isReached special.application caster position))
      arena.board.positions arena.board arena'.board
  := by
  have acts : special.effect.kind = .kiss ∨ special.effect.kind = .buff := by
    apply gentle.effect.imp_right
    rintro ⟨delta, adding⟩
    rw [adding]
    rfl
  constructor
  · apply (altered_cast cast).mono
    rintro position ⟨waits, -⟩
    rw [waits] at acts
    simp at acts
  · have changed : ∃ result, arena.board.changeReached caster special = .ok result
        ∧ arena' = { arena with board := result.1 } := by
      rcases acts with kind | kind <;>
      · simp only [Arena.cast, kind] at cast
        obtain ⟨result, ok, same, -⟩ := onBoard_of_map_eq_ok cast
        exact ⟨result, ok, same⟩
    obtain ⟨result, ok, rfl⟩ := changed
    apply Board.nudged_changeReached gentle ok

/-- Gentle special cards are all carried out.  They hold no slot, and each standard card shows
afterwards the face that those of them make that reach it at the beginning. -/
theorem nudged_castEach {arena : Arena} {specials : List (Seat × Special)}
    {answer : Except GameError Arena} (gentle : ∀ entry ∈ specials, entry.2.IsGentle)
    (h : arena.castEach specials = .ok answer) :
  ∃ arena', answer = .ok arena' ∧ arena.board.Altered (fun _ => False) arena'.board
    ∧ ∀ seat column card, arena.board.card? seat column = some card → card.isSpecial = false →
      (arena'.board.card? seat column).map (·.face)
        = some (arena.board.nudged (column, seat) specials card.face)
  := by
  induction specials generalizing arena with
  | nil =>
    obtain rfl := Except.ok.inj h
    refine ⟨arena, rfl, .refl arena.board, ?_⟩
    intro seat column card cardAt _
    rw [cardAt]
    rfl
  | cons entry rest ih =>
    obtain ⟨caster, special⟩ := entry
    obtain ⟨first, others⟩ : special.IsGentle ∧ ∀ entry ∈ rest, entry.2.IsGentle :=
      List.forall_mem_cons.mp gentle
    obtain ⟨outcome, cast, h⟩ := Checked.bind_eq_ok_iff.mp h
    rcases outcome with error | ⟨next, touched⟩
    · -- no gentle special card is unsupported
      have kind := (cast_eq_error_iff.mp cast).1
      rcases first.effect with kiss | ⟨delta, adding⟩
      · simp [kiss] at kind
      · simp [adding, Effect.adding] at kind
    · obtain ⟨altered, changes⟩ := nudged_cast first cast
      obtain ⟨arena', rfl, altered', faces⟩ := ih others h
      refine ⟨arena', rfl, altered.trans altered', ?_⟩
      intro seat column card cardAt standard
      obtain ⟨card', cardAt', nudged⟩ := changes.exists_card? cardAt
      have same : arena.board.Resembles next.board :=
        changes.resembles fun _ _ _ nudged => nudged.resembles first.effect
      rw [faces seat column card' cardAt' (nudged.isSpecial.trans standard),
        same.nudged others, nudged.face, standard]
      simp [Board.nudged]

/-- The faces that gentle special cards leave on a board do not depend on their order. -/
theorem face_castEach_eq {arena left right : Arena} {specials specials' : List (Seat × Special)}
    (same : specials.Perm specials') (gentle : ∀ entry ∈ specials, entry.2.IsGentle)
    (h : arena.castEach specials = .ok (.ok left))
    (h' : arena.castEach specials' = .ok (.ok right)) (seat : Seat) (column : Nat) :
  (left.board.card? seat column).map (·.face) = (right.board.card? seat column).map (·.face)
  := by
  have gentle' : ∀ entry ∈ specials', entry.2.IsGentle := by
    intro entry mem
    apply gentle entry (same.mem_iff.mpr mem)
  obtain ⟨_, ⟨⟩, altered, faces⟩ := nudged_castEach gentle h
  obtain ⟨_, ⟨⟩, altered', faces'⟩ := nudged_castEach gentle' h'
  rcases cardAt : arena.board.card? seat column with _ | card
  · rw [altered.card?_eq_none_iff.mpr cardAt, altered'.card?_eq_none_iff.mpr cardAt]
  · rcases standard : card.isSpecial
    · rw [faces seat column card cardAt standard, faces' seat column card cardAt standard,
        Board.nudged_perm same gentle]
    · have immune : card.isImmune = true := by simp [Card.isImmune, standard]
      obtain ⟨_, cardAt', change⟩ := altered.exists_card? cardAt
      obtain ⟨_, cardAt'', change'⟩ := altered'.exists_card? cardAt
      rw [cardAt', cardAt'', change.immune immune, change'.immune immune]

/-- If special cards without bounds make kisses or add numbers, then in whatever order they are
carried out, every card shows the same face in the end and no hold has changed, unless a number
overflows on the way. -/
theorem castEach_perm {specials specials' : List (Seat × Special)} (arena : Arena)
    (same : specials.Perm specials') (gentle : ∀ entry ∈ specials, entry.2.IsGentle)
    (noOverflow : ∀ fault, fault.IsOverflow → arena.castEach specials ≠ .error fault)
    (noOverflow' : ∀ fault, fault.IsOverflow → arena.castEach specials' ≠ .error fault) :
  ∃ left right, arena.castEach specials = .ok (.ok left)
  ∧ arena.castEach specials' = .ok (.ok right)
  ∧ (∀ seat column, (left.board.card? seat column).map (·.face)
    = (right.board.card? seat column).map (·.face))
  ∧ ∀ seat column, left.board.holdAt seat column = arena.board.holdAt seat column
    ∧ right.board.holdAt seat column = arena.board.holdAt seat column
  := by
  have gentle' : ∀ entry ∈ specials', entry.2.IsGentle := by
    intro entry mem
    apply gentle entry (same.mem_iff.mpr mem)
  obtain ⟨answer, h⟩ := (onlyOverflows_castEach arena specials).exists_ok noOverflow
  obtain ⟨answer', h'⟩ := (onlyOverflows_castEach arena specials').exists_ok noOverflow'
  obtain ⟨left, rfl, altered, -⟩ := nudged_castEach gentle h
  obtain ⟨right, rfl, altered', -⟩ := nudged_castEach gentle' h'
  refine ⟨left, right, h, h', face_castEach_eq same gentle h h', ?_⟩
  intro seat column
  constructor
  · apply (altered.holdAt seat column).resolve_right
    rintro ⟨⟨⟩, -⟩
  · apply (altered'.holdAt seat column).resolve_right
    rintro ⟨⟨⟩, -⟩

/-- The first player has a five in a carried slot and a four, and the second faces the five with
a three. -/
def sunnyArena : Arena where
  board := ⟨[
    ⟨{ card := some (.standard "Boyfriend" (.number 5)), hold := .carried },
      { card := some (.standard "Ex" (.number 3)) }⟩,
    ⟨{ card := some (.standard "Girlfriend" (.number 4)) }, {}⟩]⟩
  hands := Pair.both {}

/-- The second player kisses what faces an Ex, and both add numbers to the cards of the first. -/
def sunnySpecials : List (Seat × Special) :=
  [(.second, ⟨"Rose", "", .nothing,
      .test ⟨{}, some (.test (.ofScope { suits := some ["Ex"] }))⟩, ⟨.kiss, .none⟩⟩),
    (.first, ⟨"Ring", "", .nothing, .test (.ofScope { alignment := .friendly }), .adding 2⟩),
    (.second, ⟨"Rumor", "", .nothing, .test (.ofScope { alignment := .enemy }), .adding (-3)⟩)]

theorem castEach_sunnySpecials :
  ∃ left right, sunnyArena.castEach sunnySpecials = .ok (.ok left)
    ∧ sunnyArena.castEach sunnySpecials.reverse = .ok (.ok right)
    ∧ (left.board.card? .first 0).map (·.face) = some ⟨"Boyfriend", .kiss⟩
    ∧ (right.board.card? .first 0).map (·.applied) = some [.buff, .buff, .kiss]
    ∧ (left.board.card? .first 1).map (·.face) = some ⟨"Girlfriend", .number 3⟩
    ∧ ∀ seat column, (left.board.card? seat column).map (·.face)
      = (right.board.card? seat column).map (·.face)
  := by
  have gentle : ∀ entry ∈ sunnySpecials, entry.2.IsGentle := by
    simp only [sunnySpecials, List.forall_mem_cons]
    refine ⟨⟨.inl rfl, rfl⟩, ⟨.inr ⟨_, rfl⟩, rfl⟩, ⟨.inr ⟨_, rfl⟩, rfl⟩, nofun⟩
  have forward : sunnyArena.castEach sunnySpecials = .ok (.ok _) := rfl
  have backward : sunnyArena.castEach sunnySpecials.reverse = .ok (.ok _) := rfl
  obtain ⟨left, right, same, same', faces, -⟩ :=
    castEach_perm sunnyArena (List.reverse_perm sunnySpecials).symm gentle (by simp [forward])
      (by simp [backward])
  obtain rfl := Except.ok.inj (Except.ok.inj (forward.symm.trans same))
  obtain rfl := Except.ok.inj (Except.ok.inj (backward.symm.trans same'))
  exact ⟨_, _, forward, backward, rfl, rfl, rfl, faces⟩

end Arena

end CardDuel
