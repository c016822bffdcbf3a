import CardDuel.Proofs.Casting.Change
import CardDuel.Proofs.Casting.Counting

/-!
# Copying a donor

A clone looks for the first position that it reaches, and if a card lies there, every card of the
caster takes over its face, unless it is immune.  Only an application with an empty join reaches
empty slots, and then there may be no donor although it reaches cards further on.  Once the donor
is copied, another search that ignores facing cards ends at the donor again or at one of its
copies, so casting the clone again changes nothing: `Arena.cast_copies`.
-/

namespace CardDuel

/-! ### The first position -/

/-- The order of positions in a search: column by column, the first seat before the second. -/
def Precedes (a b : Nat × Seat) : Prop :=
  a.1 < b.1 ∨ a.1 = b.1 ∧ a.2.number < b.2.number

namespace Precedes

theorem asymm {a b : Nat × Seat} (h : Precedes a b) :
  ¬ Precedes b a
  := by
  unfold Precedes at *
  omega

theorem trichotomy (a b : Nat × Seat) :
  Precedes a b ∨ a = b ∨ Precedes b a
  := by
  obtain ⟨column, seat⟩ := a
  obtain ⟨column', seat'⟩ := b
  rcases Nat.lt_trichotomy column column' with earlier | rfl | later
  · exact .inl (.inl earlier)
  · cases seat <;> cases seat' <;> simp [Precedes, Seat.number]
  · exact .inr (.inr (.inl later))

end Precedes

namespace Board

/-- A search goes through the positions in their order. -/
theorem pairwise_positions (board : Board) :
  board.positions.Pairwise Precedes
  := by
  rw [positions, List.pairwise_flatMap]
  constructor
  · intro column _
    simp [Seat.all, Precedes, Seat.number]
  · apply List.pairwise_lt_range.imp
    intro column column' earlier position mem position' mem'
    obtain ⟨seat, -, rfl⟩ := List.mem_map.mp mem
    obtain ⟨seat', -, rfl⟩ := List.mem_map.mp mem'
    left
    apply earlier

/-- As soon as some position passes, a search finds one. -/
theorem exists_find?_positions {board : Board} {passes : Nat × Seat → Bool}
    {position : Nat × Seat} (inside : position.1 < board.width) (passed : passes position = true) :
  ∃ found, board.positions.find? passes = some found
  := by
  apply Option.isSome_iff_exists.mp
  exact List.find?_isSome.mpr ⟨position, mem_positions.mpr inside, passed⟩

/-- A search finds a position that passes if no position before it does. -/
theorem find?_positions_eq_some_iff {board : Board} {passes : Nat × Seat → Bool}
    {found : Nat × Seat} :
  board.positions.find? passes = some found
    ↔ found.1 < board.width ∧ passes found = true
      ∧ ∀ position, Precedes position found → passes position = false
  := by
  have firstIs : ∀ found, board.positions.find? passes = some found →
      ∀ position, Precedes position found → passes position = false := by
    intro found h position earlier
    obtain ⟨-, before, after, split, failed⟩ := List.find?_eq_some_iff_append.mp h
    have mem : position ∈ board.positions := by
      have inside := mem_positions.mp (List.mem_of_find?_eq_some h)
      rw [mem_positions]
      rcases earlier with left | ⟨same, -⟩ <;> omega
    have ordered := board.pairwise_positions
    rw [split] at mem ordered
    rcases List.mem_append.mp mem with mem | mem
    · simpa using failed position mem
    · rcases List.mem_cons.mp mem with rfl | mem
      · exact absurd earlier earlier.asymm
      · have later := List.rel_of_pairwise_cons (List.pairwise_append.mp ordered).2.1 mem
        exact absurd earlier later.asymm
  constructor
  · intro h
    exact ⟨mem_positions.mp (List.mem_of_find?_eq_some h), List.find?_some h, firstIs found h⟩
  · rintro ⟨inside, passed, first⟩
    obtain ⟨other, h⟩ := exists_find?_positions inside passed
    rw [h]
    rcases Precedes.trichotomy other found with earlier | same | later
    · have passed' := List.find?_some h
      rw [first other earlier] at passed'
      contradiction
    · rw [same]
    · rw [firstIs other h found later] at passed
      contradiction

variable {board after : Board} {application : Application} {caster : Seat}

/-- A card lies at the first position of the board that an application reaches. -/
structure IsDonor (board : Board) (application : Application) (caster : Seat)
    (position : Nat × Seat) (donor : Card) : Prop where
  card : board.card? position.2 position.1 = some donor
  reached : board.isReached application caster position = true
  first : ∀ earlier, Precedes earlier position →
    board.isReached application caster earlier = false

/-- The face that a clone copies is that of its donor. -/
theorem donor?_eq_some_iff {special : Special} {face : Face} :
  board.donor? caster special = some face
    ↔ ∃ position donor, board.IsDonor special.application caster position donor
      ∧ donor.face = face
  := by
  rw [donor?, Option.bind_eq_some_iff]
  constructor
  · rintro ⟨position, found, shown⟩
    obtain ⟨-, reached, first⟩ := find?_positions_eq_some_iff.mp found
    obtain ⟨donor, cardAt, same⟩ := Option.map_eq_some_iff.mp shown
    exact ⟨position, donor, ⟨cardAt, reached, first⟩, same⟩
  · rintro ⟨position, donor, found, same⟩
    refine ⟨position, ?_, ?_⟩
    · apply find?_positions_eq_some_iff.mpr
      exact ⟨lt_width_of_card? found.card, found.reached, found.first⟩
    · dsimp only
      rw [found.card, Option.map_some, same]

/-- If facing cards are ignored, it depends on the card at a position whether this is reached. -/
theorem isReached_congr (ignores : application.IgnoresFacing) {position : Nat × Seat}
    (same : after.card? position.2 position.1 = board.card? position.2 position.1) :
  after.isReached application caster position = board.isReached application caster position
  := by rw [isReached_of_ignoresFacing ignores, isReached_of_ignoresFacing ignores, same]

/-- Without empty joins there is a donor as soon as some position is reached. -/
theorem exists_isDonor (filled : application.hasEmptyJoin = false) {position : Nat × Seat}
    (reached : board.isReached application caster position = true) :
  ∃ position donor, board.IsDonor application caster position donor ∧ donor.isSpecial = false
  := by
  obtain ⟨card, cardAt, -⟩ := Application.exists_card_of_reaches filled reached
  obtain ⟨position', found⟩ := exists_find?_positions (lt_width_of_card? cardAt) reached
  obtain ⟨-, reached', first⟩ := find?_positions_eq_some_iff.mp found
  obtain ⟨donor, cardAt, standard⟩ := Application.exists_card_of_reaches filled reached'
  exact ⟨position', donor, ⟨cardAt, reached', first⟩, standard⟩

end Board

/-! ### Copies -/

namespace Card

variable {card card' : Card} {changed : Bool} {donor : Face}

/-- An effect that would bring back the face of a card does not change the card. -/
theorem apply_copying_self (card : Card) :
  card.apply (.copying card.face) = .ok (card, false)
  := by
  rw [apply]
  split
  · rfl
  · simp [faceAfter, Effect.copying, pure, Except.pure]

/-- A copy takes over nothing else when the same donor is copied again. -/
theorem apply_copying_again (applied : card.apply (.copying donor) = .ok (card', changed)) :
  card'.apply (.copying donor) = .ok (card', false)
  := by
  rcases immune : card.isImmune
  · obtain rfl := face_of_apply_copying immune applied
    apply apply_copying_self
  · obtain rfl := (altered_apply applied).immune immune
    rw [apply, if_pos immune]

end Card

/-- A column into which a donor was copied stays as it is when the same donor is copied again. -/
theorem Face.copyInto_again {donor : Face} {caster : Seat} {slots : Column} {after : Column × Nat}
    (copied : donor.copyInto caster slots = .ok after) :
  donor.copyInto caster after.1 = .ok (after.1, 0)
  := by
  obtain ⟨⟨card, n⟩, applied, rfl⟩ := Checked.map_eq_ok_iff.mp copied
  have again : (Effect.copying donor).applyTo card = .ok (card, 0) := by
    unfold Effect.applyTo at applied
    split at applied
    · obtain ⟨rfl, rfl⟩ := Prod.mk.inj (Except.ok.inj applied)
      rfl
    · obtain ⟨⟨card', changed⟩, taken, same⟩ := Checked.map_eq_ok_iff.mp applied
      obtain ⟨rfl, -⟩ := Prod.mk.inj same
      simp [Effect.applyTo, Card.apply_copying_again taken, Except.map]
  rw [copyInto, Pair.get_modify_self, again]
  cases caster <;> rfl

namespace Board

variable {board after : Board} {caster : Seat} {donor : Face}

/-- What is left of a board when a donor was copied to the cards of the caster. -/
structure Copied (caster : Seat) (donor : Face) (before after : Board) : Prop where
  width : after.width = before.width
  /-- The cards of the caster that are not immune show the donor. -/
  shown : ∀ column card, before.card? caster column = some card → card.isImmune = false →
    ∃ card', after.card? caster column = some card' ∧ card'.face = donor
      ∧ card'.identity = card.identity
  /-- Nothing else has changed, nor have cards that showed the donor before. -/
  kept : ∀ seat column,
    (∀ card, before.card? seat column = some card → seat = caster →
      card.isImmune = true ∨ card.face = donor) →
    after.card? seat column = before.card? seat column
  holdAt : ∀ seat column, after.holdAt seat column = before.holdAt seat column

theorem copied_copyDonor {special : Special} {result : Board × Nat}
    (found : board.donor? caster special = some donor)
    (h : board.copyDonor caster special = .ok result) :
  board.Copied caster donor result.1
  := by
  have altered : board.Altered (fun _ => False) result.1 := altered_copyDonor h
  obtain ⟨_, same, changes⟩ := exists_copyDonor found
  obtain rfl := Except.ok.inj (h.symm.trans same)
  constructor
  · apply altered.width
  · intro column card cardAt mutable
    have mem : (column, caster) ∈ (List.range board.width).map fun column => (column, caster) := by
      simpa using lt_width_of_card? cardAt
    have related := changes.here column caster mem
    rw [cardAt] at related
    obtain ⟨card', cardAt', changed, applied⟩ := Card.exists_of_rel_some related
    exact ⟨card', cardAt', Card.face_of_apply_copying mutable applied,
      (Card.altered_apply applied).identity⟩
  · intro seat column untouched
    by_cases mem : (column, seat) ∈ (List.range board.width).map fun column => (column, caster)
    · have related := changes.here column seat mem
      obtain ⟨_, -, position⟩ := List.mem_map.mp mem
      obtain rfl := (Prod.mk.inj position).2
      rcases cardAt : board.card? caster column with _ | card
      · apply altered.card?_eq_none_iff.mpr cardAt
      · rw [cardAt] at related
        obtain ⟨card', cardAt', changed, applied⟩ := Card.exists_of_rel_some related
        rw [cardAt']
        rcases untouched card cardAt rfl with immune | rfl
        · rw [(Card.altered_apply applied).immune immune]
        · rw [Card.apply_copying_self] at applied
          rw [(Prod.mk.inj (Except.ok.inj applied)).1]
    · apply changes.elsewhere column seat mem
  · intro seat column
    apply (altered.holdAt seat column).resolve_right
    rintro ⟨⟨⟩, -⟩

namespace Copied

/-- A position shows the donor or what it showed before. -/
theorem cases (h : board.Copied caster donor after) (seat : Seat) (column : Nat) :
  after.card? seat column = board.card? seat column
    ∨ ∃ card, after.card? seat column = some card ∧ card.face = donor
  := by
  by_cases untouched : ∀ card, board.card? seat column = some card → seat = caster →
      card.isImmune = true ∨ card.face = donor
  · left
    apply h.kept seat column untouched
  · right
    simp only [not_forall, not_or] at untouched
    obtain ⟨card, cardAt, rfl, mutable, -⟩ := untouched
    obtain ⟨card', cardAt', face, -⟩ := h.shown column card cardAt (eq_false_of_ne_true mutable)
    exact ⟨card', cardAt', face⟩

/-- If facing cards are ignored, the next search ends at the donor or at a copy of it. -/
theorem exists_isDonor {application : Application} {position : Nat × Seat} {original : Card}
    (h : board.Copied caster original.face after) (ignores : application.IgnoresFacing)
    (found : board.IsDonor application caster position original) :
  ∃ position' donor', after.IsDonor application caster position' donor'
    ∧ donor'.face = original.face
  := by
  have stays : after.card? position.2 position.1 = board.card? position.2 position.1 := by
    apply h.kept
    intro card cardAt _
    right
    rw [found.card] at cardAt
    rw [Option.some.inj cardAt]
  have reached : after.isReached application caster position = true := by
    rw [isReached_congr ignores stays]
    apply found.reached
  have inside : position.1 < after.width := by
    rw [h.width]
    apply lt_width_of_card? found.card
  obtain ⟨position', again⟩ := exists_find?_positions inside reached
  obtain ⟨-, reached', first'⟩ := find?_positions_eq_some_iff.mp again
  rcases Precedes.trichotomy position' position with earlier | rfl | later
  · -- it was not reached before, so it has become a copy
    obtain same | ⟨card, cardAt, face⟩ := h.cases position'.2 position'.1
    · have missed := found.first position' earlier
      rw [← isReached_congr ignores same, reached'] at missed
      contradiction
    · exact ⟨position', card, ⟨cardAt, reached', first'⟩, face⟩
  · exact ⟨position', original, ⟨stays.trans found.card, reached', first'⟩, rfl⟩
  · rw [first' position later] at reached
    contradiction

end Copied

/-- A rule that has nothing left to do in a column after it was carried out there has nothing left
to do on a board. -/
theorem inColumns_again {rule : Column → Except Fault (Column × Nat)} {result : Board × Nat}
    (again : ∀ slots after, rule slots = .ok after → rule after.1 = .ok (after.1, 0))
    (h : board.inColumns rule = .ok result) :
  result.1.inColumns rule = .ok (result.1, 0)
  := by
  obtain ⟨results, each, rfl⟩ := forall₂_of_inColumns h
  have mapped : (results.map (·.1)).mapM rule
      = .ok ((results.map (·.1)).map fun slots => (slots, 0)) := by
    clear h
    generalize board.columns = columns at each
    induction each with
    | nil => rfl
    | cons here _ ih =>
      rw [List.map_cons, List.mapM_cons, again _ _ here, Checked.ok_bind, ih]
      rfl
  rw [inColumns, mapped]
  simp [Except.map, Function.comp_def]

theorem copyDonor_of_donor?_eq_none {special : Special}
    (none : board.donor? caster special = none) :
  board.copyDonor caster special = .ok (board, 0)
  := by rw [copyDonor, none]

/-- A clone that ignores facing cards changes nothing when it is cast again. -/
theorem copyDonor_again {special : Special} {result : Board × Nat}
    (ignores : special.application.IgnoresFacing)
    (h : board.copyDonor caster special = .ok result) :
  result.1.copyDonor caster special = .ok (result.1, 0)
  := by
  rcases found : board.donor? caster special with _ | donor
  · have nothing := copyDonor_of_donor?_eq_none found
    obtain rfl := Except.ok.inj (h.symm.trans nothing)
    apply nothing
  · have copied := copied_copyDonor found h
    obtain ⟨position, original, isDonor, rfl⟩ := donor?_eq_some_iff.mp found
    have found' : result.1.donor? caster special = some original.face :=
      donor?_eq_some_iff.mpr (copied.exists_isDonor ignores isDonor)
    rw [copyDonor_eq found] at h
    rw [copyDonor_eq found']
    apply inColumns_again (fun _ _ => Face.copyInto_again) h

end Board

/-! ### Casting -/

namespace Arena

/-- A clone is always carried out.  Without a donor it changes nothing.  Otherwise the cards of the
caster take over the face of the donor, unless they are immune, and nothing else changes.  If
facing cards are ignored, the same clone changes nothing when it is cast again.  If the application
has no empty join, there is a donor as soon as a position is reached. -/
theorem cast_copies (arena : Arena) (caster : Seat) (special : Special)
    (clones : special.effect.kind = .clone) :
  ∃ arena' touched, arena.cast caster special = .ok (.ok (arena', touched))
  ∧ ((∀ position donor, ¬ arena.board.IsDonor special.application caster position donor) →
    arena' = arena ∧ touched = 0)
  ∧ (∀ position donor, arena.board.IsDonor special.application caster position donor →
    arena.board.Copied caster donor.face arena'.board ∧ arena'.hands = arena.hands)
  ∧ (special.application.IgnoresFacing →
    arena'.cast caster special = .ok (.ok (arena', 0)))
  ∧ (special.application.hasEmptyJoin = false →
    ∀ position, arena.board.isReached special.application caster position = true →
      ∃ position donor, arena.board.IsDonor special.application caster position donor
        ∧ donor.isSpecial = false)
  := by
  simp only [cast, clones]
  rcases found : arena.board.donor? caster special with _ | face
  · have none : ∀ position donor,
        ¬ arena.board.IsDonor special.application caster position donor := by
      intro position donor isDonor
      have some := Board.donor?_eq_some_iff.mpr ⟨position, donor, isDonor, rfl⟩
      rw [found] at some
      contradiction
    have nothing := Board.copyDonor_of_donor?_eq_none found
    rw [nothing]
    refine ⟨arena, 0, rfl, fun _ => ⟨rfl, rfl⟩, ?_, ?_, ?_⟩
    · intro position donor isDonor
      exact absurd isDonor (none position donor)
    · intro _
      rw [nothing]
      rfl
    · intro filled position reached
      apply Board.exists_isDonor filled reached
  · obtain ⟨result, copied, -⟩ := Board.exists_copyDonor found
    rw [copied]
    refine ⟨{ arena with board := result.1 }, result.2, rfl, ?_, ?_, ?_, ?_⟩
    · intro none
      obtain ⟨position, donor, isDonor, -⟩ := Board.donor?_eq_some_iff.mp found
      exact absurd isDonor (none position donor)
    · intro position donor isDonor
      have found' := Board.donor?_eq_some_iff.mpr ⟨position, donor, isDonor, rfl⟩
      exact ⟨Board.copied_copyDonor found' copied, rfl⟩
    · intro ignores
      rw [Board.copyDonor_again ignores copied]
      rfl
    · intro filled position reached
      apply Board.exists_isDonor filled reached

/-- A clone of the first Ex. -/
def mirror : Special :=
  ⟨"Mirror", "", .nothing, .test (.ofScope { suits := some ["Ex"] }), ⟨.clone, .none⟩⟩

/-- The three becomes a five of the Ex in the first column, the kiss refuses, and casting the clone
again changes nothing. -/
theorem cast_copies_bazaar :
  ∃ arena, bazaar.cast .first mirror = .ok (.ok (arena, 1))
    ∧ bazaar.board.IsDonor mirror.application .first (0, .second) (.standard "Ex" (.number 5))
    ∧ (arena.board.card? .first 1).map (·.face) = some ⟨"Ex", .number 5⟩
    ∧ arena.board.card? .first 2 = bazaar.board.card? .first 2
    ∧ arena.cast .first mirror = .ok (.ok (arena, 0))
  := by
  have cast : bazaar.cast .first mirror = .ok (.ok (_, 1)) := rfl
  obtain ⟨arena, touched, same, -, copies, again, -⟩ := cast_copies bazaar .first mirror rfl
  rw [cast] at same
  obtain ⟨rfl, rfl⟩ := Prod.mk.inj (Except.ok.inj (Except.ok.inj same))
  have isDonor : bazaar.board.IsDonor mirror.application .first (0, .second)
      (.standard "Ex" (.number 5)) := by
    refine ⟨rfl, rfl, ?_⟩
    rintro ⟨column, seat⟩ (earlier | ⟨here, earlier⟩)
    · contradiction
    · obtain rfl : column = 0 := here
      cases seat
      · rfl
      · contradiction
  have ignores : mirror.application.IgnoresFacing := by
    simp [Application.IgnoresFacing, mirror, Aim.ofScope, Aim.opposite]
  obtain ⟨copied, -⟩ := copies _ _ isDonor
  obtain ⟨card, cardAt, face, -⟩ := copied.shown 1 _ rfl rfl
  have kissKept := copied.kept .first 2 (by
    intro card cardAt _
    obtain rfl := Option.some.inj cardAt
    exact .inl rfl)
  refine ⟨_, cast, isDonor, ?_, kissKept, again ignores⟩
  rw [cardAt, Option.map_some, face]
  rfl

/-- A clone whose application is an empty join, which every slot passes. -/
def blank : Special := ⟨"Mirror", "", .nothing, .join .and [], ⟨.clone, .none⟩⟩

/-- The second player has a five in the first column, and the first a three in the second. -/
def gallery : Arena where
  board := ⟨[
    ⟨{}, { card := some (.standard "Ex" (.number 5)) }⟩,
    ⟨{ card := some (.standard "Boyfriend" (.number 3)) }, {}⟩]⟩
  hands := Pair.both {}

/-- The first card that an empty join reaches is the five, but the search ends before it at an
empty slot, and the three stays. -/
theorem cast_blank_gallery :
  gallery.board.isReached blank.application .first (0, .second) = true
    ∧ gallery.board.card? .first 0 = none
    ∧ (gallery.board.card? .second 0).map (·.face) = some ⟨"Ex", .number 5⟩
    ∧ gallery.cast .first blank = .ok (.ok (gallery, 0))
    ∧ (gallery.board.card? .first 1).map (·.face) = some ⟨"Boyfriend", .number 3⟩
  := ⟨rfl, rfl, rfl, rfl, rfl⟩

end Arena

end CardDuel
