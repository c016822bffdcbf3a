import CardDuel.Proofs.Casting.Overflow
import CardDuel.Proofs.Casting.Sequence

/-!
# What special cards leave alone

Special cards give new faces to cards, hold slots and flush hands.  Whatever else there is on
the table stays as it is, however many of them are carried out, and also when they end at an
unsupported one: `Arena.castAll_frame`.
-/

namespace CardDuel.Arena

variable {arena arena' : Arena}

/-! ### Hands -/

/-- A special card leaves a hand alone, unless it flushes the hand of its caster. -/
theorem hands_cast {caster seat : Seat} {special : Special} {touched : Nat}
    (cast : arena.cast caster special = .ok (.ok (arena', touched)))
    (unflushed : caster = seat → special.effect.kind ≠ .flush) :
  arena'.hands.get seat = arena.hands.get seat
  := by
  rcases kind : special.effect.kind
  case buff | multiply | kiss | reverse | replace | switch | clone =>
    simp only [Arena.cast, kind] at cast
    obtain ⟨result, -, rfl, -⟩ := onBoard_of_map_eq_ok cast
    rfl
  case wait =>
    simp only [Arena.cast, kind] at cast
    obtain ⟨rfl, -⟩ := Prod.mk.inj (Except.ok.inj (Except.ok.inj cast))
    rfl
  case flush =>
    simp only [Arena.cast, kind] at cast
    obtain ⟨rfl, -⟩ := Prod.mk.inj (Except.ok.inj (Except.ok.inj cast))
    rw [Pair.get_modify, if_neg]
    rintro rfl
    exact unflushed rfl kind
  case randomize =>
    simp [Arena.cast, kind] at cast

namespace Casts

variable {standing : List Standing} {resolutions : List Resolution}

/-- Special cards leave a hand alone, unless one of them is cast from its seat and flushes. -/
theorem hands (casts : arena.Casts standing resolutions arena') {seat : Seat}
    (unflushed : ∀ special ∈ standing, special.caster = seat →
      special.special.effect.kind ≠ .flush) :
  arena'.hands.get seat = arena.hands.get seat
  := by
  apply casts.preserves (P := fun next => next.hands.get seat = arena.hands.get seat) _ rfl
  intro special mem current next touched same cast
  rw [hands_cast cast (unflushed special mem), same]

end Casts

/-! ### The frame -/

/-- Without an overflow all special cards of a board are carried out, or those before the
first unsupported one.  In either case the board keeps its width and its empty slots, every
card keeps its printed face and its definition, and special cards and kisses stay exactly as
they are.  A hold stays or becomes a hold for the next change of rounds, the latter only if a
special card on the board waits; a hand stays unless a special card on its side flushes. -/
theorem castAll_frame (arena : Arena)
    (noOverflow : ∀ fault, fault.IsOverflow → arena.castAll ≠ .error fault) :
  ∃ arena' answer, arena.castAll = .ok (arena', answer)
  ∧ arena'.board.width = arena.board.width
  ∧ (∀ seat column,
    arena'.board.card? seat column = none ↔ arena.board.card? seat column = none)
  ∧ (∀ seat column card, arena.board.card? seat column = some card →
    ∃ card', arena'.board.card? seat column = some card'
      ∧ card'.printed = card.printed ∧ card'.special = card.special
      ∧ (card.isSpecial = true ∨ card.face.value = .kiss → card' = card))
  ∧ (∀ seat column, arena'.board.holdAt seat column = arena.board.holdAt seat column
    ∨ arena'.board.holdAt seat column = .held)
  ∧ ((∀ standing ∈ arena.board.standing, standing.special.effect.kind ≠ .wait) →
    ∀ seat column, arena'.board.holdAt seat column = arena.board.holdAt seat column)
  ∧ ∀ seat, (∀ standing ∈ arena.board.standing, standing.caster = seat →
      standing.special.effect.kind ≠ .flush) →
    arena'.hands.get seat = arena.hands.get seat
  := by
  obtain ⟨⟨arena', answer⟩, h⟩ :=
    (onlyOverflows_castAlong arena.board.positions arena).exists_ok noOverflow
  obtain ⟨standing, resolutions, among, casts⟩ := exists_casts_of_castAll h
  have altered := casts.altered
  refine ⟨arena', answer, h, altered.width, fun _ _ => altered.card?_eq_none_iff, ?_, ?_, ?_, ?_⟩
  · intro seat column card cardAt
    obtain ⟨card', cardAt', change⟩ := altered.exists_card? cardAt
    refine ⟨card', cardAt', change.printed, change.special, ?_⟩
    intro immune
    apply change.immune
    simpa [Card.isImmune] using immune
  · intro seat column
    apply (altered.holdAt seat column).imp_right And.right
  · intro noWait seat column
    obtain same | ⟨⟨special, mem, waits⟩, -⟩ := altered.holdAt seat column
    · apply same
    · exact absurd waits (noWait special (among mem))
  · intro seat unflushed
    apply casts.hands
    intro special mem
    apply unflushed special (among mem)

/-- Two columns: the first player flushes the hand and waits for the kissed card that faces an
unsupported special card. -/
def crowdedArena : Arena where
  board := ⟨[
    ⟨{ card := some (.ofSpecial ⟨"Storm", "", .nothing, .any, ⟨.flush, .none⟩⟩) },
      { card := some (.standard "Ex" (.number 7)), hold := .carried }⟩,
    ⟨{ card := some (.ofSpecial ⟨"Umbrella", "", .nothing, .any, ⟨.wait, .none⟩⟩) }, {}⟩,
    ⟨{ card := some (.standard "Boyfriend" .kiss) },
      { card := some (.ofSpecial ⟨"Chaos", "", .nothing, .any, ⟨.randomize, .none⟩⟩) }⟩]⟩
  hands := Pair.both (.ofCards [.standard "Ex" (.number 1)])

theorem crowdedArena_frame :
  ∃ arena', crowdedArena.castAll
      = .ok (arena', .error (.unsupportedEffect "Chaos" .randomize))
    ∧ arena'.board.holdAt .second 0 = .held
    ∧ arena'.board.card? .second 1 = none
    ∧ (∃ card, arena'.board.card? .first 2 = some card ∧ card = .standard "Boyfriend" .kiss)
    ∧ (arena'.hands.get .first).cards = []
    ∧ arena'.hands.get .second = crowdedArena.hands.get .second
  := by
  have cast : crowdedArena.castAll
      = .ok (_, .error (.unsupportedEffect "Chaos" .randomize)) := rfl
  obtain ⟨arena', answer, same, -, empty, cards, -, -, hands⟩ :=
    castAll_frame crowdedArena (by simp [cast])
  obtain ⟨rfl, rfl⟩ := by simpa using cast.symm.trans same
  obtain ⟨card, cardAt, -, -, kissed⟩ := cards .first 2 _ rfl
  refine ⟨_, cast, rfl, (empty .second 1).mpr rfl, ⟨card, cardAt, kissed (.inr rfl)⟩, rfl, ?_⟩
  apply hands .second
  have listed : crowdedArena.board.standing = [⟨0, .first, _⟩, ⟨1, .first, _⟩, ⟨2, .second, _⟩] :=
    rfl
  intro standing mem fromSecond
  rw [listed] at mem
  simp only [List.mem_cons, List.not_mem_nil, or_false] at mem
  rcases mem with rfl | rfl | rfl
  · contradiction
  · contradiction
  · simp

end CardDuel.Arena
