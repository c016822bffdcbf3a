import CardDuel.Proofs.Cards
import CardDuel.Proofs.Overflow
import Mathlib.Data.List.DropRight

/-!
# Undoing effects

A card is made with the face that it shows; then effects are applied to it and it is reset, in
any order.  An `Event` is one such move together with its answer.  Whatever happens to a card,
its log lists the effects that changed its face since the last reset, and a reset gives back
the card as it was made: `Card.run_recounts`.
-/

namespace CardDuel.Card

/-! ### Moves and events -/

/-- The cards that can be made. -/
inductive IsNew : Card → Prop where
  | standard (suit : String) (value : Value) : IsNew (standard suit value)
  | ofSpecial (special : Special) : IsNew (ofSpecial special)

/-- Something that is done to a card. -/
inductive Move where
  | apply (effect : Effect)
  | reset

/-- Something that has been done to a card. -/
inductive Event where
  /-- An effect was applied, and it answered whether the face changed. -/
  | applied (effect : Effect) (changed : Bool)
  | reset

namespace Event

/-- The move that was made. -/
def move : Event → Move
  | applied effect _ => .apply effect
  | reset => .reset

/-- Whether the card was reset. -/
def isReset : Event → Bool
  | applied _ _ => false
  | reset => true

/-- The kind of the effect, if it answered that the face changed. -/
def change? : Event → Option Effect.Kind
  | applied effect true => some effect.kind
  | applied _ false | reset => none

/-- The kinds of the effects that changed the face since the last reset, oldest first. -/
def changesSinceReset (events : List Event) : List Effect.Kind :=
  (events.rtakeWhile fun event => !event.isReset).filterMap change?

theorem changesSinceReset_applied (events : List Event) (effect : Effect) (changed : Bool) :
  changesSinceReset (events ++ [applied effect changed])
    = changesSinceReset events ++ if changed then [effect.kind] else []
  := by
  rw [changesSinceReset, List.rtakeWhile_concat_pos _ _ _ rfl, List.filterMap_append]
  cases changed <;> rfl

theorem changesSinceReset_reset (events : List Event) :
  changesSinceReset (events ++ [reset]) = []
  := by
  rw [changesSinceReset, List.rtakeWhile_concat_neg _ _ _ (by simp [isReset])]
  rfl

end Event

/-- The card after a move, and the event. -/
def move (card : Card) : Move → Except Fault (Card × Event)
  | .apply effect => do
    let (card, changed) ← card.apply effect
    pure (card, .applied effect changed)
  | .reset => .ok (card.reset, .reset)

/-- The card after one more move, and all events so far. -/
def record (state : Card × List Event) (move : Move) : Except Fault (Card × List Event) := do
  let (card, event) ← state.1.move move
  pure (card, state.2 ++ [event])

/-- The card after a list of moves, and their events in order. -/
def run (card : Card) (moves : List Move) : Except Fault (Card × List Event) :=
  moves.foldlM record (card, [])

/-- A move that fails is an effect that takes the number of the card out of its range. -/
theorem exists_effect_of_record_eq_error {state : Card × List Event} {move : Move} {fault : Fault}
    (h : record state move = .error fault) :
  ∃ effect, move = .apply effect ∧ state.1.isImmune = false ∧ Overflows effect state.1.face
  := by
  cases move with
  | apply effect =>
    refine ⟨effect, rfl, ?_⟩
    rcases applied : state.1.apply effect with fault' | answer
    · apply overflows_of_apply applied
    · rw [record, move, applied] at h
      cases h
  | reset => cases h

theorem move_of_move_eq_ok {card card' : Card} {move : Move} {event : Event}
    (h : card.move move = .ok (card', event)) :
  event.move = move
  := by
  cases move with
  | apply effect =>
    obtain ⟨⟨card', changed⟩, -, h⟩ := Checked.bind_eq_ok_iff.mp h
    obtain ⟨-, rfl⟩ := Prod.mk.inj (Except.ok.inj h)
    rfl
  | reset =>
    obtain ⟨-, rfl⟩ := Prod.mk.inj (Except.ok.inj h)
    rfl

/-! ### One move -/

/-- An effect answers that the face changed exactly if the card shows another face than
before. -/
theorem changed_iff_of_apply {effect : Effect} {card card' : Card} {changed : Bool}
    (h : card.apply effect = .ok (card', changed)) :
  changed = true ↔ card'.face ≠ card.face
  := by
  obtain ⟨rfl, rfl⟩ | ⟨face, -, -, other, rfl, rfl⟩ := apply_cases h
  · simp
  · simp [other]

theorem eq_of_apply_unchanged {effect : Effect} {card card' : Card} {changed : Bool}
    (h : card.apply effect = .ok (card', changed)) (unchanged : changed = false) :
  card' = card
  := by
  obtain ⟨rfl, -⟩ | ⟨_, -, -, -, rfl, -⟩ := apply_cases h
  · rfl
  · contradiction

theorem apply_of_isImmune {card : Card} (immune : card.isImmune = true) (effect : Effect) :
  card.apply effect = .ok (card, false)
  := if_pos immune

theorem IsNew.reset {card : Card} (h : card.IsNew) :
  card.reset = card
  := by cases h <;> rfl

/-- What a card keeps through a list of events, and what its log tells about them. -/
structure Recounts (start card : Card) (events : List Event) : Prop where
  printed : card.printed = start.printed
  special : card.special = start.special
  /-- The log has the kinds of the effects that, since the last reset, answered that the face
  changed. -/
  log : card.applied = Event.changesSinceReset events
  /-- A card without a log shows the face that it was printed with. -/
  unchanged : card.applied = [] → card.face = card.printed
  /-- A reset undoes everything. -/
  reset : card.reset = start
  /-- A special card is always as it was made. -/
  fixed : card.isSpecial = true → card = start

namespace Recounts

variable {start card card' : Card} {events : List Event}

theorem ofIsNew (new : start.IsNew) :
  Recounts start start []
  where
  printed := rfl
  special := rfl
  log := by cases new <;> rfl
  unchanged _ := by cases new <;> rfl
  reset := new.reset
  fixed _ := rfl

theorem applied {effect : Effect} {changed : Bool} (h : Recounts start card events)
    (applied : card.apply effect = .ok (card', changed)) :
  Recounts start card' (events ++ [.applied effect changed])
  := by
  have altered := altered_apply applied
  constructor
  case printed => rw [altered.printed, h.printed]
  case special => rw [altered.special, h.special]
  case reset => rw [altered.reset, h.reset]
  case fixed =>
    intro special
    rw [altered.isSpecial] at special
    rw [altered.immune (by simp [isImmune, special]), h.fixed special]
  case log =>
    rw [Event.changesSinceReset_applied, ← h.log]
    obtain ⟨rfl, rfl⟩ | ⟨face, -, -, -, rfl, rfl⟩ := apply_cases applied
    · simp
    · rfl
  case unchanged =>
    obtain ⟨rfl, -⟩ | ⟨face, -, -, -, -, rfl⟩ := apply_cases applied
    · exact h.unchanged
    · simp

theorem wasReset (h : Recounts start card events) :
  Recounts start card.reset (events ++ [.reset])
  where
  printed := h.printed
  special := h.special
  log := by
    rw [Event.changesSinceReset_reset]
    rfl
  unchanged _ := rfl
  reset := h.reset
  fixed _ := h.reset

/-- Another move keeps the account. -/
theorem record {move : Move} {state state' : Card × List Event}
    (h : Recounts start state.1 state.2) (recorded : Card.record state move = .ok state') :
  Recounts start state'.1 state'.2
  := by
  obtain ⟨⟨card', event⟩, moved, result⟩ := Checked.bind_eq_ok_iff.mp recorded
  obtain rfl := Except.ok.inj result
  cases move with
  | apply effect =>
    obtain ⟨⟨card', changed⟩, applied, moved⟩ := Checked.bind_eq_ok_iff.mp moved
    obtain ⟨rfl, rfl⟩ := Prod.mk.inj (Except.ok.inj moved)
    apply h.applied applied
  | reset =>
    obtain ⟨rfl, rfl⟩ := Prod.mk.inj (Except.ok.inj moved)
    apply h.wasReset

end Recounts

/-! ### Runs -/

theorem map_move_of_foldlM {moves : List Move} {state state' : Card × List Event}
    (h : moves.foldlM record state = .ok state') :
  state'.2.map Event.move = state.2.map Event.move ++ moves
  := by
  induction moves generalizing state with
  | nil =>
    obtain rfl := Except.ok.inj h
    rw [List.append_nil]
  | cons move rest ih =>
    obtain ⟨next, recorded, h⟩ := Checked.bind_eq_ok_iff.mp h
    obtain ⟨⟨card, event⟩, moved, recorded⟩ := Checked.bind_eq_ok_iff.mp recorded
    obtain rfl := Except.ok.inj recorded
    rw [ih h, List.map_append, List.map_singleton, move_of_move_eq_ok moved, List.append_assoc]
    rfl

/-- Whatever is done to a new card, its log recounts it. -/
theorem recounts_run {start card : Card} {moves : List Move} {events : List Event}
    (new : start.IsNew) (h : start.run moves = .ok (card, events)) :
  Recounts start card events
  := by
  apply Checked.foldlM_preserves (P := fun state => Recounts start state.1 state.2) _
    (.ofIsNew new) h
  intro move _ state state' recounts recorded
  apply recounts.record recorded

/-- No list of effects does anything to an immune card. -/
theorem foldlM_record_of_isImmune {card : Card} (immune : card.isImmune = true)
    (effects : List Effect) (events : List Event) :
  (effects.map Move.apply).foldlM record (card, events)
    = .ok (card, events ++ effects.map (.applied · false))
  := by
  induction effects generalizing events with
  | nil => simp [pure, Except.pure]
  | cons effect rest ih =>
    have kept : record (card, events) (.apply effect)
        = .ok (card, events ++ [.applied effect false]) := by
      rw [record, move, apply_of_isImmune immune effect]
      rfl
    rw [List.map_cons, List.foldlM_cons, kept, Checked.ok_bind, ih, List.append_assoc]
    rfl

theorem isImmune_of_kiss {card : Card} (kiss : card.face.value = .kiss) :
  card.isImmune = true
  := by simp [isImmune, kiss]

/-- Whatever effects are applied to a new card and whenever it is reset, the log recounts what
happened and a reset gives the card back as it was made, unless an effect takes the number of
the card out of its range.  From there on an effect answers that the face changed exactly if the
card shows another face than before, and otherwise leaves the card alone; and a card that shows
a kiss stays as it is until it is reset. -/
theorem run_recounts {start : Card} (new : start.IsNew) (moves : List Move) :
  (∃ fault earlier effect later card events, start.run moves = .error fault
    ∧ moves = earlier ++ .apply effect :: later ∧ start.run earlier = .ok (card, events)
    ∧ card.isImmune = false ∧ Overflows effect card.face)
  ∨ ∃ card events, start.run moves = .ok (card, events)
    ∧ events.map Event.move = moves
    ∧ Recounts start card events
    ∧ (∀ effect card' changed, card.apply effect = .ok (card', changed) →
        (changed = true ↔ card'.face ≠ card.face) ∧ (changed = false → card' = card))
    ∧ (card.face.value = .kiss → ∀ effects : List Effect,
        card.run (effects.map .apply) = .ok (card, effects.map (.applied · false)))
  := by
  rcases ran : start.run moves with fault | ⟨card, events⟩
  · left
    obtain ⟨earlier, move, later, ⟨card, events⟩, split, reached, failed⟩ :=
      Checked.exists_of_foldlM_eq_error ran
    obtain ⟨effect, rfl, overflows⟩ := exists_effect_of_record_eq_error failed
    exact ⟨fault, earlier, effect, later, card, events, rfl, split, reached, overflows⟩
  · right
    refine ⟨card, events, rfl, ?_, recounts_run new ran, ?_, ?_⟩
    · simpa using map_move_of_foldlM ran
    · intro effect card' changed applied
      exact ⟨changed_iff_of_apply applied, eq_of_apply_unchanged applied⟩
    · intro kiss effects
      apply foldlM_record_of_isImmune (isImmune_of_kiss kiss)

/-- A buff, another that adds nothing, a reset, and then a kiss that keeps off the last buff. -/
def courtship : List Move :=
  [.apply (.adding 3), .apply .inert, .reset, .apply ⟨.kiss, .none⟩, .apply (.adding 5)]

theorem run_recounts_courtship :
  ∃ card events, (standard "Boyfriend" (.number 4)).run courtship = .ok (card, events)
    ∧ Recounts (standard "Boyfriend" (.number 4)) card events
    ∧ card.face = ⟨"Boyfriend", .kiss⟩ ∧ card.applied = [.kiss]
  := by
  have ran : (standard "Boyfriend" (.number 4)).run courtship = .ok _ := rfl
  obtain ⟨fault, _, _, _, _, _, failed, -⟩ | ⟨card, events, ran', -, recounts, -⟩ :=
    run_recounts (.standard "Boyfriend" (.number 4)) courtship
  · rw [ran] at failed
    contradiction
  · obtain ⟨rfl, rfl⟩ := Prod.mk.inj (Except.ok.inj (ran.symm.trans ran'))
    exact ⟨_, _, ran, recounts, rfl, rfl⟩

end CardDuel.Card
