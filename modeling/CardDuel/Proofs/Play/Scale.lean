import CardDuel.Proofs.Answers
import CardDuel.Proofs.Play.Foresight
import Mathlib.Tactic.Common

/-!
# Situations of ordinary size

A situation is moderate if no number in it is beyond a thousand, there are at most a hundred cards
in the hand and columns on the board, and no special card in the hand multiplies.  Each special
card that is tried out moves the numbers on all cards, so bounds on them have to be carried along:
a special card moves a number by at most a thousand (`Foresight.ensures_tryImmediate`), and so many
special cards that the numbers leave their range cannot be chosen.  So what the chosen cards lead to
can always be foreseen: `Foresight.exists_ofIndices`.
-/

namespace CardDuel

open Checked (Ensures)

/-! ### Moderate numbers -/

/-- The number on a face, if there is one, has at most this absolute value. -/
def Face.IsWithin (bound : Nat) (face : Face) : Prop :=
  ∀ n ∈ face.value.number?, n.natAbs ≤ bound

instance (bound : Nat) (face : Face) : Decidable (face.IsWithin bound) :=
  inferInstanceAs (Decidable (∀ n ∈ face.value.number?, n.natAbs ≤ bound))

theorem Face.IsWithin.mono {bound bound' : Nat} {face : Face} (h : face.IsWithin bound)
    (wider : bound ≤ bound') :
  face.IsWithin bound'
  := fun n shown => Nat.le_trans (h n shown) wider

/-- The numbers that a card shows and that it was printed with are moderate. -/
structure Card.IsModerate (card : Card) : Prop where
  face : card.face.IsWithin 1000
  printed : card.printed.IsWithin 1000

/-- An effect that is not a multiplier, and adds a moderate number if it adds one. -/
structure Effect.IsModerate (effect : Effect) : Prop where
  kind : effect.kind ≠ .multiply
  delta : ∀ delta, effect = .adding delta → delta.natAbs ≤ 1000

/-- The weights are moderate. -/
structure PlaySettings.IsModerate (settings : PlaySettings) : Prop where
  specialBonus : settings.specialBonus.natAbs ≤ 1000
  holdMarginBonus : settings.holdMarginBonus.natAbs ≤ 1000
  heldFriendlyBonus : settings.heldFriendlyBonus.natAbs ≤ 1000
  flushPenalty : settings.flushPenalty.natAbs ≤ 1000
  selfBias : settings.selfBias.natAbs ≤ 1000

/-- At most a hundred cards and columns, with moderate numbers on all cards of the hand and of both
sides of the board, and moderate effects in the hand. -/
structure Situation.IsModerate (situation : Situation) : Prop where
  hand_length : situation.hand.length ≤ 100
  width : situation.board.width ≤ 100
  hand : ∀ card ∈ situation.hand, card.IsModerate
  board : ∀ seat, ∀ slot ∈ situation.board.row seat, ∀ card ∈ slot.card, card.IsModerate
  effect : ∀ card ∈ situation.hand, ∀ special ∈ card.special, special.effect.IsModerate

/-- Every card on the board shows a moderate number, if it shows one. -/
theorem Situation.IsModerate.face_of_card? {situation : Situation}
    (moderate : situation.IsModerate) {seat : Seat} {column : Nat} {card : Card}
    (cardAt : situation.board.card? seat column = some card) :
  card.face.IsWithin 1000
  := by
  obtain ⟨slot, slotAt, cardIn⟩ := Board.card?_eq_some_iff.mp cardAt
  obtain ⟨slots, slotsAt, rfl⟩ := Option.map_eq_some_iff.mp slotAt
  have inRow : slots.get seat ∈ situation.board.row seat :=
    List.mem_map_of_mem (List.mem_of_getElem? slotsAt)
  apply (moderate.board seat _ inRow card cardIn).face

/-! ### Special cards that are tried out -/

/-- A moderate buff moves a number by at most a thousand. -/
theorem Card.ensures_faceAfter_buff {payload : Effect.Payload}
    (moderate : Effect.IsModerate ⟨.buff, payload⟩) {face : Face} {bound : Nat}
    (within : face.IsWithin bound) (room : bound + 1000 ≤ 2147483647) :
  Ensures True (fun answer => ∀ face' ∈ answer, face'.IsWithin (bound + 1000))
    (faceAfter ⟨.buff, payload⟩ face)
  := by
  rcases payload with _ | (delta | _ | _ | _ | _ | _) | _ | _ | _ | _
  case value.number =>
    have small := moderate.delta delta rfl
    rcases shown : face.value with n | _ | _ | _ | _ | _
    case number =>
      have size := within n (by simp [shown, Value.number?])
      simp only [faceAfter, shown]
      apply (Ensures.add_of_natAbs_le (Nat.add_le_add size small) room).bind
      intro sum near
      apply Ensures.ok
      simpa [Face.IsWithin, Value.number?] using near
    all_goals
      simp only [faceAfter, shown]
      apply Ensures.ok
      simp
  all_goals
    apply Ensures.ok
    simp [Face.IsWithin, Value.number?]

theorem Card.ensures_faceAfter_reverse {payload : Effect.Payload} {face : Face} {bound : Nat}
    (within : face.IsWithin bound) (room : bound + 1000 ≤ 2147483647) :
  Ensures True (fun answer => ∀ face' ∈ answer, face'.IsWithin (bound + 1000))
    (faceAfter ⟨.reverse, payload⟩ face)
  := by
  rcases shown : face.value with n | _ | _ | _ | _ | _
  case number =>
    have size := within n (by simp [shown, Value.number?])
    simp only [faceAfter, shown]
    apply Ensures.bind (P := fun reflected => reflected.natAbs ≤ bound + 1000)
    · apply Ensures.sub_of_natAbs_le _ room
      omega
    · intro reflected near
      apply Ensures.ok
      simpa [Face.IsWithin, Value.number?] using near
  all_goals
    simp only [faceAfter, shown]
    apply Ensures.ok
    simp [Face.IsWithin, Value.number?, shown]

/-- So does every moderate effect that is tried out. -/
theorem Card.ensures_apply {effect : Effect} (moderate : effect.IsModerate)
    (immediate : Play.isImmediate effect.kind = true) {card : Card} {bound : Nat}
    (within : card.face.IsWithin bound) (room : bound + 1000 ≤ 2147483647) :
  Ensures True (fun result => result.1.face.IsWithin (bound + 1000)) (card.apply effect)
  := by
  have kept : card.face.IsWithin (bound + 1000) := within.mono (Nat.le_add_right ..)
  rw [apply]
  split
  · exact Ensures.ok kept
  · have changed : Ensures True (fun answer => ∀ face ∈ answer, face.IsWithin (bound + 1000))
        (faceAfter effect card.face) := by
      obtain ⟨kind, payload⟩ := effect
      cases kind
      case buff => apply ensures_faceAfter_buff moderate within room
      case reverse => apply ensures_faceAfter_reverse within room
      case multiply => exact absurd rfl moderate.kind
      all_goals contradiction
    apply changed.bind
    intro answer faces
    cases answer with
    | none => exact Ensures.ok kept
    | some face =>
      dsimp only
      split
      · exact Ensures.ok kept
      · apply Ensures.ok
        apply faces face rfl

namespace Play.Foresight

/-- All cards, the chosen and the opposing ones, show numbers within a bound. -/
structure IsWithin (bound : Nat) (foresight : Foresight) : Prop where
  mine : ∀ pick ∈ foresight.mine, pick.card.face.IsWithin bound
  theirs : ∀ slot ∈ foresight.theirs, ∀ card ∈ slot, card.face.IsWithin bound

variable {special : Special} {foresight : Foresight} {bound : Nat}

theorem ensures_touch (moderate : special.effect.IsModerate)
    (immediate : isImmediate special.effect.kind = true) {side : Side} {card : Card}
    (within : card.face.IsWithin bound) (room : bound + 1000 ≤ 2147483647) :
  Ensures True (fun card' => card'.face.IsWithin (bound + 1000)) (touch special side card)
  := by
  rw [touch]
  split
  · apply Ensures.map
    apply Card.ensures_apply moderate immediate within room
  · exact Ensures.ok (within.mono (Nat.le_add_right ..))

/-- A special card that is tried out moves the numbers on all cards by at most a thousand. -/
theorem ensures_tryImmediate (moderate : special.effect.IsModerate)
    (immediate : isImmediate special.effect.kind = true) (within : foresight.IsWithin bound)
    (room : bound + 1000 ≤ 2147483647) :
  Ensures True (IsWithin (bound + 1000)) (foresight.tryImmediate special)
  := by
  rw [tryImmediate]
  apply Ensures.bind (P := fun mine => ∀ pick ∈ mine, pick.card.face.IsWithin (bound + 1000))
  · apply Ensures.mapM
    intro pick mem
    apply (ensures_touch moderate immediate (within.mine pick mem) room).bind
    intro card touched
    exact Ensures.ok touched
  · intro mine touched
    apply Ensures.bind
      (P := fun theirs => ∀ slot ∈ theirs, ∀ card ∈ slot, card.face.IsWithin (bound + 1000))
    · apply Ensures.mapM
      intro slot mem
      cases slot with
      | none => apply Ensures.ok (by simp)
      | some card =>
        apply Ensures.map
        apply (ensures_touch moderate immediate (within.theirs _ mem card rfl) room).mono
        rintro card' within' _ ⟨⟩
        apply within'
    · intro theirs touched'
      exact Ensures.ok ⟨touched, touched'⟩

/-- A switch can always be tried out. -/
theorem exists_trySwitch (openColumns : List Nat) (foresight : Foresight) (special : Special) :
  ∃ foresight', trySwitch openColumns foresight special = .ok foresight'
  := by
  apply Checked.exists_foldlM_eq_ok
  intro column _ foresight
  rw [tradeAt]
  split
  · exact ⟨_, rfl⟩
  · rename_i theirs _
    split
    · exact ⟨_, rfl⟩
    · rename_i pick _
      obtain ⟨mine, taken⟩ := Card.exists_apply_tradingFor theirs.face.value pick.card
      obtain ⟨other, given⟩ := Card.exists_apply_tradingFor pick.card.face.value theirs
      rw [taken, Checked.ok_bind, given]
      exact ⟨_, rfl⟩

/-- In a moderate situation it can be foreseen what at most a hundred cards lead to. -/
theorem exists_ofIndices {situation : Situation} (moderate : situation.IsModerate)
    {indices : List Nat} (few : indices.length ≤ 100) :
  ∃ foresight, ofIndices situation indices = .ok foresight
  := by
  have chosen : ∀ pick ∈ picksOf situation indices, pick.card ∈ situation.hand :=
    fun pick mem => List.mem_of_getElem? (card_of_mem_picksOf mem)
  let specials := (picksOf situation indices).filterMap fun pick => pick.card.special
  let immediate := specials.filter fun special => isImmediate special.effect.kind
  have count : immediate.length ≤ 100 :=
    calc immediate.length
        ≤ specials.length := List.length_filter_le ..
      _ ≤ (picksOf situation indices).length := List.length_filterMap_le ..
      _ ≤ indices.zipIdx.length := List.length_filterMap_le ..
      _ = indices.length := List.length_zipIdx
      _ ≤ 100 := few
  -- after `n` special cards the numbers are within `1000 * (n + 1)`
  have tried : Ensures True (IsWithin (1000 * (immediate.length + 1))) <|
      immediate.foldlM tryImmediate
        ⟨picksOf situation indices, (situation.board.row situation.opponent).map (·.card), []⟩ := by
    apply Ensures.foldlM (P := fun n => IsWithin (1000 * (n + 1)))
    · intro special mem n before foresight within
      obtain ⟨mem, isImmediate⟩ := List.mem_filter.mp mem
      obtain ⟨pick, picked, isSpecial⟩ := List.mem_filterMap.mp mem
      have effect := moderate.effect pick.card (chosen pick picked) special isSpecial
      apply ensures_tryImmediate effect isImmediate within
      omega
    · constructor
      · intro pick mem
        apply (moderate.hand pick.card (chosen pick mem)).face
      · intro slot mem card shown
        obtain ⟨slot, inRow, rfl⟩ := List.mem_map.mp mem
        apply (moderate.board situation.opponent slot inRow card shown).face
  obtain ⟨foresight, tried⟩ := tried.exists_ok trivial
  let switches := specials.filter fun special => special.effect.kind == .switch
  have switched : ∃ foresight',
      switches.foldlM (trySwitch situation.openColumns) foresight = .ok foresight' := by
    apply Checked.exists_foldlM_eq_ok
    intro special _ foresight
    apply exists_trySwitch
  obtain ⟨foresight', switched⟩ := switched
  exact ⟨foresight', Checked.bind_eq_ok_iff.mpr ⟨foresight, tried, switched⟩⟩

end Play.Foresight

end CardDuel
