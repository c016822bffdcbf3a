import CardDuel.Proofs.Casting.Alteration

/-!
# Special cards in sequence

Special cards are looked up on the board while those before them change it, but what they do
never adds, removes or replaces a special card.  So the special cards that are carried out
are the ones that stand on the board at the beginning, as many of them as come before the
first unsupported one: `Arena.castAll_cases`.
-/

namespace CardDuel

/-- A special card and the place at which it stands. -/
structure Standing where
  column : Nat
  caster : Seat
  special : Special

namespace Standing

/-- Whether no board carries out the special card. -/
def IsUnsupported (standing : Standing) : Prop :=
  standing.special.effect.kind = .randomize

/-- The report of a special card that has been carried out. -/
def resolution (standing : Standing) (touched : Nat) : Resolution :=
  ⟨standing.special.name, standing.caster, standing.column, standing.special.effect.kind,
    touched⟩

end Standing

namespace Board

/-- The special card at a position. -/
def standingAt (board : Board) (position : Nat × Seat) : Option Standing :=
  ((board.card? position.2 position.1).bind (·.special)).map fun special =>
    ⟨position.1, position.2, special⟩

/-- The special cards on the board, column by column, the first seat before the second. -/
def standing (board : Board) : List Standing :=
  board.positions.filterMap board.standingAt

theorem mem_standing {board : Board} {standing : Standing} :
  standing ∈ board.standing
    ↔ ∃ card, board.card? standing.caster standing.column = some card
      ∧ card.special = some standing.special
  := by
  obtain ⟨column, caster, special⟩ := standing
  simp only [Board.standing, standingAt, List.mem_filterMap, Option.map_eq_some_iff,
    Option.bind_eq_some_iff]
  constructor
  · rintro ⟨position, -, _, ⟨card, cardAt, definition⟩, same⟩
    injection same with columns seats specials
    subst columns
    subst seats
    subst specials
    exact ⟨card, cardAt, definition⟩
  · rintro ⟨card, cardAt, definition⟩
    exact ⟨(column, caster), mem_positions.mpr (lt_width_of_card? cardAt), special,
      ⟨card, cardAt, definition⟩, rfl⟩

theorem Altered.standingAt {mayHold : Nat × Seat → Prop} {before after : Board}
    (h : before.Altered mayHold after) :
  after.standingAt = before.standingAt
  := by
  funext position
  unfold Board.standingAt
  rw [h.special]

end Board

namespace Arena

/-- `Casts arena standing resolutions arena'`: carrying out the special cards `standing` one
after another leads from `arena` to `arena'` and is reported by `resolutions`. -/
inductive Casts : Arena → List Standing → List Resolution → Arena → Prop where
  | nil (arena : Arena) : Casts arena [] [] arena
  | cons {arena arena' arena'' : Arena} {standing : Standing} {touched : Nat}
      {rest : List Standing} {resolutions : List Resolution} :
    arena.cast standing.caster standing.special = .ok (.ok (arena', touched)) →
    Casts arena' rest resolutions arena'' →
    Casts arena (standing :: rest) (standing.resolution touched :: resolutions) arena''

namespace Casts

variable {arena arena' : Arena} {standing : List Standing} {resolutions : List Resolution}

/-- Only supported special cards are carried out. -/
theorem supported (h : Casts arena standing resolutions arena') :
  ∀ special ∈ standing, ¬ special.IsUnsupported
  := by
  induction h with
  | nil => simp
  | cons cast _ ih =>
    rintro special (_ | ⟨_, later⟩) unsupported
    · rw [Standing.IsUnsupported] at unsupported
      simp [Arena.cast, unsupported] at cast
    · apply ih special later unsupported

/-- There is one report for each special card. -/
theorem reports (h : Casts arena standing resolutions arena') :
  resolutions.map (fun resolution =>
      (resolution.special, resolution.caster, resolution.column, resolution.kind))
    = standing.map fun special =>
      (special.special.name, special.caster, special.column, special.special.effect.kind)
  := by
  induction h with
  | nil => rfl
  | cons _ _ ih =>
    rw [List.map_cons, List.map_cons, ih]
    rfl

/-- What special cards do and report is determined by where they begin. -/
theorem unique {arena'' : Arena} {resolutions' : List Resolution}
    (h : Casts arena standing resolutions arena')
    (h' : Casts arena standing resolutions' arena'') :
  resolutions' = resolutions ∧ arena'' = arena'
  := by
  induction h generalizing resolutions' with
  | nil =>
    cases h'
    exact ⟨rfl, rfl⟩
  | cons cast _ ih =>
    obtain _ | ⟨cast', rest'⟩ := h'
    rw [cast] at cast'
    obtain ⟨rfl, rfl⟩ := Prod.mk.inj (Except.ok.inj (Except.ok.inj cast'))
    obtain ⟨rfl, rfl⟩ := ih rest'
    exact ⟨rfl, rfl⟩

/-- What one special card keeps, a sequence of them keeps. -/
theorem preserves {P : Arena → Prop}
    (step : ∀ special ∈ standing, ∀ arena arena' touched, P arena →
      arena.cast special.caster special.special = .ok (.ok (arena', touched)) → P arena')
    (start : P arena) (h : Casts arena standing resolutions arena') :
  P arena'
  := by
  induction h with
  | nil => apply start
  | cons cast _ ih =>
    apply ih
    · intro special later
      apply step special (List.mem_cons_of_mem _ later)
    · apply step _ List.mem_cons_self _ _ _ start cast

/-- Special cards alter the board at most, and hold slots only if one of them waits. -/
theorem altered (casts : arena.Casts standing resolutions arena') :
  arena.board.Altered
    (fun _ => ∃ special ∈ standing, special.special.effect.kind = .wait) arena'.board
  := by
  apply casts.preserves (P := fun next => arena.board.Altered _ next.board) _ (.refl arena.board)
  intro special mem current next touched altered cast
  apply altered.trans
  apply (altered_cast cast).mono
  rintro position ⟨waits, -⟩
  exact ⟨special, mem, waits⟩

end Casts

theorem standingAt_eq_map_specialAt (arena : Arena) (position : Nat × Seat) :
  arena.board.standingAt position
    = (arena.specialAt position).map fun special => ⟨position.1, position.2, special⟩
  := rfl

/-- Casting ends in an error exactly for the unsupported kind, and the error names it. -/
theorem cast_eq_error_iff {arena : Arena} {caster : Seat} {special : Special}
    {error : GameError} :
  arena.cast caster special = .ok (.error error)
    ↔ special.effect.kind = .randomize
      ∧ error = .unsupportedEffect special.name special.effect.kind
  := by
  rcases kind : special.effect.kind
  case buff | multiply | kiss | reverse | replace =>
    simp only [cast, kind]
    cases arena.board.changeReached caster special <;> simp [Except.map]
  case switch =>
    simp only [cast, kind]
    cases arena.board.tradeReached caster special <;> simp [Except.map]
  case clone =>
    simp only [cast, kind]
    cases arena.board.copyDonor caster special <;> simp [Except.map]
  case wait =>
    simp [cast, kind]
  case flush =>
    simp [cast, kind]
  case randomize =>
    simp [cast, kind, eq_comm]

/-- The special cards met along a list of positions are those that stand there at the
beginning: either all of them are carried out, or those before the first unsupported one. -/
theorem castAlong_cases {positions : List (Nat × Seat)} {arena arena' : Arena}
    {answer : Except GameError (List Resolution)}
    (h : castAlong positions arena = .ok (arena', answer)) :
  (∃ resolutions, answer = .ok resolutions
    ∧ Casts arena (positions.filterMap arena.board.standingAt) resolutions arena')
  ∨ ∃ before culprit after resolutions,
    positions.filterMap arena.board.standingAt = before ++ culprit :: after
    ∧ culprit.IsUnsupported
    ∧ answer = .error (.unsupportedEffect culprit.special.name culprit.special.effect.kind)
    ∧ Casts arena before resolutions arena'
  := by
  induction positions generalizing arena answer with
  | nil =>
    obtain ⟨rfl, rfl⟩ := Prod.mk.inj (Except.ok.inj h)
    left
    exact ⟨[], rfl, .nil arena⟩
  | cons position rest ih =>
    rw [castAlong] at h
    rcases met : arena.specialAt position with _ | special
    · have nothing : arena.board.standingAt position = none := by
        rw [standingAt_eq_map_specialAt, met, Option.map_none]
      rw [List.filterMap_cons_none nothing]
      simp only [met] at h
      apply ih h
    · have found : arena.board.standingAt position = some ⟨position.1, position.2, special⟩ := by
        rw [standingAt_eq_map_specialAt, met, Option.map_some]
      rw [List.filterMap_cons_some found]
      simp only [met] at h
      obtain ⟨outcome, cast, h⟩ := Checked.bind_eq_ok_iff.mp h
      rcases outcome with error | ⟨next, touched⟩
      · obtain ⟨rfl, rfl⟩ := Prod.mk.inj (Except.ok.inj h)
        obtain ⟨unsupported, rfl⟩ := cast_eq_error_iff.mp cast
        right
        exact ⟨[], _, _, [], rfl, unsupported, rfl, .nil arena⟩
      · obtain ⟨⟨last, answer'⟩, along, h⟩ := Checked.bind_eq_ok_iff.mp h
        obtain ⟨rfl, rfl⟩ := Prod.mk.inj (Except.ok.inj h)
        -- the rest of the board is read after the change, but still shows the same specials
        rw [← (altered_cast cast).standingAt]
        rcases ih along with ⟨resolutions, rfl, casts⟩ |
          ⟨before, culprit, after, resolutions, split, unsupported, rfl, casts⟩
        · left
          exact ⟨_, rfl, .cons cast casts⟩
        · right
          rw [split]
          exact ⟨_ :: before, culprit, after, _, rfl, unsupported, rfl, .cons cast casts⟩

/-- Carrying out the special cards of a board carries out those that stand on it at the
beginning, all of them or those before the first unsupported one. -/
theorem castAll_cases {arena arena' : Arena} {answer : Except GameError (List Resolution)}
    (h : arena.castAll = .ok (arena', answer)) :
  (∃ resolutions, answer = .ok resolutions
    ∧ Casts arena arena.board.standing resolutions arena')
  ∨ ∃ before culprit after resolutions,
    arena.board.standing = before ++ culprit :: after
    ∧ culprit.IsUnsupported
    ∧ answer = .error (.unsupportedEffect culprit.special.name culprit.special.effect.kind)
    ∧ Casts arena before resolutions arena'
  := castAlong_cases h

/-- Whatever the answer is, it was some of the special cards of the board that were carried
out. -/
theorem exists_casts_of_castAll {arena arena' : Arena}
    {answer : Except GameError (List Resolution)} (h : arena.castAll = .ok (arena', answer)) :
  ∃ standing resolutions, standing ⊆ arena.board.standing
    ∧ Casts arena standing resolutions arena'
  := by
  obtain ⟨resolutions, -, casts⟩ | ⟨before, culprit, after, resolutions, split, -, -, casts⟩ :=
    castAll_cases h
  · exact ⟨_, resolutions, List.Subset.refl _, casts⟩
  · use before, resolutions
    rw [split]
    exact ⟨List.subset_append_left _ _, casts⟩

/-- Carrying out all special cards of a board alters it at most. -/
theorem altered_castAll {arena arena' : Arena} {answer : Except GameError (List Resolution)}
    (h : arena.castAll = .ok (arena', answer)) :
  arena.board.Altered (fun _ => True) arena'.board
  := by
  obtain ⟨standing, resolutions, -, casts⟩ := exists_casts_of_castAll h
  apply casts.altered.mono
  intro position _
  trivial

end Arena

end CardDuel
