import CardDuel.Proofs.Casting.Counting
import CardDuel.Proofs.Casting.Order

/-!
# Special cards cast twice

A reversal undoes itself on every value, and two cards that have traded their values trade them
back.  If an application sets no bounds, it looks only at suits, which neither of the two effects
changes; so the second time it reaches the same cards as the first time, and every card shows
again what it showed before: `Arena.castEach_twice`.
-/

namespace CardDuel

/-! ### What a board shows -/

/-- The face of the card in a slot, if there is one, and the hold of the slot. -/
def Slot.look (slot : Slot) : Option Face × Hold := (slot.card.map (·.face), slot.hold)

/-- What a board shows, column by column. -/
def Board.look (board : Board) : List (Pair (Option Face × Hold)) :=
  board.columns.map fun slots => slots.map Slot.look

/-- The second of two runs of a rule takes back what the first has done to the look of the
columns. -/
theorem Board.look_of_inColumns_twice {rule : Column → Except Fault (Column × Nat)}
    {board : Board} {once twice : Board × Nat}
    (undoes : ∀ slots ∈ board.columns, ∀ after again, rule slots = .ok after →
      rule after.1 = .ok again → again.1.map Slot.look = slots.map Slot.look)
    (first : board.inColumns rule = .ok once) (second : once.1.inColumns rule = .ok twice) :
  twice.1.look = board.look
  := by
  obtain ⟨results, each, rfl⟩ := forall₂_of_inColumns first
  obtain ⟨results', each', rfl⟩ := forall₂_of_inColumns second
  clear first second
  simp only [look, List.map_map, Function.comp_def]
  simp only [List.forall₂_map_left_iff] at each'
  generalize board.columns = columns at each undoes
  induction each generalizing results' with
  | nil =>
    cases each'
    rfl
  | cons here _ ih =>
    obtain ⟨first, others⟩ := List.forall_mem_cons.mp undoes
    cases each' with
    | cons there later => rw [List.map_cons, List.map_cons, first _ _ here there, ih _ later others]

/-! ### Reversals -/

/-- The value that a reversal makes of another. -/
def Value.reversed : Value → Value
  | win => lose
  | lose => win
  | number n => number (11 - n)
  | value => value

theorem Value.reversed_reversed (value : Value) :
  value.reversed.reversed = value
  := by
  cases value with
  | number n => simp [reversed]
  | _ => rfl

theorem Value.reversed_eq_kiss_iff {value : Value} :
  value.reversed = .kiss ↔ value = .kiss
  := by cases value <;> simp [reversed]

namespace Card

variable {effect : Effect} {card card' : Card} {changed : Bool}

/-- A card that is not immune shows the reversed value after a reversal, and its suit. -/
theorem face_of_apply_reverse (reverses : effect.kind = .reverse) (mutable : card.isImmune = false)
    (h : card.apply effect = .ok (card', changed)) :
  card'.face = { card.face with value := card.face.value.reversed }
  := by
  obtain ⟨answer, after, face⟩ := face_of_apply mutable h
  rw [face]
  obtain ⟨kind, payload⟩ := effect
  obtain rfl : kind = .reverse := reverses
  generalize card.face = shown at after ⊢
  obtain ⟨suit, value⟩ := shown
  cases value with
  | number n =>
    obtain ⟨reflected, subtracted, after⟩ := Checked.bind_eq_ok_iff.mp after
    obtain rfl := Except.ok.inj after
    obtain rfl := (Checked.sub_eq_ok_iff.mp subtracted).2
    rfl
  | _ =>
    obtain rfl := Except.ok.inj after
    rfl

/-- A reversal keeps the suit of a card. -/
theorem resembles_of_apply_reverse (reverses : effect.kind = .reverse)
    (h : card.apply effect = .ok (card', changed)) :
  card.Resembles card'
  := by
  constructor
  · rcases immune : card.isImmune
    · rw [face_of_apply_reverse reverses immune h]
    · rw [(altered_apply h).immune immune]
  · apply (altered_apply h).isSpecial

/-- A second reversal brings back the face that a card showed before the first. -/
theorem face_of_apply_reverse_twice {card'' : Card} {changed' : Bool}
    (reverses : effect.kind = .reverse) (h : card.apply effect = .ok (card', changed))
    (h' : card'.apply effect = .ok (card'', changed')) :
  card''.face = card.face
  := by
  rcases immune : card.isImmune
  · have shown := face_of_apply_reverse reverses immune h
    have mutable : card'.isImmune = false := by
      rw [isImmune, Bool.or_eq_false_iff] at immune ⊢
      rw [(altered_apply h).isSpecial, shown]
      simpa [Value.reversed_eq_kiss_iff] using immune
    rw [face_of_apply_reverse reverses mutable h', shown]
    simp only [Value.reversed_reversed]
  · obtain rfl := (altered_apply h).immune immune
    rw [(altered_apply h').immune immune]

end Card

namespace Special

variable {special : Special} {side : Side} {card facing facing' : Option Card}
  {once twice : Option Card × Nat}

/-- A special card that reverses leaves a card that resembles the one before. -/
theorem resembles_of_changeCard (reverses : special.effect.kind = .reverse)
    (h : special.changeCard side card facing = .ok once) :
  Option.Rel Card.Resembles card once.1
  := by
  unfold changeCard Effect.applyTo at h
  split at h
  · cases card with
    | none =>
      obtain rfl := Except.ok.inj h
      exact .none
    | some card =>
      obtain ⟨⟨card', changed⟩, applied, rfl⟩ := Checked.map_eq_ok_iff.mp h
      exact .some (Card.resembles_of_apply_reverse reverses applied)
  · obtain rfl := Except.ok.inj h
    cases card with
    | none => exact .none
    | some card => exact .some (.refl card)

/-- Cast again on what it left of a card, facing a card that resembles the one it faced before, a
special card that reverses without bounds brings back the face of the card. -/
theorem face_of_changeCard_twice (reverses : special.effect.kind = .reverse)
    (unbounded : special.application.isUnbounded = true)
    (facings : Option.Rel Card.Resembles facing facing')
    (h : special.changeCard side card facing = .ok once)
    (h' : special.changeCard side once.1 facing' = .ok twice) :
  twice.1.map (·.face) = card.map (·.face)
  := by
  have same := Application.reaches_congr unbounded side (resembles_of_changeCard reverses h) facings
  unfold changeCard Effect.applyTo at h h'
  rw [same] at h'
  split at h
  · rename_i reached
    rw [if_pos reached] at h'
    cases card with
    | none =>
      obtain rfl := Except.ok.inj h
      obtain rfl := Except.ok.inj h'
      rfl
    | some card =>
      obtain ⟨⟨card', changed⟩, applied, rfl⟩ := Checked.map_eq_ok_iff.mp h
      obtain ⟨⟨card'', changed'⟩, applied', rfl⟩ := Checked.map_eq_ok_iff.mp h'
      exact congrArg some (Card.face_of_apply_reverse_twice reverses applied applied')
  · rename_i missed
    rw [if_neg missed] at h'
    obtain rfl := Except.ok.inj h
    obtain rfl := Except.ok.inj h'
    rfl

/-- The same for a column, in which the second card is judged against what has become of the
first. -/
theorem look_of_changeColumn_twice {caster : Seat} {slots : Column} {after again : Column × Nat}
    (reverses : special.effect.kind = .reverse)
    (unbounded : special.application.isUnbounded = true)
    (h : special.changeColumn caster slots = .ok after)
    (h' : special.changeColumn caster after.1 = .ok again) :
  again.1.map Slot.look = slots.map Slot.look
  := by
  obtain ⟨⟨first, n⟩, firstChanged, h⟩ := Checked.bind_eq_ok_iff.mp h
  obtain ⟨⟨second, m⟩, secondChanged, h⟩ := Checked.bind_eq_ok_iff.mp h
  obtain rfl := Except.ok.inj h
  obtain ⟨⟨first', n'⟩, firstAgain, h'⟩ := Checked.bind_eq_ok_iff.mp h'
  obtain ⟨⟨second', m'⟩, secondAgain, h'⟩ := Checked.bind_eq_ok_iff.mp h'
  obtain rfl := Except.ok.inj h'
  have firstSame : first'.map (·.face) = slots.first.card.map (·.face) :=
    face_of_changeCard_twice reverses unbounded (resembles_of_changeCard reverses secondChanged)
      firstChanged firstAgain
  have secondSame : second'.map (·.face) = slots.second.card.map (·.face) :=
    face_of_changeCard_twice reverses unbounded (resembles_of_changeCard reverses firstAgain)
      secondChanged secondAgain
  simp only [Pair.map, Slot.look, firstSame, secondSame]

end Special

/-! ### Trades -/

/-- A card that is offered a value in a trade resembles itself afterwards. -/
theorem Card.resembles_tradedFor (card : Card) (value : Value) :
  card.Resembles (card.tradedFor value)
  := by
  unfold tradedFor
  split
  · apply Resembles.refl
  · exact ⟨rfl, rfl⟩

/-- Two standard cards that trade twice show their faces again, unless one of them shows a
kiss. -/
theorem Card.face_tradedFor_twice {mine theirs : Card} (mineStandard : mine.isSpecial = false)
    (theirsStandard : theirs.isSpecial = false) (mineNoKiss : mine.face.value ≠ .kiss)
    (theirsNoKiss : theirs.face.value ≠ .kiss) :
  ((mine.tradedFor theirs.face.value).tradedFor (theirs.tradedFor mine.face.value).face.value).face
    = mine.face
  := by
  obtain ⟨mySuit, myValue⟩ := value_tradedFor mineStandard theirs.face.value
  obtain ⟨-, theirValue⟩ := value_tradedFor theirsStandard mine.face.value
  rw [if_neg mineNoKiss] at myValue
  rw [if_neg theirsNoKiss] at theirValue
  have standard : (mine.tradedFor theirs.face.value).isSpecial = false :=
    (resembles_tradedFor mine _).isSpecial.trans mineStandard
  have mutable : (mine.tradedFor theirs.face.value).isImmune = false := by
    simp [isImmune, standard, myValue, theirsNoKiss]
  rw [face_tradedFor mutable, theirValue]
  simp only [mySuit]

namespace Application

variable {application : Application} {caster : Seat} {slots : Column}

/-- A trade keeps the holds of a column. -/
theorem hold_tradeColumn (application : Application) (caster seat : Seat) (slots : Column) :
  ((application.tradeColumn caster slots).1.get seat).hold = (slots.get seat).hold
  := by
  unfold tradeColumn
  split
  · split
    · cases caster <;> cases seat <;> rfl
    · rfl
  · rfl

/-- Without bounds, cards that resemble two trading cards trade as well. -/
theorem trades_congr (unbounded : application.isUnbounded = true) {mine mine' theirs theirs' : Card}
    (mySide : mine.Resembles mine') (theirSide : theirs.Resembles theirs') :
  application.trades mine' theirs' = application.trades mine theirs
  := by
  unfold trades
  rw [mySide.isSpecial, theirSide.isSpecial,
    reaches_congr unbounded .friendly (.some mySide) (.some theirSide),
    reaches_congr unbounded .enemy (.some theirSide) (.some mySide)]

/-- A column without kisses looks as before when its cards have traded twice. -/
theorem look_of_tradeColumn_twice (unbounded : application.isUnbounded = true)
    (noKiss : ∀ seat card, (slots.get seat).card = some card → card.face.value ≠ .kiss) :
  (application.tradeColumn caster (application.tradeColumn caster slots).1).1.map Slot.look
    = slots.map Slot.look
  := by
  by_cases trading : ∃ mine theirs, application.Trades caster slots mine theirs
  · obtain ⟨mine, theirs, traded⟩ := trading
    obtain ⟨mineAt, theirsAt, -⟩ := traded.tradeColumn
    have again : application.Trades caster (application.tradeColumn caster slots).1
        (mine.tradedFor theirs.face.value) (theirs.tradedFor mine.face.value) :=
      ⟨mineAt, theirsAt, (trades_congr unbounded (mine.resembles_tradedFor _)
        (theirs.resembles_tradedFor _)).trans traded.trades⟩
    obtain ⟨mineAt', theirsAt', -⟩ := again.tradeColumn
    obtain ⟨mineStandard, theirsStandard⟩ := traded.isSpecial
    have mineNoKiss := noKiss caster mine traded.mineAt
    have theirsNoKiss := noKiss caster.opponent theirs traded.theirsAt
    apply Pair.ext_get
    intro seat
    rw [Pair.get_map, Pair.get_map, Slot.look, Slot.look, hold_tradeColumn, hold_tradeColumn]
    congr 1
    by_cases own : seat = caster
    · subst own
      rw [mineAt', traded.mineAt, Option.map_some, Option.map_some,
        Card.face_tradedFor_twice mineStandard theirsStandard mineNoKiss theirsNoKiss]
    · obtain rfl : seat = caster.opponent := by cases seat <;> cases caster <;> trivial
      rw [theirsAt', traded.theirsAt, Option.map_some, Option.map_some,
        Card.face_tradedFor_twice theirsStandard mineStandard theirsNoKiss mineNoKiss]
  · have still : application.tradeColumn caster slots = (slots, 0) := by
      apply tradeColumn_of_not_trades
      intro mine theirs traded
      apply trading ⟨mine, theirs, traded⟩
    rw [still, still]

end Application

/-! ### Casting -/

namespace Board

variable {board : Board} {caster : Seat} {special : Special} {once twice : Board × Nat}

theorem look_of_changeReached_twice (reverses : special.effect.kind = .reverse)
    (unbounded : special.application.isUnbounded = true)
    (first : board.changeReached caster special = .ok once)
    (second : once.1.changeReached caster special = .ok twice) :
  twice.1.look = board.look
  := by
  rw [changeReached_eq] at first second
  apply look_of_inColumns_twice _ first second
  intro slots _ after again
  apply Special.look_of_changeColumn_twice reverses unbounded

theorem look_of_tradeReached_twice (unbounded : special.application.isUnbounded = true)
    (noKiss : ∀ seat column card, board.card? seat column = some card → card.face.value ≠ .kiss)
    (first : board.tradeReached caster special = .ok once)
    (second : once.1.tradeReached caster special = .ok twice) :
  twice.1.look = board.look
  := by
  rw [tradeReached_eq, ← inColumns_ok] at first second
  apply look_of_inColumns_twice _ first second
  intro slots mem after again traded tradedAgain
  obtain rfl := Except.ok.inj traded
  obtain rfl := Except.ok.inj tradedAgain
  apply Application.look_of_tradeColumn_twice unbounded
  intro seat card cardAt
  obtain ⟨column, slotsAt⟩ := List.mem_iff_getElem?.mp mem
  apply noKiss seat column
  rw [card?, slot?, slotsAt]
  apply cardAt

/-- Boards that look alike show the same faces at every position. -/
theorem face_of_look {before after : Board} (h : after.look = before.look) (seat : Seat)
    (column : Nat) :
  (after.card? seat column).map (·.face) = (before.card? seat column).map (·.face)
  := by
  have looks : ∀ board : Board, (board.card? seat column).map (·.face)
      = board.look[column]?.bind fun slots => (slots.get seat).1 := by
    intro board
    simp only [card?, slot?, look, List.getElem?_map]
    cases board.columns[column]? <;> simp [Slot.look]
  rw [looks, looks, h]

/-- Boards that look alike have the same holds. -/
theorem holdAt_of_look {before after : Board} (h : after.look = before.look) (seat : Seat)
    (column : Nat) :
  after.holdAt seat column = before.holdAt seat column
  := by
  have looks : ∀ board : Board, board.holdAt seat column
      = (board.look[column]?.map fun slots => (slots.get seat).2).getD .free := by
    intro board
    simp only [holdAt, slot?, look, List.getElem?_map, Option.map_map]
    congr 2
    funext slots
    simp [Slot.look]
  rw [looks, looks, h]

end Board

namespace Arena

/-- Special cards one after another begin with the first of them, if it is supported. -/
theorem exists_cast_of_castEach_cons {arena : Arena} {caster : Seat} {special : Special}
    {rest : List (Seat × Special)} {answer : Except GameError Arena}
    (supported : special.effect.kind ≠ .randomize)
    (h : arena.castEach ((caster, special) :: rest) = .ok answer) :
  ∃ next touched, arena.cast caster special = .ok (.ok (next, touched))
    ∧ next.castEach rest = .ok answer
  := by
  obtain ⟨outcome, cast, h⟩ := Checked.bind_eq_ok_iff.mp h
  rcases outcome with error | ⟨next, touched⟩
  · exact absurd (cast_eq_error_iff.mp cast).1 supported
  · exact ⟨next, touched, cast, h⟩

/-- If a special card without bounds reverses values, or trades values on a board without kisses,
then a second time it takes back what it did the first time: every card shows the face that it
showed before, unless a number overflows on the way. -/
theorem castEach_twice (arena : Arena) (caster : Seat) (special : Special)
    (unbounded : special.application.isUnbounded = true)
    (undoes : special.effect.kind = .reverse
      ∨ special.effect.kind = .switch ∧ ∀ seat column card,
        arena.board.card? seat column = some card → card.face.value ≠ .kiss)
    (noOverflow : ∀ fault, fault.IsOverflow →
      arena.castEach [(caster, special), (caster, special)] ≠ .error fault) :
  ∃ arena', arena.castEach [(caster, special), (caster, special)] = .ok (.ok arena')
  ∧ arena'.board.width = arena.board.width
  ∧ ∀ seat column,
    (arena'.board.card? seat column).map (·.face) = (arena.board.card? seat column).map (·.face)
    ∧ arena'.board.holdAt seat column = arena.board.holdAt seat column
  := by
  obtain ⟨answer, h⟩ := (onlyOverflows_castEach arena _).exists_ok noOverflow
  have supported : special.effect.kind ≠ .randomize := by
    intro randomizes
    rcases undoes with kind | ⟨kind, -⟩ <;> simp [randomizes] at kind
  obtain ⟨once, touched, first, rest⟩ := exists_cast_of_castEach_cons supported h
  obtain ⟨twice, touched', second, rest⟩ := exists_cast_of_castEach_cons supported rest
  obtain rfl := Except.ok.inj rest
  have same : twice.board.look = arena.board.look := by
    rcases undoes with kind | ⟨kind, noKiss⟩
    · simp only [cast, kind] at first second
      obtain ⟨changed, ok, rfl, -⟩ := onBoard_of_map_eq_ok first
      obtain ⟨changed', ok', rfl, -⟩ := onBoard_of_map_eq_ok second
      apply Board.look_of_changeReached_twice kind unbounded ok ok'
    · simp only [cast, kind] at first second
      obtain ⟨traded, ok, rfl, -⟩ := onBoard_of_map_eq_ok first
      obtain ⟨traded', ok', rfl, -⟩ := onBoard_of_map_eq_ok second
      apply Board.look_of_tradeReached_twice unbounded noKiss ok ok'
  refine ⟨twice, h, (altered_cast second).width.trans (altered_cast first).width, ?_⟩
  intro seat column
  exact ⟨Board.face_of_look same seat column, Board.holdAt_of_look same seat column⟩

/-- A special card that reverses the enemies of the caster that face a Boyfriend. -/
def mood : Special :=
  ⟨"Mood", "", .nothing,
    .test ⟨{ alignment := .enemy }, some (.test (.ofScope { suits := some ["Boyfriend"] }))⟩,
    ⟨.reverse, .none⟩⟩

/-- A win that faces a Boyfriend becomes a loss and then a win again, and a three and a win that
trade twice are a three and a win again. -/
theorem castEach_twice_mood :
  (∃ once twice, bazaar.cast .first mood = .ok (.ok (once, 1))
    ∧ (once.board.card? .second 1).map (·.face) = some ⟨"Ex", .lose⟩
    ∧ bazaar.castEach [(.first, mood), (.first, mood)] = .ok (.ok twice)
    ∧ ∀ seat column, (twice.board.card? seat column).map (·.face)
      = (bazaar.board.card? seat column).map (·.face))
  ∧ ∃ twice, (duel (.number 3) .win).castEach [(.second, swap), (.second, swap)] = .ok (.ok twice)
    ∧ ∀ seat column, (twice.board.card? seat column).map (·.face)
      = ((duel (.number 3) .win).board.card? seat column).map (·.face)
  := by
  constructor
  · have first : bazaar.cast .first mood = .ok (.ok (_, 1)) := rfl
    have both : bazaar.castEach [(.first, mood), (.first, mood)] = .ok (.ok _) := rfl
    obtain ⟨twice, cast, -, same⟩ :=
      castEach_twice bazaar .first mood rfl (.inl rfl) (by simp [both])
    exact ⟨_, twice, first, rfl, cast, fun seat column => (same seat column).1⟩
  · have both : (duel (.number 3) .win).castEach [(.second, swap), (.second, swap)]
        = .ok (.ok _) := rfl
    have noKiss : ∀ seat column card, (duel (.number 3) .win).board.card? seat column = some card →
        card.face.value ≠ .kiss := by
      intro seat column card cardAt
      have inside : column < 1 := Board.lt_width_of_card? cardAt
      obtain rfl := Nat.lt_one_iff.mp inside
      cases seat <;> obtain rfl := Option.some.inj cardAt <;> exact nofun
    obtain ⟨twice, cast, -, same⟩ :=
      castEach_twice _ .second swap rfl (.inr ⟨rfl, noKiss⟩) (by simp [both])
    exact ⟨twice, cast, fun seat column => (same seat column).1⟩

end Arena

end CardDuel
