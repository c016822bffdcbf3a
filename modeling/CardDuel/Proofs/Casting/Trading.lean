import CardDuel.Proofs.Casting.Columns

/-!
# Trading values

A special card that trades values goes through the columns, and in each of them either two
standard cards trade or nothing happens (`Board.tradeReached_eq`).  A card that shows a kiss
refuses the value of the other card, which still takes over the kiss.  So each of two trading
cards shows afterwards the value that the other showed, unless it shows a kiss
(`Arena.cast_trades`).
-/

namespace CardDuel

/-! ### Cards -/

namespace Card

/-- The card after it was offered a value in a trade; an immune card refuses it. -/
def tradedFor (card : Card) (value : Value) : Card :=
  if card.isImmune || card.face.value == value then card
  else { card with face := { card.face with value }, applied := card.applied ++ [.switch] }

variable {card : Card} {value : Value}

theorem apply_tradingFor (card : Card) (value : Value) :
  card.apply (.tradingFor value)
    = .ok (card.tradedFor value, !(card.isImmune || card.face.value == value))
  := by
  obtain ⟨printed, ⟨suit, shown⟩, applied, special⟩ := card
  unfold apply tradedFor
  rcases isImmune ⟨printed, ⟨suit, shown⟩, applied, special⟩
  · by_cases same : shown = value
    · simp [faceAfter, Effect.tradingFor, same, pure, Except.pure]
    · simp [faceAfter, Effect.tradingFor, same, Ne.symm same, pure, Except.pure]
  · simp

/-- An immune card keeps its value. -/
theorem tradedFor_of_isImmune (immune : card.isImmune = true) (value : Value) :
  card.tradedFor value = card
  := by simp [tradedFor, immune]

/-- Any other card takes over the value and keeps its suit. -/
theorem face_tradedFor (mutable : card.isImmune = false) (value : Value) :
  (card.tradedFor value).face = { card.face with value }
  := by
  unfold tradedFor
  by_cases same : card.face.value = value
  · subst same
    simp
  · simp [mutable, same]

end Card

/-! ### Columns -/

namespace Application

/-- Whether an application makes two cards of a column trade, the first of which lies on the side
of the caster: both are standard cards, and it reaches one of them as it faces the other. -/
def trades (application : Application) (mine theirs : Card) : Bool :=
  !mine.isSpecial && !theirs.isSpecial
    && (application.reaches .friendly (some mine) (some theirs)
      || application.reaches .enemy (some theirs) (some mine))

/-- A column after its cards have traded, if they do, and the number of cards counted. -/
def tradeColumn (application : Application) (caster : Seat) (slots : Column) : Column × Nat :=
  match (slots.get caster).card, (slots.get caster.opponent).card with
  | some mine, some theirs =>
    if application.trades mine theirs then
      let slots := slots.modify caster fun slot =>
        { slot with card := some (mine.tradedFor theirs.face.value) }
      (slots.modify caster.opponent fun slot =>
        { slot with card := some (theirs.tradedFor mine.face.value) }, 2)
    else (slots, 0)
  | _, _ => (slots, 0)

/-- The cards of the caster and of the opponent in a column trade. -/
structure Trades (application : Application) (caster : Seat) (slots : Column)
    (mine theirs : Card) : Prop where
  mineAt : (slots.get caster).card = some mine
  theirsAt : (slots.get caster.opponent).card = some theirs
  trades : application.trades mine theirs = true

variable {application : Application} {caster : Seat} {slots : Column} {mine theirs : Card}

namespace Trades

theorem isSpecial (h : application.Trades caster slots mine theirs) :
  mine.isSpecial = false ∧ theirs.isSpecial = false
  := by
  have trades := h.trades
  simp only [Application.trades, Bool.and_eq_true, Bool.not_eq_true'] at trades
  exact trades.1

/-- What two trading cards leave in their column. -/
theorem tradeColumn (h : application.Trades caster slots mine theirs) :
  ((application.tradeColumn caster slots).1.get caster).card
      = some (mine.tradedFor theirs.face.value)
    ∧ ((application.tradeColumn caster slots).1.get caster.opponent).card
      = some (theirs.tradedFor mine.face.value)
    ∧ (application.tradeColumn caster slots).2 = 2
  := by simp [Application.tradeColumn, h.mineAt, h.theirsAt, h.trades]

end Trades

/-- A column without trading cards stays as it is. -/
theorem tradeColumn_of_not_trades
    (h : ∀ mine theirs, ¬ application.Trades caster slots mine theirs) :
  application.tradeColumn caster slots = (slots, 0)
  := by
  unfold tradeColumn
  split
  · rename_i mine theirs mineAt theirsAt
    apply if_neg
    intro trades
    apply h mine theirs ⟨mineAt, theirsAt, trades⟩
  · rfl

end Application

namespace Board

/-- A rule that never fails changes each column into what it says. -/
theorem inColumns_ok (rule : Column → Column × Nat) (board : Board) :
  board.inColumns (fun slots => .ok (rule slots))
    = .ok (⟨board.columns.map fun slots => (rule slots).1⟩,
        (board.columns.map fun slots => (rule slots).2).sum)
  := by
  have mapped : board.columns.mapM (fun slots => (.ok (rule slots) : Except Fault (Column × Nat)))
      = .ok (board.columns.map rule) := List.mapM_pure ..
  rw [inColumns, mapped]
  simp [Except.map, Function.comp_def]

theorem trade_middle (left right : List Column) (slots : Column) (caster : Seat)
    (mine theirs : Card) :
  (Board.mk (left ++ slots :: right)).trade caster left.length mine theirs
    = .ok ⟨left ++ (slots.modify caster fun slot =>
        { slot with card := some (mine.tradedFor theirs.face.value) }).modify caster.opponent
          (fun slot => { slot with card := some (theirs.tradedFor mine.face.value) }) :: right⟩
  := by simp [trade, Card.apply_tradingFor, pure, Except.pure]

/-- Trading in every column that is reached is a rule for columns, and never fails. -/
theorem tradeReached_eq (board : Board) (caster : Seat) (special : Special) :
  board.tradeReached caster special
    = .ok (⟨board.columns.map fun slots => (special.application.tradeColumn caster slots).1⟩,
        (board.columns.map fun slots => (special.application.tradeColumn caster slots).2).sum)
  := by
  rw [← inColumns_ok, tradeReached]
  apply foldlM_range_width
  intro left slots right touched
  simp only [card?_middle, isReached_middle, Seat.sideFor_self, Seat.sideFor_opponent,
    Seat.opponent_opponent, Application.tradeColumn]
  rcases (slots.get caster).card with _ | mine
  · rfl
  · rcases (slots.get caster.opponent).card with _ | theirs
    · rfl
    · dsimp only
      rw [trade_middle, Application.trades]
      rcases mine.isSpecial <;> rcases theirs.isSpecial <;>
        rcases special.application.reaches .friendly (some mine) (some theirs) <;>
        rcases special.application.reaches .enemy (some theirs) (some mine) <;>
        rfl

end Board

/-! ### Casting -/

/-- A standard card that is offered a value in a trade takes it over, unless it shows a kiss. -/
theorem Card.value_tradedFor {card : Card} (standard : card.isSpecial = false) (value : Value) :
  (card.tradedFor value).face.suit = card.face.suit
    ∧ (card.tradedFor value).face.value = if card.face.value = .kiss then .kiss else value
  := by
  by_cases kiss : card.face.value = .kiss
  · rw [tradedFor_of_isImmune (by simp [isImmune, kiss])]
    simp [kiss]
  · rw [face_tradedFor (by simp [isImmune, standard, kiss])]
    simp [kiss]

namespace Arena

/-- A special card that trades values is always carried out, column by column.  If two cards of a
column trade, both keep their suits, and each shows afterwards the value that the other showed,
or still a kiss if it showed one.  Every other column stays as it is. -/
theorem cast_trades (arena : Arena) (caster : Seat) (special : Special)
    (trading : special.effect.kind = .switch) :
  ∃ arena' touched, arena.cast caster special = .ok (.ok (arena', touched))
  ∧ arena'.board.width = arena.board.width
  ∧ ∀ (column : Nat) slots, arena.board.columns[column]? = some slots →
    ∃ slots', arena'.board.columns[column]? = some slots'
      ∧ (∀ mine theirs, special.application.Trades caster slots mine theirs →
        ∃ mine' theirs', (slots'.get caster).card = some mine'
          ∧ (slots'.get caster.opponent).card = some theirs'
          ∧ mine'.face.suit = mine.face.suit
          ∧ theirs'.face.suit = theirs.face.suit
          ∧ mine'.face.value = (if mine.face.value = .kiss then .kiss else theirs.face.value)
          ∧ theirs'.face.value = (if theirs.face.value = .kiss then .kiss else mine.face.value))
      ∧ ((∀ mine theirs, ¬ special.application.Trades caster slots mine theirs) →
        slots' = slots)
  := by
  simp only [cast, trading, Board.tradeReached_eq]
  refine ⟨_, _, rfl, List.length_map .., ?_⟩
  intro column slots slotsAt
  refine ⟨(special.application.tradeColumn caster slots).1, by simp [slotsAt], ?_, ?_⟩
  · intro mine theirs trades
    obtain ⟨mineAt, theirsAt, -⟩ := trades.tradeColumn
    obtain ⟨mySuit, myValue⟩ := Card.value_tradedFor trades.isSpecial.1 theirs.face.value
    obtain ⟨theirSuit, theirValue⟩ := Card.value_tradedFor trades.isSpecial.2 mine.face.value
    exact ⟨_, _, mineAt, theirsAt, mySuit, theirSuit, myValue, theirValue⟩
  · intro none
    rw [Application.tradeColumn_of_not_trades none]

/-- A special card that trades the values of any two cards. -/
def swap : Special := ⟨"Swap", "", .nothing, .any, ⟨.switch, .none⟩⟩

/-- The special card against a five, a three against a win, and a kiss against an eight. -/
def bazaar : Arena where
  board := ⟨[
    ⟨{ card := some (.ofSpecial swap) }, { card := some (.standard "Ex" (.number 5)) }⟩,
    ⟨{ card := some (.standard "Boyfriend" (.number 3)) },
      { card := some (.standard "Ex" .win), hold := .held }⟩,
    ⟨{ card := some (.standard "Girlfriend" .kiss) },
      { card := some (.standard "Ex" (.number 8)) }⟩]⟩
  hands := Pair.both {}

/-- The three becomes a win and the win a three, and the five that faces a special card stays. -/
theorem cast_trades_bazaar :
  ∃ arena slots mine theirs, bazaar.cast .first swap = .ok (.ok (arena, 4))
    ∧ arena.board.columns[1]? = some slots
    ∧ slots.first.card = some mine ∧ mine.face.suit = "Boyfriend" ∧ mine.face.value = .win
    ∧ slots.second.card = some theirs ∧ theirs.face.suit = "Ex" ∧ theirs.face.value = .number 3
    ∧ arena.board.columns[0]? = bazaar.board.columns[0]?
  := by
  have cast : bazaar.cast .first swap = .ok (.ok (_, 4)) := rfl
  obtain ⟨arena, touched, same, -, columns⟩ := cast_trades bazaar .first swap rfl
  rw [cast] at same
  obtain ⟨rfl, rfl⟩ := Prod.mk.inj (Except.ok.inj (Except.ok.inj same))
  obtain ⟨slots, slotsAt, trade, -⟩ := columns 1 _ rfl
  obtain ⟨mine, theirs, mineAt, theirsAt, mySuit, theirSuit, myValue, theirValue⟩ :=
    trade _ _ ⟨rfl, rfl, rfl⟩
  obtain ⟨untouched, untouchedAt, -, stays⟩ := columns 0 _ rfl
  have apart : ∀ mine theirs,
      ¬ swap.application.Trades .first bazaar.board.columns[0] mine theirs := by
    rintro mine theirs ⟨mineAt, -, trades⟩
    obtain rfl := Option.some.inj mineAt
    simp [Application.trades, Card.ofSpecial, Card.isSpecial] at trades
  exact ⟨_, slots, mine, theirs, cast, slotsAt, mineAt, mySuit, myValue, theirsAt, theirSuit,
    theirValue, untouchedAt.trans (congrArg some (stays apart))⟩

/-- A kiss and an eight trade, but both show a kiss afterwards. -/
theorem bazaar_kiss_refuses :
  ∃ arena mine theirs slots, bazaar.cast .first swap = .ok (.ok (arena, 4))
    ∧ swap.application.Trades .first slots mine theirs
    ∧ bazaar.board.columns[2]? = some slots
    ∧ mine.face.value = .kiss ∧ theirs.face.value = .number 8
    ∧ (arena.board.card? .first 2).map (·.face.value) = some .kiss
    ∧ (arena.board.card? .second 2).map (·.face.value) = some .kiss
  := ⟨_, _, _, _, rfl, ⟨rfl, rfl, rfl⟩, rfl, rfl, rfl, rfl, rfl⟩

end Arena

end CardDuel
