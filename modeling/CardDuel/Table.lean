import CardDuel.Deck
import CardDuel.Goal.Book
import CardDuel.Play.Planner
import CardDuel.Round

/-!
# The table

A `Table` is a whole game: the board, the scoreboard, the hands, the deck, the book of
achievements and the statistics, and one board that was put aside.  A `Move` is anything
that can be done at the table, and `Table.step` does it: it gives the table afterwards and a
`Reply`.
-/

namespace CardDuel

/-- Everything that belongs to a game. -/
structure Table where
  settings : GameSettings
  deck : Deck
  board : Board
  /-- The board that was put aside. -/
  saved : Board
  scores : Scoreboard
  hands : Pair Hand
  book : Goal.Book
  statistics : Statistics := {}

namespace Table

/-- Something that can be done at a table. -/
inductive Move where
  /-- Put a card into a slot. -/
  | place (seat : Seat) (column : Nat) (card : Card)
  /-- Put cards into the slots of a side from left to right, leaving some out. -/
  | fill (seat : Seat) (cards : List (Option Card))
  | take (seat : Seat) (column : Nat)
  | look (seat : Seat) (column : Nat)
  /-- Apply an effect to one card on the board. -/
  | apply (seat : Seat) (column : Nat) (effect : Effect)
  | hold (seat : Seat) (column : Nat)
  /-- Ask about one side of the board and its points. -/
  | survey (seat : Seat)
  | nextRound
  | clear
  | save
  | restore
  /-- Carry out the special cards on the board. -/
  | castAll
  | cast (seat : Seat) (special : Special)
  | resolve
  /-- Score a match between two cards that need not lie on the board. -/
  | scoreMatch (seat : Seat) (mine theirs : Card)
  | setScore (seat : Seat) (suit : String) (points : Int)
  | lookScore (seat : Seat) (suit : String)
  | resetScores
  | deal
  | refill (seat : Seat)
  | flush (seat : Seat)
  | remove (seat : Seat) (card : Card)
  | pop (seat : Seat) (index : Nat)
  /-- Play a card from the hand; a card that is refused is lost. -/
  | playFromHand (seat : Seat) (index column : Nat)
  /-- Let the planner choose and make a play. -/
  | planned (seat : Seat) (settings : PlaySettings)
  /-- Record a game in the statistics. -/
  | record (deck : String) (outcome : Outcome)
  | loadStatistics (text : String)
  | checkGame (seat : Seat)
  | checkRound (seat : Seat)
  /-- Ask about every achievement and its criteria. -/
  | checkEach (seat : Seat)
  | unlock (name : String)
  | isUnlocked (name : String)
  | loadReached (text : String)

/-- What is known about one side of the board and its points. -/
structure SideReport where
  width : Nat
  openColumns : List Nat
  occupied : List (Nat × Card)
  held : List (Nat × Card)
  /-- For each column and one beyond: whether the slot is open. -/
  isOpen : List Bool
  /-- For each column and one beyond: whether the slot is held. -/
  isHeld : List Bool
  isBare : Bool
  total : Int
  suits : List String

/-- Whether an achievement and its criteria hold, at the end of a game and of a round. -/
structure Verdict where
  game : Bool
  round : Bool
  gameCriteria : List Bool
  roundCriteria : List Bool
deriving DecidableEq, Repr

/-- What a planned play came to. -/
structure PlannedPlay where
  value : Int
  indices : List Nat
  /-- Whether every card found its slot open. -/
  placed : Bool
  /-- How many of the cards were found in the hand and taken out. -/
  removed : Nat
deriving DecidableEq, Repr

/-- What a move gives back. -/
inductive Reply where
  | done
  /-- A card was placed, or given back. -/
  | placement (refused : Option Card)
  | flags (flags : List Bool)
  | flag (flag : Bool)
  /-- A flag, if the card asked about exists. -/
  | flag? (flag : Option Bool)
  | card? (card : Option Card)
  | cards (cards : List Card)
  | side (report : SideReport)
  /-- Whether the board put aside was like the one it replaced. -/
  | same (flag : Bool)
  | resolutions (resolutions : List Resolution)
  | touched (count : Nat)
  | round (report : RoundReport)
  | outcome (outcome : Outcome)
  | score (place : Option Nat) (points : Option Int)
  | planned (play : PlannedPlay)
  | warnings (warnings : List Script.Warning)
  | names (names : List String)
  | verdicts (verdicts : List (Except Fault Verdict))
  /-- Whether an achievement is reached and whether a special card may be drawn. -/
  | unlocked (achievement special : Bool)
  | refused (error : GameError)

/-- The board and the hands. -/
def arena (table : Table) : Arena := ⟨table.board, table.hands⟩

/-- The table with another board and other hands. -/
def withArena (table : Table) (arena : Arena) : Table :=
  { table with board := arena.board, hands := arena.hands }

/-- Put cards into the slots of a side from a column on; the flags tell which were placed. -/
def fillFrom (seat : Seat) : Nat → List (Option Card) → Board → Board × List Bool
  | _, [], board => (board, [])
  | column, none :: rest, board => fillFrom seat (column + 1) rest board
  | column, some card :: rest, board =>
    let placed := board.place? seat column card
    let (board, flags) := fillFrom seat (column + 1) rest (placed.getD board)
    (board, placed.isSome :: flags)

/-- What is known about a side. -/
def sideReport (table : Table) (seat : Seat) : Except Fault SideReport := do
  let board := table.board
  let total ← table.scores.total seat
  let columns := List.range (board.width + 1)
  pure
    { width := board.width
      openColumns := board.openColumns seat
      occupied := board.occupied seat
      held := board.held seat
      isOpen := columns.map (board.isOpen seat)
      isHeld := columns.map (board.isHeld seat)
      isBare := board.isBare seat
      total
      suits := table.scores.suits }

/-- Whether an achievement and its criteria hold for a player. -/
def verdict (table : Table) (seat : Seat) (achievement : Goal.Achievement) :
    Except Fault Verdict := do
  let game ← achievement.judge table.scores seat table.statistics
  let gameCriteria ← achievement.criteria.mapM
    (Goal.Criterion.judge table.scores seat table.statistics)
  pure
    { game
      round := achievement.judgeRound table.board seat
      gameCriteria
      roundCriteria := achievement.criteria.map fun criterion =>
        criterion.judgeRound table.board seat }

/-- Take cards out of a hand: the hand, and how many of the cards were found. -/
def removeAll (hand : Hand) (cards : List Card) : Hand × Nat :=
  cards.foldl
    (fun (hand, found) card =>
      let (removed, hand) := hand.remove card
      (hand, found + removed.toList.length))
    (hand, 0)

/-- Make the play that the planner chooses. -/
def stepPlanned (table : Table) (seat : Seat) (settings : PlaySettings) :
    Except Fault (Table × Reply) := do
  let situation : Situation := ⟨(table.hands.get seat).cards, table.board, seat⟩
  match ← situation.bestPlay settings with
  | .error error => pure (table, .refused error)
  | .ok play =>
    let (board, refused) := play.place table.board seat
    let (hand, removed) := removeAll (table.hands.get seat) play.cards
    pure
      ({ table with board, hands := table.hands.set seat hand },
        .planned ⟨play.value, play.indices, refused.isNone, removed⟩)

/-- Change the hand of a seat and reply with a card. -/
def stepHand (table : Table) (seat : Seat) (change : Hand → Option Card × Hand) :
    Table × Reply :=
  let (card, hand) := change (table.hands.get seat)
  ({ table with hands := table.hands.set seat hand }, .card? card)

/-- Play a card from the hand. -/
def stepFromHand (table : Table) (seat : Seat) (index column : Nat) : Table × Reply :=
  let (card, hand) := (table.hands.get seat).pop index
  match card with
  | none => (table, .flag? none)
  | some card =>
    let placed := table.board.place? seat column card
    ({ table with board := placed.getD table.board, hands := table.hands.set seat hand },
      .flag? (some placed.isSome))

/-- Do something at the table. -/
def step (table : Table) : Move → Except Fault (Table × Reply)
  | .place seat column card =>
    .ok (match table.board.place? seat column card with
      | none => (table, .placement (some card))
      | some board => ({ table with board }, .placement none))
  | .fill seat cards =>
    let (board, flags) := fillFrom seat 0 cards table.board
    .ok ({ table with board }, .flags flags)
  | .take seat column =>
    let (card, board) := table.board.take seat column
    .ok ({ table with board }, .card? card)
  | .look seat column => .ok (table, .card? (table.board.card? seat column))
  | .apply seat column effect => do
    match ← table.board.applyAt seat column effect with
    | none => pure (table, .flag? none)
    | some (board, changed) => pure ({ table with board }, .flag? (some changed))
  | .hold seat column => .ok ({ table with board := table.board.hold seat column }, .done)
  | .survey seat => (table.sideReport seat).map fun report => (table, .side report)
  | .nextRound =>
    .ok ({ table with board := table.board.nextRound }, .cards table.board.leaving)
  | .clear => .ok ({ table with board := table.board.cleared }, .done)
  | .save => .ok ({ table with saved := table.board }, .done)
  | .restore =>
    .ok ({ table with board := table.saved }, .same (table.saved.alike table.board))
  | .castAll => do
    let (arena, result) ← table.arena.castAll
    let reply : Reply := match result with
      | .ok resolutions => .resolutions resolutions
      | .error error => .refused error
    pure (table.withArena arena, reply)
  | .cast seat special => do
    match ← table.arena.cast seat special with
    | .ok (arena, touched) => pure (table.withArena arena, .touched touched)
    | .error error => pure (table, .refused error)
  | .resolve => do
    let (arena, scores, result) ← table.arena.resolve table.scores
    let reply : Reply := match result with
      | .ok report => .round report
      | .error error => .refused error
    pure ({ table.withArena arena with scores }, reply)
  | .scoreMatch seat mine theirs => do
    let (scores, outcome) ← table.scores.scoreMatch seat mine theirs
    pure ({ table with scores }, .outcome outcome)
  | .setScore seat suit points =>
    .ok ({ table with scores := table.scores.set seat suit points }, .done)
  | .lookScore seat suit =>
    .ok (table, .score (table.scores.place? suit) (table.scores.points? seat suit))
  | .resetScores => .ok ({ table with scores := table.scores.reset }, .done)
  | .deal =>
    let dealt (seat : Seat) : Hand := table.deck.deal table.settings seat table.book.allows
    .ok ({ table with hands := ⟨dealt .first, dealt .second⟩ }, .done)
  | .refill seat => .ok ({ table with hands := table.hands.modify seat Hand.refill }, .done)
  | .flush seat => .ok ({ table with hands := table.hands.modify seat Hand.flush }, .done)
  | .remove seat card => .ok (table.stepHand seat fun hand => hand.remove card)
  | .pop seat index => .ok (table.stepHand seat fun hand => hand.pop index)
  | .playFromHand seat index column => .ok (table.stepFromHand seat index column)
  | .planned seat settings => table.stepPlanned seat settings
  | .record deck outcome => do
    let statistics ← table.statistics.recordGame deck table.deck.suits outcome
    pure ({ table with statistics }, .done)
  | .loadStatistics text =>
    let parsed := Statistics.read text
    .ok ({ table with statistics := parsed.value }, .warnings parsed.warnings)
  | .checkGame seat => do
    let (book, names) ← table.book.checkGame table.scores seat table.statistics
    pure ({ table with book }, .names names)
  | .checkRound seat => do
    let (book, names) ← table.book.checkRound table.board seat
    pure ({ table with book }, .names names)
  | .checkEach seat =>
    .ok (table, .verdicts (table.book.achievements.map (table.verdict seat)))
  | .unlock name =>
    let (book, fresh) := table.book.unlock name
    .ok ({ table with book }, .flag fresh)
  | .isUnlocked name =>
    .ok (table, .unlocked (table.book.isReached name) (table.book.allows name))
  | .loadReached text =>
    let parsed := table.book.readReached text
    .ok ({ table with book := parsed.value }, .warnings parsed.warnings)

end Table

end CardDuel
