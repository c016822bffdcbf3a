import CardDuel.Proofs.Casting.Alteration
import CardDuel.Proofs.Reach
import Mathlib.Algebra.GroupWithZero.Nat
import Mathlib.Data.List.Forall2
import Mathlib.Data.Option.Basic

/-!
# Column by column

A special card goes through the columns of the board one after another, and what it does in a
column depends on that column alone.  So going along the board amounts to a rule for single
columns (`Board.foldlM_range_width`).  For a special card that applies its effect to the cards
it reaches, this is the rule of `Special.changeColumn`: the first seat is judged against the
card that faces it, and the second against the card that the first then shows.  If no aim looks
at facing cards, all cards are judged by the board as it was (`Arena.cast_columnwise`).
-/

namespace CardDuel

/-- The results of a checked map correspond to its arguments one by one. -/
theorem Checked.forall₂_of_mapM {α β : Type} {f : α → Except Fault β} {as : List α} {bs : List β}
    (h : as.mapM f = .ok bs) :
  List.Forall₂ (fun a b => f a = .ok b) as bs
  := by
  induction as generalizing bs with
  | nil =>
    obtain rfl := Except.ok.inj h
    exact .nil
  | cons a rest ih =>
    rw [List.mapM_cons, bind_eq_ok_iff] at h
    obtain ⟨b, first, h⟩ := h
    obtain ⟨others, later, h⟩ := bind_eq_ok_iff.mp h
    obtain rfl := Except.ok.inj h
    exact .cons first (ih later)

namespace Board

/-- Carry out a rule in every column: the board afterwards, and the sum of what the rule counts
in each column. -/
def inColumns (rule : Column → Except Fault (Column × Nat)) (board : Board) :
    Except Fault (Board × Nat) :=
  (board.columns.mapM rule).map fun results => (⟨results.map (·.1)⟩, (results.map (·.2)).sum)

/-! ### One column of many -/

section

variable (left right : List Column) (slots : Column) (seat : Seat)

@[simp]
theorem slot?_middle :
  (Board.mk (left ++ slots :: right)).slot? seat left.length = some (slots.get seat)
  := by simp [slot?]

@[simp]
theorem card?_middle :
  (Board.mk (left ++ slots :: right)).card? seat left.length = (slots.get seat).card
  := by simp [card?]

@[simp]
theorem setCard_middle (card : Option Card) :
  (Board.mk (left ++ slots :: right)).setCard seat left.length card
    = ⟨left ++ slots.modify seat (fun slot => { slot with card }) :: right⟩
  := by
  unfold setCard modifySlot
  rw [List.modify_eq_take_cons_drop (by simp)]
  simp

@[simp]
theorem isReached_middle (application : Application) (caster : Seat) :
  (Board.mk (left ++ slots :: right)).isReached application caster (left.length, seat)
    = application.reaches (caster.sideFor seat) (slots.get seat).card
        (slots.get seat.opponent).card
  := by simp [isReached]

end

/-! ### Going along the board -/

section

variable {step : Board × Nat → Nat → Except Fault (Board × Nat)}
  {rule : Column → Except Fault (Column × Nat)}

/-- A step does in its column what a rule says, wherever the column stands. -/
def Follows (step : Board × Nat → Nat → Except Fault (Board × Nat))
    (rule : Column → Except Fault (Column × Nat)) : Prop :=
  ∀ left slots right touched, step (⟨left ++ slots :: right⟩, touched) left.length
    = (rule slots).map fun after => (⟨left ++ after.1 :: right⟩, touched + after.2)

/-- Steps along the columns on the right do in each of them what the rule says. -/
theorem foldlM_range' (follows : Follows step rule) (left right : List Column) (touched : Nat) :
  (List.range' left.length right.length).foldlM step (⟨left ++ right⟩, touched)
    = (right.mapM rule).map fun results =>
        (⟨left ++ results.map (·.1)⟩, touched + (results.map (·.2)).sum)
  := by
  induction right generalizing left touched with
  | nil => rfl
  | cons slots rest ih =>
    rw [List.length_cons, List.range'_succ, List.foldlM_cons, List.mapM_cons, follows]
    rcases rule slots with fault | ⟨after, counted⟩
    · rfl
    · have shifted := ih (left ++ [after]) (touched + counted)
      rw [List.length_append, List.append_assoc, List.length_singleton] at shifted
      simp only [Except.map, Checked.ok_bind]
      rw [← List.singleton_append, shifted]
      cases rest.mapM rule with
      | error fault => rfl
      | ok results => simp [Except.map, Nat.add_assoc, pure, Except.pure]

/-- Going along all columns carries out the rule in every column. -/
theorem foldlM_range_width (follows : Follows step rule) (board : Board) :
  (List.range board.width).foldlM step (board, 0) = board.inColumns rule
  := by
  have along := foldlM_range' follows [] board.columns 0
  simp only [List.length_nil, ← List.range_eq_range', List.nil_append, Nat.zero_add] at along
  apply along

end

/-- Going along the positions is going along the columns and looking at both seats in each. -/
theorem foldlM_positions {β : Type} (step : β → Nat × Seat → Except Fault β) (board : Board)
    (start : β) :
  board.positions.foldlM step start
    = (List.range board.width).foldlM
        (fun state column => do
          let state ← step state (column, .first)
          step state (column, .second))
        start
  := by
  unfold positions
  induction List.range board.width generalizing start with
  | nil => rfl
  | cons column rest ih =>
    rw [List.flatMap_cons, List.foldlM_append, List.foldlM_cons]
    simp only [ih]
    simp only [Seat.all, List.map_cons, List.map_nil, List.foldlM_cons, List.foldlM_nil, bind_pure]

/-- What a rule has done in every column. -/
theorem forall₂_of_inColumns {rule : Column → Except Fault (Column × Nat)} {board : Board}
    {result : Board × Nat} (h : board.inColumns rule = .ok result) :
  ∃ results, List.Forall₂ (fun slots after => rule slots = .ok after) board.columns results
    ∧ result = (⟨results.map (·.1)⟩, (results.map (·.2)).sum)
  := by
  obtain ⟨results, mapped, rfl⟩ := Checked.map_eq_ok_iff.mp h
  exact ⟨results, Checked.forall₂_of_mapM mapped, rfl⟩

end Board

/-! ### Effects on a column -/

/-- The card in a slot after an effect, if there is one.  The number is one if its face has
changed. -/
def Effect.applyTo (effect : Effect) : Option Card → Except Fault (Option Card × Nat)
  | none => .ok (none, 0)
  | some card => (card.apply effect).map fun after => (some after.1, after.2.toNat)

namespace Special

/-- The card in a slot after a special card, given the card that faces it: the effect is applied
to it if it is reached, and else it stays. -/
def changeCard (special : Special) (side : Side) (card facing : Option Card) :
    Except Fault (Option Card × Nat) :=
  if special.application.reaches side card facing then special.effect.applyTo card
  else .ok (card, 0)

/-- A column after a special card.  The card of the first seat is judged as it faces the other
card of the column, and that of the second as it faces what has become of the first. -/
def changeColumn (special : Special) (caster : Seat) (slots : Column) :
    Except Fault (Column × Nat) := do
  let (first, n) ← special.changeCard (caster.sideFor .first) slots.first.card slots.second.card
  let (second, m) ← special.changeCard (caster.sideFor .second) slots.second.card first
  pure (⟨{ slots.first with card := first }, { slots.second with card := second }⟩, n + m)

/-- A column after a special card that judges both cards as they lay there before. -/
def changeColumnAtOnce (special : Special) (caster : Seat) (slots : Column) :
    Except Fault (Column × Nat) := do
  let (first, n) ← special.changeCard (caster.sideFor .first) slots.first.card slots.second.card
  let (second, m) ← special.changeCard (caster.sideFor .second) slots.second.card slots.first.card
  pure (⟨{ slots.first with card := first }, { slots.second with card := second }⟩, n + m)

variable {special : Special}

/-- If facing cards are ignored, it does not matter which card faces another. -/
theorem changeCard_of_ignoresFacing (ignores : special.application.IgnoresFacing) (side : Side)
    (card facing facing' : Option Card) :
  special.changeCard side card facing = special.changeCard side card facing'
  := by rw [changeCard, changeCard, ignores.reaches_eq side card facing facing']

theorem changeColumn_of_ignoresFacing (ignores : special.application.IgnoresFacing)
    (caster : Seat) :
  special.changeColumn caster = special.changeColumnAtOnce caster
  := by
  funext slots
  unfold changeColumn changeColumnAtOnce
  congr 1
  funext ⟨first, n⟩
  dsimp only
  rw [changeCard_of_ignoresFacing ignores _ _ first slots.first.card]

end Special

namespace Board

/-- Writing back the card of a slot changes nothing. -/
theorem modify_card_self (slots : Column) (seat : Seat) :
  slots.modify seat (fun slot => { slot with card := (slots.get seat).card }) = slots
  := by cases seat <;> rfl

/-- An effect on one position of a column. -/
theorem changeAt_middle (effect : Effect) (left right : List Column) (slots : Column)
    (touched : Nat) (seat : Seat) :
  changeAt effect (⟨left ++ slots :: right⟩, touched) (left.length, seat)
    = (effect.applyTo (slots.get seat).card).map fun after =>
        (⟨left ++ slots.modify seat (fun slot => { slot with card := after.1 }) :: right⟩,
          touched + after.2)
  := by
  have same := modify_card_self slots seat
  rw [changeAt, applyAt]
  simp only [card?_middle]
  rcases cardAt : (slots.get seat).card with _ | card
  · rw [cardAt] at same
    simp [Effect.applyTo, Except.map, same, pure, Except.pure]
  · simp only [Effect.applyTo]
    rcases card.apply effect with fault | ⟨after, changed⟩
    · rfl
    · simp only [Checked.ok_bind, setCard_middle]
      rfl

/-- Visiting one position of a column does to its card what the special card makes of it. -/
theorem visit_middle (special : Special) (caster : Seat) (left right : List Column)
    (slots : Column) (touched : Nat) (seat : Seat) :
  (if (Board.mk (left ++ slots :: right)).isReached special.application caster (left.length, seat)
    then changeAt special.effect (⟨left ++ slots :: right⟩, touched) (left.length, seat)
    else pure (⟨left ++ slots :: right⟩, touched))
    = (special.changeCard (caster.sideFor seat) (slots.get seat).card
        (slots.get seat.opponent).card).map fun after =>
          (⟨left ++ slots.modify seat (fun slot => { slot with card := after.1 }) :: right⟩,
            touched + after.2)
  := by
  rw [isReached_middle, Special.changeCard]
  split
  · apply changeAt_middle
  · simp [Except.map, modify_card_self, pure, Except.pure]

/-- Applying an effect to what is reached, position by position, is a rule for columns. -/
theorem changeReached_eq (board : Board) (caster : Seat) (special : Special) :
  board.changeReached caster special = board.inColumns (special.changeColumn caster)
  := by
  rw [changeReached, foldlM_positions]
  apply foldlM_range_width
  intro left slots right touched
  rw [Special.changeColumn]
  dsimp only
  rw [visit_middle]
  simp only [Pair.get, Seat.opponent]
  rcases special.changeCard (caster.sideFor .first) slots.first.card slots.second.card
    with fault | ⟨first, n⟩
  · rfl
  · simp only [Except.map, Checked.ok_bind]
    rw [visit_middle]
    simp only [Pair.get, Pair.modify, Seat.opponent]
    rcases special.changeCard (caster.sideFor .second) slots.second.card first
      with fault | ⟨second, m⟩
    · rfl
    · simp [Except.map, pure, Except.pure, Nat.add_assoc]

end Board

/-! ### Casting -/

namespace Arena

/-- A special card that applies its effect to what it reaches changes each column for itself.  The
card of the first seat is judged against the card that faces it before, and that of the second
seat against what the first shows afterwards; holds and hands stay, and the same overflows occur.
If no aim asks anything of a facing card, the outcome is that of judging all cards by the board as
it was, and of changing all that are reached at once. -/
theorem cast_columnwise (arena : Arena) (caster : Seat) (special : Special)
    (changes : special.effect.kind ∈
      ([.buff, .multiply, .kiss, .reverse, .replace] : List Effect.Kind)) :
  arena.cast caster special
    = (arena.board.inColumns (special.changeColumn caster)).map (fun result =>
        .ok ({ arena with board := result.1 }, result.2))
  ∧ (special.application.IgnoresFacing →
    arena.cast caster special
      = (arena.board.inColumns (special.changeColumnAtOnce caster)).map (fun result =>
          .ok ({ arena with board := result.1 }, result.2)))
  := by
  have columnwise : arena.cast caster special
      = (arena.board.inColumns (special.changeColumn caster)).map fun result =>
          .ok ({ arena with board := result.1 }, result.2) := by
    rw [← Board.changeReached_eq]
    rcases kind : special.effect.kind
    case buff | multiply | kiss | reverse | replace =>
      simp only [cast, kind]
    all_goals
      rw [kind] at changes
      simp at changes
  refine ⟨columnwise, ?_⟩
  intro ignores
  rw [columnwise, Special.changeColumn_of_ignoresFacing ignores]

/-- A buff of three for every card that faces a number up to five. -/
def envy : Special :=
  ⟨"Envy", "", .nothing, .test ⟨{}, some (.test (.ofScope { max := some 5 }))⟩, .adding 3⟩

/-- A buff of three for every number up to five. -/
def comfort : Special :=
  ⟨"Comfort", "", .nothing, .test (.ofScope { max := some 5 }), .adding 3⟩

/-- A four against a held five, and a two against nothing. -/
def envyArena : Arena where
  board := ⟨[
    ⟨{ card := some (.standard "Boyfriend" (.number 4)) },
      { card := some (.standard "Ex" (.number 5)), hold := .held }⟩,
    ⟨{}, { card := some (.standard "Ex" (.number 2)) }⟩]⟩
  hands := Pair.both {}

/-- The four grows as it faces a five, but the five then faces a seven and does not grow.  If
facing cards are ignored, all three numbers grow. -/
theorem cast_columnwise_envy :
  (∃ board, envyArena.cast .first envy = .ok (.ok ({ envyArena with board }, 1))
    ∧ envyArena.board.inColumns (envy.changeColumn .first) = .ok (board, 1)
    ∧ (board.card? .first 0).map (·.face) = some ⟨"Boyfriend", .number 7⟩
    ∧ (board.card? .second 0).map (·.face) = some ⟨"Ex", .number 5⟩)
  ∧ ∃ board, envyArena.cast .second comfort = .ok (.ok ({ envyArena with board }, 3))
    ∧ envyArena.board.inColumns (comfort.changeColumnAtOnce .second) = .ok (board, 3)
    ∧ (board.card? .first 0).map (·.face) = some ⟨"Boyfriend", .number 7⟩
    ∧ (board.card? .second 0).map (·.face) = some ⟨"Ex", .number 8⟩
  := by
  constructor
  · have changed : envyArena.board.inColumns (envy.changeColumn .first) = .ok (_, 1) := rfl
    have cast := (cast_columnwise envyArena .first envy (by decide)).1
    rw [changed] at cast
    exact ⟨_, cast, changed, rfl, rfl⟩
  · have changed : envyArena.board.inColumns (comfort.changeColumnAtOnce .second) = .ok (_, 3) :=
      rfl
    have cast := (cast_columnwise envyArena .second comfort (by decide)).2
      (by simp [Application.IgnoresFacing, comfort, Aim.ofScope, Aim.opposite])
    rw [changed] at cast
    exact ⟨_, cast, changed, rfl, rfl⟩

end Arena

end CardDuel
