import CardDuel.Proofs.Casting.Overflow
import CardDuel.Proofs.Casting.Trading
import Mathlib.Algebra.Order.BigOperators.Group.List
import Mathlib.Algebra.Order.Group.Nat

/-!
# Counting what has changed

A special card that acts on the cards of the board reports how many of them it has touched.
The report is true if it is the number of positions that show another face than before
(`Board.countChanged`).  An effect that is applied to a card counts it exactly if its face has
changed, and so do copies of a donor.  A trade however counts both of its cards, even if one of
them refuses the value that it is offered, or shows it already.  So the report of a special card
that trades values may be too high, and no other report is ever wrong
(`Arena.touched_eq_countChanged_iff`).
-/

namespace CardDuel

/-! ### Faces before and after -/

/-- Whether a slot shows another face than before. -/
def showsOther (before after : Option Card) : Bool :=
  before.map (·.face) != after.map (·.face)

@[simp]
theorem showsOther_self (card : Option Card) :
  showsOther card card = false
  := by simp [showsOther]

@[simp]
theorem showsOther_some (before after : Card) :
  showsOther (some before) (some after) = (before.face != after.face)
  := by
  rw [Bool.eq_iff_iff]
  simp [showsOther]

namespace Board

/-- The number of positions that show another face than before. -/
def countChanged (before after : Board) : Nat :=
  before.positions.countP fun position =>
    showsOther (before.card? position.2 position.1) (after.card? position.2 position.1)

/-- The number of slots of a column that show another face than before. -/
def countChangedIn (before after : Column) : Nat :=
  (showsOther before.first.card after.first.card).toNat
    + (showsOther before.second.card after.second.card).toNat

theorem countChangedIn_self (slots : Column) :
  countChangedIn slots slots = 0
  := by simp [countChangedIn]

/-- Which seat is looked at first makes no difference. -/
theorem countChangedIn_eq (before after : Column) (seat : Seat) :
  countChangedIn before after
    = (showsOther (before.get seat).card (after.get seat).card).toNat
      + (showsOther (before.get seat.opponent).card (after.get seat.opponent).card).toNat
  := by
  cases seat
  · rfl
  · apply Nat.add_comm

/-- Changes are counted column by column. -/
theorem countChanged_eq_sum {before after : Board} (widths : after.width = before.width) :
  before.countChanged after
    = (List.zipWith countChangedIn before.columns after.columns).sum
  := by
  rw [countChanged, positions, List.countP_flatMap]
  congr 1
  unfold width at widths ⊢
  apply List.ext_getElem
  · simp [widths]
  · intro column _ inside
    rw [List.length_zipWith, widths, Nat.min_self] at inside
    have inside' : column < after.columns.length := by omega
    simp [Seat.all, countChangedIn, card?, slot?, inside, inside', List.countP_cons, Pair.get,
      Nat.add_comm]
    rcases showsOther before.columns[column].first.card after.columns[column].first.card <;>
      rcases showsOther before.columns[column].second.card after.columns[column].second.card <;>
      rfl

/-! ### Rules that count what they change -/

/-- A rule for columns counts the slots that show another face afterwards. -/
def CountsChanges (rule : Column → Except Fault (Column × Nat)) : Prop :=
  ∀ slots after, rule slots = .ok after → countChangedIn slots after.1 = after.2

theorem countChanged_of_inColumns {rule : Column → Except Fault (Column × Nat)}
    (counts : CountsChanges rule) {board : Board} {result : Board × Nat}
    (h : board.inColumns rule = .ok result) :
  board.countChanged result.1 = result.2
  := by
  obtain ⟨results, each, rfl⟩ := forall₂_of_inColumns h
  rw [countChanged_eq_sum (by simp [width, each.length_eq])]
  congr 1
  dsimp only
  clear h
  generalize board.columns = columns at each
  induction each with
  | nil => rfl
  | cons first _ ih => simp [counts _ _ first, ih]

end Board

/-- An effect counts a card exactly if its face has changed. -/
theorem Effect.count_of_applyTo {effect : Effect} {card : Option Card}
    {after : Option Card × Nat} (h : effect.applyTo card = .ok after) :
  (showsOther card after.1).toNat = after.2
  := by
  cases card with
  | none =>
    obtain rfl := Except.ok.inj h
    rfl
  | some card =>
    obtain ⟨⟨card', changed⟩, applied, rfl⟩ := Checked.map_eq_ok_iff.mp h
    obtain ⟨rfl, rfl⟩ | ⟨face, -, -, other, rfl, rfl⟩ := Card.apply_cases applied
    · simp
    · simp [other.symm]

namespace Special

variable {special : Special}

theorem count_of_changeCard {side : Side} {card facing : Option Card} {after : Option Card × Nat}
    (h : special.changeCard side card facing = .ok after) :
  (showsOther card after.1).toNat = after.2
  := by
  unfold changeCard at h
  split at h
  · apply Effect.count_of_applyTo h
  · obtain rfl := Except.ok.inj h
    simp

theorem countsChanges_changeColumn (special : Special) (caster : Seat) :
  Board.CountsChanges (special.changeColumn caster)
  := by
  intro slots after h
  obtain ⟨⟨first, n⟩, here, h⟩ := Checked.bind_eq_ok_iff.mp h
  obtain ⟨⟨second, m⟩, there, h⟩ := Checked.bind_eq_ok_iff.mp h
  obtain rfl := Except.ok.inj h
  have first := count_of_changeCard here
  have second := count_of_changeCard there
  dsimp only at first second
  simp only [Board.countChangedIn, first, second]

end Special

/-! ### Copies -/

/-- A column after a donor was copied to the card of the caster. -/
def Face.copyInto (donor : Face) (caster : Seat) (slots : Column) : Except Fault (Column × Nat) :=
  ((Effect.copying donor).applyTo (slots.get caster).card).map fun after =>
    (slots.modify caster fun slot => { slot with card := after.1 }, after.2)

theorem Face.countsChanges_copyInto (donor : Face) (caster : Seat) :
  Board.CountsChanges (donor.copyInto caster)
  := by
  intro slots after h
  obtain ⟨⟨card, n⟩, copied, rfl⟩ := Checked.map_eq_ok_iff.mp h
  rw [Board.countChangedIn_eq _ _ caster, ← Effect.count_of_applyTo copied]
  simp

namespace Board

/-- Copying a donor to every card of the caster is a rule for columns. -/
theorem copyDonor_eq {board : Board} {caster : Seat} {special : Special} {donor : Face}
    (found : board.donor? caster special = some donor) :
  board.copyDonor caster special = board.inColumns (donor.copyInto caster)
  := by
  simp only [copyDonor, found]
  apply foldlM_range_width
  intro left slots right touched
  dsimp only
  rw [changeAt_middle, Face.copyInto]
  cases (Effect.copying donor).applyTo (slots.get caster).card <;> rfl

theorem countChanged_copyDonor {board : Board} {caster : Seat} {special : Special}
    {result : Board × Nat} (h : board.copyDonor caster special = .ok result) :
  board.countChanged result.1 = result.2
  := by
  rcases found : board.donor? caster special with _ | donor
  · simp only [copyDonor, found] at h
    obtain rfl := Except.ok.inj h
    simp [countChanged]
  · rw [copyDonor_eq found] at h
    apply countChanged_of_inColumns (donor.countsChanges_copyInto caster) h

end Board

/-! ### Trades -/

/-- A standard card that is offered a value in a trade shows another face afterwards, unless it
shows a kiss or this value already. -/
theorem Card.face_tradedFor_ne_iff {card : Card} (standard : card.isSpecial = false)
    (value : Value) :
  card.face ≠ (card.tradedFor value).face ↔ card.face.value ≠ .kiss ∧ card.face.value ≠ value
  := by
  by_cases kiss : card.face.value = .kiss
  · rw [tradedFor_of_isImmune (by simp [isImmune, kiss])]
    simp [kiss]
  · rw [face_tradedFor (by simp [isImmune, standard, kiss])]
    obtain ⟨printed, ⟨suit, shown⟩, applied, special⟩ := card
    simpa using fun _ => kiss

/-- What two trading cards show is such that the faces of both change. -/
structure Card.BothChange (mine theirs : Card) : Prop where
  apart : mine.face.value ≠ theirs.face.value
  mine : mine.face.value ≠ .kiss
  theirs : theirs.face.value ≠ .kiss

namespace Application

variable {application : Application} {caster : Seat} {slots : Column} {mine theirs : Card}

namespace Trades

/-- Two trading cards both show another face afterwards exactly if neither shows a kiss and they
show different values. -/
theorem bothChange_iff (h : application.Trades caster slots mine theirs) :
  mine.BothChange theirs
    ↔ mine.face ≠ (mine.tradedFor theirs.face.value).face
      ∧ theirs.face ≠ (theirs.tradedFor mine.face.value).face
  := by
  rw [Card.face_tradedFor_ne_iff h.isSpecial.1, Card.face_tradedFor_ne_iff h.isSpecial.2]
  constructor
  · rintro ⟨apart, mine, theirs⟩
    exact ⟨⟨mine, apart⟩, theirs, apart.symm⟩
  · rintro ⟨⟨mine, apart⟩, theirs, -⟩
    exact ⟨apart, mine, theirs⟩

theorem countChangedIn (h : application.Trades caster slots mine theirs) :
  Board.countChangedIn slots (application.tradeColumn caster slots).1
    = (mine.face != (mine.tradedFor theirs.face.value).face).toNat
      + (theirs.face != (theirs.tradedFor mine.face.value).face).toNat
  := by
  obtain ⟨mineAt, theirsAt, -⟩ := h.tradeColumn
  rw [Board.countChangedIn_eq _ _ caster, h.mineAt, h.theirsAt, mineAt, theirsAt,
    showsOther_some, showsOther_some]

end Trades

/-- In a column at least as much is counted as changes, and more only if one of two trading cards
does not change. -/
theorem countChangedIn_tradeColumn (application : Application) (caster : Seat) (slots : Column) :
  Board.countChangedIn slots (application.tradeColumn caster slots).1
      ≤ (application.tradeColumn caster slots).2
    ∧ (Board.countChangedIn slots (application.tradeColumn caster slots).1
        = (application.tradeColumn caster slots).2
      ↔ ∀ mine theirs, application.Trades caster slots mine theirs → mine.BothChange theirs)
  := by
  by_cases trades : ∃ mine theirs, application.Trades caster slots mine theirs
  · obtain ⟨mine, theirs, trades⟩ := trades
    have unique : (∀ mine theirs, application.Trades caster slots mine theirs →
        mine.BothChange theirs) ↔ mine.BothChange theirs := by
      constructor
      · intro all
        apply all mine theirs trades
      · rintro both mine' theirs' trades'
        obtain rfl := Option.some.inj (trades.mineAt.symm.trans trades'.mineAt)
        obtain rfl := Option.some.inj (trades.theirsAt.symm.trans trades'.theirsAt)
        apply both
    rw [unique, trades.bothChange_iff, trades.countChangedIn, trades.tradeColumn.2.2,
      ← bne_iff_ne, ← bne_iff_ne]
    cases mine.face != (mine.tradedFor theirs.face.value).face <;>
      cases theirs.face != (theirs.tradedFor mine.face.value).face <;>
      simp
  · simp only [not_exists] at trades
    rw [tradeColumn_of_not_trades trades]
    simp [Board.countChangedIn_self, trades]

end Application

namespace Board

/-- Trades count at least the cards that they change, and more only if one of two trading cards
does not change. -/
theorem countChanged_tradeReached {board : Board} {caster : Seat} {special : Special}
    {result : Board × Nat} (h : board.tradeReached caster special = .ok result) :
  board.countChanged result.1 ≤ result.2
    ∧ (board.countChanged result.1 = result.2 ↔ ∀ slots ∈ board.columns, ∀ mine theirs,
      special.application.Trades caster slots mine theirs → mine.BothChange theirs)
  := by
  rw [tradeReached_eq] at h
  obtain rfl := Except.ok.inj h
  have each := special.application.countChangedIn_tradeColumn caster
  rw [countChanged_eq_sum (by simp [width]), List.zipWith_map_right, List.zipWith_self]
  refine ⟨List.sum_le_sum fun slots _ => (each slots).1, ?_, ?_⟩
  · intro same slots mem
    apply (each slots).2.mp
    by_contra less
    apply (List.sum_lt_sum _ _ (fun slots _ => (each slots).1)
      ⟨slots, mem, lt_of_le_of_ne (each slots).1 less⟩).ne same
  · intro all
    congr 1
    apply List.map_congr_left
    intro slots mem
    apply (each slots).2.mpr (all slots mem)

end Board

/-! ### Reports -/

namespace Arena

/-- The special cards that act on the cards of the board report how many they have touched.  The
number is never less than that of the positions that show another face than before.  It is this
number, unless the special card trades values and one of two trading cards shows a kiss or what
the other shows. -/
theorem touched_eq_countChanged_iff (arena : Arena) (caster : Seat) (special : Special)
    (reports : special.effect.kind ∈
      ([.buff, .multiply, .kiss, .reverse, .replace, .switch, .clone] : List Effect.Kind))
    (noOverflow : ∀ fault, fault.IsOverflow → arena.cast caster special ≠ .error fault) :
  ∃ arena' touched, arena.cast caster special = .ok (.ok (arena', touched))
  ∧ arena.board.countChanged arena'.board ≤ touched
  ∧ (arena.board.countChanged arena'.board = touched
    ↔ special.effect.kind = .switch → ∀ slots ∈ arena.board.columns, ∀ mine theirs,
      special.application.Trades caster slots mine theirs → mine.BothChange theirs)
  := by
  rcases kind : special.effect.kind
  case buff | multiply | kiss | reverse | replace =>
    obtain ⟨result, changed, cast⟩ := exists_onBoard
      (by simp only [Arena.cast, kind]; rfl) noOverflow
    rw [Board.changeReached_eq] at changed
    have counted := Board.countChanged_of_inColumns
      (special.countsChanges_changeColumn caster) changed
    exact ⟨_, _, cast, counted.le, by simp [counted]⟩
  case clone =>
    obtain ⟨result, copied, cast⟩ := exists_onBoard
      (by simp only [Arena.cast, kind]; rfl) noOverflow
    have counted := Board.countChanged_copyDonor copied
    exact ⟨_, _, cast, counted.le, by simp [counted]⟩
  case switch =>
    obtain ⟨result, traded, cast⟩ := exists_onBoard
      (by simp only [Arena.cast, kind]; rfl) noOverflow
    obtain ⟨least, truth⟩ := Board.countChanged_tradeReached traded
    exact ⟨_, _, cast, least, by simpa using truth⟩
  all_goals
    rw [kind] at reports
    simp at reports

/-- Two standard cards of given values that face each other. -/
def duel (mine theirs : Value) : Arena where
  board := ⟨[⟨{ card := some (.standard "Girlfriend" mine) },
    { card := some (.standard "Ex" theirs) }⟩]⟩
  hands := Pair.both {}

/-- A three and a win trade, and two changes are reported. -/
theorem touched_duel_three_win :
  ∃ arena, (duel (.number 3) .win).cast .first swap = .ok (.ok (arena, 2))
    ∧ (duel (.number 3) .win).board.countChanged arena.board = 2
  := by
  have cast : (duel (.number 3) .win).cast .first swap = .ok (.ok (_, 2)) := rfl
  obtain ⟨arena, touched, same, -, truth⟩ :=
    touched_eq_countChanged_iff (duel (.number 3) .win) .first swap (by decide) (by simp [cast])
  rw [cast] at same
  obtain ⟨rfl, rfl⟩ := Prod.mk.inj (Except.ok.inj (Except.ok.inj same))
  refine ⟨_, cast, truth.mpr ?_⟩
  intro _ slots mem mine theirs trades
  obtain rfl := List.mem_singleton.mp mem
  obtain rfl := Option.some.inj trades.mineAt
  obtain rfl := Option.some.inj trades.theirsAt
  exact ⟨nofun, nofun, nofun⟩

/-- Two fives trade, and two changes are reported, but no card shows another face than before. -/
theorem touched_duel_five_five :
  ∃ arena, (duel (.number 5) (.number 5)).cast .first swap = .ok (.ok (arena, 2))
    ∧ (duel (.number 5) (.number 5)).board.countChanged arena.board = 0
  := ⟨_, rfl, rfl⟩

end Arena

end CardDuel
