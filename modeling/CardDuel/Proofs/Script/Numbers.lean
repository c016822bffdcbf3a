import CardDuel.Goal.Judgement
import CardDuel.Proofs.Script.Codes
import CardDuel.Proofs.Slots

/-!
# Numbers that stand alone in codes

A presence that a number alone follows is read without defects, whatever the size of the number,
but the number is what is looked for only if a card can show it (`loneQuarry`): a greater number
loses all but its lowest 32 binary digits, and a number that 64 binary digits do not hold, like one
below the range of cards, is taken for a name.  So the code holds for no other card than one of
that number exactly if the number is in range: `readCriterion_lone_number`.
-/

namespace CardDuel

/-! ### What a round criterion looks for -/

namespace Goal

/-- A player has a card with a property on the board, for a wait in a held slot. -/
def Presence.Shows (presence : Presence) (board : Board) (player : Seat) (P : Card → Prop) :
    Prop :=
  ∃ column card, board.card? player column = some card
    ∧ (presence = .wait → board.isHeld player column = true) ∧ P card

namespace Criterion

theorem mem_present {board : Board} {player : Seat} {presence : Presence} {entry : Nat × Card} :
  entry ∈ present board player presence
    ↔ board.card? player entry.1 = some entry.2
      ∧ (presence = .wait → board.isHeld player entry.1 = true)
  := by
  cases presence with
  | use => simp [present, Board.mem_occupied]
  | wait => simp [present, Board.held, Board.mem_occupied]

/-- One card suffices for a criterion that asks for one. -/
theorem judgeRound_one_iff {board : Board} {player : Seat} {presence : Presence}
    {quarry : Quarry} :
  (round presence 1 quarry).judgeRound board player = true
    ↔ presence.Shows board player fun card => quarry.isFound card = true
  := by
  rw [judgeRound, decide_eq_true_iff, Nat.one_le_iff_ne_zero, ← Nat.pos_iff_ne_zero,
    List.countP_pos_iff]
  constructor
  · rintro ⟨⟨column, card⟩, shown, found⟩
    obtain ⟨cardAt, held⟩ := mem_present.mp shown
    exact ⟨column, card, cardAt, held, found⟩
  · rintro ⟨column, card, cardAt, held, found⟩
    exact ⟨(column, card), mem_present.mpr ⟨cardAt, held⟩, found⟩

/-- The board with a single column in which both players hold a card. -/
def display (card : Card) : Board :=
  ⟨[Pair.both { card := some card, hold := .held }]⟩

theorem shows_display_iff {presence : Presence} {card : Card} {player : Seat} {P : Card → Prop} :
  presence.Shows (display card) player P ↔ P card
  := by
  constructor
  · rintro ⟨column, card', cardAt, -, holds⟩
    cases column with
    | zero => cases player <;> cases cardAt <;> exact holds
    | succ column => cases cardAt
  · intro holds
    use 0, card
    cases player <;> exact ⟨rfl, fun _ => rfl, holds⟩

/-- The criterion holds only where a card with a property is shown exactly if all cards that it
finds have the property. -/
theorem judgeRound_implies_iff {presence : Presence} {quarry : Quarry} {P : Card → Prop} :
  (∀ board player, (round presence 1 quarry).judgeRound board player = true →
      presence.Shows board player P)
    ↔ ∀ card, quarry.isFound card = true → P card
  := by
  constructor
  · intro sound card found
    have judged : (round presence 1 quarry).judgeRound (display card) .first = true :=
      judgeRound_one_iff.mpr (shows_display_iff.mpr found)
    exact shows_display_iff.mp (sound (display card) .first judged)
  · intro sound board player judged
    obtain ⟨column, card, cardAt, held, found⟩ := judgeRound_one_iff.mp judged
    exact ⟨column, card, cardAt, held, sound card found⟩

end Criterion

end Goal

/-! ### Numbers after a presence -/

namespace Script

open Goal Text

/-- What is looked for where the text `word` of the number `n` stands alone. -/
def loneQuarry (word : String) (n : Int) : Quarry :=
  if Checked.InRange 32 n then .value n
  else if 0 ≤ n ∧ n < 18446744073709551616 then .value (Checked.lowest32 n.toNat)
  else .name word

theorem lowest32_of_inRange {n : Int} (inRange : Checked.InRange 32 n) (nonneg : 0 ≤ n) :
  Checked.lowest32 n.toNat = n
  := by
  unfold Checked.InRange at inRange
  rw [Checked.limit_32] at inRange
  unfold Checked.lowest32
  rw [Int.toNat_of_nonneg nonneg]
  apply Int.bmod_eq_of_le_mul_two
  · omega
  · omega

/-- A single word is read as a number without a sign, then as a number with one, then as a
name. -/
theorem readRound_singleton (presence : Presence) (word : String) :
  readRound presence [word]
    = .clean (some (.round presence 1
        (match readUnsigned 64 word, readSigned 32 word with
          | some value, _ => .value (Checked.lowest32 value)
          | none, some n => .value n
          | none, none => .name word)))
  := by
  rw [readRound, leadingCount]
  cases readUnsigned 64 word with
  | some value => rfl
  | none =>
    dsimp only
    cases readSigned 32 word <;> rfl

theorem readRound_lone (presence : Presence) {word : String} {n : Int}
    (literal : Denotes word n) :
  readRound presence [word] = .clean (some (.round presence 1 (loneQuarry word n)))
  := by
  rw [readRound_singleton, literal.readSigned_eq, loneQuarry]
  rcases literal.readUnsigned_cases 64 with ⟨negative, unread⟩ | ⟨nonneg, read⟩
  · rw [unread]
    by_cases inRange : Checked.InRange 32 n
    · simp [inRange]
    · have below : ¬ 0 ≤ n := by
        intro nonneg
        obtain rfl : n = 0 := by omega
        exact inRange (by decide)
      simp [inRange, below]
  · have limit : (1 <<< 64 : Nat) = 18446744073709551616 := by decide
    rw [read, limit]
    by_cases small : n < 18446744073709551616
    · rw [if_pos (by omega : n.toNat < _)]
      by_cases inRange : Checked.InRange 32 n
      · simp [inRange, lowest32_of_inRange inRange nonneg]
      · simp [inRange, nonneg, small]
    · rw [if_neg (by omega : ¬ n.toNat < _)]
      by_cases inRange : Checked.InRange 32 n
      · simp [inRange]
      · simp [inRange, small]

theorem readCriterion_lone (presence : Presence) {word : String} {n : Int}
    (literal : Denotes word n) :
  readCriterion (presence.word ++ " " ++ word)
    = .clean (some (.round presence 1 (loneQuarry word n)))
  := by
  rw [readCriterion, words_append_joint (by simp) (by simp [isBlank]), words_presence,
    (literal.isWord fun _ => isBlank_of_isNumeralChar).words_eq, ← readRound_lone presence literal]
  cases presence <;> rfl

theorem isFound_value_iff {n : Int} {card : Card} :
  (Quarry.value n).isFound card = true ↔ card.number? = some n
  := beq_iff_eq

/-- Only numbers in range are looked for as such. -/
theorem number?_of_isFound_loneQuarry_iff (word : String) (n : Int) :
  (∀ card, (loneQuarry word n).isFound card = true → card.number? = some n)
    ↔ Checked.InRange 32 n
  := by
  constructor
  · intro sound
    by_contra outside
    rw [loneQuarry, if_neg outside] at sound
    split at sound
    · -- the lowest digits denote a number in range, so another one
      have found := sound (.standard "" (.number (Checked.lowest32 n.toNat)))
        (isFound_value_iff.mpr rfl)
      have same : Checked.lowest32 n.toNat = n := Option.some.inj found
      rw [← same] at outside
      exact outside (inRange_lowest32 n.toNat)
    · have named : (Quarry.name word).isFound (.standard word .win) = true := by
        simp [Quarry.isFound, Card.standard, Card.name]
      cases sound _ named
  · intro inRange card
    rw [loneQuarry, if_pos inRange]
    exact isFound_value_iff.mp

/-- A number alone after a presence always reads, but as a code that holds only with a card of
this number exactly if the number is in the range of cards; and then it holds with every such
card. -/
theorem readCriterion_lone_number (presence : Presence) {word : String} {n : Int}
    (literal : Denotes word n) :
  ∃ criterion, readCriterion (presence.word ++ " " ++ word) = .clean (some criterion)
    ∧ ((∀ board player, criterion.judgeRound board player = true →
          presence.Shows board player fun card => card.number? = some n)
        ↔ Checked.InRange 32 n)
    ∧ (Checked.InRange 32 n → ∀ board player,
        (presence.Shows board player fun card => card.number? = some n) →
          criterion.judgeRound board player = true)
  := by
  refine ⟨_, readCriterion_lone presence literal, ?_, ?_⟩
  · rw [Criterion.judgeRound_implies_iff, number?_of_isFound_loneQuarry_iff]
  · intro inRange board player shown
    rw [loneQuarry, if_pos inRange, Criterion.judgeRound_one_iff]
    simp only [isFound_value_iff]
    exact shown

/-- A number below zero is read with its sign. -/
theorem readCriterion_lone_number_below_zero :
  Denotes "-7" (-7)
    ∧ ∃ criterion, readCriterion "WAIT -7" = .clean (some criterion)
      ∧ ∀ board player, criterion.judgeRound board player = true
        ↔ Presence.wait.Shows board player fun card => card.number? = some (-7)
  := by
  have literal : Denotes "-7" (-7) := .minus ⟨List.cons_ne_nil '7' [], by simp⟩
  have inRange : Checked.InRange 32 (-7) := by decide
  obtain ⟨criterion, read, sound, complete⟩ := readCriterion_lone_number .wait literal
  refine ⟨literal, criterion, read, ?_⟩
  intro board player
  exact ⟨sound.mpr inRange board player, complete inRange board player⟩

/-- The board of four columns on which the first player has a five. -/
def loneFive : Board :=
  (Board.empty 4).setCard .first 0 (some (.standard "Ex" (.number 5)))

/-- A number five above the 32nd power of two is read as five. -/
theorem readCriterion_lone_number_cut :
  Denotes "4294967301" 4294967301
    ∧ readCriterion "USE 4294967301" = .clean (some (.round .use 1 (.value 5)))
    ∧ (Criterion.round .use 1 (.value 5)).judgeRound loneFive .first = true
    ∧ ¬ Presence.use.Shows loneFive .first fun card => card.number? = some 4294967301
  := by
  have literal : Denotes "4294967301" 4294967301 :=
    .plain ⟨List.cons_ne_nil '4' ['2', '9', '4', '9', '6', '7', '3', '0', '1'], by simp⟩
  refine ⟨literal, readCriterion_lone .use literal, by decide, ?_⟩
  rintro ⟨column, card, cardAt, -, number⟩
  have listed : (column, card) ∈ loneFive.occupied .first := Board.mem_occupied.mpr cardAt
  have occupied : loneFive.occupied .first = [(0, .standard "Ex" (.number 5))] := rfl
  rw [occupied, List.mem_singleton] at listed
  obtain ⟨-, rfl⟩ := Prod.mk.inj listed
  cases number

end Script

end CardDuel
