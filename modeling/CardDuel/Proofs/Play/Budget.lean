import CardDuel.Proofs.Play.Scale
import CardDuel.Proofs.Play.Valuation
import Mathlib.Data.List.Basic
import Mathlib.Tactic.Common

/-!
# Budgets of adjustments

A value stays in range however its adjustments follow one another, if their absolute values fit into
the range together: a budget covers them (`Covers`).  Budgets add up along lists of adjustments, so
a budget for a play is put together from one for each special card and each beaten card.  In a
moderate view a special card takes at most 401000, and a play with at most a hundred cards has a
value: `View.exists_value`.
-/

namespace CardDuel.Play

open Checked (Ensures)

/-! ### Covering adjustments -/

/-- Each of the adjustments has an amount, and together they change a value by no more than the
budget. -/
structure Covers (budget : Nat) (adjustments : List Adjustment) : Prop where
  amounts : ∀ adjustment ∈ adjustments, ∃ n, adjustment.amount = .ok n
  total : (adjustments.map fun adjustment => adjustment.swing.natAbs).sum ≤ budget

theorem Adjustment.natAbs_swing {adjustment : Adjustment} {n : Int}
    (amount : adjustment.amount = .ok n) :
  adjustment.swing.natAbs = n.natAbs
  := by
  cases adjustment with
  | gain =>
    obtain rfl : _ = Except.ok n := amount
    rfl
  | cost =>
    obtain rfl : _ = Except.ok n := amount
    apply Int.natAbs_neg

/-- An adjustment changes a value by its swing, if the result is in range. -/
theorem Adjustment.applyTo_of_inRange {adjustment : Adjustment} {n value : Int}
    (amount : adjustment.amount = .ok n) (inRange : Checked.InRange 32 (value + adjustment.swing)) :
  adjustment.applyTo value = .ok (value + adjustment.swing)
  := by
  cases adjustment with
  | gain =>
    obtain rfl : _ = Except.ok n := amount
    apply Checked.guard_of_inRange inRange
  | cost =>
    obtain rfl : _ = Except.ok n := amount
    apply Checked.guard_of_inRange inRange

namespace Covers

variable {α : Type} {budget budget' each count : Nat} {adjustments adjustments' : List Adjustment}

theorem nil :
  Covers budget []
  := ⟨by simp, by simp⟩

theorem singleton {adjustment : Adjustment}
    (amount : Ensures True (fun n => n.natAbs ≤ budget) adjustment.amount) :
  Covers budget [adjustment]
  := by
  obtain ⟨n, answered, small⟩ := amount.exists_result trivial
  constructor
  · rintro other same
    obtain rfl := List.mem_singleton.mp same
    exact ⟨n, answered⟩
  · simpa [Adjustment.natAbs_swing answered] using small

theorem mono (h : Covers budget adjustments) (more : budget ≤ budget') :
  Covers budget' adjustments
  := ⟨h.amounts, h.total.trans more⟩

theorem append (h : Covers budget adjustments) (h' : Covers budget' adjustments') :
  Covers (budget + budget') (adjustments ++ adjustments')
  where
  amounts := List.forall_mem_append.mpr ⟨h.amounts, h'.amounts⟩
  total := by
    rw [List.map_append, List.sum_append]
    apply Nat.add_le_add h.total h'.total

/-- The same budget for each of at most `count` things. -/
theorem flatMap {as : List α} {f : α → List Adjustment} (h : ∀ a ∈ as, Covers each (f a))
    (few : as.length ≤ count) :
  Covers (count * each) (as.flatMap f)
  := by
  apply mono _ (Nat.mul_le_mul_right each few)
  clear few
  induction as with
  | nil => apply nil
  | cons a rest ih =>
    obtain ⟨first, others⟩ := List.forall_mem_cons.mp h
    rw [List.flatMap_cons, List.length_cons, Nat.succ_mul, Nat.add_comm]
    apply first.append (ih others)

theorem map {as : List α} {f : α → Adjustment}
    (h : ∀ a ∈ as, Ensures True (fun n => n.natAbs ≤ each) (f a).amount)
    (few : as.length ≤ count) :
  Covers (count * each) (as.map f)
  := by
  rw [← List.flatMap_pure_eq_map]
  apply flatMap _ few
  intro a mem
  apply singleton (h a mem)

/-- A covered value stays in range. -/
theorem exists_value (h : Covers budget adjustments) {start : Int}
    (room : start.natAbs + budget ≤ 2147483647) :
  ∃ value, adjustments.foldlM Adjustment.applyTo start = .ok value
  := by
  use start + (adjustments.map Adjustment.swing).sum
  apply Checked.foldlM_eq_add_sum Adjustment.swing
  · intro adjustment mem value inRange
    obtain ⟨n, amount⟩ := h.amounts adjustment mem
    apply Adjustment.applyTo_of_inRange amount inRange
  · apply Nat.le_trans (Nat.add_le_add_left h.total _) room

end Covers

/-! ### Moderate views -/

/-- A moderate situation and moderate weights, and a play of at most a hundred cards with moderate
numbers and effects. -/
structure View.IsModerate (view : View) : Prop where
  situation : view.situation.IsModerate
  settings : view.settings.IsModerate
  cards_length : view.play.cards.length ≤ 100
  face : ∀ card ∈ view.play.cards, card.face.IsWithin 1000
  effect : ∀ special ∈ view.play.specials, special.effect.IsModerate

/-- At most a hundred numbers, all of them moderate. -/
structure AreModerate (ns : List Int) : Prop where
  length : ns.length ≤ 100
  natAbs : ∀ n ∈ ns, n.natAbs ≤ 1000

namespace AreModerate

variable {α : Type} {ns : List Int} {each : Nat}

theorem filterMap {as : List α} {f : α → Option Int} (few : as.length ≤ 100)
    (small : ∀ a ∈ as, ∀ n, f a = some n → n.natAbs ≤ 1000) :
  AreModerate (as.filterMap f)
  where
  length := (List.length_filterMap_le ..).trans few
  natAbs n mem := by
    obtain ⟨a, listed, number⟩ := List.mem_filterMap.mp mem
    apply small a listed n number

/-- A hundred times the budget for a moderate number covers them all. -/
theorem covers_map (h : AreModerate ns) {f : Int → Adjustment}
    (amount : ∀ n, n.natAbs ≤ 1000 → Ensures True (fun m => m.natAbs ≤ each) (f n).amount) :
  Covers (100 * each) (ns.map f)
  := by
  apply Covers.map _ h.length
  intro n mem
  apply amount n (h.natAbs n mem)

/-- A total to which each moderate number adds a limited amount is limited. -/
theorem ensures_foldlM (h : AreModerate ns) {f : Int → Int → Except Fault Int}
    (room : 100 * each ≤ 2147483647)
    (step : ∀ n, n.natAbs ≤ 1000 → ∀ total bound, total.natAbs ≤ bound →
      bound + each ≤ 2147483647 →
      Ensures True (fun next => next.natAbs ≤ bound + each) (f total n)) :
  Ensures True (fun total => total.natAbs ≤ 100 * each) (ns.foldlM f 0)
  := by
  have few (k : Nat) (le : k ≤ ns.length) : k * each ≤ 100 * each :=
    Nat.mul_le_mul_right each (le.trans h.length)
  have limited : Ensures True (fun total => total.natAbs ≤ ns.length * each) (ns.foldlM f 0) := by
    apply Ensures.foldlM (P := fun k (total : Int) => total.natAbs ≤ k * each)
    · intro n mem k before total near
      rw [Nat.succ_mul]
      apply step n (h.natAbs n mem) total _ near
      rw [← Nat.succ_mul]
      apply (few (k + 1) before).trans room
    · simp
  apply limited.mono
  intro total near
  apply near.trans (few ns.length (Nat.le_refl _))

end AreModerate

namespace View

/-- A moderate effect adds a moderate number, if it is a buff. -/
theorem ensures_change {effect : Effect} (gentle : effect.IsModerate) (n : Int) :
  Ensures True (fun amount => amount.natAbs ≤ 1000) (change effect n)
  := by
  apply Ensures.map
  obtain ⟨kind, payload⟩ := effect
  unfold Effect.delta?
  split
  case h_1 delta isBuff isNumber =>
    obtain rfl : kind = _ := isBuff
    obtain rfl : payload = _ := isNumber
    exact Ensures.ok (gentle.delta delta rfl)
  case h_4 isMultiplier _ => exact absurd isMultiplier gentle.kind
  all_goals apply Ensures.ok (by decide)

theorem covers_enemyCost (view : View) {special : Special} (gentle : special.effect.IsModerate)
    (column : Nat) :
  Covers 1000 (view.enemyCost special column)
  := by
  unfold enemyCost
  split
  · rename_i card _
    split
    · cases card.number? with
      | none => apply Covers.nil
      | some n => apply Covers.singleton (ensures_change gentle n)
    · apply Covers.nil
  · split
    · apply Covers.singleton (ensures_change gentle unknownValue)
    · apply Covers.nil

end View

namespace View.IsModerate

variable {view : View} (moderate : view.IsModerate) {special : Special}
include moderate

theorem placements_length :
  view.play.placements.length ≤ 100
  := by simpa [Play.cards] using moderate.cards_length

theorem friendly {column : Nat} {card : Card} (shown : view.friendly column = some card) :
  card.face.IsWithin 1000
  := by
  rcases Option.or_eq_some_iff.mp shown with played | ⟨-, lies⟩
  · obtain ⟨placement, found, rfl⟩ := Option.map_eq_some_iff.mp played
    apply moderate.face
    apply List.mem_map_of_mem (List.mem_of_find?_eq_some found)
  · apply moderate.situation.face_of_card? lies

theorem enemy {column : Nat} {card : Card} (shown : view.enemy column = some card) :
  card.face.IsWithin 1000
  := moderate.situation.face_of_card? shown

/-! ### Numbers that count -/

theorem numbers :
  AreModerate view.play.numbers
  := by
  apply AreModerate.filterMap moderate.cards_length
  intro card played n shown
  apply moderate.face card played n shown

theorem reachedNumbers (special : Special) :
  AreModerate (view.reachedNumbers special)
  := by
  apply AreModerate.filterMap moderate.placements_length
  intro placement placed n reached
  split at reached
  · apply moderate.face placement.card (List.mem_map_of_mem placed) n reached
  · cases reached

/-- Numbers on some of the cards that a seat has on the board. -/
theorem filterMap_occupied {seat : Seat} {cards : List (Nat × Card)}
    (sublist : cards.Sublist (view.situation.board.occupied seat))
    {f : Nat × Card → Option Int} (shown : ∀ entry ∈ cards, ∀ n, f entry = some n →
      entry.2.number? = some n) :
  AreModerate (cards.filterMap f)
  := by
  apply AreModerate.filterMap
  · apply sublist.length_le.trans
    apply (Board.length_occupied_le ..).trans moderate.situation.width
  · intro entry listed n number
    have cardAt := Board.mem_occupied.mp (sublist.subset listed)
    apply moderate.situation.face_of_card? cardAt n (shown entry listed n number)

theorem reachedHeldNumbers (special : Special) :
  AreModerate (view.reachedHeldNumbers special)
  := by
  apply moderate.filterMap_occupied List.filter_sublist
  rintro ⟨column, card⟩ _ n reached
  dsimp only at reached
  split at reached
  · apply reached
  · cases reached

/-- The opponent's numbers that a special card reaches among some cards on the board. -/
theorem reachedEnemyNumbers (special : Special) {cards : List (Nat × Card)}
    (sublist : cards.Sublist view.enemyCards) :
  AreModerate (view.reachedEnemyNumbers special cards)
  := by
  apply moderate.filterMap_occupied sublist
  rintro ⟨column, card⟩ _ n reached
  dsimp only at reached
  split at reached
  · apply reached
  · cases reached

theorem enemyHeldNumbers :
  AreModerate (view.enemyHeld.filterMap fun (_, card) => card.number?)
  := by
  apply moderate.filterMap_occupied List.filter_sublist
  intro entry _ n shown
  apply shown

/-! ### Cards that beat held ones -/

theorem covers_marginBonus (placement : Placement) :
  Covers 1000 (view.marginBonus placement)
  := by
  unfold marginBonus
  split
  · rename_i mine target _ shown
    split
    · obtain ⟨card, faces, shown⟩ := Option.bind_eq_some_iff.mp shown
      have small := moderate.enemy faces target shown
      have bonus := moderate.settings.holdMarginBonus
      apply Covers.singleton
      apply Ensures.map
      apply Ensures.add
      · intro _
        apply Checked.inRange_of_natAbs_le
        omega
      · split
        · apply bonus
        · simp
    · apply Covers.nil
  · apply Covers.nil

/-! ### Special cards -/

theorem covers_changeAdjustments (gentle : special.effect.IsModerate) :
  Covers 400000 (view.changeAdjustments special)
  := by
  have played : Covers (100 * 1000)
      ((view.reachedNumbers special).map fun n => .gain (change special.effect n)) :=
    (moderate.reachedNumbers special).covers_map fun n _ => ensures_change gentle n
  have held : Covers (100 * 2000) ((view.reachedHeldNumbers special).map fun n =>
      .gain do
        let amount ← change special.effect n
        Checked.add amount view.settings.heldFriendlyBonus) := by
    apply (moderate.reachedHeldNumbers special).covers_map
    intro n _
    have bonus := moderate.settings.heldFriendlyBonus
    apply (ensures_change gentle n).bind
    intro amount small
    apply Ensures.add
    · intro _
      apply Checked.inRange_of_natAbs_le
      omega
    · omega
  have opposing : Covers (100 * 1000)
      ((List.range view.situation.board.width).flatMap (view.enemyCost special)) := by
    apply Covers.flatMap
    · intro column _
      apply covers_enemyCost view gentle
    · rw [List.length_range]
      apply moderate.situation.width
  apply (played.append held).append opposing

theorem covers_lowAdjustments :
  Covers 202000 (view.lowAdjustments special)
  := by
  have played : Covers (100 * 1015) ((view.reachedNumbers special).map fun n =>
      .gain do
        let amount ← Checked.sub 10 n
        Checked.add amount (if n < 5 then 5 else 0)) := by
    apply (moderate.reachedNumbers special).covers_map
    intro n small
    apply (Ensures.sub_of_natAbs_le (Nat.add_le_add_left small _) (by decide)).bind
    intro amount near
    apply Ensures.add_of_natAbs_le _ (by decide)
    split <;> omega
  have held : Covers (100 * 1005) ((view.reachedEnemyNumbers special view.enemyHeld).map fun n =>
      .gain (Checked.sub n 5)) := by
    apply (moderate.reachedEnemyNumbers special List.filter_sublist).covers_map
    intro n small
    exact Ensures.sub_of_natAbs_le (Nat.add_le_add_right small _) (by decide)
  apply played.append held

theorem donor? {donor : Int} (copied : view.donor? special = some donor) :
  donor.natAbs ≤ 1000
  := by
  obtain ⟨column, -, found⟩ := List.exists_of_findSome?_eq_some copied
  rcases Option.or_eq_some_iff.mp found with mine | ⟨-, theirs⟩
  · split at mine
    · obtain ⟨card, lies, shown⟩ := Option.bind_eq_some_iff.mp mine
      apply moderate.friendly lies donor shown
    · cases mine
  · split at theirs
    · obtain ⟨card, lies, shown⟩ := Option.bind_eq_some_iff.mp theirs
      apply moderate.enemy lies donor shown
    · cases theirs

theorem ensures_cloneGain {donor : Int} (small : donor.natAbs ≤ 1000) :
  Ensures True (fun gain => gain.natAbs ≤ 100 * 2000) (view.cloneGain donor)
  := by
  apply moderate.numbers.ensures_foldlM (by decide)
  intro n small' total bound near room
  apply (Ensures.sub_of_natAbs_le (Nat.add_le_add small small') (by decide)).bind
  intro difference small
  apply Ensures.add_of_natAbs_le (Nat.add_le_add near small) room

theorem covers_cloneAdjustments :
  Covers 210000 (view.cloneAdjustments special)
  := by
  unfold cloneAdjustments
  split
  · apply Covers.nil
  · rename_i donor copied
    have gain : Covers (100 * 2000) [.gain (view.cloneGain donor)] :=
      Covers.singleton (moderate.ensures_cloneGain (moderate.donor? copied))
    have held : Covers (100 * 100) ((view.enemyHeld.filterMap fun (_, card) => card.number?).map
        fun n => .gain (.ok (if n < donor then (view.situation.board.width : Int)
          else -view.situation.board.width))) := by
      apply moderate.enemyHeldNumbers.covers_map
      intro n _
      have width := moderate.situation.width
      apply Ensures.ok
      split <;> omega
    apply gain.append held

theorem covers_waitAdjustments :
  Covers 201000 (view.waitAdjustments special)
  := by
  have played : Covers (100 * 1005) ((view.reachedNumbers special).map fun n =>
      .gain (Checked.sub n 5)) := by
    apply (moderate.reachedNumbers special).covers_map
    intro n small
    exact Ensures.sub_of_natAbs_le (Nat.add_le_add_right small _) (by decide)
  have opposing : Covers (100 * 1005)
      ((view.reachedEnemyNumbers special view.enemyCards).map fun n =>
        .cost (Checked.sub n 5)) := by
    apply (moderate.reachedEnemyNumbers special (.refl _)).covers_map
    intro n small
    exact Ensures.sub_of_natAbs_le (Nat.add_le_add_right small _) (by decide)
  apply played.append opposing

theorem covers_flushAdjustments :
  Covers (100 * 1005) view.flushAdjustments
  := by
  apply Covers.flatMap
  · rintro ⟨card, i⟩ mem
    have inHand := List.fst_mem_of_mem_zipIdx (List.mem_of_mem_filter mem)
    dsimp only
    split
    · split
      · apply Covers.singleton
        apply Ensures.ok
        apply moderate.settings.flushPenalty.trans (by decide)
      · apply Covers.nil
    · cases shown : card.number? with
      | none => apply Covers.nil
      | some n =>
        have small := (moderate.situation.hand card inHand).face n shown
        apply Covers.singleton
          (Ensures.sub_of_natAbs_le (Nat.add_le_add_left small 5) (by decide))
  · apply (List.length_filter_le ..).trans
    rw [List.length_zipIdx]
    apply moderate.situation.hand_length

theorem covers_effectAdjustments (gentle : special.effect.IsModerate) :
  Covers 400000 (view.effectAdjustments special)
  := by
  unfold effectAdjustments
  split
  · apply moderate.covers_changeAdjustments gentle
  · apply moderate.covers_changeAdjustments gentle
  · apply moderate.covers_lowAdjustments.mono (by decide)
  · apply moderate.covers_lowAdjustments.mono (by decide)
  · apply moderate.covers_lowAdjustments.mono (by decide)
  · apply moderate.covers_cloneAdjustments.mono (by decide)
  · apply moderate.covers_waitAdjustments.mono (by decide)
  · apply moderate.covers_flushAdjustments.mono (by decide)
  · apply Covers.nil
  · apply Covers.nil

/-! ### Values -/

theorem covers_adjustments :
  Covers 40200000 view.adjustments
  := by
  have margins : Covers (100 * 1000) (view.play.placements.flatMap view.marginBonus) := by
    apply Covers.flatMap _ moderate.placements_length
    intro placement _
    apply moderate.covers_marginBonus placement
  have specials : Covers (100 * 401000) (view.play.specials.flatMap fun special =>
      .gain (.ok view.settings.specialBonus) :: view.effectAdjustments special) := by
    apply Covers.flatMap
    · intro special played
      have bonus : Covers 1000 [.gain (.ok view.settings.specialBonus)] :=
        Covers.singleton (Ensures.ok moderate.settings.specialBonus)
      apply bonus.append (moderate.covers_effectAdjustments (moderate.effect special played))
    · apply (List.length_filterMap_le ..).trans moderate.cards_length
  apply margins.append specials

/-- A play that is valued in a moderate view has a value. -/
theorem exists_value :
  ∃ value, view.value = .ok value
  := by
  have start : Ensures True (fun total => total.natAbs ≤ 100 * 1000)
      (Checked.sum view.play.numbers) := by
    apply moderate.numbers.ensures_foldlM (by decide)
    intro n small total bound near room
    apply Ensures.add_of_natAbs_le (Nat.add_le_add near small) room
  obtain ⟨total, added, near⟩ := start.exists_result trivial
  obtain ⟨value, adjusted⟩ : ∃ value,
      view.adjustments.foldlM Adjustment.applyTo total = .ok value := by
    apply moderate.covers_adjustments.exists_value
    omega
  exact ⟨value, Checked.bind_eq_ok_iff.mpr ⟨total, added, adjusted⟩⟩

end View.IsModerate

end CardDuel.Play
