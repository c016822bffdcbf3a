import CardDuel.Proofs.Play.Building
import CardDuel.Proofs.Play.Overflow
import Mathlib.Tactic.Ring

/-!
# The value of a play as a sum

Where no number leaves its range, checked arithmetic gives true sums.  So a play that has a
value is worth the sum of the numbers played and the swings of all adjustments
(`View.value_eq_sum`), and the adjustments for cards that beat held ones and for a single
special card can be told apart (`View.value_of_single_special`).
-/

namespace CardDuel

/-! ### Checked sums -/

namespace Checked

variable {α : Type}

/-- A checked fold in which every step adds an amount adds the sum of the amounts. -/
theorem eq_add_sum_of_foldlM {f : Int → α → Except Fault Int} {amount : α → Int} {as : List α}
    (step : ∀ a ∈ as, ∀ total next, f total a = .ok next → next = total + amount a)
    {start total : Int} (h : as.foldlM f start = .ok total) :
  total = start + (as.map amount).sum
  := by
  induction as generalizing start with
  | nil =>
    obtain rfl := Except.ok.inj h
    simp
  | cons a rest ih =>
    rw [List.foldlM_cons, bind_eq_ok_iff] at h
    obtain ⟨next, first, others⟩ := h
    have later := ih (fun a' mem => step a' (List.mem_cons_of_mem a mem)) others
    rw [later, step a List.mem_cons_self start next first, List.map_cons, List.sum_cons]
    ring

theorem eq_sum_of_sum_eq_ok {ns : List Int} {total : Int} (h : sum ns = .ok total) :
  total = ns.sum
  := by
  have added : total = 0 + (ns.map id).sum := by
    apply eq_add_sum_of_foldlM _ h
    intro n _ total next step
    apply (add_eq_ok_iff.mp step).2.symm
  simpa using added

end Checked

namespace Play

/-- The numbers played, from left to right. -/
def numbers (play : Play) : List Int :=
  play.cards.filterMap Card.number?

/-! ### Adjustments -/

namespace Adjustment

/-- The change of a value by an adjustment; without an amount there is none. -/
def swing : Adjustment → Int
  | gain (.ok n) => n
  | cost (.ok n) => -n
  | gain (.error _) | cost (.error _) => 0

theorem applyTo_eq_ok {adjustment : Adjustment} {value next : Int}
    (h : adjustment.applyTo value = .ok next) :
  next = value + adjustment.swing ∧ ∃ n, adjustment.amount = .ok n
  := by
  cases adjustment with
  | gain amount =>
    obtain ⟨n, rfl, added⟩ := Checked.bind_eq_ok_iff.mp h
    exact ⟨(Checked.add_eq_ok_iff.mp added).2.symm, n, rfl⟩
  | cost amount =>
    obtain ⟨n, rfl, taken⟩ := Checked.bind_eq_ok_iff.mp h
    obtain rfl := (Checked.sub_eq_ok_iff.mp taken).2
    exact ⟨Int.sub_eq_add_neg, n, rfl⟩

/-- Adjustments carried out one after another add up, and each of them has an amount. -/
theorem foldlM_applyTo_eq_ok {adjustments : List Adjustment} {start value : Int}
    (h : adjustments.foldlM applyTo start = .ok value) :
  value = start + (adjustments.map swing).sum
    ∧ ∀ adjustment ∈ adjustments, ∃ n, adjustment.amount = .ok n
  := by
  constructor
  · apply Checked.eq_add_sum_of_foldlM _ h
    intro adjustment _ value next step
    apply (applyTo_eq_ok step).1
  · induction adjustments generalizing start with
    | nil => simp
    | cons first rest ih =>
      rw [List.foldlM_cons, Checked.bind_eq_ok_iff] at h
      obtain ⟨next, step, others⟩ := h
      rw [List.forall_mem_cons]
      exact ⟨(applyTo_eq_ok step).2, ih others⟩

end Adjustment

namespace View

variable {view : View} {value : Int}

/-- A value is the sum of the numbers played and of the swings of all adjustments. -/
theorem value_eq_sum (h : view.value = .ok value) :
  value = view.play.numbers.sum + (view.adjustments.map Adjustment.swing).sum
    ∧ ∀ adjustment ∈ view.adjustments, ∃ n, adjustment.amount = .ok n
  := by
  obtain ⟨start, added, adjusted⟩ := Checked.bind_eq_ok_iff.mp h
  obtain rfl := Checked.eq_sum_of_sum_eq_ok added
  apply Adjustment.foldlM_applyTo_eq_ok adjusted

/-! ### Beating held cards -/

/-- Whether a card faces a held number that it exceeds by exactly one. -/
def beatsByOne (view : View) (placement : Placement) : Bool :=
  view.situation.board.isHeld view.situation.opponent placement.column
    && match placement.card.number?, (view.enemy placement.column).bind Card.number? with
      | some mine, some target => decide (mine = target + 1)
      | _, _ => false

theorem sum_swing_marginBonus {placement : Placement}
    (amounts : ∀ adjustment ∈ view.marginBonus placement, ∃ n, adjustment.amount = .ok n) :
  ((view.marginBonus placement).map Adjustment.swing).sum
    = if view.beatsByOne placement then view.settings.holdMarginBonus else 0
  := by
  unfold beatsByOne
  unfold marginBonus at amounts ⊢
  rcases mineShown : placement.card.number? with _ | mine
  · simp
  · rcases targetShown : (view.enemy placement.column).bind Card.number? with _ | target
    · simp
    · rw [mineShown, targetShown] at amounts
      dsimp only at amounts ⊢
      by_cases held : view.situation.board.isHeld view.situation.opponent placement.column = true
      · rw [if_pos held] at amounts ⊢
        obtain ⟨bonus, amount⟩ := amounts _ (List.mem_singleton_self _)
        obtain ⟨next, added, rfl⟩ := Checked.map_eq_ok_iff.mp amount
        obtain rfl := (Checked.add_eq_ok_iff.mp added).2
        simp [held, added, Except.map, Adjustment.swing]
      · simp [held]

/-- A play earns the bonus once for every card that beats a held one by exactly one. -/
theorem sum_swing_flatMap_marginBonus {placements : List Placement}
    (amounts : ∀ adjustment ∈ placements.flatMap view.marginBonus,
      ∃ n, adjustment.amount = .ok n) :
  ((placements.flatMap view.marginBonus).map Adjustment.swing).sum
    = view.settings.holdMarginBonus * placements.countP view.beatsByOne
  := by
  induction placements with
  | nil => simp
  | cons placement rest ih =>
    rw [List.flatMap_cons] at amounts ⊢
    obtain ⟨first, others⟩ := List.forall_mem_append.mp amounts
    rw [List.map_append, List.sum_append, sum_swing_marginBonus first, ih others,
      List.countP_cons]
    split
    · push_cast
      ring
    · simp

/-- The value of a play with a single special card: the numbers played, a bonus for every
card that beats a held one by exactly one, a bonus for the special card, and what its effect
promises. -/
theorem value_of_single_special {special : Special} (single : view.play.specials = [special])
    (h : view.value = .ok value) :
  value = view.play.numbers.sum
      + view.settings.holdMarginBonus * view.play.placements.countP view.beatsByOne
      + view.settings.specialBonus
      + ((view.effectAdjustments special).map Adjustment.swing).sum
    ∧ ∀ adjustment ∈ view.effectAdjustments special, ∃ n, adjustment.amount = .ok n
  := by
  obtain ⟨rfl, amounts⟩ := value_eq_sum h
  have listed : view.adjustments = view.play.placements.flatMap view.marginBonus
      ++ .gain (.ok view.settings.specialBonus) :: view.effectAdjustments special := by
    rw [adjustments, single, List.flatMap_singleton]
  rw [listed] at amounts ⊢
  obtain ⟨margins, others⟩ := List.forall_mem_append.mp amounts
  refine ⟨?_, (List.forall_mem_cons.mp others).2⟩
  rw [List.map_append, List.sum_append, sum_swing_flatMap_marginBonus margins, List.map_cons,
    List.sum_cons, Adjustment.swing]
  ring

end View

end Play

end CardDuel
