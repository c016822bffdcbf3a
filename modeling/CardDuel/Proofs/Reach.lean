import CardDuel.Application.Reach
import CardDuel.Proofs.Conditions

/-!
# What an application reaches

A condition whose joins all have parts holds if all of its tests do, and only if one of them
does; no condition stops holding when more of its tests hold (`Condition.eval_mono`).  An aim
accepts only standard cards, so an application without empty joins reaches nothing else:
`Application.exists_card_of_reaches`.  Nor does it reach beyond the sides that it announces:
`Application.reaches_within`.  If no aim asks anything of a facing card, it does not matter which
card that is: `Application.IgnoresFacing`.
-/

namespace CardDuel

namespace Condition

variable {α : Type}

/-- Whether some join of the condition has no parts. -/
def hasEmptyJoin : Condition α → Bool :=
  fold (fun _ => false) fun _ parts => parts.isEmpty || parts.any id

@[simp]
theorem hasEmptyJoin_test (a : α) :
  (test a).hasEmptyJoin = false
  := rfl

theorem hasEmptyJoin_join {op : Connective} {items : List (Condition α)} :
  (join op items).hasEmptyJoin = false
    ↔ items ≠ [] ∧ ∀ item ∈ items, item.hasEmptyJoin = false
  := by
  rw [hasEmptyJoin]
  rw [fold_join]
  simp

/-- Nothing that is built from tests has an empty join. -/
theorem IsBuilt.hasEmptyJoin {condition : Condition α} (built : condition.IsBuilt) :
  condition.hasEmptyJoin = false
  := by
  have flat := built.isFlat
  clear built
  induction flat with
  | test a => rfl
  | join several _ _ filled =>
    apply hasEmptyJoin_join.mpr
    constructor
    · rintro rfl
      contradiction
    · exact filled

theorem mem_leaves_join {op : Connective} {items : List (Condition α)} {a : α} :
  a ∈ (join op items).leaves ↔ ∃ item ∈ items, a ∈ item.leaves
  := by rw [leaves_join, List.mem_flatMap]

/-- Without empty joins, a condition that holds owes it to one of its tests. -/
theorem exists_leaf_of_eval {holds : α → Bool} {condition : Condition α}
    (filled : condition.hasEmptyJoin = false) (h : condition.eval holds = true) :
  ∃ a ∈ condition.leaves, holds a = true
  := by
  induction condition with
  | test a => exact ⟨a, by simp, h⟩
  | join op items ih =>
    obtain ⟨nonempty, filled⟩ := hasEmptyJoin_join.mp filled
    have part : ∃ item ∈ items, item.eval holds = true := by
      rw [eval_join] at h
      cases op with
      | and =>
        obtain ⟨item, mem⟩ := List.exists_mem_of_ne_nil items nonempty
        exact ⟨item, mem, List.all_eq_true.mp h item mem⟩
      | or => apply List.any_eq_true.mp h
    obtain ⟨item, mem, itemHolds⟩ := part
    obtain ⟨a, leaf, aHolds⟩ := ih item mem (filled item mem) itemHolds
    exact ⟨a, mem_leaves_join.mpr ⟨item, mem, leaf⟩, aHolds⟩

/-- Without empty joins, a condition holds if all its tests do. -/
theorem eval_of_forall_leaves {holds : α → Bool} {condition : Condition α}
    (filled : condition.hasEmptyJoin = false) (h : ∀ a ∈ condition.leaves, holds a = true) :
  condition.eval holds = true
  := by
  induction condition with
  | test a => apply h a (by simp)
  | join op items ih =>
    obtain ⟨nonempty, filled⟩ := hasEmptyJoin_join.mp filled
    have parts : ∀ item ∈ items, item.eval holds = true := fun item mem =>
      ih item mem (filled item mem) fun a leaf => h a (mem_leaves_join.mpr ⟨item, mem, leaf⟩)
    rw [eval_join]
    cases op with
    | and => apply List.all_eq_true.mpr parts
    | or =>
      obtain ⟨item, mem⟩ := List.exists_mem_of_ne_nil items nonempty
      apply List.any_eq_true.mpr ⟨item, mem, parts item mem⟩

/-- A condition that holds goes on holding when more of its tests hold. -/
theorem eval_mono {holds holds' : α → Bool} {condition : Condition α}
    (more : ∀ a ∈ condition.leaves, holds a = true → holds' a = true)
    (h : condition.eval holds = true) :
  condition.eval holds' = true
  := by
  induction condition with
  | test a => apply more a (by simp) h
  | join op items ih =>
    have parts : ∀ item ∈ items, item.eval holds = true → item.eval holds' = true :=
      fun item mem => ih item mem fun a leaf => more a (mem_leaves_join.mpr ⟨item, mem, leaf⟩)
    rw [eval_join] at h ⊢
    cases op with
    | and =>
      apply List.all_eq_true.mpr
      intro item mem
      apply parts item mem (List.all_eq_true.mp h item mem)
    | or =>
      obtain ⟨item, mem, itemHolds⟩ := List.any_eq_true.mp h
      apply List.any_eq_true.mpr ⟨item, mem, parts item mem itemHolds⟩

/-- Whether a condition holds depends only on what its tests say. -/
theorem eval_congr {holds holds' : α → Bool} {condition : Condition α}
    (h : ∀ a ∈ condition.leaves, holds a = holds' a) :
  condition.eval holds = condition.eval holds'
  := by
  apply Bool.eq_iff_iff.mpr
  constructor
  · apply eval_mono
    intro a leaf
    rw [h a leaf]
    exact id
  · apply eval_mono
    intro a leaf
    rw [h a leaf]
    exact id

end Condition

/-- An aim accepts only a card that its scope admits. -/
theorem Aim.exists_card_of_accepts {aim : Aim} {side : Side} {card facing : Option Card}
    (h : aim.accepts side card facing = true) :
  ∃ accepted, card = some accepted ∧ aim.scope.admits side accepted = true
  := by
  cases card with
  | none => simp at h
  | some accepted =>
    rw [accepts_some, Bool.and_eq_true] at h
    exact ⟨accepted, rfl, h.1⟩

theorem Scope.isSpecial_of_admits {scope : Scope} {side : Side} {card : Card}
    (h : scope.admits side card = true) :
  card.isSpecial = false
  := by
  simp only [admits, Bool.and_eq_true, Bool.not_eq_true'] at h
  apply h.1.1.1

theorem Scope.admitsSide_of_admits {scope : Scope} {side : Side} {card : Card}
    (h : scope.admits side card = true) :
  scope.inHand = false ∧ scope.alignment.admits side = true
  := by
  simp only [admits, Bool.and_eq_true, Bool.not_eq_true'] at h
  exact ⟨h.1.1.2, h.1.2⟩

/-- An application without empty joins reaches standard cards only. -/
theorem Application.exists_card_of_reaches {application : Application} {side : Side}
    {card facing : Option Card} (filled : application.hasEmptyJoin = false)
    (h : application.reaches side card facing = true) :
  ∃ reached, card = some reached ∧ reached.isSpecial = false
  := by
  obtain ⟨aim, -, accepts⟩ := Condition.exists_leaf_of_eval filled h
  obtain ⟨reached, cardAt, admits⟩ := aim.exists_card_of_accepts accepts
  exact ⟨reached, cardAt, Scope.isSpecial_of_admits admits⟩

/-- An application without empty joins that reaches a card can reach the side on which the card
lies: whatever the joins and the facing card say, some aim accepts the card. -/
theorem Application.canReach_of_reaches {application : Application} {side : Side}
    {card facing : Option Card} (filled : application.hasEmptyJoin = false)
    (h : application.reaches side card facing = true) :
  application.canReach side = true
  := by
  obtain ⟨aim, leaf, accepts⟩ := Condition.exists_leaf_of_eval filled h
  obtain ⟨reached, -, admits⟩ := aim.exists_card_of_accepts accepts
  obtain ⟨onBoard, admitsSide⟩ := Scope.admitsSide_of_admits admits
  apply List.any_eq_true.mpr
  use aim, leaf
  rw [onBoard, admitsSide]
  rfl

/-- An application without empty joins reaches only standard cards in the hand, and none unless
some aim looks there. -/
theorem Application.targetsHand_of_reachesHand {application : Application} {card : Card}
    (filled : application.hasEmptyJoin = false) (h : application.reachesHand card = true) :
  card.isSpecial = false ∧ application.targetsHand = true
  := by
  obtain ⟨aim, leaf, admits⟩ := Condition.exists_leaf_of_eval filled h
  simp only [Scope.admitsHeld, Bool.and_eq_true, Bool.not_eq_true'] at admits
  obtain ⟨⟨inHand, standard⟩, -⟩ := admits
  refine ⟨standard, ?_⟩
  apply List.any_eq_true.mpr ⟨aim, leaf, inHand⟩

/-- An application that is built from aims keeps what it announces, whatever its aims ask of the
facing cards.  On the board it reaches only standard cards, and only on a side that it can reach;
in the hand it reaches only standard cards, and only if it targets the hand. -/
theorem Application.reaches_within {application : Application} (built : application.IsBuilt) :
  (∀ side card facing, application.reaches side card facing = true →
    ∃ reached, card = some reached ∧ reached.isSpecial = false
      ∧ application.canReach side = true)
  ∧ ∀ card, application.reachesHand card = true →
      card.isSpecial = false ∧ application.targetsHand = true
  := by
  have filled := built.hasEmptyJoin
  constructor
  · intro side card facing h
    obtain ⟨reached, cardAt, standard⟩ := exists_card_of_reaches filled h
    exact ⟨reached, cardAt, standard, canReach_of_reaches filled h⟩
  · intro card
    apply targetsHand_of_reachesHand filled

/-- The player's Ex that face a high card of the opponent's, and low cards in the hand. -/
def rivalry : Application :=
  Condition.or
    (.test ⟨{ alignment := .friendly, suits := some ["Ex"] },
      some (.test (.ofScope { alignment := .enemy, min := some 6 }))⟩)
    (.test (.ofScope { inHand := true, max := some 4 }))

/-- A rivalry reaches an Ex on the player's side and a low card in the hand, and nothing on the
side of the opponent. -/
theorem reaches_within_rivalry :
  rivalry.IsBuilt
  ∧ rivalry.reaches .friendly (some (.standard "Ex" (.number 2)))
      (some (.standard "Boyfriend" (.number 7))) = true
  ∧ rivalry.canReach .friendly = true
  ∧ rivalry.reachesHand (.standard "Boyfriend" (.number 4)) = true
  ∧ rivalry.targetsHand = true
  ∧ ∀ card facing, rivalry.reaches .enemy card facing = false
  := by
  have built : rivalry.IsBuilt := .or (.test _) (.test _)
  obtain ⟨board, hand⟩ := Application.reaches_within built
  have reached : rivalry.reaches .friendly (some (.standard "Ex" (.number 2)))
      (some (.standard "Boyfriend" (.number 7))) = true := by
    decide
  have reachedHand : rivalry.reachesHand (.standard "Boyfriend" (.number 4)) = true := by
    decide
  obtain ⟨-, -, -, canReach⟩ := board _ _ _ reached
  refine ⟨built, reached, canReach, reachedHand, (hand _ reachedHand).2, ?_⟩
  intro card facing
  apply Bool.eq_false_iff.mpr
  intro beyond
  obtain ⟨-, -, -, canReach⟩ := board _ _ _ beyond
  exact absurd canReach (by decide)

/-- No aim of the application asks anything of a facing card. -/
def Application.IgnoresFacing (application : Application) : Prop :=
  ∀ aim ∈ application.leaves, aim.opposite = none

theorem Application.IgnoresFacing.reaches_eq {application : Application}
    (h : application.IgnoresFacing) (side : Side) (card facing facing' : Option Card) :
  application.reaches side card facing = application.reaches side card facing'
  := by
  apply Condition.eval_congr
  intro aim leaf
  cases card with
  | none => rw [Aim.accepts_none, Aim.accepts_none]
  | some card => rw [Aim.accepts_some, Aim.accepts_some, h aim leaf]

end CardDuel
