import CardDuel.Proofs.Reach
import CardDuel.Requirement.Checking
import Mathlib.Data.List.Perm.Basic

/-!
# Requirements and the cards at hand

Quotas count cards, so a requirement does not ask in which order they come (`verify_perm`), and
special cards count for no style without empty joins (`Quota.tally_standards`).  More cards keep
a quota met that asks for enough of them, fewer cards one that asks for not too many.  With the
monotony of conditions this holds of whole requirements: `Requirement.verify_from_standards`.
-/

namespace CardDuel

/-- The standard cards of a collection. -/
def Card.standards (cards : List Card) : List Card :=
  cards.filter fun card => !card.isSpecial

namespace Quota

variable {quota : Quota}

/-- Special cards count for no style without empty joins. -/
theorem counts_of_isSpecial (filled : ∀ style ∈ quota.style, style.hasEmptyJoin = false)
    {card : Card} (special : card.isSpecial = true) :
  quota.counts card = false
  := by
  rw [counts]
  split
  · rfl
  · rename_i style asked
    apply Bool.eq_false_iff.mpr
    intro reached
    obtain ⟨counted, same, standard⟩ :=
      Application.exists_card_of_reaches (filled style asked) reached
    obtain rfl := Option.some.inj same
    rw [special] at standard
    contradiction

theorem tally_standards (filled : ∀ style ∈ quota.style, style.hasEmptyJoin = false)
    (cards : List Card) :
  quota.tally (Card.standards cards) = quota.tally cards
  := by
  rw [tally, tally, Card.standards, List.countP_filter]
  apply List.countP_congr
  intro card _
  by_cases special : card.isSpecial = true
  · simp [counts_of_isSpecial filled special]
  · simp [special]

/-- Quotas count cards in any order. -/
theorem verify_perm (quota : Quota) {cards cards' : List Card} (h : cards.Perm cards') :
  quota.verify cards = quota.verify cards'
  := by rw [verify, verify, tally, tally, h.countP_eq]

theorem verify_standards (filled : ∀ style ∈ quota.style, style.hasEmptyJoin = false)
    (cards : List Card) :
  quota.verify (Card.standards cards) = quota.verify cards
  := by rw [verify, verify, tally_standards filled]

/-- More cards are enough where fewer were. -/
theorem verify_more (lower : quota.style = none ∨ quota.comparison = .atLeast)
    {cards more : List Card} (added : cards.Subperm more) (met : quota.verify cards = true) :
  quota.verify more = true
  := by
  rcases lower with free | atLeast
  · rw [verify, free]
    rfl
  · have grows : quota.tally cards ≤ quota.tally more := added.countP_le _
    simp only [verify, atLeast, Comparison.compare, Bool.or_eq_true, decide_eq_true_eq] at met ⊢
    exact met.imp_right fun enough => Nat.le_trans enough grows

/-- Fewer cards are not too many where more were not. -/
theorem verify_fewer (upper : quota.style = none ∨ quota.comparison = .noMoreThan)
    {cards fewer : List Card} (removed : fewer.Subperm cards) (met : quota.verify cards = true) :
  quota.verify fewer = true
  := by
  rcases upper with free | noMoreThan
  · rw [verify, free]
    rfl
  · have shrinks : quota.tally fewer ≤ quota.tally cards := removed.countP_le _
    simp only [verify, noMoreThan, Comparison.compare, Bool.or_eq_true, decide_eq_true_eq]
      at met ⊢
    exact met.imp_right fun enough => Nat.le_trans shrinks enough

end Quota

namespace Requirement

variable {requirement : Requirement}

/-- Requirements count cards in any order. -/
theorem verify_perm (requirement : Requirement) {cards cards' : List Card}
    (h : cards.Perm cards') :
  requirement.verify cards = requirement.verify cards'
  := by
  apply Condition.eval_congr
  intro quota _
  apply quota.verify_perm h

/-- Requirements whose styles have no empty joins leave special cards out of account. -/
theorem verify_standards
    (filled : ∀ quota ∈ requirement.leaves, ∀ style ∈ quota.style, style.hasEmptyJoin = false)
    (cards : List Card) :
  requirement.verify (Card.standards cards) = requirement.verify cards
  := by
  apply Condition.eval_congr
  intro quota leaf
  apply Quota.verify_standards (filled quota leaf)

/-- A requirement without styles is always met. -/
theorem verify_of_isTrivial (filled : requirement.hasEmptyJoin = false)
    (free : requirement.isTrivial = true) (cards : List Card) :
  requirement.verify cards = true
  := by
  apply Condition.eval_of_forall_leaves filled
  intro quota leaf
  rw [Quota.verify, List.all_eq_true.mp free quota leaf]
  rfl

/-- A requirement that is built from quotas, with styles that are built from aims, looks at
nothing but the standard cards, in any order.  It stays met by more cards if all its quotas ask
for at least so many, and by fewer cards if all ask for no more than so many; and it is always
met if no quota has a style. -/
theorem verify_from_standards (built : requirement.IsBuilt)
    (styles : ∀ quota ∈ requirement.leaves, ∀ style ∈ quota.style, style.IsBuilt) :
  (∀ cards cards', (Card.standards cards).Perm (Card.standards cards') →
    requirement.verify cards = requirement.verify cards')
  ∧ ((∀ quota ∈ requirement.leaves, quota.style = none ∨ quota.comparison = .atLeast) →
    ∀ cards more, cards.Subperm more → requirement.verify cards = true →
      requirement.verify more = true)
  ∧ ((∀ quota ∈ requirement.leaves, quota.style = none ∨ quota.comparison = .noMoreThan) →
    ∀ cards fewer, fewer.Subperm cards → requirement.verify cards = true →
      requirement.verify fewer = true)
  ∧ (requirement.isTrivial = true → ∀ cards, requirement.verify cards = true)
  := by
  refine ⟨?_, ?_, ?_, verify_of_isTrivial built.hasEmptyJoin⟩
  · intro cards cards' same
    have filled : ∀ quota ∈ requirement.leaves, ∀ style ∈ quota.style,
        style.hasEmptyJoin = false :=
      fun quota leaf style asked => (styles quota leaf style asked).hasEmptyJoin
    rw [← verify_standards filled, ← verify_standards filled cards']
    apply requirement.verify_perm same
  · intro lower cards more added
    apply Condition.eval_mono
    intro quota leaf
    apply Quota.verify_more (lower quota leaf) added
  · intro upper cards fewer removed
    apply Condition.eval_mono
    intro quota leaf
    apply Quota.verify_fewer (upper quota leaf) removed

/-- High cards on the board, and cards in the hand that face some card. -/
def highOrHeld : Application :=
  Condition.or (.test (.ofScope { min := some 8 }))
    (.test ⟨{ inHand := true }, some Application.any⟩)

/-- One of the Ex, or two high cards. -/
def bold : Requirement :=
  Condition.or (counting .atLeast 1 (.test (.ofScope { suits := some ["Ex"] })))
    (counting .atLeast 2 highOrHeld)

/-- No more than one high card. -/
def shy : Requirement :=
  Condition.and (counting .noMoreThan 1 highOrHeld) nothing

/-- A nine, an eight, and between them a special card if one is given. -/
def couple (between : Option Special) : List Card :=
  .standard "Boyfriend" (.number 9) :: ((between.map Card.ofSpecial).toList
    ++ [.standard "Boyfriend" (.number 8)])

/-- Two high cards are bold in any order, beside a special card and in company; one that is alone
is shy; and nothing is asked by a requirement without styles. -/
theorem verify_from_standards_couple :
  bold.IsBuilt ∧ (∀ quota ∈ bold.leaves, ∀ style ∈ quota.style, style.IsBuilt)
  ∧ (∀ quota ∈ bold.leaves, quota.style = none ∨ quota.comparison = .atLeast)
  ∧ shy.IsBuilt ∧ (∀ quota ∈ shy.leaves, ∀ style ∈ quota.style, style.IsBuilt)
  ∧ (∀ quota ∈ shy.leaves, quota.style = none ∨ quota.comparison = .noMoreThan)
  ∧ (∀ rose, bold.verify (couple (some rose)).reverse = bold.verify (couple none))
  ∧ bold.verify (couple none) = true
  ∧ (∀ cards, bold.verify (couple none ++ cards) = true)
  ∧ shy.verify (couple none) = false
  ∧ shy.verify ((couple none).drop 1) = true
  ∧ (∀ fewer, fewer.Subperm ((couple none).drop 1) → shy.verify fewer = true)
  ∧ ∀ cards, nothing.verify cards = true
  := by
  have styled : highOrHeld.IsBuilt := .or (.test _) (.test _)
  have boldBuilt : bold.IsBuilt := .or (.test _) (.test _)
  have boldStyles : ∀ quota ∈ bold.leaves, ∀ style ∈ quota.style, style.IsBuilt := by
    intro quota leaf style asked
    rcases List.mem_pair.mp leaf with rfl | rfl
    · obtain rfl := Option.some.inj asked
      exact .test _
    · obtain rfl := Option.some.inj asked
      exact styled
  have lower : ∀ quota ∈ bold.leaves, quota.style = none ∨ quota.comparison = .atLeast := by
    intro quota leaf
    rcases List.mem_pair.mp leaf with rfl | rfl <;> exact .inr rfl
  have shyBuilt : shy.IsBuilt := .and (.test _) (.test _)
  have shyStyles : ∀ quota ∈ shy.leaves, ∀ style ∈ quota.style, style.IsBuilt := by
    intro quota leaf style asked
    rcases List.mem_pair.mp leaf with rfl | rfl
    · obtain rfl := Option.some.inj asked
      exact styled
    · cases asked
  have upper : ∀ quota ∈ shy.leaves, quota.style = none ∨ quota.comparison = .noMoreThan := by
    intro quota leaf
    rcases List.mem_pair.mp leaf with rfl | rfl
    · exact .inr rfl
    · exact .inl rfl
  have nothingStyles : ∀ quota ∈ nothing.leaves, ∀ style ∈ quota.style, style.IsBuilt := by
    intro quota leaf style asked
    obtain rfl := List.mem_singleton.mp leaf
    cases asked
  obtain ⟨same, more, -, -⟩ := verify_from_standards boldBuilt boldStyles
  obtain ⟨-, -, less, -⟩ := verify_from_standards shyBuilt shyStyles
  obtain ⟨-, -, -, free⟩ := verify_from_standards (.test _) nothingStyles
  refine ⟨boldBuilt, boldStyles, lower, shyBuilt, shyStyles, upper, ?_, rfl, ?_, rfl, rfl, ?_,
    free rfl⟩
  · intro rose
    apply same
    exact List.Perm.swap _ _ []
  · intro cards
    exact more lower _ _ (List.sublist_append_left _ cards).subperm rfl
  · intro fewer removed
    exact less upper _ fewer removed rfl

end Requirement

end CardDuel
