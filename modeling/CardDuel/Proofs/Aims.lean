import CardDuel.Proofs.Reach

/-!
# Aims at every depth

What an aim asks of the facing card is an application again, so a statement about all aims is
proved from its truth for the aims one level below: `Aim.induct`.  In this way an application
that trades friends and enemies at every depth says to one player what the original says to the
other (`Application.reaches_flip`), and an application without bounds at any depth looks only at
suits and at whether cards are special (`Application.reaches_congr`).
-/

namespace CardDuel

theorem Condition.sizeOf_lt_of_mem_leaves {α : Type} [SizeOf α] {condition : Condition α} {a : α}
    (h : a ∈ condition.leaves) :
  sizeOf a < sizeOf condition
  := by
  induction condition with
  | test b =>
    obtain rfl := List.mem_singleton.mp h
    rw [Condition.test.sizeOf_spec]
    omega
  | join op items ih =>
    obtain ⟨item, mem, leaf⟩ := mem_leaves_join.mp h
    have inside := List.sizeOf_lt_of_mem mem
    have below := ih item mem leaf
    rw [Condition.join.sizeOf_spec]
    omega

namespace Aim

/-- To prove a statement for all aims it is enough to prove it for an aim from its truth for the
aims at the facing card. -/
@[elab_as_elim, induction_eliminator]
theorem induct {motive : Aim → Prop}
    (mk : ∀ scope opposite, (∀ tests ∈ opposite, ∀ aim ∈ tests.leaves, motive aim) →
      motive ⟨scope, opposite⟩) :
  ∀ aim, motive aim
  | ⟨scope, opposite⟩ => mk scope opposite fun tests asked aim leaf => by
    have inside := Condition.sizeOf_lt_of_mem_leaves leaf
    have below : sizeOf tests < sizeOf opposite := by
      obtain rfl := asked
      rw [Option.some.sizeOf_spec]
      omega
    exact induct mk aim
  termination_by aim => sizeOf aim
  decreasing_by
    rw [Aim.mk.sizeOf_spec]
    omega

/-! ### The other point of view -/

/-- The aim as the other player would say it. -/
def flip : Aim → Aim :=
  fold fun scope opposite => ⟨{ scope with alignment := scope.alignment.flip }, opposite⟩

end Aim

/-- The application as the other player would say it: at every depth friends and enemies have
traded places. -/
def Application.flip (application : Application) : Application :=
  application.map Aim.flip

theorem Aim.flip_mk (scope : Scope) (opposite : Option Application) :
  Aim.flip ⟨scope, opposite⟩
    = ⟨{ scope with alignment := scope.alignment.flip }, opposite.map Application.flip⟩
  := fold_mk ..

theorem Alignment.admits_flip (alignment : Alignment) (side : Side) :
  alignment.flip.admits side.reversed = alignment.admits side
  := by cases alignment <;> cases side <;> rfl

theorem Scope.admits_flip (scope : Scope) (side : Side) (card : Card) :
  admits { scope with alignment := scope.alignment.flip } side.reversed card
    = scope.admits side card
  := by
  unfold admits
  rw [Alignment.admits_flip]
  rfl

/-- An aim accepts on one side what its flip accepts on the other. -/
theorem Aim.accepts_flip (aim : Aim) (side : Side) (card facing : Option Card) :
  aim.flip.accepts side.reversed card facing = aim.accepts side card facing
  := by
  induction aim generalizing side card facing with
  | mk scope opposite ih =>
    rcases card with _ | card
    · rw [accepts_none, accepts_none]
    · rw [flip_mk, accepts_some, accepts_some]
      simp only [Aim.scope, Aim.opposite, Scope.admits_flip]
      congr 1
      rcases opposite with _ | tests
      · rfl
      · rcases facing with _ | other
        · rfl
        · simp only [Option.map_some, Application.flip, Condition.eval_map]
          apply Condition.eval_congr
          intro aim leaf
          apply ih tests rfl aim leaf

theorem Application.reaches_flip (application : Application) (side : Side)
    (card facing : Option Card) :
  application.flip.reaches side.reversed card facing = application.reaches side card facing
  := by
  unfold reaches flip
  rw [Condition.eval_map]
  apply Condition.eval_congr
  intro aim _
  apply aim.accepts_flip

/-! ### Aims without bounds -/

/-- Neither the aim nor an aim below it bounds the number of a card. -/
def Aim.isUnbounded : Aim → Bool :=
  fold fun scope opposite =>
    scope.min.isNone && scope.max.isNone && opposite.all fun tests => tests.leaves.all id

/-- No aim at any depth of the application bounds the number of a card. -/
def Application.isUnbounded (application : Application) : Bool :=
  application.leaves.all Aim.isUnbounded

theorem Condition.leaves_map {α β : Type} (f : α → β) (condition : Condition α) :
  (condition.map f).leaves = condition.leaves.map f
  := by
  induction condition with
  | test a => rfl
  | join op items ih =>
    rw [map_join, leaves_join, leaves_join, List.flatMap_map, List.map_flatMap,
      List.flatMap_def, List.flatMap_def, List.map_congr_left ih]

theorem Aim.isUnbounded_mk {scope : Scope} {opposite : Option Application} :
  isUnbounded ⟨scope, opposite⟩ = true
    ↔ scope.min = none ∧ scope.max = none
      ∧ ∀ tests ∈ opposite, ∀ aim ∈ tests.leaves, aim.isUnbounded = true
  := by
  unfold isUnbounded
  rw [fold_mk]
  cases opposite <;> simp [and_assoc, Condition.leaves_map]

/-- Two cards that show the same suit and are both special or both standard. -/
structure Card.Resembles (a b : Card) : Prop where
  suit : b.face.suit = a.face.suit
  isSpecial : b.isSpecial = a.isSpecial

namespace Card.Resembles

theorem refl (card : Card) :
  card.Resembles card
  := ⟨rfl, rfl⟩

theorem trans {a b c : Card} (h : a.Resembles b) (h' : b.Resembles c) :
  a.Resembles c
  := ⟨h'.suit.trans h.suit, h'.isSpecial.trans h.isSpecial⟩

end Card.Resembles

/-- Without bounds, a scope looks only at the suit of a card and at whether it is special. -/
theorem Scope.admits_congr {scope : Scope} (least : scope.min = none) (greatest : scope.max = none)
    (side : Side) {card card' : Card} (h : card.Resembles card') :
  scope.admits side card' = scope.admits side card
  := by
  unfold admits admitsFace
  rw [least, greatest, h.suit, h.isSpecial]

/-- Aims without bounds do not tell cards apart that resemble each other. -/
theorem Aim.accepts_congr {aim : Aim} (unbounded : aim.isUnbounded = true) (side : Side)
    {card card' facing facing' : Option Card} (cards : Option.Rel Card.Resembles card card')
    (facings : Option.Rel Card.Resembles facing facing') :
  aim.accepts side card' facing' = aim.accepts side card facing
  := by
  induction aim generalizing side card card' facing facing' with
  | mk scope opposite ih =>
    obtain ⟨least, greatest, below⟩ := isUnbounded_mk.mp unbounded
    cases cards with
    | none => rw [accepts_none, accepts_none]
    | some card =>
      rw [accepts_some, accepts_some]
      simp only [Aim.scope, Aim.opposite, Scope.admits_congr least greatest side card]
      congr 1
      rcases opposite with _ | tests
      · rfl
      · cases facings with
        | none => rfl
        | some other =>
          apply Condition.eval_congr
          intro aim leaf
          apply ih tests rfl aim leaf (below tests rfl aim leaf)
          · exact .some other
          · exact .some card

theorem Application.reaches_congr {application : Application}
    (unbounded : application.isUnbounded = true) (side : Side)
    {card card' facing facing' : Option Card} (cards : Option.Rel Card.Resembles card card')
    (facings : Option.Rel Card.Resembles facing facing') :
  application.reaches side card' facing' = application.reaches side card facing
  := by
  apply Condition.eval_congr
  intro aim leaf
  apply Aim.accepts_congr (List.all_eq_true.mp unbounded aim leaf) side cards facings

end CardDuel
