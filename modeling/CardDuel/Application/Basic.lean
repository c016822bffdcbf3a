import CardDuel.Condition

/-!
# Applications

An `Application` says which cards an effect reaches.  Its tests are aims.  An `Aim` looks at
one card and the side of the caster on which it lies, and may ask of the card in the facing
slot to pass an application of its own, seen from the other side.  So applications nest, and
`Aim.fold` is the recursion along that nesting.
-/

namespace CardDuel

/-- Where a card lies, seen from the caster. -/
inductive Side where
  | friendly
  | enemy
deriving DecidableEq, Repr

/-- The other side. -/
def Side.reversed : Side → Side
  | friendly => enemy
  | enemy => friendly

/-- The sides that an aim accepts. -/
inductive Alignment where
  | friendly
  | enemy
  | either
deriving DecidableEq, Repr

/-- Whether a card on a side is accepted. -/
def Alignment.admits : Alignment → Side → Bool
  | either, _ => true
  | friendly, side => side == .friendly
  | enemy, side => side == .enemy

/-- The alignment as the other player would say it. -/
def Alignment.flip : Alignment → Alignment
  | friendly => enemy
  | enemy => friendly
  | either => either

/-- What an aim asks of one card. -/
structure Scope where
  alignment : Alignment := .either
  /-- The accepted suits, all of them if there is no list. -/
  suits : Option (List String) := none
  /-- The card is sought in the hand instead of on the board. -/
  inHand : Bool := false
  /-- The least accepted number. -/
  min : Option Int := none
  /-- The greatest accepted number. -/
  max : Option Int := none
deriving DecidableEq, Repr

/-- A test of one card and of the card that faces it. -/
inductive Aim where
  | mk (scope : Scope) (opposite : Option (Condition Aim))

/-- Which cards an effect reaches. -/
abbrev Application : Type := Condition Aim

namespace Aim

/-- What the aim asks of the card itself. -/
def scope : Aim → Scope
  | ⟨scope, _⟩ => scope

/-- What the aim asks of the facing card, seen from the other side. -/
def opposite : Aim → Option Application
  | ⟨_, opposite⟩ => opposite

/-- The aim that asks nothing of the facing card. -/
def ofScope (scope : Scope) : Aim := ⟨scope, none⟩

/-! ### Folding -/

mutual

/-- Replace every aim by `f` of its scope and of what its opposite has become. -/
def fold {β : Type} (f : Scope → Option (Condition β) → β) : Aim → β
  | ⟨scope, none⟩ => f scope none
  | ⟨scope, some opposite⟩ => f scope (some (foldTests f opposite))

/-- The application with every aim replaced. -/
def foldTests {β : Type} (f : Scope → Option (Condition β) → β) : Application → Condition β
  | .test aim => .test (fold f aim)
  | .join op items => .join op (foldItems f items)

/-- A list of applications with every aim replaced. -/
def foldItems {β : Type} (f : Scope → Option (Condition β) → β) :
    List Application → List (Condition β)
  | [] => []
  | item :: rest => foldTests f item :: foldItems f rest

end

theorem foldItems_eq_map {β : Type} (f : Scope → Option (Condition β) → β)
    (items : List Application) :
  foldItems f items = items.map (foldTests f)
  := by
  induction items with
  | nil => rfl
  | cons item rest ih => simp [foldItems, ih]

/-- Replacing the aims of an application is replacing them one by one. -/
theorem foldTests_eq_map {β : Type} (f : Scope → Option (Condition β) → β)
    (application : Application) :
  foldTests f application = application.map (fold f)
  := by
  induction application using Condition.induct with
  | test aim => rfl
  | join op items ih =>
    rw [foldTests, foldItems_eq_map, Condition.map_join]
    congr 1
    exact List.map_congr_left ih

theorem fold_mk {β : Type} (f : Scope → Option (Condition β) → β) (scope : Scope)
    (opposite : Option Application) :
  fold f ⟨scope, opposite⟩ = f scope (opposite.map fun tests => tests.map (fold f))
  := by
  cases opposite with
  | none => rfl
  | some tests => rw [fold, foldTests_eq_map]; rfl

/-! ### The text of an aim -/

/-- The text of the bounds on the number of a card. -/
def boundsText : Option Int → Option Int → String
  | none, none => ""
  | some least, none => " worth at least " ++ toString least
  | none, some greatest => " worth at most " ++ toString greatest
  | some least, some greatest =>
    if least = greatest then " worth " ++ toString least
    else " worth " ++ toString least ++ " to " ++ toString greatest

/-- The text of what is asked of one card, in the plural or in the singular. -/
def scopeText (plural : Bool) (scope : Scope) : String :=
  (match scope.alignment with
    | .friendly => "friendly "
    | .enemy => "enemy "
    | .either => "")
  ++ (match scope.suits with
    | none => ""
    | some suits => " or ".intercalate suits ++ " ")
  ++ (if plural then "cards" else "card")
  ++ (if scope.inHand then " in hand" else "")
  ++ boundsText scope.min scope.max

/-- The text of an aim; the facing card is always in the singular. -/
def describe : Aim → Bool → String :=
  fold fun scope opposite plural =>
    scopeText plural scope
      ++ match opposite with
        | none => ""
        | some tests => " against " ++ tests.describe fun text => text false

end Aim

namespace Application

/-- The application that reaches every standard card on the board. -/
def any : Application := .test (.ofScope {})

/-- The text of an application. -/
def describe (application : Application) (plural : Bool) : String :=
  Condition.describe (fun aim => aim.describe plural) application

/-- Whether some aim looks into the hand. -/
def targetsHand (application : Application) : Bool :=
  application.leaves.any fun aim => aim.scope.inHand

/-- Whether some aim could accept a card on a side of the board. -/
def canReach (application : Application) (side : Side) : Bool :=
  application.leaves.any fun aim => !aim.scope.inHand && aim.scope.alignment.admits side

end Application

end CardDuel
