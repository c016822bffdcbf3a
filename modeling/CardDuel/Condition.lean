/-!
# Conditions

A `Condition α` is a single test of type `α` or a connective over a list of conditions.
`combine` joins two conditions without nesting a connective directly in itself.  Everything
that is read off a condition is an instance of `Condition.fold`, which replaces tests and
connectives from the bottom up: whether it holds (`eval`), which tests are looked at until
that is decided (`visit`), which indices pass (`select`), the tests from left to right
(`leaves`) and the text (`describe`).
-/

namespace CardDuel

/-- How the parts of a condition are joined. -/
inductive Connective where
  | and
  | or
deriving DecidableEq, Repr

/-- The word between the parts of a join. -/
def Connective.joiner : Connective → String
  | .and => " and "
  | .or => " or "

/-- Tests joined by connectives. -/
inductive Condition (α : Type) where
  | test (a : α)
  | join (op : Connective) (items : List (Condition α))

namespace Condition

variable {α β γ : Type}

/-! ### Building conditions -/

/-- The parts of a condition as a join by `op` lists them. -/
def parts (op : Connective) : Condition α → List (Condition α)
  | test a => [test a]
  | join own items => if own = op then items else [join own items]

/-- Two conditions joined by `op`; parts that are already joined by `op` are merged. -/
def combine (op : Connective) (a b : Condition α) : Condition α :=
  join op (a.parts op ++ b.parts op)

/-- Both conditions. -/
def and (a b : Condition α) : Condition α := combine .and a b

/-- At least one of two conditions. -/
def or (a b : Condition α) : Condition α := combine .or a b

/-- All conditions of a list from left to right, nothing if there are none. -/
def combineAll (op : Connective) : List (Condition α) → Option (Condition α)
  | [] => none
  | first :: rest => some (rest.foldl (combine op) first)

/-- The connective at the top. -/
def connective? : Condition α → Option Connective
  | test _ => none
  | join op _ => some op

/-- The direct parts of a join. -/
def items : Condition α → List (Condition α)
  | test _ => []
  | join _ items => items

/-! ### Folding -/

mutual

/-- Replace every test by `leaf` and every connective by `node`. -/
def fold (leaf : α → β) (node : Connective → List β → β) : Condition α → β
  | test a => leaf a
  | join op items => node op (foldItems leaf node items)

/-- The folds of a list of conditions. -/
def foldItems (leaf : α → β) (node : Connective → List β → β) : List (Condition α) → List β
  | [] => []
  | item :: rest => fold leaf node item :: foldItems leaf node rest

end

theorem foldItems_eq_map (leaf : α → β) (node : Connective → List β → β)
    (items : List (Condition α)) :
  foldItems leaf node items = items.map (fold leaf node)
  := by
  induction items with
  | nil => rfl
  | cons item rest ih => simp [foldItems, ih]

@[simp]
theorem fold_test (leaf : α → β) (node : Connective → List β → β) (a : α) :
  fold leaf node (test a) = leaf a
  := rfl

theorem fold_join (leaf : α → β) (node : Connective → List β → β) (op : Connective)
    (items : List (Condition α)) :
  fold leaf node (join op items) = node op (items.map (fold leaf node))
  := by rw [fold, foldItems_eq_map]

/-- To prove a statement for all conditions it is enough to prove it for tests, and for a
join from its truth for the parts. -/
@[elab_as_elim, induction_eliminator]
theorem induct {motive : Condition α → Prop} (test : ∀ a, motive (test a))
    (join : ∀ op items, (∀ item ∈ items, motive item) → motive (join op items)) :
  ∀ condition, motive condition
  | .test a => test a
  | .join op items => join op items fun item _ => induct test join item

/-! ### What is read off a condition -/

/-- The same condition over the images of its tests. -/
def map (f : α → β) : Condition α → Condition β :=
  fold (fun a => test (f a)) join

/-- The tests from left to right. -/
def leaves : Condition α → List α :=
  fold (fun a => [a]) fun _ parts => parts.flatten

/-- Whether the condition holds when `holds` judges its tests. -/
def eval (holds : α → Bool) : Condition α → Bool :=
  fold holds fun op parts =>
    match op with
    | .and => parts.all id
    | .or => parts.any id

/-- Results in order up to the first one equal to `stop`: whether there is such a one, and
everything looked at. -/
def runUntil (stop : Bool) : List (Bool × List α) → Bool × List α
  | [] => (!stop, [])
  | (result, visited) :: rest =>
    if result = stop then (stop, visited)
    else
      let (result, more) := runUntil stop rest
      (result, visited ++ more)

/-- Whether the condition holds, and the tests that are looked at from left to right until
that is decided. -/
def visit (holds : α → Bool) : Condition α → Bool × List α :=
  fold (fun a => (holds a, [a])) fun op parts =>
    match op with
    | .and => runUntil false parts
    | .or => runUntil true parts

/-- What is kept of a first selection by all the others. -/
def narrow (kept : List Nat) (others : List (List Nat)) : List Nat :=
  others.foldl (fun kept other => kept.filter other.contains) kept

/-- A first selection followed by what the others add to it. -/
def widen (kept : List Nat) (others : List (List Nat)) : List Nat :=
  others.foldl (fun kept other => kept ++ other.filter fun i => !kept.contains i) kept

/-- The indices below `len` that pass: a test keeps those that `keep` accepts, "and" keeps
what every part keeps, "or" what some part keeps. -/
def select (len : Nat) (keep : α → Nat → Bool) : Condition α → List Nat :=
  fold (fun a => (List.range len).filter (keep a)) fun op parts =>
    match op, parts with
    | .and, [] => []
    | .and, first :: rest => narrow first rest
    | .or, parts => widen [] parts

/-- Selections in order, narrowed until nothing is left: what remains, and the tests
applied. -/
def narrowUntilEmpty (kept : List Nat) : List (List Nat × List α) → List Nat × List α
  | [] => (kept, [])
  | (other, applied) :: rest =>
    if kept.isEmpty then (kept, [])
    else
      let (kept, more) := narrowUntilEmpty (kept.filter other.contains) rest
      (kept, applied ++ more)

/-- The indices that pass, and the tests that are applied to all indices to find them. -/
def survey (len : Nat) (keep : α → Nat → Bool) : Condition α → List Nat × List α :=
  fold (fun a => ((List.range len).filter (keep a), [a])) fun op parts =>
    match op, parts with
    | .and, [] => ([], [])
    | .and, (first, applied) :: rest =>
      let (kept, more) := narrowUntilEmpty first rest
      (kept, applied ++ more)
    | .or, parts => (widen [] (parts.map (·.1)), (parts.map (·.2)).flatten)

/-- The text of a part inside a join: a join stands in parentheses. -/
def bracketed (part : Bool × String) : String :=
  if part.1 then "(" ++ part.2 ++ ")" else part.2

/-- The text of a condition whose tests are described by `describe`. -/
def describe (describe : α → String) (condition : Condition α) : String :=
  (condition.fold (fun a => (false, describe a)) fun op parts =>
    (true, op.joiner.intercalate (parts.map bracketed))).2

/-! ### How folds meet the constructors -/

@[simp]
theorem eval_test (holds : α → Bool) (a : α) :
  (test a).eval holds = holds a
  := rfl

theorem eval_join (holds : α → Bool) (op : Connective) (items : List (Condition α)) :
  (join op items).eval holds
    = match op with
      | .and => items.all (eval holds)
      | .or => items.any (eval holds)
  := by
  unfold eval
  rw [fold_join]
  cases op <;> simp [List.all_map, List.any_map]

@[simp]
theorem leaves_test (a : α) :
  (test a).leaves = [a]
  := rfl

theorem leaves_join (op : Connective) (items : List (Condition α)) :
  (join op items).leaves = items.flatMap leaves
  := by
  unfold leaves
  rw [fold_join, List.flatMap_def]

@[simp]
theorem map_test (f : α → β) (a : α) :
  (test a).map f = test (f a)
  := rfl

theorem map_join (f : α → β) (op : Connective) (items : List (Condition α)) :
  (join op items).map f = join op (items.map (map f))
  := by
  unfold map
  rw [fold_join]

/-- A fold over images is a fold. -/
theorem fold_map (leaf : β → γ) (node : Connective → List γ → γ) (f : α → β)
    (condition : Condition α) :
  (condition.map f).fold leaf node = condition.fold (fun a => leaf (f a)) node
  := by
  induction condition with
  | test a => rfl
  | join op items ih =>
    rw [map_join, fold_join, fold_join, List.map_map]
    congr 1
    exact List.map_congr_left ih

theorem eval_map (holds : β → Bool) (f : α → β) (condition : Condition α) :
  (condition.map f).eval holds = condition.eval fun a => holds (f a)
  := fold_map ..

end Condition

end CardDuel
