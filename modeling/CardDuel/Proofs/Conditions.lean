import CardDuel.Condition
import Mathlib.Tactic.Common

/-!
# Combined conditions

`combine` lists the parts of two conditions one after the other (`parts_combine`).  So it is
associative, reads its tests from left to right, and looks at those of the second condition only
if the first one leaves the answer open.  The conditions that can be built from tests are exactly
the flat ones: every join has at least two parts, and none of them is joined in the same way.
`Condition.combine_flattens` puts this together.
-/

namespace CardDuel

/-- The result of one part that decides a join. -/
def Connective.decisive : Connective → Bool
  | .and => false
  | .or => true

namespace Condition

variable {α : Type}

/-! ### Parts -/

@[simp]
theorem parts_combine (op : Connective) (a b : Condition α) :
  (combine op a b).parts op = a.parts op ++ b.parts op
  := by rw [combine, parts, if_pos rfl]

theorem combine_assoc (op : Connective) (a b c : Condition α) :
  combine op (combine op a b) c = combine op a (combine op b c)
  := by
  rw [combine, parts_combine, List.append_assoc, ← parts_combine]
  rfl

/-- A condition that is not joined by `op` is a part of its own. -/
theorem parts_of_connective?_ne {op : Connective} {condition : Condition α}
    (other : condition.connective? ≠ some op) :
  condition.parts op = [condition]
  := by
  cases condition with
  | test a => rfl
  | join own items =>
    rw [parts, if_neg]
    rintro rfl
    exact other rfl

/-- Parts by `op` are not joined by `op` themselves, unless they were so inside a join. -/
theorem parts_cases (op : Connective) (condition : Condition α) :
  condition.parts op = [condition] ∧ condition.connective? ≠ some op
    ∨ condition = join op (condition.parts op)
  := by
  by_cases same : condition.connective? = some op
  · right
    cases condition with
    | test a => cases same
    | join own items =>
      obtain rfl := Option.some.inj same
      rw [parts, if_pos rfl]
  · left
    exact ⟨parts_of_connective?_ne same, same⟩

theorem flatMap_parts {op : Connective} {items : List (Condition α)}
    (unlike : ∀ item ∈ items, item.connective? ≠ some op) :
  items.flatMap (parts op) = items
  := by
  induction items with
  | nil => rfl
  | cons item rest ih =>
    obtain ⟨first, others⟩ := List.forall_mem_cons.mp unlike
    rw [List.flatMap_cons, parts_of_connective?_ne first, ih others]
    rfl

theorem leaves_eq_flatMap_parts (op : Connective) (condition : Condition α) :
  condition.leaves = (condition.parts op).flatMap leaves
  := by
  rcases parts_cases op condition with ⟨alone, -⟩ | joined
  · rw [alone, List.flatMap_singleton]
  · rw [← leaves_join op, ← joined]

theorem leaves_combine (op : Connective) (a b : Condition α) :
  (combine op a b).leaves = a.leaves ++ b.leaves
  := by
  rw [leaves_eq_flatMap_parts op, parts_combine, List.flatMap_append,
    ← leaves_eq_flatMap_parts, ← leaves_eq_flatMap_parts]

/-! ### Looking at the tests one by one -/

theorem visit_join (holds : α → Bool) (op : Connective) (items : List (Condition α)) :
  (join op items).visit holds = runUntil op.decisive (items.map (visit holds))
  := by
  unfold visit
  rw [fold_join]
  cases op <;> rfl

/-- Results in two stretches: the second one is looked at if none of the first decides. -/
theorem runUntil_append (stop : Bool) (before after : List (Bool × List α)) :
  runUntil stop (before ++ after)
    = if (runUntil stop before).1 = stop then runUntil stop before
      else ((runUntil stop after).1, (runUntil stop before).2 ++ (runUntil stop after).2)
  := by
  induction before with
  | nil => simp [runUntil]
  | cons result rest ih =>
    obtain ⟨holds, visited⟩ := result
    simp only [List.cons_append, runUntil]
    split
    · simp
    · simp only [ih]
      split <;> simp

/-- A condition is looked at as the join of its parts is. -/
theorem visit_eq_runUntil_parts (holds : α → Bool) (op : Connective) (condition : Condition α) :
  condition.visit holds = runUntil op.decisive ((condition.parts op).map (visit holds))
  := by
  rcases parts_cases op condition with ⟨alone, -⟩ | joined
  · rw [alone, List.map_singleton]
    rcases condition.visit holds with ⟨result, visited⟩
    cases result <;> cases op <;> simp [runUntil, Connective.decisive]
  · rw [← visit_join, ← joined]

/-- The tests of a second condition are looked at if the first one does not decide. -/
theorem visit_combine (holds : α → Bool) (op : Connective) (a b : Condition α) :
  (combine op a b).visit holds
    = if (a.visit holds).1 = op.decisive then a.visit holds
      else ((b.visit holds).1, (a.visit holds).2 ++ (b.visit holds).2)
  := by
  rw [visit_eq_runUntil_parts holds op, parts_combine, List.map_append, runUntil_append,
    ← visit_eq_runUntil_parts, ← visit_eq_runUntil_parts]

/-- A run along the parts of a join gives its result. -/
theorem fst_runUntil (op : Connective) (results : List (Bool × List α)) :
  (runUntil op.decisive results).1
    = match op with
      | .and => (results.map (·.1)).all id
      | .or => (results.map (·.1)).any id
  := by
  induction results with
  | nil => cases op <;> rfl
  | cons result rest ih =>
    obtain ⟨holds, visited⟩ := result
    cases op <;> cases holds <;> simp_all [runUntil, Connective.decisive]

/-- Looking at the tests one by one gives the answer. -/
theorem fst_visit (holds : α → Bool) (condition : Condition α) :
  (condition.visit holds).1 = condition.eval holds
  := by
  induction condition with
  | test a => rfl
  | join op items ih =>
    have same : (items.map (visit holds)).map (·.1) = items.map (eval holds) := by
      rw [List.map_map]
      exact List.map_congr_left ih
    rw [visit_join, fst_runUntil, same, eval_join]
    cases op with
    | and => exact List.all_map
    | or => exact List.any_map

/-- "And" looks at its second condition if the first one holds. -/
theorem visit_and (holds : α → Bool) (a b : Condition α) :
  (a.and b).visit holds
    = (a.eval holds && b.eval holds,
      (a.visit holds).2 ++ (if a.eval holds = true then (b.visit holds).2 else []))
  := by
  rw [Condition.and, visit_combine, fst_visit, fst_visit, ← fst_visit holds a]
  rcases a.visit holds with ⟨result, visited⟩
  cases result <;> simp [Connective.decisive]

/-- "Or" looks at its second condition if the first one does not hold. -/
theorem visit_or (holds : α → Bool) (a b : Condition α) :
  (a.or b).visit holds
    = (a.eval holds || b.eval holds,
      (a.visit holds).2 ++ (if a.eval holds = true then [] else (b.visit holds).2))
  := by
  rw [Condition.or, visit_combine, fst_visit, fst_visit, ← fst_visit holds a]
  rcases a.visit holds with ⟨result, visited⟩
  cases result <;> simp [Connective.decisive]

/-- Joining two conditions means what the connective says. -/
theorem eval_combine (holds : α → Bool) (op : Connective) (a b : Condition α) :
  (combine op a b).eval holds = (join op [a, b]).eval holds
  := by
  rw [eval_join]
  cases op with
  | and =>
    change (a.and b).eval holds = _
    rw [← fst_visit, visit_and]
    simp
  | or =>
    change (a.or b).eval holds = _
    rw [← fst_visit, visit_or]
    simp

/-- So does joining all conditions of a list. -/
theorem eval_of_combineAll {op : Connective} {conditions : List (Condition α)}
    {condition : Condition α} (holds : α → Bool) (h : combineAll op conditions = some condition) :
  condition.eval holds = (join op conditions).eval holds
  := by
  rcases conditions with _ | ⟨first, rest⟩
  · contradiction
  · obtain rfl := Option.some.inj h
    clear h
    induction rest generalizing first with
    | nil =>
      rw [eval_join]
      cases op <;> simp
    | cons second rest ih =>
      rw [List.foldl_cons, ih, eval_join, eval_join]
      cases op <;> simp [eval_combine, eval_join, Bool.and_assoc, Bool.or_assoc]

theorem eval_getD_combineAll (holds : α → Bool) (op : Connective) (conditions : List (Condition α))
    (default : Condition α) :
  ((combineAll op conditions).getD default).eval holds
    = if conditions = [] then default.eval holds else (join op conditions).eval holds
  := by
  rcases conditions with _ | ⟨first, rest⟩
  · rfl
  · rw [if_neg (List.cons_ne_nil first rest)]
    apply eval_of_combineAll holds rfl

/-! ### Flat conditions -/

/-- Every join has at least two parts, and none of them is joined in the same way. -/
inductive IsFlat : Condition α → Prop
  | test (a : α) : IsFlat (.test a)
  | join {op : Connective} {items : List (Condition α)} (several : 2 ≤ items.length)
      (unlike : ∀ item ∈ items, item.connective? ≠ some op)
      (flat : ∀ item ∈ items, IsFlat item) :
    IsFlat (.join op items)

/-- The conditions that are made of tests by joining two conditions or all of a list. -/
inductive IsBuilt : Condition α → Prop
  | test (a : α) : IsBuilt (.test a)
  | and {a b : Condition α} : IsBuilt a → IsBuilt b → IsBuilt (a.and b)
  | or {a b : Condition α} : IsBuilt a → IsBuilt b → IsBuilt (a.or b)
  | all {conditions : List (Condition α)} {condition : Condition α} :
    (∀ part ∈ conditions, IsBuilt part) → combineAll .and conditions = some condition →
      IsBuilt condition
  | any {conditions : List (Condition α)} {condition : Condition α} :
    (∀ part ∈ conditions, IsBuilt part) → combineAll .or conditions = some condition →
      IsBuilt condition

/-- Combining several conditions joins the parts of all of them. -/
theorem foldl_combine (op : Connective) (a b : Condition α) (rest : List (Condition α)) :
  rest.foldl (combine op) (combine op a b) = join op ((a :: b :: rest).flatMap (parts op))
  := by
  induction rest generalizing a b with
  | nil => simp [combine]
  | cons c rest ih =>
    rw [List.foldl_cons, ih]
    simp

theorem IsFlat.parts {condition : Condition α} (flat : condition.IsFlat) (op : Connective) :
  1 ≤ (condition.parts op).length
    ∧ ∀ part ∈ condition.parts op, part.connective? ≠ some op ∧ part.IsFlat
  := by
  rcases parts_cases op condition with ⟨alone, unlike⟩ | joined
  · rw [alone]
    simpa using ⟨unlike, flat⟩
  · rw [joined] at flat
    cases flat with
    | join several unlike flat =>
      exact ⟨Nat.le_of_succ_le several, fun part mem => ⟨unlike part mem, flat part mem⟩⟩

/-- Joining the parts of several flat conditions makes a flat one. -/
theorem isFlat_join_parts {op : Connective} {a b : Condition α} {rest : List (Condition α)}
    (flat : ∀ condition ∈ a :: b :: rest, condition.IsFlat) :
  (join op ((a :: b :: rest).flatMap (parts op))).IsFlat
  := by
  have unlike : ∀ part ∈ (a :: b :: rest).flatMap (Condition.parts op),
      part.connective? ≠ some op ∧ part.IsFlat := by
    intro part mem
    obtain ⟨condition, listed, inside⟩ := List.mem_flatMap.mp mem
    apply ((flat condition listed).parts op).2 part inside
  apply IsFlat.join
  · have first := ((flat a (by simp)).parts op).1
    have second := ((flat b (by simp)).parts op).1
    simp only [List.flatMap_cons, List.length_append]
    omega
  · intro part mem
    exact (unlike part mem).1
  · intro part mem
    exact (unlike part mem).2

theorem IsFlat.combineAll (op : Connective) {conditions : List (Condition α)}
    (flat : ∀ part ∈ conditions, part.IsFlat) {condition : Condition α}
    (h : combineAll op conditions = some condition) :
  condition.IsFlat
  := by
  match conditions, h with
  | [single], h =>
    obtain rfl := Option.some.inj h
    apply flat single List.mem_cons_self
  | a :: b :: rest, h =>
    obtain rfl := Option.some.inj h
    rw [List.foldl_cons, foldl_combine]
    apply isFlat_join_parts flat

theorem IsFlat.combine {a b : Condition α} (flatA : a.IsFlat) (flatB : b.IsFlat)
    (op : Connective) :
  (combine op a b).IsFlat
  := by
  have both : ∀ part ∈ [a, b], part.IsFlat := by simp [flatA, flatB]
  apply IsFlat.combineAll op both rfl

/-- Whatever is built from tests is flat. -/
theorem IsBuilt.isFlat {condition : Condition α} (built : condition.IsBuilt) :
  condition.IsFlat
  := by
  induction built with
  | test a => exact .test a
  | and _ _ flatA flatB => exact flatA.combine flatB .and
  | or _ _ flatA flatB => exact flatA.combine flatB .or
  | all _ combined flat => exact .combineAll .and flat combined
  | any _ combined flat => exact .combineAll .or flat combined

/-- A flat condition can be built from tests: a join is made from the list of its parts. -/
theorem IsFlat.isBuilt {condition : Condition α} (flat : condition.IsFlat) :
  condition.IsBuilt
  := by
  induction flat with
  | test a => exact .test a
  | @join op items several unlike _ built =>
    have combined : Condition.combineAll op items = some (.join op items) := by
      match items, several with
      | a :: b :: rest, _ =>
        rw [Condition.combineAll, List.foldl_cons, foldl_combine, flatMap_parts unlike]
    cases op with
    | and => exact .all built combined
    | or => exact .any built combined

/-- Combining conditions is associative, keeps the order of the tests, means what the connective
says, and looks at the second condition exactly if the first does not decide, while a single test is
always looked at; the conditions that can be built from tests are the flat ones. -/
theorem combine_flattens (a b c : Condition α) (op : Connective) (holds : α → Bool) :
  combine op (combine op a b) c = combine op a (combine op b c)
    ∧ (combine op a b).leaves = a.leaves ++ b.leaves
    ∧ (a.and b).eval holds = (a.eval holds && b.eval holds)
    ∧ (a.or b).eval holds = (a.eval holds || b.eval holds)
    ∧ (∀ leaf, (test leaf).visit holds = (holds leaf, [leaf]))
    ∧ (c.visit holds).1 = c.eval holds
    ∧ ((a.and b).visit holds).2
      = (a.visit holds).2 ++ (if a.eval holds = true then (b.visit holds).2 else [])
    ∧ ((a.or b).visit holds).2
      = (a.visit holds).2 ++ (if a.eval holds = true then [] else (b.visit holds).2)
    ∧ (c.IsBuilt ↔ c.IsFlat)
  := by
  refine ⟨combine_assoc op a b c, leaves_combine op a b, ?_, ?_, fun leaf => rfl,
    fst_visit holds c, ?_, ?_, IsBuilt.isFlat, IsFlat.isBuilt⟩
  · rw [← fst_visit, visit_and]
  · rw [← fst_visit, visit_or]
  · rw [visit_and]
  · rw [visit_or]

/-- Seven or three. -/
def sevenOrThree : Condition Nat :=
  (test 7).or (test 3)

/-- Where the numbers below five hold, seven and three are both looked at, since seven leaves the
answer open.  A nine is looked at after them if it has to hold as well, and not if it may hold
instead. -/
theorem combine_flattens_sevenOrThree :
  combine .and (combine .and sevenOrThree (test 9)) (test 1)
      = join .and [join .or [test 7, test 3], test 9, test 1]
    ∧ sevenOrThree.visit (· < 5) = (true, [7, 3])
    ∧ (sevenOrThree.and (test 9)).visit (· < 5) = (false, [7, 3, 9])
    ∧ (sevenOrThree.or (test 9)).visit (· < 5) = (true, [7, 3])
    ∧ sevenOrThree.IsFlat
  := by
  obtain ⟨-, -, -, either, single, judged, -, looked, flat⟩ :=
    combine_flattens (test 7) (test 3) sevenOrThree .or (· < 5)
  have holds : sevenOrThree.eval (· < 5) = true := by
    rw [sevenOrThree, either]
    rfl
  have visited : sevenOrThree.visit (· < 5) = (true, [7, 3]) := by
    apply Prod.ext
    · rw [judged, holds]
    · rw [sevenOrThree, looked, single, single]
      rfl
  obtain ⟨-, -, both, -, -, judgedBoth, lookedBoth, -, -⟩ :=
    combine_flattens sevenOrThree (test 9) (sevenOrThree.and (test 9)) .and (· < 5)
  obtain ⟨-, -, -, one, -, judgedOne, -, lookedOne, -⟩ :=
    combine_flattens sevenOrThree (test 9) (sevenOrThree.or (test 9)) .or (· < 5)
  refine ⟨?_, visited, ?_, ?_, flat.mp (.or (.test 7) (.test 3))⟩
  · obtain ⟨associative, -⟩ := combine_flattens sevenOrThree (test 9) (test 1) .and (· < 5)
    rw [associative]
    rfl
  · apply Prod.ext
    · rw [judgedBoth, both, holds]
      rfl
    · rw [lookedBoth, visited, holds, if_pos rfl]
      rfl
  · apply Prod.ext
    · rw [judgedOne, one, holds]
      rfl
    · rw [lookedOne, visited, holds, if_pos rfl]
      rfl

end Condition

end CardDuel
