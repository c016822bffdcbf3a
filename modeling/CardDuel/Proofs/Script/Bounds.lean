import CardDuel.Proofs.Text
import CardDuel.Script.DeckText

/-!
# Which deck texts can be read

Whatever stands in a deck text, reading it goes on and at most adds a warning, with one
exception: a rule may ask for a number above the greatest or below the least that there is.
`Script.exists_readDeck_iff` says that a text is read exactly if none of its rules does.  Whether
a line is read does not depend on the lines before it, so the proof follows only the fault of each
step (`Checked.fault?`).
-/

namespace CardDuel

/-! ### Faults -/

namespace Checked

variable {α β : Type}

/-- The fault of a computation that fails. -/
def fault? : Except Fault α → Option Fault
  | .ok _ => none
  | .error fault => some fault

theorem fault?_eq_none_iff {x : Except Fault α} :
  fault? x = none ↔ ∃ a, x = .ok a
  := by cases x <;> simp [fault?]

/-- A chain fails with its first fault, if the second step fails alike for all results of the
first. -/
theorem fault?_bind {x : Except Fault α} {f : α → Except Fault β} (next : Option Fault)
    (h : ∀ a, fault? (f a) = next) :
  fault? (x >>= f) = (fault? x).or next
  := by
  cases x with
  | error fault => rfl
  | ok a => apply h

theorem fault?_guard (bits : Nat) (fault : Fault) (n : Int) :
  fault? (guard bits fault n) = if InRange bits n then none else some fault
  := by
  rw [guard]
  split <;> rfl

theorem fault?_map (x : Except Fault α) (f : α → β) :
  fault? (x.map f) = fault? x
  := by cases x <;> rfl

end Checked

namespace Script

open Checked

/-! ### Bounds -/

/-- A comparison with the word that stands for its number. -/
structure Bound where
  operator : String
  operand : String
deriving DecidableEq, Repr

namespace Bound

/-- The bound asks for more than the greatest number or for less than the least one. -/
def Overreaches (bound : Bound) : Prop :=
  bound.operator = ">" ∧ Text.readSigned 32 bound.operand = some 2147483647
    ∨ bound.operator = "<" ∧ Text.readSigned 32 bound.operand = some (-2147483648)

/-- The fault of a bound that overreaches. -/
def fault? (bound : Bound) : Option Fault :=
  if bound.operator = ">" ∧ Text.readSigned 32 bound.operand = some 2147483647 then
    some .addition
  else if bound.operator = "<" ∧ Text.readSigned 32 bound.operand = some (-2147483648) then
    some .subtraction
  else none

theorem fault?_eq_none_iff {bound : Bound} :
  bound.fault? = none ↔ ¬ bound.Overreaches
  := by
  unfold fault? Overreaches
  split
  · simp_all
  · split <;> simp_all

end Bound

theorem inRange_add_one {n : Int} (h : InRange 32 n) :
  InRange 32 (n + 1) ↔ n ≠ 2147483647
  := by
  unfold InRange at *
  rw [limit_32] at *
  omega

theorem inRange_sub_one {n : Int} (h : InRange 32 n) :
  InRange 32 (n - 1) ↔ n ≠ -2147483648
  := by
  unfold InRange at *
  rw [limit_32] at *
  omega

theorem fault?_bounded (scope : Scope) (operator : String) {n : Int} (h : InRange 32 n) :
  Checked.fault? (bounded scope operator n)
    = if operator = ">" ∧ n = 2147483647 then some .addition
      else if operator = "<" ∧ n = -2147483648 then some .subtraction
      else none
  := by
  unfold bounded
  split
  · simp only [fault?_map, Checked.add, fault?_guard, inRange_add_one h]
    simp
  · rfl
  · simp only [fault?_map, Checked.sub, fault?_guard, inRange_sub_one h]
    simp
  · rfl
  · rfl
  · rfl
  · simp_all [Checked.fault?]

/-- Reading a bound fails exactly if it overreaches. -/
theorem fault?_readBound (scope : Scope) (operator operand : String) :
  Checked.fault? (readBound scope operator operand) = Bound.fault? ⟨operator, operand⟩
  := by
  unfold readBound Bound.fault?
  cases number : Text.readSigned 32 operand with
  | none => simp [Checked.fault?]
  | some n =>
    have bounded := fault?_bounded scope operator (Text.inRange_of_readSigned number)
    rw [fault?_bind none, bounded, Option.or_none]
    · simp
    · intro answer
      cases answer <;> rfl

/-! ### Rules -/

/-- The bounds in the words of an application: a comparison stands together with its number, or
takes the next word for it. -/
def bounds : List String → List Bound
  | [] => []
  | word :: rest =>
    match Clause.ofWord word with
    | .compare operator operand =>
      if operand.isEmpty then
        match rest with
        | [] => []
        | next :: rest => ⟨operator, next⟩ :: bounds rest
      else ⟨operator, operand⟩ :: bounds rest
    | _ => bounds rest

/-- The bounds in the words of a requirement, which follow the number of cards. -/
def requirementBounds (words : List String) : List Bound :=
  match splitCount (splitComparison words).2 with
  | none => []
  | some (_, style) => bounds style

/-- The first fault of a list of bounds. -/
def faultOf (bounds : List Bound) : Option Fault :=
  bounds.findSome? Bound.fault?

theorem faultOf_cons (bound : Bound) (rest : List Bound) :
  faultOf (bound :: rest) = bound.fault?.or (faultOf rest)
  := by
  rw [faultOf, List.findSome?_cons]
  cases bound.fault? <;> rfl

theorem faultOf_eq_none_iff {bounds : List Bound} :
  faultOf bounds = none ↔ ∀ bound ∈ bounds, ¬ bound.Overreaches
  := by simp only [faultOf, List.findSome?_eq_none_iff, Bound.fault?_eq_none_iff]

/-- Reading an aim fails with the first bound that overreaches. -/
theorem fault?_readAim (known : List String) (scope : Scope) (suits words : List String) :
  Checked.fault? (readAim known scope suits none words) = faultOf (bounds words)
  := by
  fun_induction bounds words generalizing scope suits with
  | case1 => rfl
  | case2 word operator operand comparison lone =>
    simp only [readAim, comparison, lone, if_true]
    rfl
  | case3 word operator operand comparison lone next rest ih =>
    simp only [readAim, comparison, lone, if_true]
    rw [faultOf_cons, ← fault?_readBound scope]
    apply fault?_bind
    intro bound
    rw [fault?_bind none fun _ => rfl, ih, Option.or_none]
  | case4 word rest operator operand comparison together ih =>
    simp only [readAim, comparison, if_neg together]
    rw [faultOf_cons, ← fault?_readBound scope]
    apply fault?_bind
    intro bound
    rw [fault?_bind none fun _ => rfl, ih, Option.or_none]
  | case5 word rest other ih =>
    rw [readAim]
    cases clause : Clause.ofWord word with
    | align | filler | hand => apply ih
    | versus =>
      dsimp only
      split
      · rename_i last
        rw [List.isEmpty_iff.mp last]
        rfl
      · rw [fault?_bind none fun _ => rfl, ih, Option.or_none]
    | compare operator operand => exact absurd clause (other operator operand)
    | name =>
      dsimp only
      rw [fault?_bind none fun _ => rfl, ih, Option.or_none]

theorem fault?_applicationOfWords (known words : List String) :
  Checked.fault? (applicationOfWords known words) = faultOf (bounds words)
  := by
  rw [applicationOfWords, fault?_bind none fun _ => rfl, fault?_readAim, Option.or_none]

theorem fault?_requirementOfWords (known words : List String) :
  Checked.fault? (requirementOfWords known words) = faultOf (requirementBounds words)
  := by
  unfold requirementOfWords requirementBounds
  split
  · rename_i empty
    rw [List.isEmpty_iff.mp empty]
    rfl
  · dsimp only
    split
    · rename_i noCount
      rw [noCount]
      rfl
    · rename_i count counted
      rw [counted]
      rfl
    · rename_i count style _ counted
      rw [counted, fault?_bind none fun _ => rfl, fault?_applicationOfWords, Option.or_none]

/-! ### Deck texts -/

/-- The bounds in a line of a deck text. -/
def TaggedLine.bounds (line : TaggedLine) : List Bound :=
  match line.tag with
  | "SPECIAL-REQ" => requirementBounds (ruleWords line.value)
  | "SPECIAL-APP" => Script.bounds (ruleWords line.value)
  | _ => []

/-- Whether a line is read does not depend on what was read before. -/
theorem fault?_step (draft : DeckDraft) (line : TaggedLine) :
  Checked.fault? (draft.step line) = faultOf line.bounds
  := by
  obtain ⟨number, tag, value⟩ := line
  unfold DeckDraft.step TaggedLine.bounds
  dsimp only
  split
  case h_4 =>
    rw [DeckDraft.readRequirement, fault?_bind none, readRequirement,
      fault?_requirementOfWords, Option.or_none]
    · rfl
    · intro requirement
      dsimp only
      split <;> rfl
  case h_5 =>
    rw [DeckDraft.readApplication, fault?_bind none fun _ => rfl, readApplication,
      fault?_applicationOfWords, Option.or_none]
    rfl
  case h_7 => simp_all [Checked.fault?, faultOf]
  all_goals rfl

/-- A walk whose steps fail alike in all states fails with the first fault of a step. -/
theorem fault?_walk {σ : Type} {step : σ → TaggedLine → Except Fault (Reading σ)}
    {fault : TaggedLine → Option Fault}
    (alike : ∀ state line, Checked.fault? (step state line) = fault line) (state : σ)
    (lines : List TaggedLine) :
  Checked.fault? (walk step state lines) = lines.findSome? fault
  := by
  induction lines generalizing state with
  | nil => rfl
  | cons line rest ih =>
    rw [walk, List.findSome?_cons, ← alike state line, fault?_bind (rest.findSome? fault)]
    · cases Checked.fault? (step state line) <;> rfl
    · intro next
      rw [fault?_bind none fun _ => rfl, ih, Option.or_none]

/-- Whatever a text contains, it is read as a deck, with warnings for its defects, exactly if no
bound in its lines asks for more than the greatest number or for less than the least. -/
theorem exists_readDeck_iff (name text : String) :
  (∃ parsed, readDeck name text = .ok parsed)
    ↔ ∀ line ∈ (tokenize text).value, ∀ bound ∈ line.bounds, ¬ bound.Overreaches
  := by
  have fault : Checked.fault? (readDeck name text)
      = (tokenize text).value.findSome? fun line => faultOf line.bounds := by
    rw [readDeck, fault?_bind none fun _ => rfl, fault?_walk fault?_step, Option.or_none]
  rw [← Checked.fault?_eq_none_iff, fault, List.findSome?_eq_none_iff]
  simp only [faultOf_eq_none_iff]

/-- One more than the greatest number cannot be asked for. -/
theorem readDeck_above_greatest :
  readDeck "Test" "[SPECIAL-APP]>2147483647" = .error .addition
  := rfl

end Script

end CardDuel
