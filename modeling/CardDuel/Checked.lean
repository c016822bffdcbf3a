/-!
# Checked arithmetic

Points, card values and play values live in a fixed range of signed integers.  Every
operation here computes in `Int` and refuses a result outside the range with a `Fault`
that names the operation, so a result is always the true one.  `Fault` also lists the
two other conditions under which a request to the game is meaningless as such.
-/

namespace CardDuel

/-- A condition under which a computation has no result at all. -/
inductive Fault where
  /-- A sum left its range. -/
  | addition
  /-- A difference left its range. -/
  | subtraction
  /-- A product left its range. -/
  | multiplication
  /-- A seat number other than 0 and 1. -/
  | noSuchSeat
  /-- A board without any slot. -/
  | noSlots
deriving DecidableEq, Repr

/-- The text that reports a fault. -/
def Fault.message : Fault → String
  | .addition => "attempt to add with overflow"
  | .subtraction => "attempt to subtract with overflow"
  | .multiplication => "attempt to multiply with overflow"
  | .noSuchSeat => "PlayerId must be 0 or 1"
  | .noSlots => "Board needs at least one slot per side"

namespace Checked

/-- The least number that the signed integers of `bits` binary digits do not reach. -/
def limit (bits : Nat) : Nat := 1 <<< (bits - 1)

@[simp]
theorem limit_32 :
  limit 32 = 2147483648
  := rfl

/-- The signed integers of `bits` binary digits. -/
def InRange (bits : Nat) (n : Int) : Prop :=
  -(limit bits : Int) ≤ n ∧ n < limit bits

instance (bits : Nat) (n : Int) : Decidable (InRange bits n) :=
  inferInstanceAs (Decidable (_ ∧ _))

/-- The number `n`, if it is in range. -/
def guard (bits : Nat) (fault : Fault) (n : Int) : Except Fault Int :=
  if InRange bits n then .ok n else .error fault

/-- The sum of two 32-bit numbers, a fault if it leaves their range. -/
def add (a b : Int) : Except Fault Int :=
  guard 32 .addition (a + b)

/-- The difference of two 32-bit numbers, a fault if it leaves their range. -/
def sub (a b : Int) : Except Fault Int :=
  guard 32 .subtraction (a - b)

/-- The sum of a list, added up from the left; every partial sum is checked. -/
def sum (ns : List Int) : Except Fault Int :=
  ns.foldlM (fun total n => add total n) 0

/-- The number whose binary digits are the lowest 32 of `n`. -/
def lowest32 (n : Nat) : Int :=
  (n : Int).bmod 4294967296

/-! ### What the operations answer -/

@[simp]
theorem guard_of_inRange {bits : Nat} {fault : Fault} {n : Int} (h : InRange bits n) :
  guard bits fault n = .ok n
  := if_pos h

theorem guard_eq_ok_iff {bits : Nat} {fault : Fault} {n m : Int} :
  guard bits fault n = .ok m ↔ InRange bits n ∧ n = m
  := by
  unfold guard
  split <;> simp_all

theorem add_eq_ok_iff {a b c : Int} :
  add a b = .ok c ↔ InRange 32 (a + b) ∧ a + b = c
  := guard_eq_ok_iff

theorem sub_eq_ok_iff {a b c : Int} :
  sub a b = .ok c ↔ InRange 32 (a - b) ∧ a - b = c
  := guard_eq_ok_iff

/-- A checked sum is the sum or the one fault of additions. -/
theorem add_cases (a b : Int) :
  add a b = .ok (a + b) ∨ add a b = .error .addition
  := by
  unfold add guard
  split
  · left
    rfl
  · right
    rfl

/-! ### Chains of computations -/

section

variable {α β γ : Type}

@[simp]
theorem ok_bind (a : α) (f : α → Except Fault β) :
  (Except.ok a >>= f) = f a
  := rfl

@[simp]
theorem error_bind (fault : Fault) (f : α → Except Fault β) :
  (Except.error fault >>= f) = .error fault
  := rfl

@[simp]
theorem map_ok (f : α → β) (a : α) :
  f <$> (.ok a : Except Fault α) = .ok (f a)
  := rfl

@[simp]
theorem map_error (f : α → β) (fault : Fault) :
  f <$> (.error fault : Except Fault α) = .error fault
  := rfl

theorem bind_eq_ok_iff {x : Except Fault α} {f : α → Except Fault β} {b : β} :
  (x >>= f) = .ok b ↔ ∃ a, x = .ok a ∧ f a = .ok b
  := by cases x <;> simp

theorem map_eq_ok_iff {x : Except Fault α} {f : α → β} {b : β} :
  x.map f = .ok b ↔ ∃ a, x = .ok a ∧ f a = b
  := by cases x <;> simp [Except.map]

/-- What every step of a checked fold preserves holds at its end. -/
theorem foldlM_preserves {P : β → Prop} {f : β → α → Except Fault β} {as : List α}
    (step : ∀ a ∈ as, ∀ b b', P b → f b a = .ok b' → P b') {b b' : β} (start : P b)
    (h : as.foldlM f b = .ok b') :
  P b'
  := by
  induction as generalizing b with
  | nil =>
    obtain rfl := Except.ok.inj h
    exact start
  | cons a rest ih =>
    rw [List.foldlM_cons, bind_eq_ok_iff] at h
    obtain ⟨next, first, others⟩ := h
    apply ih _ (step a List.mem_cons_self b next start first) others
    intro a' later
    exact step a' (List.mem_cons_of_mem a later)

/-- A checked fold whose steps all succeed succeeds. -/
theorem exists_foldlM_eq_ok {f : β → α → Except Fault β} {as : List α}
    (step : ∀ a ∈ as, ∀ b, ∃ b', f b a = .ok b') (b : β) :
  ∃ b', as.foldlM f b = .ok b'
  := by
  induction as generalizing b with
  | nil => exact ⟨b, rfl⟩
  | cons a rest ih =>
    obtain ⟨next, first⟩ := step a List.mem_cons_self b
    rw [List.foldlM_cons, first, ok_bind]
    apply ih
    intro a' later
    exact step a' (List.mem_cons_of_mem a later)

/-- A property of results that a checked map passes on from its arguments. -/
theorem map_eq_of_mapM {f : α → Except Fault β} {g : α → γ} {g' : β → γ} {as : List α}
    (step : ∀ a ∈ as, ∀ b, f a = .ok b → g' b = g a) {bs : List β} (h : as.mapM f = .ok bs) :
  bs.map g' = as.map g
  := by
  induction as generalizing bs with
  | nil =>
    obtain rfl := Except.ok.inj h
    rfl
  | cons a rest ih =>
    rw [List.mapM_cons, bind_eq_ok_iff] at h
    obtain ⟨b, first, h⟩ := h
    obtain ⟨others, later, h⟩ := bind_eq_ok_iff.mp h
    obtain rfl := Except.ok.inj h
    rw [List.map_cons, List.map_cons, step a List.mem_cons_self b first, ih _ later]
    intro a' mem
    exact step a' (List.mem_cons_of_mem a mem)

end

end Checked

end CardDuel
