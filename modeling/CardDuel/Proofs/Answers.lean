import CardDuel.Checked
import Mathlib.Algebra.GroupWithZero.Nat
import Mathlib.Algebra.Ring.Int.Defs
import Mathlib.Tactic.Common

/-!
# Computations that have a result

Checked arithmetic fails where a number leaves its range, so a bound on all numbers has to be
carried along with the results.  `Checked.Ensures safe P x` does both at once: a result of `x`
satisfies `P`, and there is one if `safe` holds.  It passes from steps to chains, folds and maps
of them.  Checked sums need no such care: they have the true sum as their result if the absolute
values of all amounts fit into the range together (`Checked.foldlM_eq_add_sum`).
-/

namespace CardDuel.Checked

variable {α β : Type}

theorem inRange_of_natAbs_le {n : Int} (h : n.natAbs ≤ 2147483647) :
  InRange 32 n
  := by
  unfold InRange
  rw [limit_32]
  omega

/-! ### Results and bounds -/

/-- A result of the computation satisfies `P`, and it has a result if `safe` holds. -/
structure Ensures (safe : Prop) (P : α → Prop) (x : Except Fault α) : Prop where
  result : ∀ a, x = .ok a → P a
  exists_ok : safe → ∃ a, x = .ok a

namespace Ensures

variable {safe : Prop} {P : α → Prop} {Q : β → Prop} {x : Except Fault α}

theorem ok {a : α} (h : P a) :
  Ensures safe P (.ok a)
  := by
  constructor
  · intro a' same
    obtain rfl := Except.ok.inj same
    apply h
  · intro _
    exact ⟨a, rfl⟩

theorem guard {P : Int → Prop} {bits : Nat} {fault : Fault} {n : Int}
    (inRange : safe → InRange bits n) (h : P n) :
  Ensures safe P (guard bits fault n)
  := by
  constructor
  · intro m guarded
    obtain rfl := (guard_eq_ok_iff.mp guarded).2
    apply h
  · intro isSafe
    exact ⟨n, guard_of_inRange (inRange isSafe)⟩

theorem add {P : Int → Prop} {a b : Int} (inRange : safe → InRange 32 (a + b)) (h : P (a + b)) :
  Ensures safe P (add a b)
  := guard inRange h

theorem sub {P : Int → Prop} {a b : Int} (inRange : safe → InRange 32 (a - b)) (h : P (a - b)) :
  Ensures safe P (sub a b)
  := guard inRange h

/-- A sum of numbers that are small enough is in range. -/
theorem add_of_natAbs_le {a b : Int} {bound : Nat} (small : a.natAbs + b.natAbs ≤ bound)
    (room : bound ≤ 2147483647) :
  Ensures safe (fun n => n.natAbs ≤ bound) (Checked.add a b)
  := by
  apply add
  · intro _
    apply inRange_of_natAbs_le
    omega
  · omega

theorem sub_of_natAbs_le {a b : Int} {bound : Nat} (small : a.natAbs + b.natAbs ≤ bound)
    (room : bound ≤ 2147483647) :
  Ensures safe (fun n => n.natAbs ≤ bound) (Checked.sub a b)
  := by
  apply sub
  · intro _
    apply inRange_of_natAbs_le
    omega
  · omega

theorem bind {f : α → Except Fault β} (h : Ensures safe P x)
    (step : ∀ a, P a → Ensures safe Q (f a)) :
  Ensures safe Q (x >>= f)
  := by
  constructor
  · intro b answered
    obtain ⟨a, first, second⟩ := bind_eq_ok_iff.mp answered
    apply (step a (h.result a first)).result b second
  · intro isSafe
    obtain ⟨a, rfl⟩ := h.exists_ok isSafe
    apply (step a (h.result a rfl)).exists_ok isSafe

theorem map {f : α → β} (h : Ensures safe (fun a => Q (f a)) x) :
  Ensures safe Q (x.map f)
  := by
  constructor
  · intro b mapped
    obtain ⟨a, answered, rfl⟩ := map_eq_ok_iff.mp mapped
    apply h.result a answered
  · intro isSafe
    obtain ⟨a, rfl⟩ := h.exists_ok isSafe
    exact ⟨f a, rfl⟩

theorem exists_result (h : Ensures safe P x) (isSafe : safe) :
  ∃ a, x = .ok a ∧ P a
  := by
  obtain ⟨a, answered⟩ := h.exists_ok isSafe
  exact ⟨a, answered, h.result a answered⟩

theorem mono {P' : α → Prop} (h : Ensures safe P x) (weaker : ∀ a, P a → P' a) :
  Ensures safe P' x
  := ⟨fun a answered => weaker a (h.result a answered), h.exists_ok⟩

/-- What each step of a fold takes from one number to the next, a fold takes from zero to the
number of its steps. -/
theorem foldlM {P : Nat → β → Prop} {f : β → α → Except Fault β} {as : List α} {b : β}
    (step : ∀ a ∈ as, ∀ n < as.length, ∀ b, P n b → Ensures safe (P (n + 1)) (f b a))
    (start : P 0 b) :
  Ensures safe (P as.length) (as.foldlM f b)
  := by
  induction as generalizing b P with
  | nil => apply ok start
  | cons a rest ih =>
    rw [List.foldlM_cons]
    apply (step a List.mem_cons_self 0 (Nat.zero_lt_succ _) b start).bind
    intro next first
    -- the rest of the fold counts from one
    apply ih (P := fun n => P (n + 1)) _ first
    intro a' later n few
    apply step a' (List.mem_cons_of_mem a later) (n + 1) (Nat.succ_lt_succ few)

theorem mapM {f : α → Except Fault β} {as : List α} (step : ∀ a ∈ as, Ensures safe Q (f a)) :
  Ensures safe (fun bs => ∀ b ∈ bs, Q b) (as.mapM f)
  := by
  induction as with
  | nil => apply ok (by simp)
  | cons a rest ih =>
    rw [List.mapM_cons]
    apply (step a List.mem_cons_self).bind
    intro b first
    apply (ih fun a' later => step a' (List.mem_cons_of_mem a later)).bind
    intro bs others
    apply ok
    apply List.forall_mem_cons.mpr ⟨first, others⟩

end Ensures

/-! ### Results without bounds -/

theorem exists_bind_eq_ok {x : Except Fault α} {f : α → Except Fault β} (h : ∃ a, x = .ok a)
    (step : ∀ a, ∃ b, f a = .ok b) :
  ∃ b, x >>= f = .ok b
  := by
  obtain ⟨a, rfl⟩ := h
  apply step a

/-- A checked map whose steps all succeed succeeds. -/
theorem exists_mapM_eq_ok {f : α → Except Fault β} {as : List α}
    (step : ∀ a ∈ as, ∃ b, f a = .ok b) :
  ∃ bs, as.mapM f = .ok bs
  := by
  induction as with
  | nil => exact ⟨[], rfl⟩
  | cons a rest ih =>
    obtain ⟨first, others⟩ := List.forall_mem_cons.mp step
    rw [List.mapM_cons]
    apply exists_bind_eq_ok first
    intro b
    apply exists_bind_eq_ok (ih others)
    intro bs
    exact ⟨b :: bs, rfl⟩

/-! ### Sums -/

/-- A fold in which every step adds an amount gives the sum, if all amounts fit into the range
together. -/
theorem foldlM_eq_add_sum {f : Int → α → Except Fault Int} (amount : α → Int) {as : List α}
    (step : ∀ a ∈ as, ∀ total, InRange 32 (total + amount a) → f total a = .ok (total + amount a))
    {start : Int}
    (room : start.natAbs + (as.map fun a => (amount a).natAbs).sum ≤ 2147483647) :
  as.foldlM f start = .ok (start + (as.map amount).sum)
  := by
  induction as generalizing start with
  | nil => simp [pure, Except.pure]
  | cons a rest ih =>
    rw [List.map_cons, List.sum_cons] at room
    have fits : InRange 32 (start + amount a) := by
      apply inRange_of_natAbs_le
      omega
    rw [List.foldlM_cons, step a List.mem_cons_self start fits, ok_bind, ih, List.map_cons,
      List.sum_cons, Int.add_assoc]
    · intro a' later
      apply step a' (List.mem_cons_of_mem a later)
    · omega

/-- A checked sum is the sum, if all numbers fit into the range together. -/
theorem sum_eq_ok {ns : List Int} (room : (ns.map Int.natAbs).sum ≤ 2147483647) :
  sum ns = .ok ns.sum
  := by
  rw [sum, foldlM_eq_add_sum id]
  · simp
  · intro n _ total fits
    apply guard_of_inRange fits
  · simpa using room

end CardDuel.Checked
