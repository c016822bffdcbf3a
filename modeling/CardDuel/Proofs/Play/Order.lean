import CardDuel.Play.Order
import Mathlib.Tactic.Common

/-!
# Sorted lists

Sorting by a total order puts a list into that order, and choosing an element by its key finds
one with the least key.  Lists that are related position by position, with equal keys, are so
after sorting.
-/

namespace CardDuel.Play

variable {α : Type}

theorem insertBy_pairwise {le : α → α → Bool} (total : ∀ a b, le a b = true ∨ le b a = true)
    (trans : ∀ a b c, le a b = true → le b c = true → le a c = true) (a : α) {bs : List α}
    (h : bs.Pairwise fun b c => le b c = true) :
  (insertBy le a bs).Pairwise fun b c => le b c = true
  := by
  induction bs with
  | nil => simp [insertBy]
  | cons b rest ih =>
    obtain ⟨first, others⟩ := List.pairwise_cons.mp h
    rw [insertBy]
    split
    · rename_i before
      apply List.pairwise_cons.mpr
      refine ⟨?_, h⟩
      rintro c (_ | ⟨_, later⟩)
      · apply before
      · apply trans a b c before (first c later)
    · rename_i notBefore
      apply List.pairwise_cons.mpr
      refine ⟨?_, ih others⟩
      intro c mem
      rcases List.mem_cons.mp ((insertBy_perm le a rest).mem_iff.mp mem) with rfl | later
      · apply (total b c).resolve_right notBefore
      · apply first c later

/-- Sorting by a total order puts a list into that order. -/
theorem sortBy_pairwise {le : α → α → Bool} (total : ∀ a b, le a b = true ∨ le b a = true)
    (trans : ∀ a b c, le a b = true → le b c = true → le a c = true) (as : List α) :
  (sortBy le as).Pairwise fun a b => le a b = true
  := by
  induction as with
  | nil => exact .nil
  | cons a rest ih => apply insertBy_pairwise total trans a ih

/-- Sorting by distinct numbers makes them increase strictly. -/
theorem sortBy_pairwise_lt {key : α → Nat} {as : List α} (h : (as.map key).Nodup) :
  (sortBy (fun a b => decide (key a ≤ key b)) as).Pairwise fun a b => key a < key b
  := by
  have sorted : (sortBy (fun a b => decide (key a ≤ key b)) as).Pairwise
      fun a b => decide (key a ≤ key b) = true := by
    apply sortBy_pairwise
    · intro a b
      simpa using Nat.le_total (key a) (key b)
    · intro a b c
      simpa using Nat.le_trans
  have distinct : ((sortBy (fun a b => decide (key a ≤ key b)) as).map key).Nodup :=
    ((sortBy_perm _ as).map key).nodup_iff.mpr h
  rw [List.Nodup, List.pairwise_map] at distinct
  apply (sorted.and distinct).imp
  rintro a b ⟨le, ne⟩
  apply Nat.lt_of_le_of_ne (of_decide_eq_true le) ne

/-- Sorting with the greatest first lets the keys fall. -/
theorem sortDown_pairwise (key : α → Int) (as : List α) :
  (sortDown key as).Pairwise fun a b => key b ≤ key a
  := by
  have sorted : (sortDown key as).Pairwise fun a b => decide (key b ≤ key a) = true := by
    apply sortBy_pairwise
    · intro a b
      simpa using Int.le_total (key b) (key a)
    · intro a b c
      simpa using fun first second => Int.le_trans second first
  apply sorted.imp
  intro a b
  apply of_decide_eq_true

/-- The first elements of a list that falls have keys no less than the others. -/
theorem key_le_of_not_mem_take {key : α → Int} {as : List α}
    (h : as.Pairwise fun a b => key b ≤ key a) {n : Nat} {a b : α} (first : a ∈ as.take n)
    (mem : b ∈ as) (other : b ∉ as.take n) :
  key b ≤ key a
  := by
  rw [← List.take_append_drop n as] at h mem
  apply (List.pairwise_append.mp h).2.2 a first
  apply (List.mem_append.mp mem).resolve_left other

/-- Dropping elements that fail a test from the front loses none that passes it. -/
theorem filter_dropWhile (test : α → Bool) (as : List α) :
  (as.dropWhile fun a => !test a).filter test = as.filter test
  := by
  induction as with
  | nil => rfl
  | cons a rest ih =>
    rcases passes : test a
    · rw [List.dropWhile_cons_of_pos (by simp [passes]), ih,
        List.filter_cons_of_neg (by simp [passes])]
    · rw [List.dropWhile_cons_of_neg (by simp [passes])]

/-! ### Choosing -/

theorem exists_leastBy {as : List α} (nonempty : as ≠ []) (key : α → Int) :
  ∃ a, leastBy key as = some a
  := by
  cases as with
  | nil => contradiction
  | cons a rest =>
    rw [leastBy]
    split
    · exact ⟨a, rfl⟩
    · split <;> exact ⟨_, rfl⟩

/-- No key is less than that of the chosen element. -/
theorem key_leastBy_le {key : α → Int} {as : List α} {least : α}
    (h : leastBy key as = some least) :
  ∀ a ∈ as, key least ≤ key a
  := by
  induction as generalizing least with
  | nil => simp
  | cons a rest ih =>
    rw [leastBy] at h
    split at h
    · rename_i none
      obtain rfl := Option.some.inj h
      intro b mem
      rcases List.mem_cons.mp mem with rfl | later
      · apply Int.le_refl
      · obtain ⟨b, found⟩ := exists_leastBy (List.ne_nil_of_mem later) key
        rw [none] at found
        contradiction
    · rename_i b found
      intro c mem
      rcases List.mem_cons.mp mem with rfl | later
      · split at h <;> obtain rfl := Option.some.inj h <;> omega
      · have le := ih found c later
        split at h <;> obtain rfl := Option.some.inj h <;> omega

/-! ### Related lists -/

variable {β : Type} {R : α → β → Prop}

theorem forall₂_insertBy {le : α → α → Bool} {le' : β → β → Bool}
    (same : ∀ a b a' b', R a a' → R b b' → le a b = le' a' b') {a : α} {a' : β} {bs : List α}
    {bs' : List β} (first : R a a') (others : List.Forall₂ R bs bs') :
  List.Forall₂ R (insertBy le a bs) (insertBy le' a' bs')
  := by
  induction others with
  | nil => exact .cons first .nil
  | cons head tail ih =>
    rw [insertBy, insertBy, same _ _ _ _ first head]
    split
    · exact .cons first (.cons head tail)
    · exact .cons head ih

/-- Lists related position by position are so after sorting by equal keys. -/
theorem forall₂_sortDown {key : α → Int} {key' : β → Int}
    (same : ∀ a a', R a a' → key a = key' a') {as : List α} {as' : List β}
    (h : List.Forall₂ R as as') :
  List.Forall₂ R (sortDown key as) (sortDown key' as')
  := by
  induction h with
  | nil => exact .nil
  | cons head _ ih =>
    apply forall₂_insertBy _ head ih
    intro a b a' b' first second
    rw [same a a' first, same b b' second]

/-- Related lists are so after dropping elements as long as they pass equal tests. -/
theorem forall₂_dropWhile {test : α → Bool} {test' : β → Bool}
    (same : ∀ a a', R a a' → test a = test' a') {as : List α} {as' : List β}
    (h : List.Forall₂ R as as') :
  List.Forall₂ R (as.dropWhile test) (as'.dropWhile test')
  := by
  induction h with
  | nil => exact .nil
  | cons head tail ih =>
    rw [List.dropWhile_cons, List.dropWhile_cons, same _ _ head]
    split
    · apply ih
    · exact .cons head tail

end CardDuel.Play
