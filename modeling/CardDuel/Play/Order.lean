/-!
# Sorting and choosing

`sortBy` sorts a list by insertion and keeps the order of elements that are equally good, and
`leastBy` finds the first element with the least key.
-/

namespace CardDuel.Play

variable {α : Type}

/-- Put an element before the first one that it may precede. -/
def insertBy (le : α → α → Bool) (a : α) : List α → List α
  | [] => [a]
  | b :: rest => if le a b then a :: b :: rest else b :: insertBy le a rest

/-- The list sorted by `le`; elements that may precede each other keep their order. -/
def sortBy (le : α → α → Bool) : List α → List α
  | [] => []
  | a :: rest => insertBy le a (sortBy le rest)

/-- The list sorted by a key, the greatest first. -/
def sortDown (key : α → Int) : List α → List α :=
  sortBy fun a b => decide (key b ≤ key a)

/-- The first element with the least key. -/
def leastBy (key : α → Int) : List α → Option α
  | [] => none
  | a :: rest =>
    match leastBy key rest with
    | none => some a
    | some b => if key b < key a then some b else some a

/-! ### What sorting keeps -/

theorem insertBy_perm (le : α → α → Bool) (a : α) (bs : List α) :
  (insertBy le a bs).Perm (a :: bs)
  := by
  induction bs with
  | nil => exact .refl _
  | cons b rest ih =>
    unfold insertBy
    split
    · exact .refl _
    · exact (ih.cons b).trans (.swap a b rest)

theorem sortBy_perm (le : α → α → Bool) (as : List α) :
  (sortBy le as).Perm as
  := by
  induction as with
  | nil => exact .refl _
  | cons a rest ih => exact (insertBy_perm le a _).trans (ih.cons a)

@[simp]
theorem mem_sortBy {le : α → α → Bool} {as : List α} {a : α} :
  a ∈ sortBy le as ↔ a ∈ as
  := (sortBy_perm le as).mem_iff

theorem leastBy_mem {key : α → Int} {as : List α} {a : α} (h : leastBy key as = some a) :
  a ∈ as
  := by
  induction as generalizing a with
  | nil => simp [leastBy] at h
  | cons b rest ih =>
    unfold leastBy at h
    split at h
    · simp_all
    · rename_i c hc
      split at h
      · obtain rfl := Option.some.inj h
        exact List.mem_cons_of_mem _ (ih hc)
      · simp_all

end CardDuel.Play
