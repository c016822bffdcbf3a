import Mathlib.Data.Finset.Max
import Mathlib.Data.Multiset.ZeroCons

/-!
# Exchanging the numbers that beat targets

Given targets in some order and numbers to beat them, each target may be met by the cheapest
number that beats it, or by the lowest number if none does.  These choices lose nothing: however
many targets can be beaten in some way, after meeting the first one the others can be beaten with
the numbers left up to the one that has been beaten (`Beatable.of_cheapest`,
`Beatable.of_lowest`).
-/

namespace CardDuel.Play

/-- So many of the targets can be beaten, each by a greater number of its own. -/
inductive Beatable : List Int → Multiset Int → Nat → Prop where
  | nil (numbers : Multiset Int) : Beatable [] numbers 0
  | skip {target : Int} {targets : List Int} {numbers : Multiset Int} {n : Nat} :
      Beatable targets numbers n → Beatable (target :: targets) numbers n
  | beat {target number : Int} {targets : List Int} {numbers : Multiset Int} {n : Nat} :
      target < number → Beatable targets numbers n →
      Beatable (target :: targets) (number ::ₘ numbers) (n + 1)

namespace Beatable

variable {target a b : Int} {targets : List Int} {numbers : Multiset Int} {n : Nat}

/-- Another number does no harm. -/
theorem add (a : Int) (h : Beatable targets numbers n) :
  Beatable targets (a ::ₘ numbers) n
  := by
  induction h with
  | nil numbers => apply nil
  | skip _ ih => apply skip ih
  | beat above _ ih =>
    rw [Multiset.cons_swap]
    apply beat above ih

/-- Without one of the numbers at most one target less can be beaten. -/
theorem remove (h : Beatable targets (a ::ₘ numbers) n) :
  ∃ m, Beatable targets numbers m ∧ n ≤ m + 1
  := by
  generalize all : a ::ₘ numbers = given at h
  induction h generalizing numbers with
  | nil given => exact ⟨0, nil numbers, Nat.zero_le _⟩
  | skip _ ih =>
    obtain ⟨m, beaten, less⟩ := ih all
    exact ⟨m, skip beaten, less⟩
  | @beat _ number _ _ n above rest ih =>
    obtain ⟨rfl, rfl⟩ | ⟨-, others, rfl, rfl⟩ := Multiset.cons_eq_cons.mp all
    · exact ⟨n, skip rest, Nat.le_refl _⟩
    · obtain ⟨m, beaten, less⟩ := ih rfl
      exact ⟨m + 1, beat above beaten, Nat.succ_le_succ less⟩

/-- A number may be replaced by a greater one. -/
theorem raise (h : Beatable targets (a ::ₘ numbers) n) (le : a ≤ b) :
  Beatable targets (b ::ₘ numbers) n
  := by
  generalize all : a ::ₘ numbers = given at h
  induction h generalizing numbers with
  | nil given => apply nil
  | skip _ ih => apply skip (ih all)
  | beat above rest ih =>
    obtain ⟨rfl, rfl⟩ | ⟨-, others, rfl, rfl⟩ := Multiset.cons_eq_cons.mp all
    · apply beat (lt_of_lt_of_le above le) rest
    · rw [Multiset.cons_swap]
      apply beat above (ih rfl)

/-- The least number is not needed if there are enough others. -/
theorem remove_least (h : Beatable targets (a ::ₘ numbers) n) (least : ∀ b ∈ numbers, a ≤ b)
    (room : targets.length ≤ numbers.card) :
  Beatable targets numbers n
  := by
  generalize all : a ::ₘ numbers = given at h
  induction h generalizing a numbers with
  | nil given => apply nil
  | skip _ ih => apply skip (ih least (Nat.le_of_succ_le room) all)
  | beat above rest ih =>
    obtain ⟨rfl, rfl⟩ | ⟨-, others, rfl, rfl⟩ := Multiset.cons_eq_cons.mp all
    · -- the least number beats this target: the next one can do so in its place
      obtain ⟨b, mem, next⟩ := Multiset.exists_min_image id
        (Multiset.card_pos.mp (Nat.lt_of_lt_of_le (Nat.succ_pos _) room))
      obtain ⟨others, rfl⟩ := Multiset.exists_cons_of_mem mem
      rw [List.length_cons, Multiset.card_cons] at room
      apply beat (lt_of_lt_of_le above (least b mem))
      apply ih _ (Nat.le_of_succ_le_succ room) rfl
      intro c later
      apply next c (Multiset.mem_cons_of_mem later)
    · rw [List.length_cons, Multiset.card_cons] at room
      apply beat above
      apply ih _ (Nat.le_of_succ_le_succ room) rfl
      intro c later
      apply least c (Multiset.mem_cons_of_mem later)

/-- If the first target is beaten by the least number that can beat it, as many targets can be
beaten as in any other way. -/
theorem of_cheapest (h : Beatable (target :: targets) (a ::ₘ numbers) n)
    (cheapest : ∀ b ∈ numbers, target < b → a ≤ b) :
  ∃ m, Beatable targets numbers m ∧ n ≤ m + 1
  := by
  generalize all : a ::ₘ numbers = given at h
  cases h with
  | skip rest =>
    subst all
    apply rest.remove
  | @beat _ b _ _ n above rest =>
    refine ⟨n, ?_, Nat.le_refl _⟩
    obtain ⟨rfl, rfl⟩ | ⟨-, others, rfl, rfl⟩ := Multiset.cons_eq_cons.mp all
    · apply rest
    · apply rest.raise (cheapest b (Multiset.mem_cons_self b _) above)

/-- If no number can beat the first target, the least one may be given away. -/
theorem of_lowest (h : Beatable (target :: targets) (a ::ₘ numbers) n)
    (unbeaten : ∀ b ∈ a ::ₘ numbers, b ≤ target) (lowest : ∀ b ∈ numbers, a ≤ b)
    (room : targets.length ≤ numbers.card) :
  Beatable targets numbers n
  := by
  generalize all : a ::ₘ numbers = given at h unbeaten
  cases h with
  | skip rest =>
    subst all
    apply rest.remove_least lowest room
  | beat above rest => exact absurd above (not_lt_of_ge (unbeaten _ (Multiset.mem_cons_self _ _)))

end Beatable

end CardDuel.Play
