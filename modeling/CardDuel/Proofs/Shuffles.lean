import CardDuel.Random.Stream
import Mathlib.Tactic.Common

/-!
# Shuffles

A number drawn below a bound lies below it, whatever words the stream gives.  So each step of a
shuffle exchanges two places of the list, and a shuffle loses and adds nothing.
-/

namespace CardDuel.Stream

variable {α : Type}

/-- The high half of the product of a word and a bound lies below the bound. -/
theorem highHalf_lt {n : Nat} (some : 0 < n) (word : UInt32) :
  (word.toNat * n) >>> 32 < n
  := by
  rw [Nat.shiftRight_eq_div_pow, Nat.div_lt_iff_lt_mul (by decide), Nat.mul_comm]
  apply Nat.mul_lt_mul_of_pos_left word.toNat_lt some

theorem indexWithin_lt {n : Nat} (some : 0 < n) (tries : Nat) (stream : Stream) :
  (indexWithin n tries stream).1 < n
  := by
  induction tries generalizing stream with
  | zero => exact some
  | succ tries ih =>
    simp only [indexWithin]
    split
    · apply highHalf_lt some
    · apply ih

/-- A number drawn below a bound lies below it. -/
theorem index_lt (stream : Stream) {n : Nat} (some : 0 < n) :
  (stream.index n).1 < n
  := indexWithin_lt some 100 stream

/-- A step of a shuffle exchanges two places of the list. -/
theorem shuffleFrom_succ (stream : Stream) {items : Array α} {last : Nat}
    (inside : last + 1 < items.size) :
  ∃ place, ∃ below : place < last + 2,
    shuffleFrom stream items (last + 1)
      = shuffleFrom (stream.index (last + 2)).2 (items.swap (last + 1) place) last
  := by
  have below := stream.index_lt (n := last + 2) (by omega)
  refine ⟨(stream.index (last + 2)).1, below, ?_⟩
  simp only [shuffleFrom]
  rw [Array.swapIfInBounds_def, dif_pos inside, dif_pos (by omega)]

theorem shuffleFrom_perm (stream : Stream) {items : Array α} {last : Nat}
    (inside : last < items.size) :
  (shuffleFrom stream items last).1.toList.Perm items.toList
  := by
  induction last generalizing stream items with
  | zero => exact .refl _
  | succ last ih =>
    obtain ⟨place, below, step⟩ := shuffleFrom_succ stream inside
    rw [step]
    apply (ih _ _).trans
    · apply (Array.swap_perm _ _).toList
    · rw [Array.size_swap]
      omega

/-- A shuffled list has the elements of the list. -/
theorem shuffle_perm (stream : Stream) (items : List α) :
  (stream.shuffle items).1.Perm items
  := by
  cases items with
  | nil => exact .refl _
  | cons first rest =>
    apply shuffleFrom_perm
    simp

end CardDuel.Stream
