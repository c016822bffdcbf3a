import CardDuel.Play.Arrangement
import CardDuel.Proofs.Play.Foresight
import CardDuel.Proofs.Play.Order
import CardDuel.Proofs.Shuffles

/-!
# Every chosen card finds a column

At every moment of an arrangement each chosen card either has a column or is left over, and
the columns are distinct and open (`Arrangement.Fits`).  If there are enough open columns,
then every card has one in the end: `Foresight.arrange_fits`.
-/

namespace CardDuel.Play

/-! ### Arrangements in progress -/

/-- A pick comes first, then all picks at other places. -/
theorem perm_cons_otherPlaces {picks : List Pick} {pick : Pick}
    (distinct : (picks.map (·.place)).Nodup) (mem : pick ∈ picks) :
  (pick :: picks.filter fun other => other.place != pick.place).Perm picks
  := by
  have nodup := List.Nodup.of_map _ distinct
  apply (List.perm_ext_iff_of_nodup _ nodup).mpr
  · intro other
    simp only [List.mem_cons, List.mem_filter, bne_iff_ne]
    constructor
    · rintro (rfl | ⟨otherMem, -⟩)
      · apply mem
      · apply otherMem
    · intro otherMem
      by_cases same : other.place = pick.place
      · left
        apply List.inj_on_of_nodup_map distinct otherMem mem same
      · right
        exact ⟨otherMem, same⟩
  · apply List.nodup_cons.mpr
    simp [nodup.filter]

namespace Arrangement

/-- Each of the chosen cards has a column or is left over, and the columns are distinct and
open. -/
structure Fits (openColumns : List Nat) (mine : List Pick) (arrangement : Arrangement) :
    Prop where
  picks : (arrangement.placed.map (·.2) ++ arrangement.left).Perm mine
  isOpen : ∀ column ∈ arrangement.placed.map (·.1), column ∈ openColumns
  distinct : (arrangement.placed.map (·.1)).Nodup

variable {openColumns : List Nat} {mine : List Pick} {arrangement : Arrangement}

theorem isTaken_iff {column : Nat} :
  arrangement.isTaken column = true ↔ column ∈ arrangement.placed.map (·.1)
  := by simp [isTaken]

theorem answer?_mem {n : Int} {pick : Pick} (h : arrangement.answer? n = some pick) :
  pick ∈ arrangement.left
  := by
  rcases Option.or_eq_some_iff.mp h with beating | ⟨-, lowest⟩
  · apply List.mem_of_mem_filter (leastBy_mem beating)
  · apply leastBy_mem lowest

namespace Fits

/-- The order of the cards left over does not matter. -/
theorem perm_left (h : arrangement.Fits openColumns mine) {left : List Pick}
    (perm : left.Perm arrangement.left) :
  Fits openColumns mine { arrangement with left }
  where
  picks := (perm.append_left _).trans h.picks
  isOpen := h.isOpen
  distinct := h.distinct

/-- Meeting an opposing card gives a column to at most one card. -/
theorem meet {foresight : Foresight} {column : Nat} (places : (mine.map (·.place)).Nodup)
    (h : arrangement.Fits openColumns mine) (isOpen : column ∈ openColumns) :
  (meet foresight arrangement column).Fits openColumns mine
  := by
  rw [Arrangement.meet]
  split
  · apply h
  · rename_i free
    split
    · apply h
    · split
      · apply h
      · rename_i pick found
        rw [isTaken_iff] at free
        have left : (arrangement.left.map (·.place)).Nodup := by
          have all := (h.picks.map (·.place)).nodup_iff.mpr places
          rw [List.map_append] at all
          apply (List.nodup_append.mp all).2.1
        constructor
        · rw [List.map_append, List.append_assoc]
          apply ((perm_cons_otherPlaces left (answer?_mem found)).append_left _).trans h.picks
        · intro column' mem
          rw [List.map_append, List.mem_append] at mem
          rcases mem with before | new
          · apply h.isOpen column' before
          · obtain rfl : column' = column := by simpa using new
            apply isOpen
        · rw [List.map_append]
          apply h.distinct.append (List.nodup_singleton _) (by simpa using free)

/-- There are at least as many columns left as cards left. -/
theorem length_left_le (h : arrangement.Fits openColumns mine) (nodup : openColumns.Nodup)
    (room : mine.length ≤ openColumns.length) :
  arrangement.left.length
    ≤ (openColumns.filter fun column => !arrangement.isTaken column).length
  := by
  have taken : (openColumns.filter arrangement.isTaken).Perm (arrangement.placed.map (·.1)) := by
    apply (List.perm_ext_iff_of_nodup (nodup.filter _) h.distinct).mpr
    intro column
    rw [List.mem_filter, isTaken_iff, and_iff_right_iff_imp]
    apply h.isOpen column
  have columns := (List.filter_append_perm arrangement.isTaken openColumns).length_eq
  have picks := h.picks.length_eq
  have same := taken.length_eq
  simp only [List.length_append, List.length_map] at columns picks same
  omega

end Fits

/-- Every card has a column, the columns are open and increase. -/
structure IsComplete (openColumns : List Nat) (mine : List Pick)
    (arranged : List (Nat × Pick)) : Prop where
  picks : (arranged.map (·.2)).Perm mine
  isOpen : ∀ column ∈ arranged.map (·.1), column ∈ openColumns
  increasing : arranged.Pairwise fun a b => a.1 < b.1

/-- With enough open columns, filling up gives a column to every card. -/
theorem isComplete_fill (h : arrangement.Fits openColumns mine) (nodup : openColumns.Nodup)
    (room : mine.length ≤ openColumns.length) :
  IsComplete openColumns mine (arrangement.fill openColumns)
  := by
  have enough := h.length_left_le nodup room
  rw [fill]
  set free := openColumns.filter fun column => !arrangement.isTaken column with free_def
  have columns : (arrangement.placed ++ free.zip arrangement.left).map (·.1)
      = arrangement.placed.map (·.1) ++ free.take arrangement.left.length := by
    rw [List.map_append, List.zip_eq_zip_take_min, Nat.min_eq_right enough, List.take_length,
      List.map_fst_zip (by simp [enough])]
  have picks : (arrangement.placed ++ free.zip arrangement.left).map (·.2)
      = arrangement.placed.map (·.2) ++ arrangement.left := by
    rw [List.map_append, List.map_snd_zip enough]
  have isFree : ∀ column ∈ free.take arrangement.left.length,
      column ∈ openColumns ∧ column ∉ arrangement.placed.map (·.1) := by
    intro column mem
    have test := List.mem_of_mem_take mem
    rw [free_def, List.mem_filter, Bool.not_eq_true', ← Bool.not_eq_true, isTaken_iff] at test
    apply test
  constructor
  · apply ((sortBy_perm _ _).map _).trans
    rw [picks]
    apply h.picks
  · intro column mem
    rw [((sortBy_perm _ _).map _).mem_iff, columns, List.mem_append] at mem
    rcases mem with placed | new
    · apply h.isOpen column placed
    · apply (isFree column new).1
  · apply sortBy_pairwise_lt
    rw [columns]
    apply h.distinct.append ((nodup.filter _).sublist (List.take_sublist _ _))
    intro column placed new
    apply (isFree column new).2 placed

end Arrangement

/-! ### The arrangement -/

namespace Foresight

variable {openColumns : List Nat} {chosen : List Pick} {foresight : Foresight}

/-- What stands for a pin in the arrangement of the pinned cards. -/
theorem pin_cases {pin : Nat × Nat} {entry : Nat × Pick}
    (h : (foresight.mine.find? fun pick => pick.place == pin.2).map (fun pick => (pin.1, pick))
      = some entry) :
  entry.1 = pin.1 ∧ entry.2.place = pin.2 ∧ entry.2 ∈ foresight.mine
  := by
  obtain ⟨pick, found, rfl⟩ := Option.map_eq_some_iff.mp h
  exact ⟨rfl, by simpa using List.find?_some found, List.mem_of_find?_eq_some found⟩

/-- The pinned cards stand in the columns to which they are pinned. -/
theorem mem_placed_pinnedArrangement (places : (foresight.mine.map (·.place)).Nodup)
    {column : Nat} {pick : Pick} :
  (column, pick) ∈ foresight.pinnedArrangement.placed
    ↔ (column, pick.place) ∈ foresight.pinned ∧ pick ∈ foresight.mine
  := by
  constructor
  · intro mem
    obtain ⟨pin, pinned, found⟩ := List.mem_filterMap.mp mem
    obtain ⟨rfl, samePlace, pickMem⟩ := pin_cases found
    dsimp only at samePlace
    rw [samePlace]
    exact ⟨pinned, pickMem⟩
  · rintro ⟨pinned, pickMem⟩
    apply List.mem_filterMap.mpr
    use (column, pick.place), pinned
    dsimp only
    rcases found : foresight.mine.find? fun other => other.place == pick.place with _ | other
    · simpa using List.find?_eq_none.mp found pick pickMem
    · have samePlace : other.place = pick.place := by simpa using List.find?_some found
      obtain rfl := List.inj_on_of_nodup_map places (List.mem_of_find?_eq_some found) pickMem
        samePlace
      rw [found]
      rfl

/-- The pinned cards in their columns are where an arrangement may begin. -/
theorem fits_pinnedArrangement (distinct : (chosen.map (·.place)).Nodup)
    (h : foresight.IsSound openColumns chosen) :
  foresight.pinnedArrangement.Fits openColumns foresight.mine
  := by
  have places : (foresight.mine.map (·.place)).Nodup := by
    rw [h.place]
    apply distinct
  have nodupPlaced : (foresight.pinnedArrangement.placed.map (·.2)).Nodup := by
    apply List.pairwise_map.mpr
    apply List.Pairwise.filterMap _ _ (List.pairwise_map.mp h.nodup_places)
    intro pin pin' apart entry found entry' found' same
    rw [← (pin_cases found).2.1, ← (pin_cases found').2.1, same] at apart
    contradiction
  constructor
  · apply List.Perm.trans _ (List.filter_append_perm foresight.isPinned foresight.mine)
    apply List.Perm.append_right
    apply (List.perm_ext_iff_of_nodup nodupPlaced (places.of_map.filter _)).mpr
    intro pick
    rw [List.mem_filter, isPinned_iff]
    constructor
    · intro mem
      obtain ⟨⟨column, _⟩, placed, rfl⟩ := List.mem_map.mp mem
      obtain ⟨pinned, pickMem⟩ := (mem_placed_pinnedArrangement places).mp placed
      exact ⟨pickMem, List.mem_map_of_mem pinned⟩
    · rintro ⟨pickMem, mem⟩
      obtain ⟨⟨column, place⟩, pinned, samePlace⟩ := List.mem_map.mp mem
      dsimp only at samePlace
      rw [samePlace] at pinned
      have placed := (mem_placed_pinnedArrangement places).mpr ⟨pinned, pickMem⟩
      apply List.mem_map_of_mem (f := fun entry : Nat × Pick => entry.2) placed
  · intro column mem
    obtain ⟨⟨_, pick⟩, placed, rfl⟩ := List.mem_map.mp mem
    obtain ⟨pinned, -⟩ := (mem_placed_pinnedArrangement places).mp placed
    apply h.isOpen _ (List.mem_map_of_mem pinned)
  · apply List.pairwise_map.mpr
    apply List.Pairwise.filterMap _ _ (List.pairwise_map.mp h.nodup_columns)
    intro pin pin' apart entry found entry' found'
    rw [(pin_cases found).1, (pin_cases found').1]
    apply apart

/-- If there are enough open columns, every chosen card is given one. -/
theorem isComplete_arrange {situation : Situation} (stream : Stream)
    (distinct : (chosen.map (·.place)).Nodup)
    (room : chosen.length ≤ situation.openColumns.length)
    (h : foresight.IsSound situation.openColumns chosen) :
  Arrangement.IsComplete situation.openColumns foresight.mine
    (foresight.arrange situation stream).1
  := by
  have nodup := Board.nodup_openColumns situation.board situation.seat
  have start := fits_pinnedArrangement distinct h
  have places : (foresight.mine.map (·.place)).Nodup := by
    rw [h.place]
    apply distinct
  have room : foresight.mine.length ≤ situation.openColumns.length := by
    have same := congrArg List.length h.place
    rw [List.length_map, List.length_map] at same
    omega
  rw [arrange]
  dsimp only
  split
  · apply Arrangement.isComplete_fill (start.perm_left (sortBy_perm _ _)) nodup room
  · split
    · apply Arrangement.isComplete_fill (start.perm_left (stream.shuffle_perm _)) nodup room
    · apply Arrangement.isComplete_fill _ nodup room
      apply List.foldlRecOn _ _ start
      intro arrangement fits column isOpen
      apply fits.meet places isOpen

end Foresight

end CardDuel.Play
