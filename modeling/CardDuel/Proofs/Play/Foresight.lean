import CardDuel.Play.Foresight
import CardDuel.Proofs.Cards
import CardDuel.Proofs.Slots
import Mathlib.Data.List.Nodup

/-!
# What trying out special cards keeps

Special cards are tried out on copies.  Whatever they do to them, the chosen cards keep their
places, their indices and the faces they were printed with, and cards are pinned to distinct
open columns, each card at most once: `Foresight.isSound_ofIndices`.
-/

namespace CardDuel.Play

/-- The pick with its card as it was printed. -/
def Pick.reset (pick : Pick) : Pick :=
  { pick with card := pick.card.reset }

/-! ### The chosen cards -/

section

variable {situation : Situation} {indices : List Nat}

theorem nodup_place_picksOf (situation : Situation) (indices : List Nat) :
  ((picksOf situation indices).map (·.place)).Nodup
  := by
  have places : (indices.zipIdx.map (·.2)).Nodup := by
    rw [List.zipIdx_map_snd]
    exact List.nodup_range'
  rw [picksOf, List.map_filterMap]
  apply List.Pairwise.filterMap _ _ (List.pairwise_map.mp places)
  rintro ⟨i, place⟩ ⟨j, place'⟩ other _ found _ found'
  obtain ⟨pick, isPick, rfl⟩ := Option.map_eq_some_iff.mp found
  obtain ⟨pick', isPick', rfl⟩ := Option.map_eq_some_iff.mp found'
  obtain ⟨_, -, rfl⟩ := Option.map_eq_some_iff.mp isPick
  obtain ⟨_, -, rfl⟩ := Option.map_eq_some_iff.mp isPick'
  apply other

/-- The chosen cards have the indices by which they were chosen. -/
theorem index_picksOf (inHand : ∀ i ∈ indices, i < situation.hand.length) :
  (picksOf situation indices).map (·.index) = indices
  := by
  rw [picksOf, List.map_filterMap,
    List.filterMap_eq_map_iff_forall_eq_some (g := Prod.fst) |>.mpr, List.zipIdx_map_fst]
  rintro ⟨i, place⟩ mem
  have inside := inHand i (List.fst_mem_of_mem_zipIdx mem)
  simp [inside]

theorem card_of_mem_picksOf {pick : Pick} (h : pick ∈ picksOf situation indices) :
  situation.hand[pick.index]? = some pick.card
  := by
  obtain ⟨⟨i, place⟩, -, isPick⟩ := List.mem_filterMap.mp h
  obtain ⟨card, cardAt, rfl⟩ := Option.map_eq_some_iff.mp isPick
  apply cardAt

end

/-! ### What is kept -/

namespace Foresight

/-- What is kept of the chosen cards, and how cards are pinned to the open columns. -/
structure IsSound (openColumns : List Nat) (chosen : List Pick) (foresight : Foresight) :
    Prop where
  mine : foresight.mine.map Pick.reset = chosen.map Pick.reset
  isOpen : ∀ column ∈ foresight.pinned.map (·.1), column ∈ openColumns
  nodup_columns : (foresight.pinned.map (·.1)).Nodup
  nodup_places : (foresight.pinned.map (·.2)).Nodup

variable {openColumns : List Nat} {chosen : List Pick} {foresight foresight' : Foresight}

namespace IsSound

theorem place (h : foresight.IsSound openColumns chosen) :
  foresight.mine.map (·.place) = chosen.map (·.place)
  := by
  have same := congrArg (List.map fun pick : Pick => pick.place) h.mine
  simpa [Function.comp_def, Pick.reset] using same

end IsSound

theorem altered_touch {special : Special} {side : Side} {card card' : Card}
    (h : touch special side card = .ok card') :
  card.Altered card'
  := by
  rw [touch] at h
  split at h
  · obtain ⟨⟨_, changed⟩, applied, rfl⟩ := Checked.map_eq_ok_iff.mp h
    apply Card.altered_apply applied
  · obtain rfl := Except.ok.inj h
    exact .refl card

theorem isSound_tryImmediate {special : Special} (h : foresight.IsSound openColumns chosen)
    (tried : foresight.tryImmediate special = .ok foresight') :
  foresight'.IsSound openColumns chosen
  := by
  obtain ⟨mine, touched, tried⟩ := Checked.bind_eq_ok_iff.mp tried
  obtain ⟨theirs, -, tried⟩ := Checked.bind_eq_ok_iff.mp tried
  obtain rfl := Except.ok.inj tried
  refine { h with mine := ?_ }
  rw [← h.mine]
  apply Checked.map_eq_of_mapM _ touched
  intro pick _ pick' step
  obtain ⟨card, touched, step⟩ := Checked.bind_eq_ok_iff.mp step
  obtain rfl := Except.ok.inj step
  unfold Pick.reset
  rw [(altered_touch touched).reset]

/-- A switch trades for at most one card in a column, and pins that card. -/
theorem tradeAt_cases {special : Special} {column : Nat}
    (h : tradeAt special foresight column = .ok foresight') :
  foresight' = foresight
  ∨ ∃ pick card theirs, pick ∈ foresight.mine ∧ foresight.isPinned pick = false
    ∧ pick.card.Altered card
    ∧ foresight' =
      { mine := foresight.mine.map fun other =>
          if other.place = pick.place then { other with card } else other
        theirs
        pinned := foresight.pinned ++ [(column, pick.place)] }
  := by
  rw [tradeAt] at h
  split at h
  · left
    apply (Except.ok.inj h).symm
  · rename_i theirs _
    split at h
    · left
      apply (Except.ok.inj h).symm
    · rename_i pick found
      obtain ⟨mem, test⟩ := List.mem_filter.mp (leastBy_mem found)
      simp only [Bool.and_eq_true, Bool.not_eq_true'] at test
      obtain ⟨⟨card, _⟩, applied, h⟩ := Checked.bind_eq_ok_iff.mp h
      obtain ⟨⟨theirs', _⟩, -, h⟩ := Checked.bind_eq_ok_iff.mp h
      obtain rfl := Except.ok.inj h
      right
      exact ⟨pick, card, _, mem, test.1.1, Card.altered_apply applied, rfl⟩

theorem isPinned_iff {pick : Pick} :
  foresight.isPinned pick = true ↔ pick.place ∈ foresight.pinned.map (·.2)
  := by simp [isPinned]

theorem isSound_tradeAt {special : Special} {column : Nat}
    (distinct : (chosen.map (·.place)).Nodup) (h : foresight.IsSound openColumns chosen)
    (isOpen : column ∈ openColumns) (fresh : column ∉ foresight.pinned.map (·.1))
    (traded : tradeAt special foresight column = .ok foresight') :
  foresight'.IsSound openColumns chosen
  := by
  obtain rfl | ⟨pick, card, theirs, mem, unpinned, altered, rfl⟩ := tradeAt_cases traded
  · apply h
  have others : ∀ other ∈ foresight.mine,
      (if other.place = pick.place then { other with card } else other).reset = other.reset := by
    intro other otherMem
    split
    · rename_i same
      rw [← h.place] at distinct
      obtain rfl := List.inj_on_of_nodup_map distinct otherMem mem same
      unfold Pick.reset
      rw [altered.reset]
    · rfl
  constructor
  · rw [← h.mine, List.map_map]
    apply List.map_congr_left others
  · intro column' pinned
    rw [List.map_append, List.mem_append] at pinned
    rcases pinned with before | new
    · apply h.isOpen column' before
    · obtain rfl : column' = column := by simpa using new
      apply isOpen
  · rw [List.map_append]
    apply h.nodup_columns.append (List.nodup_singleton _) (by simpa using fresh)
  · rw [List.map_append]
    apply h.nodup_places.append (List.nodup_singleton _)
      (by simpa [← isPinned_iff] using unpinned)

theorem mem_pinned_tradeAt {special : Special} {column column' : Nat}
    (traded : tradeAt special foresight column = .ok foresight')
    (mem : column' ∈ foresight'.pinned.map (·.1)) :
  column' ∈ foresight.pinned.map (·.1) ∨ column' = column
  := by
  obtain rfl | ⟨pick, card, theirs, -, -, -, rfl⟩ := tradeAt_cases traded
  · left
    apply mem
  · simpa using mem

/-- A switch that goes through distinct open columns without pinned cards pins cards to some
of them. -/
theorem isSound_foldlM_tradeAt {special : Special} {columns : List Nat}
    (distinct : (chosen.map (·.place)).Nodup) (nodup : columns.Nodup)
    (isOpen : ∀ column ∈ columns, column ∈ openColumns)
    (fresh : ∀ column ∈ columns, column ∉ foresight.pinned.map (·.1))
    (h : foresight.IsSound openColumns chosen)
    (traded : columns.foldlM (tradeAt special) foresight = .ok foresight') :
  foresight'.IsSound openColumns chosen
  := by
  induction columns generalizing foresight with
  | nil =>
    obtain rfl := Except.ok.inj traded
    apply h
  | cons column rest ih =>
    obtain ⟨notLater, nodup⟩ := List.nodup_cons.mp nodup
    rw [List.foldlM_cons] at traded
    obtain ⟨next, first, later⟩ := Checked.bind_eq_ok_iff.mp traded
    have sound := isSound_tradeAt distinct h (isOpen column List.mem_cons_self)
      (fresh column List.mem_cons_self) first
    apply ih nodup _ _ sound later
    · exact fun column' mem => isOpen column' (List.mem_cons_of_mem _ mem)
    · intro column' mem pinned
      rcases mem_pinned_tradeAt first pinned with before | rfl
      · apply fresh column' (List.mem_cons_of_mem _ mem) before
      · apply notLater mem

/-- A switch goes through the open columns with an opposing number and no pinned card. -/
theorem tradeColumns_perm (foresight : Foresight) (openColumns : List Nat) :
  (foresight.tradeColumns openColumns).Perm <| openColumns.filter fun column =>
    !(foresight.pinned.any fun (other, _) => other == column)
      && ((foresight.facing? column).bind Card.number?).isSome
  := by
  apply ((sortBy_perm _ _).map _).trans
  rw [List.map_filterMap, ← List.filterMap_eq_filter]
  apply List.Perm.of_eq
  congr 1
  funext column
  rw [Option.guard]
  generalize (foresight.facing? column).bind Card.number? = number
  split
  · rename_i pinned
    simp [pinned]
  · rename_i unpinned
    cases number <;> simp [unpinned]

theorem isSound_trySwitch {special : Special} (distinct : (chosen.map (·.place)).Nodup)
    (nodup : openColumns.Nodup) (h : foresight.IsSound openColumns chosen)
    (tried : trySwitch openColumns foresight special = .ok foresight') :
  foresight'.IsSound openColumns chosen
  := by
  have columns := foresight.tradeColumns_perm openColumns
  apply isSound_foldlM_tradeAt distinct (columns.nodup_iff.mpr (nodup.filter _)) _ _ h tried
  · intro column mem
    apply (List.mem_filter.mp (columns.mem_iff.mp mem)).1
  · intro column mem pinned
    obtain ⟨-, unpinned⟩ := List.mem_filter.mp (columns.mem_iff.mp mem)
    obtain ⟨place, mem⟩ : ∃ place, (column, place) ∈ foresight.pinned := by simpa using pinned
    simp only [Bool.and_eq_true, Bool.not_eq_true', List.any_eq_false] at unpinned
    apply unpinned.1 _ mem (by simp)

/-- Trying out special cards leaves what is kept of the chosen cards. -/
theorem isSound_ofIndices {situation : Situation} {indices : List Nat}
    (h : ofIndices situation indices = .ok foresight) :
  foresight.IsSound situation.openColumns (picksOf situation indices)
  := by
  obtain ⟨tried, immediate, switches⟩ := Checked.bind_eq_ok_iff.mp h
  have start : IsSound situation.openColumns (picksOf situation indices)
      ⟨picksOf situation indices, (situation.board.row situation.opponent).map (·.card), []⟩ :=
    ⟨rfl, by simp, .nil, .nil⟩
  have sound : tried.IsSound situation.openColumns (picksOf situation indices) := by
    apply Checked.foldlM_preserves _ start immediate
    intro special _ foresight foresight' sound step
    apply isSound_tryImmediate sound step
  apply Checked.foldlM_preserves _ sound switches
  intro special _ foresight foresight' sound step
  apply isSound_trySwitch (nodup_place_picksOf situation indices)
    (Board.nodup_openColumns situation.board situation.seat) sound step

end Foresight

end CardDuel.Play
