import CardDuel.Proofs.Play.Building
import CardDuel.Proofs.Play.Exchange
import CardDuel.Proofs.Play.Overflow
import Mathlib.Data.List.Sort

/-!
# Beating as many opposing cards as possible

Numbers are arranged by a greedy rule: from left to right, each opposing number is met by the
lowest card that beats it, or else by the lowest card of all.  At every step those beaten so far
and those that can still be beaten are no fewer than before (`Arrangement.beatable_meet`), so no
other order of the same cards beats more opposing numbers (`Play.countBeaten_ofIndices`).
-/

namespace CardDuel

/-- Whether a card shows a greater number than the card that faces it. -/
def Card.beats (card : Card) (facing : Option Card) : Bool :=
  match card.number?, facing.bind Card.number? with
  | some n, some target => decide (target < n)
  | _, _ => false

@[simp]
theorem Card.beats_none (card : Card) :
  card.beats none = false
  := by
  unfold beats
  cases card.number? <;> rfl

/-- Whether a card beats another depends on its face only. -/
theorem Card.beats_congr {card card' : Card} (same : card.face = card'.face)
    (facing : Option Card) :
  card.beats facing = card'.beats facing
  := by simp only [beats, number?, same]

/-- The number of opposing cards that are beaten if cards go into the open columns from left to
right. -/
def Situation.countBeaten (situation : Situation) (cards : List Card) : Nat :=
  (situation.openColumns.zip cards).countP fun entry =>
    entry.2.beats (situation.board.card? situation.opponent entry.1)

namespace Play

/-! ### Numbers that meet targets -/

theorem rank_of_number? {card : Card} {n : Int} (h : card.number? = some n) :
  rank card = n
  := by
  unfold Card.number? at h
  rcases shown : card.face.value with m | _ | _ | _ | _ | _ <;> rw [shown] at h
  case number =>
    obtain rfl := Option.some.inj h
    simp [rank, shown]
  all_goals contradiction

/-- A card that shows a number beats the numbers below its rank. -/
theorem beats_eq {card : Card} (numeric : card.IsNumeric) (facing : Option Card) :
  card.beats facing
    = (facing.bind Card.number?).any fun target => decide (target < rank card)
  := by
  obtain ⟨n, shown⟩ := Option.isSome_iff_exists.mp numeric.number
  rw [Card.beats, shown, rank_of_number? shown]
  cases facing.bind Card.number? <;> rfl

/-- The numbers that face some columns, from left to right. -/
def targets (facing : Nat → Option Card) (columns : List Nat) : List Int :=
  columns.filterMap fun column => (facing column).bind Card.number?

/-- The ranks of some cards in any order. -/
def ranks (cards : List Card) : Multiset Int :=
  (cards.map rank : List Int)

theorem targets_cons (facing : Nat → Option Card) (column : Nat) (columns : List Nat) :
  targets facing (column :: columns)
    = ((facing column).bind Card.number?).toList ++ targets facing columns
  := by
  rw [targets, List.filterMap_cons]
  cases (facing column).bind Card.number? <;> rfl

theorem length_targets_le (facing : Nat → Option Card) (columns : List Nat) :
  (targets facing columns).length ≤ columns.length
  := List.length_filterMap_le ..

theorem ranks_cons (card : Card) (cards : List Card) :
  ranks (card :: cards) = rank card ::ₘ ranks cards
  := rfl

theorem ranks_perm {cards cards' : List Card} (h : cards.Perm cards') :
  ranks cards = ranks cards'
  := Multiset.coe_eq_coe.mpr (h.map rank)

theorem card_ranks (cards : List Card) :
  (ranks cards).card = cards.length
  := by simp [ranks]

/-- As many targets can be beaten as are beaten by some cards in their columns. -/
theorem beatable_zip (facing : Nat → Option Card) {columns : List Nat} {cards : List Card}
    (numbers : ∀ card ∈ cards, card.IsNumeric) (enough : cards.length = columns.length) :
  Beatable (targets facing columns) (ranks cards)
    ((columns.zip cards).countP fun entry => entry.2.beats (facing entry.1))
  := by
  induction columns generalizing cards with
  | nil => exact .nil _
  | cons column rest ih =>
    obtain ⟨card, others, rfl⟩ := List.exists_cons_of_length_eq_add_one enough
    obtain ⟨numeric, numbers⟩ := List.forall_mem_cons.mp numbers
    have later := ih numbers (Nat.succ.inj enough)
    rw [targets_cons, List.zip_cons_cons, List.countP_cons, ranks_cons]
    dsimp only
    rw [beats_eq numeric]
    rcases (facing column).bind Card.number? with _ | target
    · simpa using later.add (rank card)
    · by_cases above : target < rank card
      · simpa [above] using later.beat above
      · simpa [above] using (later.add (rank card)).skip

/-! ### One step of the rule -/

namespace Arrangement

variable {arrangement : Arrangement} {foresight : Foresight} {column : Nat} {columns : List Nat}
  {pick : Pick} {n : Nat}

/-- The ranks of the cards left over. -/
def ranksLeft (arrangement : Arrangement) : Multiset Int :=
  ranks (arrangement.left.map (·.card))

theorem forall_mem_ranksLeft {p : Int → Prop} :
  (∀ a ∈ arrangement.ranksLeft, p a) ↔ ∀ pick ∈ arrangement.left, p (rank pick.card)
  := by simp [ranksLeft, ranks]

/-- What answers a number among standard cards: the lowest that beats it, or the lowest of all if
none does. -/
theorem answer?_cases {target : Int}
    (standard : ∀ other ∈ arrangement.left, other.card.isSpecial = false)
    (h : arrangement.answer? target = some pick) :
  (target < rank pick.card
      ∧ ∀ a ∈ arrangement.ranksLeft, target < a → rank pick.card ≤ a)
    ∨ (∀ a ∈ arrangement.ranksLeft, a ≤ target)
      ∧ ∀ a ∈ arrangement.ranksLeft, rank pick.card ≤ a
  := by
  have isBeating : ∀ other ∈ arrangement.left, target < rank other.card →
      other ∈ arrangement.left.filter fun other =>
        !other.card.isSpecial && decide (target < rank other.card) := by
    intro other mem above
    apply List.mem_filter.mpr
    simp [mem, standard other mem, above]
  rcases Option.or_eq_some_iff.mp h with beating | ⟨none, lowest⟩
  · left
    have test := (List.mem_filter.mp (leastBy_mem beating)).2
    simp only [Bool.and_eq_true, decide_eq_true_eq] at test
    refine ⟨test.2, forall_mem_ranksLeft.mpr ?_⟩
    intro other mem above
    apply key_leastBy_le beating other (isBeating other mem above)
  · right
    refine ⟨forall_mem_ranksLeft.mpr ?_, forall_mem_ranksLeft.mpr (key_leastBy_le lowest)⟩
    intro other mem
    by_contra above
    obtain ⟨other, found⟩ := exists_leastBy
      (List.ne_nil_of_mem (isBeating other mem (lt_of_not_ge above))) fun pick => rank pick.card
    rw [none] at found
    contradiction

theorem exists_answer? (nonempty : arrangement.left ≠ []) (target : Int) :
  ∃ pick, arrangement.answer? target = some pick
  := by
  obtain ⟨pick, lowest⟩ := exists_leastBy nonempty fun pick => rank pick.card
  rw [answer?, lowest]
  cases leastBy _ _ <;> exact ⟨_, rfl⟩

/-- An arrangement in which columns wait for cards: they are distinct and not taken, and enough
cards are left, all of them numbers. -/
structure Awaits (columns : List Nat) (arrangement : Arrangement) : Prop where
  distinct : columns.Nodup
  free : ∀ column ∈ columns, arrangement.isTaken column = false
  places : (arrangement.left.map (·.place)).Nodup
  numbers : ∀ pick ∈ arrangement.left, pick.card.IsNumeric
  room : columns.length ≤ arrangement.left.length

/-- One step of the rule, in the first of the columns that wait. -/
theorem meet_cases (awaits : arrangement.Awaits (column :: columns)) (foresight : Foresight) :
  (foresight.facing? column).bind Card.number? = none
      ∧ meet foresight arrangement column = arrangement
    ∨ ∃ target pick others, (foresight.facing? column).bind Card.number? = some target
      ∧ arrangement.answer? target = some pick
      ∧ (pick :: others).Perm arrangement.left
      ∧ meet foresight arrangement column
        = ⟨arrangement.placed ++ [(column, pick)], others⟩
  := by
  rw [meet, awaits.free column List.mem_cons_self]
  rcases (foresight.facing? column).bind Card.number? with _ | target
  · left
    exact ⟨rfl, rfl⟩
  · right
    have left : arrangement.left ≠ [] := List.ne_nil_of_length_pos
      (Nat.lt_of_lt_of_le (Nat.succ_pos _) awaits.room)
    obtain ⟨pick, found⟩ := exists_answer? left target
    refine ⟨target, pick, _, rfl, found,
      perm_cons_otherPlaces awaits.places (answer?_mem found), ?_⟩
    simp [found]

/-- After a step the other columns still wait. -/
theorem Awaits.meet (awaits : arrangement.Awaits (column :: columns)) (foresight : Foresight) :
  (meet foresight arrangement column).Awaits columns
  := by
  obtain ⟨first, distinct⟩ := List.nodup_cons.mp awaits.distinct
  obtain ⟨-, same⟩ | ⟨target, pick, others, -, -, perm, met⟩ := meet_cases awaits foresight
  · rw [same]
    exact ⟨distinct, (List.forall_mem_cons.mp awaits.free).2, awaits.places, awaits.numbers,
      Nat.le_of_succ_le awaits.room⟩
  · rw [met]
    constructor
    · apply distinct
    · intro other mem
      have free := awaits.free other (List.mem_cons_of_mem _ mem)
      have apart : column ≠ other := by
        rintro rfl
        contradiction
      simpa [isTaken, apart] using free
    · have places := (perm.map (·.place)).nodup_iff.mpr awaits.places
      exact (List.nodup_cons.mp places).2
    · intro other mem
      apply awaits.numbers other (perm.mem_iff.mp (List.mem_cons_of_mem _ mem))
    · have room := awaits.room
      rw [← perm.length_eq] at room
      apply Nat.le_of_succ_le_succ room

end Arrangement

/-- The number of cards placed that beat the cards that face them. -/
def Foresight.countBeaten (foresight : Foresight) (placed : List (Nat × Pick)) : Nat :=
  placed.countP fun entry => entry.2.card.beats (foresight.facing? entry.1)

namespace Arrangement

variable {arrangement : Arrangement} {foresight : Foresight} {column : Nat} {columns : List Nat}
  {n : Nat}

/-- If so many more opposing cards can be beaten, then after a step the number of those beaten
and of those that can still be beaten is no less. -/
theorem beatable_meet (awaits : arrangement.Awaits (column :: columns))
    (h : Beatable (targets foresight.facing? (column :: columns)) arrangement.ranksLeft n) :
  ∃ m, Beatable (targets foresight.facing? columns)
      (meet foresight arrangement column).ranksLeft m
    ∧ foresight.countBeaten arrangement.placed + n
      ≤ foresight.countBeaten (meet foresight arrangement column).placed + m
  := by
  rw [targets_cons] at h
  obtain ⟨none, same⟩ | ⟨target, pick, others, isTarget, found, perm, met⟩ :=
    meet_cases awaits foresight
  · rw [none] at h
    rw [same]
    exact ⟨n, h, Nat.le_refl _⟩
  · have numeric := awaits.numbers pick (perm.mem_iff.mp List.mem_cons_self)
    have answered := answer?_cases (fun other mem => (awaits.numbers other mem).isSpecial) found
    have left : arrangement.ranksLeft
        = rank pick.card ::ₘ ranks (others.map (·.card)) := ranks_perm (perm.symm.map _)
    rw [isTarget, left] at h
    rw [left] at answered
    rw [met, ranksLeft, Foresight.countBeaten, Foresight.countBeaten, List.countP_append,
      List.countP_singleton]
    dsimp only
    rw [beats_eq numeric, isTarget, Option.any_some]
    obtain ⟨above, cheapest⟩ | ⟨unbeaten, lowest⟩ := answered
    · obtain ⟨m, beaten, less⟩ := h.of_cheapest (Multiset.forall_mem_cons.mp cheapest).2
      refine ⟨m, beaten, ?_⟩
      simp only [above, decide_true, if_true]
      omega
    · have room : (targets foresight.facing? columns).length
          ≤ (ranks (others.map (·.card))).card := by
        rw [card_ranks, List.length_map]
        have room := awaits.room
        rw [← perm.length_eq] at room
        apply Nat.le_trans (length_targets_le ..) (Nat.le_of_succ_le_succ room)
      refine ⟨n, h.of_lowest unbeaten (Multiset.forall_mem_cons.mp lowest).2 room, ?_⟩
      omega

/-- However many more opposing cards can be beaten, the rule beats them. -/
theorem countBeaten_foldl_meet (awaits : arrangement.Awaits columns)
    (h : Beatable (targets foresight.facing? columns) arrangement.ranksLeft n) :
  foresight.countBeaten arrangement.placed + n
    ≤ foresight.countBeaten (columns.foldl (meet foresight) arrangement).placed
  := by
  induction columns generalizing arrangement n with
  | nil =>
    cases h
    apply Nat.le_refl
  | cons column rest ih =>
    obtain ⟨m, later, le⟩ := beatable_meet awaits h
    apply Nat.le_trans le (ih (awaits.meet foresight) later)

end Arrangement

/-! ### Plays of numbers -/

/-- The indices of cards of the hand, one for each open column, that are standard cards and show
the numbers with which they were printed. -/
structure ChoosesNumbers (situation : Situation) (indices : List Nat) : Prop where
  distinct : indices.Nodup
  numbers : ∀ i ∈ indices,
    ∃ card, situation.hand[i]? = some card ∧ card.IsNumeric ∧ card.face = card.printed
  enough : indices.length = situation.openColumns.length

variable {situation : Situation} {settings : PlaySettings} {indices : List Nat} {play : Play}

namespace ChoosesNumbers

theorem inHand (h : ChoosesNumbers situation indices) :
  ∀ i ∈ indices, i < situation.hand.length
  := by
  intro i mem
  obtain ⟨card, cardAt, -⟩ := h.numbers i mem
  apply (List.getElem?_eq_some_iff.mp cardAt).1

theorem picks (h : ChoosesNumbers situation indices) {pick : Pick}
    (mem : pick ∈ picksOf situation indices) :
  pick.card.IsNumeric ∧ pick.card.face = pick.card.printed
  := by
  have isChosen : pick.index ∈ indices := by
    rw [← index_picksOf h.inHand]
    apply List.mem_map_of_mem mem
  obtain ⟨card, cardAt, numeric, printed⟩ := h.numbers _ isChosen
  obtain rfl := Option.some.inj (cardAt.symm.trans (card_of_mem_picksOf mem))
  exact ⟨numeric, printed⟩

theorem length_picksOf (h : ChoosesNumbers situation indices) :
  (picksOf situation indices).length = situation.openColumns.length
  := by
  have same := congrArg List.length (index_picksOf h.inHand)
  rw [List.length_map] at same
  rw [same, h.enough]

end ChoosesNumbers

namespace Foresight

/-- What is foreseen if nothing is tried out. -/
def plain (situation : Situation) (indices : List Nat) : Foresight where
  mine := picksOf situation indices
  theirs := (situation.board.row situation.opponent).map (·.card)
  pinned := []

@[simp]
theorem facing?_plain (situation : Situation) (indices : List Nat) :
  (plain situation indices).facing? = situation.board.card? situation.opponent
  := by
  funext column
  simp only [facing?, plain, Board.row, Board.card?, Board.slot?, List.getElem?_map]
  cases situation.board.columns[column]? <;> rfl

@[simp]
theorem pinnedArrangement_plain (situation : Situation) (indices : List Nat) :
  (plain situation indices).pinnedArrangement = ⟨[], picksOf situation indices⟩
  := by simp [pinnedArrangement, plain, isPinned]

/-- Without special cards nothing is tried out. -/
theorem ofIndices_eq_plain (h : ChoosesNumbers situation indices) :
  ofIndices situation indices = .ok (plain situation indices)
  := by
  have none : (picksOf situation indices).filterMap (fun pick => pick.card.special) = [] := by
    apply List.filterMap_eq_nil_iff.mpr
    intro pick mem
    simpa [Card.isSpecial] using (h.picks mem).1.isSpecial
  simp only [ofIndices, none]
  rfl

theorem hasClone_plain (h : ChoosesNumbers situation indices) :
  (plain situation indices).hasClone = false
  := by
  apply List.any_eq_false.mpr
  intro pick mem
  have noSpecial : pick.card.special = none := by
    simpa [Card.isSpecial] using (h.picks mem).1.isSpecial
  simp [noSpecial]

/-- Filling up beats no less. -/
theorem countBeaten_fill (foresight : Foresight) (arrangement : Arrangement)
    (openColumns : List Nat) :
  foresight.countBeaten arrangement.placed
    ≤ foresight.countBeaten (arrangement.fill openColumns)
  := by
  unfold countBeaten Arrangement.fill
  rw [(sortBy_perm _ _).countP_eq, List.countP_append]
  apply Nat.le_add_right

end Foresight

/-- No way to distribute the chosen cards beats more than the greedy rule does. -/
theorem countBeaten_le_foldl_meet (h : ChoosesNumbers situation indices) {order : List Nat}
    (perm : order.Perm indices) :
  situation.countBeaten (situation.cardsAt order)
    ≤ (Foresight.plain situation indices).countBeaten
      (situation.openColumns.foldl (Arrangement.meet (.plain situation indices))
        ⟨[], picksOf situation indices⟩).placed
  := by
  have cards : (situation.cardsAt order).Perm ((picksOf situation indices).map (·.card)) := by
    rw [map_card_picksOf]
    apply perm.filterMap
  have numbers : ∀ card ∈ situation.cardsAt order, card.IsNumeric := by
    intro card mem
    obtain ⟨pick, pickMem, rfl⟩ := List.mem_map.mp (cards.mem_iff.mp mem)
    apply (h.picks pickMem).1
  have enough : (situation.cardsAt order).length = situation.openColumns.length := by
    rw [cards.length_eq, List.length_map, h.length_picksOf]
  have awaits : Arrangement.Awaits situation.openColumns ⟨[], picksOf situation indices⟩ :=
    { distinct := Board.nodup_openColumns situation.board situation.seat
      free := fun _ _ => rfl
      places := nodup_place_picksOf situation indices
      numbers := fun _ mem => (h.picks mem).1
      room := h.length_picksOf.ge }
  have beatable := beatable_zip (situation.board.card? situation.opponent) numbers enough
  rw [ranks_perm cards, ← Foresight.facing?_plain situation indices] at beatable
  have beaten := Arrangement.countBeaten_foldl_meet awaits beatable
  rw [Foresight.facing?_plain] at beaten
  simpa [Foresight.countBeaten, Situation.countBeaten] using beaten

/-- If there are as many cards as open columns, a play fills all of them. -/
theorem Distributes.columns (h : play.Distributes situation indices)
    (enough : play.placements.length = situation.openColumns.length) :
  play.placements.map (·.column) = situation.openColumns
  := by
  have increasing : (play.placements.map (·.column)).Pairwise (· < ·) :=
    List.pairwise_map.mpr h.increasing
  have distinct : (play.placements.map (·.column)).Nodup := increasing.imp Nat.ne_of_lt
  have within : play.placements.map (·.column) ⊆ situation.openColumns := by
    intro column mem
    obtain ⟨placement, placementMem, rfl⟩ := List.mem_map.mp mem
    apply Board.mem_openColumns.mpr (h.isOpen placement placementMem)
  have inOrder := List.sublist_of_subperm_of_pairwise (List.subperm_of_subset distinct within)
    increasing (List.pairwise_lt_range.filter _)
  apply inOrder.eq_of_length
  rw [List.length_map, enough]

/-- Against an empty side no card beats another. -/
theorem countBeaten_of_isBare (bare : situation.board.isBare situation.opponent = true)
    (cards : List Card) :
  situation.countBeaten cards = 0
  := by simp [Situation.countBeaten, Board.card?_of_isBare bare]

/-- The cards of the play built from chosen numbers beat as much as they do where the greedy rule
puts them. -/
theorem foldl_meet_le_countBeaten (h : ChoosesNumbers situation indices)
    {stream stream' : Stream} (bare : situation.board.isBare situation.opponent = false)
    (built : ofIndices situation settings indices stream = .ok (play, stream'))
    (columns : play.placements.map (·.column) = situation.openColumns) :
  (Foresight.plain situation indices).countBeaten
      (situation.openColumns.foldl (Arrangement.meet (.plain situation indices))
        ⟨[], picksOf situation indices⟩).placed
    ≤ situation.countBeaten play.cards
  := by
  obtain ⟨foresight, foreseen, placements, -⟩ := ofIndices_eq_ok built
  rw [Foresight.ofIndices_eq_plain h] at foreseen
  obtain rfl := Except.ok.inj foreseen
  have complete := Foresight.isComplete_arrange stream (nodup_place_picksOf situation indices)
    h.length_picksOf.le (Foresight.isSound_ofIndices (Foresight.ofIndices_eq_plain h))
  set arranged := ((Foresight.plain situation indices).arrange situation stream).1 with arranged_def
  have beaten : situation.countBeaten play.cards
      = (Foresight.plain situation indices).countBeaten arranged := by
    rw [Situation.countBeaten, ← columns, cards, List.zip_map', List.countP_map, placements,
      Foresight.placements, List.countP_map]
    apply List.countP_congr
    intro entry mem
    have isPick : entry.2 ∈ picksOf situation indices :=
      complete.picks.mem_iff.mp (List.mem_map_of_mem mem)
    have shown : entry.2.card.reset.face = entry.2.card.face := (h.picks isPick).2.symm
    simp [Card.beats_congr shown]
  rw [beaten, arranged_def, Foresight.arrange, Foresight.hasClone_plain h, bare]
  simp only [Bool.false_eq_true, if_false, Foresight.pinnedArrangement_plain]
  apply Foresight.countBeaten_fill

/-- The cards of a play show what the chosen cards show in the hand. -/
theorem map_face_cards (h : ChoosesNumbers situation indices) (fits : play.Fits situation)
    (used : play.indices.Perm indices) :
  play.cards.map (·.face) = (situation.cardsAt play.indices).map (·.face)
  := by
  unfold Situation.cardsAt Play.indices cards
  rw [List.filterMap_map, List.map_filterMap, List.map_map, eq_comm,
    List.filterMap_eq_map_iff_forall_eq_some]
  intro placement mem
  obtain ⟨card, cardAt, same⟩ := fits.printed placement mem
  obtain ⟨card', cardAt', -, printed⟩ :=
    h.numbers placement.index (used.mem_iff.mp (List.mem_map_of_mem mem))
  obtain rfl := Option.some.inj (cardAt.symm.trans cardAt')
  simp [cardAt, same, Card.reset, printed]

/-- A play built from standard cards that show the numbers with which they were printed, one for
each open column, puts them into these columns and beats as many opposing numbers as possible:
no other order of the same cards beats more. -/
theorem countBeaten_ofIndices (settings : PlaySettings) (stream : Stream)
    (h : ChoosesNumbers situation indices)
    (noOverflow : ∀ fault, fault.IsOverflow →
      ofIndices situation settings indices stream ≠ .error fault) :
  ∃ play next, ofIndices situation settings indices stream = .ok (play, next)
  ∧ play.placements.map (·.column) = situation.openColumns
  ∧ play.indices.Perm indices
  ∧ play.cards.map (·.face) = (situation.cardsAt play.indices).map (·.face)
  ∧ ∀ order : List Nat, order.Perm indices →
    situation.countBeaten (situation.cardsAt order) ≤ situation.countBeaten play.cards
  := by
  obtain ⟨⟨play, next⟩, built⟩ :=
    (onlyOverflows_ofIndices situation settings indices stream).exists_ok noOverflow
  obtain ⟨fits, used⟩ := fits_ofIndices h.distinct h.inHand h.enough.le built
  have columns : play.placements.map (·.column) = situation.openColumns := by
    apply (distributes_ofIndices h.enough.le built).columns
    rw [← h.enough, ← used.length_eq, Play.indices, List.length_map]
  refine ⟨play, next, built, columns, used, map_face_cards h fits used, ?_⟩
  intro order perm
  rcases bare : situation.board.isBare situation.opponent
  · apply Nat.le_trans (countBeaten_le_foldl_meet h perm)
    apply foldl_meet_le_countBeaten h bare built columns
  · rw [countBeaten_of_isBare bare]
    apply Nat.zero_le

/-- An eight, a five and a two in the hand, opposite a nine, a four and a seven. -/
def court : Situation where
  hand := [.standard "Boyfriend" (.number 8), .standard "Girlfriend" (.number 5),
    .standard "Boyfriend" (.number 2)]
  board := ⟨[
    ⟨{}, { card := some (.standard "Ex" (.number 9)) }⟩,
    ⟨{}, { card := some (.standard "Ex" (.number 4)), hold := .held }⟩,
    ⟨{}, { card := some (.standard "Ex" (.number 7)) }⟩]⟩
  seat := .first

/-- The two is given away to the nine, so that the five beats the four and the eight the seven;
no other order beats three of them. -/
theorem countBeaten_ofIndices_court :
  ∃ play next, ofIndices court {} [0, 1, 2] (.ofSeed 0) = .ok (play, next)
    ∧ play.indices = [2, 1, 0]
    ∧ court.countBeaten play.cards = 2
    ∧ ∀ order : List Nat, order.Perm [0, 1, 2] →
      court.countBeaten (court.cardsAt order) ≤ 2
  := by
  have chooses : ChoosesNumbers court [0, 1, 2] := by
    constructor
    · decide
    · intro i mem
      simp only [List.mem_cons, List.not_mem_nil, or_false] at mem
      rcases mem with rfl | rfl | rfl <;> exact ⟨_, rfl, by decide, rfl⟩
    · rfl
  have built : ofIndices court {} [0, 1, 2] (.ofSeed 0) = .ok (_, _) := rfl
  obtain ⟨play, next, same, -, -, -, best⟩ :=
    countBeaten_ofIndices {} (.ofSeed 0) chooses (by simp [built])
  rw [built] at same
  obtain ⟨rfl, rfl⟩ := Prod.mk.inj (Except.ok.inj same)
  exact ⟨_, _, built, rfl, rfl, best⟩

end Play

end CardDuel
