import CardDuel.Proofs.Reach
import CardDuel.Requirement.Checking

/-!
# Selected indices

A condition is asked about one index at a time by `eval`, and about all indices at once by
`select`, which joins the selections of its parts.  A join by "and" narrows the selection of its
first part (`narrow_eq_filter`) and may stop as soon as nothing is left (`fst_survey`); a join by
"or" widens the empty selection (`mem_widen`).  An empty join by "and" holds and selects nothing;
without such joins the two ways agree: `Condition.select_agrees_with_eval`.
-/

namespace CardDuel

namespace Condition

variable {α : Type}

/-- Whether some join by "and" has no parts. -/
def hasEmptyAnd : Condition α → Bool :=
  fold (fun _ => false) fun op parts => (op == .and && parts.isEmpty) || parts.any id

@[simp]
theorem hasEmptyAnd_test (a : α) :
  (test a).hasEmptyAnd = false
  := rfl

theorem hasEmptyAnd_join {op : Connective} {items : List (Condition α)} :
  (join op items).hasEmptyAnd = false
    ↔ (op = .and → items ≠ []) ∧ ∀ item ∈ items, item.hasEmptyAnd = false
  := by
  rw [hasEmptyAnd]
  rw [fold_join]
  simp

theorem hasEmptyAnd_of_hasEmptyJoin {condition : Condition α}
    (filled : condition.hasEmptyJoin = false) :
  condition.hasEmptyAnd = false
  := by
  induction condition with
  | test a => rfl
  | join op items ih =>
    obtain ⟨some, parts⟩ := hasEmptyJoin_join.mp filled
    apply hasEmptyAnd_join.mpr
    exact ⟨fun _ => some, fun item mem => ih item mem (parts item mem)⟩

/-! ### Narrowing and widening -/

theorem narrow_eq_filter (kept : List Nat) (others : List (List Nat)) :
  narrow kept others = kept.filter fun i => others.all fun other => other.contains i
  := by
  induction others generalizing kept with
  | nil => exact (List.filter_eq_self.mpr fun _ _ => rfl).symm
  | cons other rest ih =>
    rw [narrow, List.foldl_cons, ← narrow, ih, List.filter_filter]
    congr 1
    funext i
    rw [List.all_cons, Bool.and_comm]

/-- Nothing that is left out at first comes back, and the order stays. -/
theorem narrow_sublist (kept : List Nat) (others : List (List Nat)) :
  (narrow kept others).Sublist kept
  := by
  rw [narrow_eq_filter]
  apply List.filter_sublist

theorem mem_widen {kept : List Nat} {others : List (List Nat)} {i : Nat} :
  i ∈ widen kept others ↔ i ∈ kept ∨ ∃ other ∈ others, i ∈ other
  := by
  induction others generalizing kept with
  | nil => simp [widen]
  | cons other rest ih =>
    rw [widen, List.foldl_cons, ← widen, ih]
    by_cases known : i ∈ kept
    · simp [known]
    · simp [known]

/-- Widening adds only what is not there yet. -/
theorem nodup_widen {kept : List Nat} {others : List (List Nat)} (single : kept.Nodup)
    (singles : ∀ other ∈ others, other.Nodup) :
  (widen kept others).Nodup
  := by
  induction others generalizing kept with
  | nil => exact single
  | cons other rest ih =>
    obtain ⟨first, later⟩ := List.forall_mem_cons.mp singles
    rw [widen, List.foldl_cons, ← widen]
    apply ih _ later
    apply List.nodup_append.mpr
    refine ⟨single, first.filter _, ?_⟩
    rintro i known j added rfl
    simp [known] at added

/-! ### Selecting -/

theorem select_and_cons (len : Nat) (keep : α → Nat → Bool) (first : Condition α)
    (rest : List (Condition α)) :
  (join .and (first :: rest)).select len keep
    = narrow (first.select len keep) (rest.map (select len keep))
  := by
  unfold select
  rw [fold_join]
  rfl

theorem select_or (len : Nat) (keep : α → Nat → Bool) (items : List (Condition α)) :
  (join .or items).select len keep = widen [] (items.map (select len keep))
  := by
  unfold select
  rw [fold_join]

theorem nodup_select (len : Nat) (keep : α → Nat → Bool) (condition : Condition α) :
  (condition.select len keep).Nodup
  := by
  induction condition with
  | test a => exact List.nodup_range.filter (keep a)
  | join op items ih =>
    cases op with
    | and =>
      cases items with
      | nil => exact List.nodup_nil
      | cons first rest =>
        rw [select_and_cons]
        exact (ih first List.mem_cons_self).sublist (narrow_sublist _ _)
    | or =>
      rw [select_or]
      apply nodup_widen List.nodup_nil
      intro selection mem
      obtain ⟨item, inside, rfl⟩ := List.mem_map.mp mem
      exact ih item inside

/-- Without empty joins by "and", what is selected are the indices at which the condition
holds. -/
theorem mem_select_iff {condition : Condition α} (filled : condition.hasEmptyAnd = false)
    {len : Nat} {keep : α → Nat → Bool} {i : Nat} :
  i ∈ condition.select len keep ↔ i < len ∧ condition.eval (fun a => keep a i) = true
  := by
  induction condition with
  | test a => exact List.mem_filter.trans (and_congr_left' List.mem_range)
  | join op items ih =>
    obtain ⟨some, parts⟩ := hasEmptyAnd_join.mp filled
    replace ih := fun item mem => ih item mem (parts item mem)
    rw [eval_join]
    cases op with
    | and =>
      cases items with
      | nil => exact absurd rfl (some rfl)
      | cons first rest =>
        obtain ⟨here, later⟩ := List.forall_mem_cons.mp ih
        rw [select_and_cons, narrow_eq_filter, List.mem_filter, here, List.all_map]
        simp only [List.all_eq_true, List.all_cons, Function.comp_apply, List.contains_iff_mem,
          Bool.and_eq_true, and_assoc]
        apply and_congr_right
        intro below
        apply and_congr_right
        intro _
        apply forall₂_congr
        intro item mem
        rw [later item mem]
        exact and_iff_right below
    | or =>
      rw [select_or, mem_widen]
      simp only [List.not_mem_nil, false_or, List.mem_map, exists_exists_and_eq_and,
        List.any_eq_true]
      constructor
      · rintro ⟨item, mem, selected⟩
        obtain ⟨below, holds⟩ := (ih item mem).mp selected
        exact ⟨below, item, mem, holds⟩
      · rintro ⟨below, item, mem, holds⟩
        exact ⟨item, mem, (ih item mem).mpr ⟨below, holds⟩⟩

/-- Without empty joins by "and", what is selected from a list are the entries at which the
condition holds. -/
theorem mem_select_getElem? {β : Type} {condition : Condition α}
    (filled : condition.hasEmptyAnd = false) (accepts : α → Option β → Bool)
    {entries : List β} {i : Nat} :
  i ∈ condition.select entries.length (fun a i => accepts a entries[i]?)
    ↔ ∃ entry, entries[i]? = some entry ∧ condition.eval (fun a => accepts a (some entry)) = true
  := by
  rw [mem_select_iff filled]
  constructor
  · rintro ⟨below, holds⟩
    rw [List.getElem?_eq_getElem below] at holds
    exact ⟨entries[i], List.getElem?_eq_getElem below, holds⟩
  · rintro ⟨entry, here, holds⟩
    obtain ⟨below, -⟩ := List.getElem?_eq_some_iff.mp here
    rw [here]
    exact ⟨below, holds⟩

/-! ### Stopping early -/

theorem fst_narrowUntilEmpty (kept : List Nat) (others : List (List Nat × List α)) :
  (narrowUntilEmpty kept others).1 = narrow kept (others.map (·.1))
  := by
  induction others generalizing kept with
  | nil => rfl
  | cons other rest ih =>
    rw [narrowUntilEmpty]
    split
    · rename_i empty
      rw [List.isEmpty_iff.mp empty, narrow_eq_filter]
      rfl
    · exact ih _

/-- Nothing is missed when narrowing stops as soon as nothing is left. -/
theorem fst_survey (len : Nat) (keep : α → Nat → Bool) (condition : Condition α) :
  (condition.survey len keep).1 = condition.select len keep
  := by
  induction condition with
  | test a => rfl
  | join op items ih =>
    have parts : (items.map (survey len keep)).map (·.1) = items.map (select len keep) := by
      rw [List.map_map]
      exact List.map_congr_left ih
    unfold survey at parts ⊢
    rw [fold_join]
    cases op with
    | and =>
      cases items with
      | nil => rfl
      | cons first rest =>
        obtain ⟨here, later⟩ := List.cons.inj parts
        rw [select_and_cons, ← here, ← later, ← fst_narrowUntilEmpty]
        rfl
    | or =>
      rw [select_or, ← parts]

end Condition

/-! ### Selecting cards -/

theorem Application.mem_select_iff {application : Application}
    (filled : application.hasEmptyJoin = false) {side : Side} {cards : List Card} {i : Nat} :
  i ∈ application.select side cards
    ↔ ∃ card, cards[i]? = some card ∧ application.reaches side (some card) none = true
  := Condition.mem_select_getElem? (Condition.hasEmptyAnd_of_hasEmptyJoin filled) fun aim card =>
    aim.accepts side card none

theorem Requirement.mem_select_iff {requirement : Requirement}
    (filled : requirement.hasEmptyJoin = false) {cards : List Card} {i : Nat} :
  i ∈ requirement.select cards
    ↔ ∃ card, cards[i]? = some card ∧ requirement.eval (fun quota => quota.counts card) = true
  := Condition.mem_select_getElem? (Condition.hasEmptyAnd_of_hasEmptyJoin filled) fun quota card =>
    card.any quota.counts

/-- Without empty joins by "and", a condition selects, each once, the indices in range at which it
holds; a join by "and" keeps the order of its first part, and stopping early changes nothing.  So
applications and requirements that are built from tests select the cards that pass one by one. -/
theorem Condition.select_agrees_with_eval {α : Type} {condition : Condition α}
    (filled : condition.hasEmptyAnd = false) (len : Nat) (keep : α → Nat → Bool)
    {application : Application} (aims : application.IsBuilt) (side : Side)
    {requirement : Requirement} (quotas : requirement.IsBuilt) (cards : List Card) :
  (condition.select len keep).Nodup
  ∧ (∀ i, i ∈ condition.select len keep ↔ i < len ∧ condition.eval (fun a => keep a i) = true)
  ∧ (∀ first rest,
    ((join .and (first :: rest)).select len keep).Sublist (first.select len keep))
  ∧ (condition.survey len keep).1 = condition.select len keep
  ∧ (application.select side cards).Nodup
  ∧ (∀ i, i ∈ application.select side cards
    ↔ ∃ card, cards[i]? = some card ∧ application.reaches side (some card) none = true)
  ∧ (requirement.select cards).Nodup
  ∧ (∀ i, i ∈ requirement.select cards
    ↔ ∃ card, cards[i]? = some card ∧ requirement.eval (fun quota => quota.counts card) = true)
  := by
  refine ⟨nodup_select len keep condition, fun i => mem_select_iff filled, ?_,
    fst_survey len keep condition, nodup_select _ _ application, ?_,
    nodup_select _ _ requirement, ?_⟩
  · intro first rest
    rw [select_and_cons]
    apply narrow_sublist
  · intro i
    apply Application.mem_select_iff aims.hasEmptyJoin
  · intro i
    apply Requirement.mem_select_iff quotas.hasEmptyJoin

/-- What is divisible by two and by three, or by five. -/
def sieve : Condition Nat := ((Condition.test 2).and (.test 3)).or (.test 5)

/-- High cards, and the Ex. -/
def highOrEx : Application :=
  Condition.or (.test (.ofScope { min := some 8 })) (.test (.ofScope { suits := some ["Ex"] }))

/-- Two cards that are high or the Ex, one of them friendly and low. -/
def mixedPair : Requirement :=
  Condition.and (Requirement.counting .exactly 2 highOrEx)
    (Requirement.counting .atLeast 1 (.test (.ofScope { alignment := .friendly, max := some 4 })))

/-- Three cards, the last of them special. -/
def trio : List Card :=
  [.standard "Ex" (.number 3), .standard "Boyfriend" (.number 9),
    .ofSpecial ⟨"Rose", "", .nothing, .any, ⟨.wait, .none⟩⟩]

/-- The order of what is selected is that of the first part that selects it. -/
theorem Condition.select_agrees_with_eval_sieve :
  sieve.hasEmptyAnd = false ∧ highOrEx.IsBuilt ∧ mixedPair.IsBuilt
  ∧ sieve.select 13 (fun m i => i % m == 0) = [0, 6, 12, 5, 10]
  ∧ (∀ i, i ∈ [0, 6, 12, 5, 10] ↔ i < 13 ∧ sieve.eval (fun m => i % m == 0) = true)
  ∧ highOrEx.select .enemy trio = [1, 0]
  ∧ (∀ i, i ∈ [1, 0] ↔ ∃ card, trio[i]? = some card
    ∧ highOrEx.reaches .enemy (some card) none = true)
  ∧ mixedPair.select trio = [0]
  ∧ (∀ i, i ∈ [0] ↔ ∃ card, trio[i]? = some card
    ∧ mixedPair.eval (fun quota => quota.counts card) = true)
  := by
  have filled : sieve.hasEmptyAnd = false := rfl
  have aims : highOrEx.IsBuilt := .or (.test _) (.test _)
  have quotas : mixedPair.IsBuilt := .and (.test _) (.test _)
  obtain ⟨-, sifted, -, -, -, reached, -, counted⟩ :=
    select_agrees_with_eval filled 13 (fun m i => i % m == 0) aims .enemy quotas trio
  exact ⟨filled, aims, quotas, rfl, sifted, rfl, reached, rfl, counted⟩

/-- An empty join by "and" holds everywhere and selects nothing. -/
example :
    (Condition.join .and [] : Condition Nat).eval (fun _ => false) = true
      ∧ (Condition.join .and []).select 3 (fun (_ : Nat) _ => true) = [] :=
  ⟨rfl, rfl⟩

end CardDuel
