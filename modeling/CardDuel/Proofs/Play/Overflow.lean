import CardDuel.Play.Planner
import CardDuel.Proofs.Overflow

/-!
# Choosing a play fails only by overflow

The planner computes with checked arithmetic where it tries out special cards, values plays
and ranks cards by preference.  Nothing else in it fails, so an analysis has a result unless
one of these numbers leaves its range: `Situation.onlyOverflows_analyze`.
-/

namespace CardDuel

open Checked (OnlyOverflows)

namespace Play

/-! ### Trying out special cards -/

namespace Foresight

theorem onlyOverflows_touch (special : Special) (side : Side) (card : Card) :
  OnlyOverflows (touch special side card)
  := by
  rw [touch]
  split
  · apply (Card.onlyOverflows_apply ..).map
  · apply OnlyOverflows.ok

theorem onlyOverflows_tryImmediate (foresight : Foresight) (special : Special) :
  OnlyOverflows (foresight.tryImmediate special)
  := by
  apply OnlyOverflows.bind
  · apply OnlyOverflows.mapM
    intro pick _
    apply (onlyOverflows_touch ..).bind
    intro card
    apply OnlyOverflows.ok
  · intro mine
    apply OnlyOverflows.bind
    · apply OnlyOverflows.mapM
      intro slot _
      cases slot with
      | none => apply OnlyOverflows.ok
      | some card => apply (onlyOverflows_touch ..).map
    · intro theirs
      apply OnlyOverflows.ok

theorem onlyOverflows_tradeAt (special : Special) (foresight : Foresight) (column : Nat) :
  OnlyOverflows (tradeAt special foresight column)
  := by
  rw [tradeAt]
  split
  · apply OnlyOverflows.ok
  · split
    · apply OnlyOverflows.ok
    · apply (Card.onlyOverflows_apply ..).bind
      intro mine
      apply (Card.onlyOverflows_apply ..).bind
      intro theirs
      apply OnlyOverflows.ok

theorem onlyOverflows_ofIndices (situation : Situation) (indices : List Nat) :
  OnlyOverflows (ofIndices situation indices)
  := by
  apply OnlyOverflows.bind
  · apply OnlyOverflows.foldlM
    intro special _ foresight
    apply onlyOverflows_tryImmediate
  · intro foresight
    apply OnlyOverflows.foldlM
    intro special _ foresight
    apply OnlyOverflows.foldlM
    intro column _ foresight
    apply onlyOverflows_tradeAt

end Foresight

/-! ### Valuing a play -/

/-- What an adjustment adds or takes. -/
def Adjustment.amount : Adjustment → Except Fault Int
  | gain amount | cost amount => amount

theorem Adjustment.onlyOverflows_applyTo {adjustment : Adjustment}
    (h : OnlyOverflows adjustment.amount) (value : Int) :
  OnlyOverflows (adjustment.applyTo value)
  := by
  cases adjustment with
  | gain amount =>
    apply OnlyOverflows.bind h
    intro n
    apply OnlyOverflows.add
  | cost amount =>
    apply OnlyOverflows.bind h
    intro n
    apply OnlyOverflows.sub

namespace View

variable {view : View} {special : Special}

theorem onlyOverflows_change (effect : Effect) (n : Int) :
  OnlyOverflows (change effect n)
  := by
  apply OnlyOverflows.map
  rw [Effect.delta?]
  split
  case h_4 => apply (OnlyOverflows.sub ..).map
  all_goals apply OnlyOverflows.ok

theorem onlyOverflows_marginBonus {placement : Placement} :
  ∀ adjustment ∈ view.marginBonus placement, OnlyOverflows adjustment.amount
  := by
  rw [marginBonus]
  intro adjustment mem
  split at mem
  · split at mem
    · obtain rfl := List.mem_singleton.mp mem
      apply (OnlyOverflows.add ..).map
    · contradiction
  · contradiction

theorem onlyOverflows_enemyCost {column : Nat} :
  ∀ adjustment ∈ view.enemyCost special column, OnlyOverflows adjustment.amount
  := by
  rw [enemyCost]
  intro adjustment mem
  split at mem
  · split at mem
    · obtain ⟨n, -, rfl⟩ := List.mem_map.mp mem
      apply onlyOverflows_change
    · contradiction
  · split at mem
    · obtain rfl := List.mem_singleton.mp mem
      apply onlyOverflows_change
    · contradiction

theorem onlyOverflows_changeAdjustments :
  ∀ adjustment ∈ view.changeAdjustments special, OnlyOverflows adjustment.amount
  := by
  intro adjustment mem
  rcases List.mem_append.mp mem with mem | mem
  · rcases List.mem_append.mp mem with mem | mem
    · obtain ⟨n, -, rfl⟩ := List.mem_map.mp mem
      apply onlyOverflows_change
    · obtain ⟨n, -, rfl⟩ := List.mem_map.mp mem
      apply (onlyOverflows_change special.effect n).bind
      intro amount
      apply OnlyOverflows.add
  · obtain ⟨column, -, mem⟩ := List.mem_flatMap.mp mem
    apply onlyOverflows_enemyCost adjustment mem

theorem onlyOverflows_lowAdjustments :
  ∀ adjustment ∈ view.lowAdjustments special, OnlyOverflows adjustment.amount
  := by
  intro adjustment mem
  rcases List.mem_append.mp mem with mem | mem
  · obtain ⟨n, -, rfl⟩ := List.mem_map.mp mem
    apply (OnlyOverflows.sub 10 n).bind
    intro amount
    apply OnlyOverflows.add
  · obtain ⟨n, -, rfl⟩ := List.mem_map.mp mem
    apply OnlyOverflows.sub

theorem onlyOverflows_cloneAdjustments :
  ∀ adjustment ∈ view.cloneAdjustments special, OnlyOverflows adjustment.amount
  := by
  rw [cloneAdjustments]
  intro adjustment mem
  split at mem
  · contradiction
  · rcases List.mem_cons.mp mem with rfl | mem
    · apply OnlyOverflows.foldlM
      intro n _ total
      apply (OnlyOverflows.sub ..).bind
      intro difference
      apply OnlyOverflows.add
    · obtain ⟨n, -, rfl⟩ := List.mem_map.mp mem
      apply OnlyOverflows.ok

theorem onlyOverflows_waitAdjustments :
  ∀ adjustment ∈ view.waitAdjustments special, OnlyOverflows adjustment.amount
  := by
  intro adjustment mem
  rcases List.mem_append.mp mem with mem | mem
  · obtain ⟨n, -, rfl⟩ := List.mem_map.mp mem
    apply OnlyOverflows.sub
  · obtain ⟨n, -, rfl⟩ := List.mem_map.mp mem
    apply OnlyOverflows.sub

theorem onlyOverflows_flushAdjustments :
  ∀ adjustment ∈ view.flushAdjustments, OnlyOverflows adjustment.amount
  := by
  intro adjustment mem
  obtain ⟨⟨card, i⟩, -, mem⟩ := List.mem_flatMap.mp mem
  dsimp only at mem
  split at mem
  · split at mem
    · obtain rfl := List.mem_singleton.mp mem
      apply OnlyOverflows.ok
    · contradiction
  · obtain ⟨n, -, rfl⟩ := List.mem_map.mp mem
    apply OnlyOverflows.sub

theorem onlyOverflows_effectAdjustments :
  ∀ adjustment ∈ view.effectAdjustments special, OnlyOverflows adjustment.amount
  := by
  rw [effectAdjustments]
  split
  · apply onlyOverflows_changeAdjustments
  · apply onlyOverflows_changeAdjustments
  · apply onlyOverflows_lowAdjustments
  · apply onlyOverflows_lowAdjustments
  · apply onlyOverflows_lowAdjustments
  · apply onlyOverflows_cloneAdjustments
  · apply onlyOverflows_waitAdjustments
  · apply onlyOverflows_flushAdjustments
  · simp
  · simp

theorem onlyOverflows_value (view : View) :
  OnlyOverflows view.value
  := by
  apply (OnlyOverflows.sum _).bind
  intro start
  apply OnlyOverflows.foldlM
  intro adjustment mem value
  apply Adjustment.onlyOverflows_applyTo
  rcases List.mem_append.mp mem with mem | mem
  · obtain ⟨placement, -, mem⟩ := List.mem_flatMap.mp mem
    apply onlyOverflows_marginBonus adjustment mem
  · obtain ⟨special, -, mem⟩ := List.mem_flatMap.mp mem
    rcases List.mem_cons.mp mem with rfl | mem
    · apply OnlyOverflows.ok
    · apply onlyOverflows_effectAdjustments adjustment mem

end View

theorem onlyOverflows_ofIndices (situation : Situation) (settings : PlaySettings)
    (indices : List Nat) (stream : Stream) :
  OnlyOverflows (ofIndices situation settings indices stream)
  := by
  apply (Foresight.onlyOverflows_ofIndices situation indices).bind
  intro foresight
  apply OnlyOverflows.bind
  · apply (View.onlyOverflows_value _).bind
    intro value
    apply OnlyOverflows.ok
  · intro play
    apply OnlyOverflows.ok

end Play

/-! ### Choosing -/

namespace Situation

theorem onlyOverflows_preference (settings : PlaySettings) (special : Special) (card : Card) :
  OnlyOverflows (preference settings special card)
  := by
  rw [preference]
  dsimp only
  split
  · apply (OnlyOverflows.sub ..).bind
    intro base
    split
    · apply OnlyOverflows.add
    · apply OnlyOverflows.ok
  · split
    · apply OnlyOverflows.add
    · apply OnlyOverflows.ok

theorem onlyOverflows_keyed {α : Type} {key : α → Except Fault Int}
    (h : ∀ a, OnlyOverflows (key a)) (as : List α) :
  OnlyOverflows (keyed key as)
  := by
  match as with
  | [] => apply OnlyOverflows.ok
  | [a] => apply OnlyOverflows.ok
  | a :: b :: rest =>
    apply (h b).bind
    intro second
    apply (h a).bind
    intro first
    apply OnlyOverflows.bind
    · apply OnlyOverflows.mapM
      intro c _
      apply (h c).map
    · intro others
      apply OnlyOverflows.ok

theorem onlyOverflows_pickLedBy (situation : Situation) (settings : PlaySettings)
    (seed : List Nat) (leader : Nat) (special : Special) :
  OnlyOverflows (situation.pickLedBy settings seed leader special)
  := by
  apply OnlyOverflows.bind
  · apply OnlyOverflows.bind
    · apply onlyOverflows_keyed
      intro i
      split
      · apply onlyOverflows_preference
      · apply OnlyOverflows.ok
    · intro pairs
      apply OnlyOverflows.ok
  · intro pool
    apply OnlyOverflows.ok

theorem onlyOverflows_ledProposals {situation : Situation} {settings : PlaySettings}
    {seed : List Nat} :
  ∀ proposal ∈ situation.ledProposals settings seed, OnlyOverflows proposal
  := by
  rw [ledProposals]
  intro proposal mem
  split at mem
  · contradiction
  · obtain ⟨leader, -, led⟩ := List.mem_filterMap.mp mem
    obtain ⟨special, -, rfl⟩ := Option.map_eq_some_iff.mp led
    apply (onlyOverflows_pickLedBy ..).map

theorem onlyOverflows_proposals {situation : Situation} {settings : PlaySettings} :
  ∀ proposal ∈ situation.proposals settings, OnlyOverflows proposal
  := by
  have led : ∀ seed, ∀ proposal ∈ situation.ledProposals settings seed
      ++ [.ok (situation.strongestProposal seed)], OnlyOverflows proposal := by
    intro seed proposal mem
    rcases List.mem_append.mp mem with mem | mem
    · apply onlyOverflows_ledProposals proposal mem
    · obtain rfl := List.mem_singleton.mp mem
      apply OnlyOverflows.ok
  rw [proposals]
  intro proposal mem
  rcases List.mem_append.mp mem with mem | mem
  · apply led [] proposal mem
  · split at mem
    · contradiction
    · apply led situation.beaters proposal mem

theorem onlyOverflows_buildAll {situation : Situation} {settings : PlaySettings}
    {proposals : List (Except Fault (Option (List Nat)))}
    (h : ∀ proposal ∈ proposals, OnlyOverflows proposal) (stream : Stream) :
  OnlyOverflows (situation.buildAll settings proposals stream)
  := by
  induction proposals generalizing stream with
  | nil => apply OnlyOverflows.ok
  | cons proposal rest ih =>
    have later : ∀ proposal ∈ rest, OnlyOverflows proposal := by
      intro proposal mem
      apply h proposal (List.mem_cons_of_mem _ mem)
    apply (h proposal List.mem_cons_self).bind
    rintro (_ | indices)
    · apply ih later
    · apply (Play.onlyOverflows_ofIndices ..).bind
      intro built
      apply (ih later _).bind
      intro plays
      apply OnlyOverflows.ok

/-- An analysis has a result unless a number leaves its range. -/
theorem onlyOverflows_analyze (situation : Situation) (settings : PlaySettings) :
  OnlyOverflows (situation.analyze settings)
  := by
  rw [analyze]
  split
  · apply OnlyOverflows.ok
  · apply (onlyOverflows_buildAll onlyOverflows_proposals _).bind
    intro plays
    apply OnlyOverflows.ok

end Situation

end CardDuel
