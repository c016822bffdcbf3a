import CardDuel.Proofs.Aims
import CardDuel.Proofs.Script.Blocks
import Mathlib.Data.List.Forall2
import Mathlib.Data.List.Induction
import Mathlib.Tactic.Common

/-!
# The suits that special cards name

A special card names suits in its application, in the styles of its requirement, in both of them
at every depth for the facing cards too, and in the payload of its effect (`Special.suits`).  Words
are read as suits in several places, but where suits are known each of these yields a known suit in
the spelling of the deck, and never the word itself: `suits_readAim_subset` for applications and
the styles of requirements, `suits_effectOfWords_subset` for effects.  From line to line more suits
become known.  So a special card whose block starts after the first suit names suits of its deck
only: `suits_readDeck_subset`.
-/

namespace CardDuel

/-! ### The suits of a special card -/

/-- The suits that an aim names for the card itself and, at every depth, for the facing card. -/
def Aim.suits : Aim → List String :=
  fold fun scope opposite =>
    scope.suits.getD [] ++ (opposite.map fun tests => tests.leaves.flatten).getD []

/-- The suits that the aims of an application name. -/
def Application.suits (application : Application) : List String :=
  application.leaves.flatMap Aim.suits

/-- The suits that the styles of a requirement name. -/
def Requirement.suits (requirement : Requirement) : List String :=
  requirement.leaves.flatMap fun quota => (quota.style.map Application.suits).getD []

/-- The suits that cards get from an effect. -/
def Effect.suits (effect : Effect) : List String :=
  match effect.payload with
  | .suit suit => [suit]
  | .face face => [face.suit]
  | _ => []

/-- The suits that a special card names. -/
def Special.suits (special : Special) : List String :=
  special.application.suits ++ special.requirement.suits ++ special.effect.suits

theorem Aim.suits_mk (scope : Scope) (opposite : Option Application) :
  suits ⟨scope, opposite⟩
    = scope.suits.getD [] ++ (opposite.map Application.suits).getD []
  := by
  unfold suits
  rw [fold_mk]
  cases opposite with
  | none => rfl
  | some tests =>
    simp only [Option.map_some, Option.getD_some, Condition.leaves_map]
    rw [← List.flatMap_def]
    rfl

/-- What is gathered from the tests of a list of conditions joined into one, if nothing is gathered
from the condition that stands for an empty list. -/
theorem Condition.flatMap_leaves_combineAll {α β : Type} (f : α → List β) (op : Connective)
    (conditions : List (Condition α)) (default : Condition α)
    (none : default.leaves.flatMap f = []) :
  ((combineAll op conditions).getD default).leaves.flatMap f
    = conditions.flatMap fun condition => condition.leaves.flatMap f
  := by
  rcases conditions with _ | ⟨first, rest⟩
  · apply none
  · rw [combineAll, Option.getD_some]
    induction rest generalizing first with
    | nil => simp
    | cons second rest ih =>
      rw [List.foldl_cons, ih, List.flatMap_cons, leaves_combine, List.flatMap_append,
        List.append_assoc, List.flatMap_cons, List.flatMap_cons]

namespace Script

/-- The special card of a finished block names the suits that are named in the block. -/
theorem SpecialDraft.suits_finish (draft : SpecialDraft) (effect : Effect) :
  (draft.finish effect).value.suits
    = draft.applications.flatMap Application.suits
      ++ draft.requirements.flatMap Requirement.suits ++ effect.suits
  := by
  have applications := Condition.flatMap_leaves_combineAll Aim.suits .or draft.applications
    Application.any rfl
  have requirements := Condition.flatMap_leaves_combineAll
    (fun quota : Quota => (quota.style.map Application.suits).getD []) .and draft.requirements
    Requirement.nothing rfl
  unfold Special.suits
  congr 2

/-! ### Reading rules where suits are known -/

section

variable {known : List String} (listed : known ≠ [])
include listed

/-- A word stands for a known suit. -/
theorem mem_of_suitOf {word suit : String} (h : suitOf known word = some suit) :
  suit ∈ known
  := by
  rw [suitOf, if_neg fun none => listed (List.isEmpty_iff.mp none)] at h
  apply List.mem_of_find?_eq_some h

theorem value_readSuit_subset {suits : List String} (inside : suits ⊆ known) (word : String) :
  (readSuit known suits word).value ⊆ known
  := by
  unfold readSuit
  split
  · rename_i suit named _
    apply List.append_subset.mpr
    exact ⟨inside, by simpa using mem_of_suitOf listed named⟩
  · apply inside

end

/-- A bound changes no suits. -/
theorem suits_of_bounded {scope next : Scope} {operator : String} {n : Int}
    (h : bounded scope operator n = .ok (some next)) :
  next.suits = scope.suits
  := by
  unfold bounded at h
  split at h
  case h_1 | h_3 =>
    obtain ⟨bound, -, h⟩ := Checked.map_eq_ok_iff.mp h
    obtain rfl := Option.some.inj h
    rfl
  case h_7 => cases h
  all_goals
    obtain rfl := Option.some.inj (Except.ok.inj h)
    rfl

theorem suits_of_readBound {scope : Scope} {operator operand : String} {bound : Reading Scope}
    (h : readBound scope operator operand = .ok bound) :
  bound.value.suits = scope.suits
  := by
  unfold readBound at h
  split at h
  · obtain rfl := Except.ok.inj h
    rfl
  · obtain ⟨next, bounded, h⟩ := Checked.bind_eq_ok_iff.mp h
    cases next with
    | none =>
      obtain rfl := Except.ok.inj h
      rfl
    | some next =>
      obtain rfl := Except.ok.inj h
      apply suits_of_bounded bounded

/-- A finished aim names the suits that were met and those of the opposing aim. -/
theorem suits_finishAim_subset {known suits : List String} {scope : Scope}
    {opposite : Option Application} (fresh : scope.suits = none) (inside : suits ⊆ known)
    (below : ∀ tests ∈ opposite, tests.suits ⊆ known) :
  (finishAim scope suits opposite).suits ⊆ known
  := by
  unfold finishAim
  rw [Aim.suits_mk]
  apply List.append_subset.mpr
  constructor
  · split
    · simp [fresh]
    · apply inside
  · cases opposite with
    | none => apply List.nil_subset
    | some tests => apply below tests rfl

section

variable {known : List String} (listed : known ≠ [])
include listed

/-- At every depth an aim names known suits. -/
theorem suits_readAim_subset {scope : Scope} {suits : List String} {awaited : Option String}
    {words : List String} {aim : Reading Aim} (fresh : scope.suits = none) (inside : suits ⊆ known)
    (read : readAim known scope suits awaited words = .ok aim) :
  aim.value.suits ⊆ known
  := by
  fun_induction readAim known scope suits awaited words generalizing aim
  case case1 | case6 =>
    obtain rfl := Except.ok.inj read
    apply suits_finishAim_subset fresh inside (by simp)
  case case2 ih | case9 ih =>
    obtain ⟨bound, bounded, read⟩ := Checked.bind_eq_ok_iff.mp read
    obtain ⟨rest, found, read⟩ := Checked.bind_eq_ok_iff.mp read
    obtain rfl := Except.ok.inj read
    apply ih bound ((suits_of_readBound bounded).trans fresh) inside found
  case case3 ih | case4 ih | case5 ih | case8 ih => apply ih fresh inside read
  case case7 ih =>
    obtain ⟨opposite, found, read⟩ := Checked.bind_eq_ok_iff.mp read
    obtain rfl := Except.ok.inj read
    apply suits_finishAim_subset fresh inside
    rintro tests ⟨⟩
    have below := ih rfl (List.nil_subset known) found
    simpa [Application.suits] using below
  case case10 word _ _ ih =>
    obtain ⟨rest, found, read⟩ := Checked.bind_eq_ok_iff.mp read
    obtain rfl := Except.ok.inj read
    apply ih fresh (value_readSuit_subset listed inside word) found

theorem suits_applicationOfWords_subset {words : List String} {application : Reading Application}
    (read : applicationOfWords known words = .ok application) :
  application.value.suits ⊆ known
  := by
  obtain ⟨aim, found, read⟩ := Checked.bind_eq_ok_iff.mp read
  obtain rfl := Except.ok.inj read
  have inside := suits_readAim_subset listed rfl (List.nil_subset known) found
  simpa [Application.suits, Reading.map] using inside

theorem suits_requirementOfWords_subset {words : List String} {requirement : Reading Requirement}
    (read : requirementOfWords known words = .ok requirement) :
  requirement.value.suits ⊆ known
  := by
  unfold requirementOfWords at read
  split at read
  · obtain rfl := Except.ok.inj read
    apply List.nil_subset
  · dsimp only at read
    split at read
    · obtain rfl := Except.ok.inj read
      apply List.nil_subset
    · obtain rfl := Except.ok.inj read
      apply List.nil_subset
    · obtain ⟨style, found, read⟩ := Checked.bind_eq_ok_iff.mp read
      obtain rfl := Except.ok.inj read
      have inside := suits_applicationOfWords_subset listed found
      simpa [Requirement.suits, Requirement.counting, Reading.map] using inside

/-- A replacement gives cards known suits. -/
theorem suits_replacement_subset {words : List String} {payload : Effect.Payload}
    (read : replacement known words = some payload) (kind : Effect.Kind) :
  Effect.suits ⟨kind, payload⟩ ⊆ known
  := by
  unfold replacement at read
  split at read
  · split at read
    · obtain ⟨suit, named, rfl⟩ := Option.map_eq_some_iff.mp read
      simpa [Effect.suits] using mem_of_suitOf listed named
    · -- a word that is not a known suit can only be a value
      rw [if_neg fun none => listed (List.isEmpty_iff.mp none)] at read
      split at read
      · obtain rfl := Option.some.inj read
        apply List.nil_subset
      · cases read
  · split at read
    · rename_i suit _ named _
      obtain rfl := Option.some.inj read
      simpa [Effect.suits] using mem_of_suitOf listed named
    · cases read
  · cases read

/-- Only replacements give cards a suit. -/
theorem suits_payloadOf_subset {kind : Effect.Kind} {words : List String}
    {payload : Effect.Payload} (read : payloadOf known kind words = some payload) :
  Effect.suits ⟨kind, payload⟩ ⊆ known
  := by
  cases kind
  case replace => apply suits_replacement_subset listed read .replace
  case buff =>
    rw [payloadOf] at read
    unfold buffPayload at read
    split at read
    · cases read
    · split at read
      case h_4 => cases read
      all_goals
        obtain rfl := Option.some.inj read
        apply List.nil_subset
  case multiply =>
    rw [payloadOf] at read
    unfold factorPayload at read
    split at read
    · cases read
    · obtain ⟨factor, -, rfl⟩ := Option.map_eq_some_iff.mp read
      apply List.nil_subset
  case randomize =>
    rw [payloadOf] at read
    unfold fieldPayload at read
    split at read
    · obtain rfl := Option.some.inj read
      apply List.nil_subset
    · split at read
      case h_5 => cases read
      all_goals
        obtain rfl := Option.some.inj read
        apply List.nil_subset
  all_goals
    obtain rfl := Option.some.inj read
    apply List.nil_subset

theorem suits_effectOfWords_subset (words : List String) :
  (effectOfWords known words).value.suits ⊆ known
  := by
  unfold effectOfWords
  split
  · apply List.nil_subset
  · split
    · apply List.nil_subset
    · split
      · rename_i payload read
        apply suits_payloadOf_subset listed read
      · apply List.nil_subset

end

/-- Where suits are known at a line, the requirement that it describes names only them. -/
theorem DeckLine.suits_requirement_subset {entry : DeckLine} (listed : entry.known ≠ [])
    {requirement : Requirement} (read : entry.requirement = .ok requirement) :
  requirement.suits ⊆ entry.known
  := by
  obtain ⟨reading, found, rfl⟩ := Checked.map_eq_ok_iff.mp read
  apply suits_requirementOfWords_subset listed found

theorem DeckLine.suits_application_subset {entry : DeckLine} (listed : entry.known ≠ [])
    {application : Application} (read : entry.application = .ok application) :
  application.suits ⊆ entry.known
  := by
  obtain ⟨reading, found, rfl⟩ := Checked.map_eq_ok_iff.mp read
  apply suits_applicationOfWords_subset listed found

/-! ### Suits become known from line to line -/

theorem declaredSuits_subset_concat (lines : List TaggedLine) (line : TaggedLine) :
  declaredSuits lines ⊆ declaredSuits (lines ++ [line])
  := by
  rw [declaredSuits_concat]
  split
  · apply List.subset_append_left
  · apply List.Subset.refl

/-- Suits are known after some lines exactly if one of them declares a suit. -/
theorem declaredSuits_ne_nil_iff {lines : List TaggedLine} :
  declaredSuits lines ≠ [] ↔ ∃ line ∈ lines, line.tag = "SUIT" ∧ line.value ≠ ""
  := by
  have erased (suits : List String) : suits.eraseDups = [] ↔ suits = [] := by
    cases suits <;> simp [List.eraseDups_cons]
  rw [declaredSuits, Ne, erased, List.filterMap_eq_nil_iff]
  simp

/-- Suits that are known at a line of a text are declared in it. -/
theorem known_subset_of_mem_deckLines {lines : List TaggedLine} {entry : DeckLine}
    (mem : entry ∈ deckLines lines) :
  entry.known ⊆ declaredSuits lines
  := by
  induction lines using List.reverseRecOn with
  | nil => cases mem
  | append_singleton lines line ih =>
    rw [deckLines_concat, List.mem_append, List.mem_singleton] at mem
    have more := declaredSuits_subset_concat lines line
    rcases mem with before | rfl
    · apply List.Subset.trans (ih before) more
    · apply more

/-- What is known at a line is still known at the lines after it. -/
theorem pairwise_deckLines (lines : List TaggedLine) :
  (deckLines lines).Pairwise fun before after => before.known ⊆ after.known
  := by
  induction lines using List.reverseRecOn with
  | nil => exact .nil
  | append_singleton lines line ih =>
    rw [deckLines_concat, List.pairwise_append]
    refine ⟨ih, List.pairwise_singleton .., ?_⟩
    intro entry mem last here
    obtain rfl := List.mem_singleton.mp here
    apply known_subset_of_mem_deckLines mem

/-! ### The lines of a block -/

/-- The lines of an open block stand in the text, in the same order. -/
theorem openBlock_sublist (entries : List DeckLine) :
  (openBlock entries).Sublist entries
  := by
  induction entries using List.reverseRecOn with
  | nil => exact .slnil
  | append_singleton entries entry ih =>
    rw [openBlock_concat, extendBlock]
    split
    · apply List.nil_sublist
    · split
      · apply List.sublist_append_right
      · apply ih.append_right

/-- So do the lines of a finished block and its effect. -/
theorem sublist_of_mem_blocks {lines : List TaggedLine} {block : Block}
    (mem : block ∈ blocks lines) :
  (block.lines ++ [block.effect]).Sublist (deckLines lines)
  := by
  induction lines using List.reverseRecOn with
  | nil => cases mem
  | append_singleton lines line ih =>
    rw [blocks_concat, List.mem_append] at mem
    rw [deckLines_concat]
    rcases mem with before | last
    · apply (ih before).trans (List.sublist_append_left ..)
    · split at last
      · obtain rfl := List.mem_singleton.mp last
        apply (openBlock_sublist _).append_right _
      · cases last

/-- The line with which the block of a special card starts, its effect if nothing else is said about
the card. -/
def Block.start (block : Block) : DeckLine :=
  (block.lines.find? DeckLine.isOfSpecial).getD block.effect

/-- What is known where a block starts is known at all its lines about the special card. -/
theorem Block.known_start_subset {lines : List TaggedLine} {block : Block}
    (mem : block ∈ blocks lines) :
  (∀ entry ∈ block.lines, entry.isOfSpecial = true → block.start.known ⊆ entry.known)
    ∧ block.start.known ⊆ block.effect.known
  := by
  have growing := (pairwise_deckLines lines).sublist (sublist_of_mem_blocks mem)
  obtain ⟨within, -, toEffect⟩ := List.pairwise_append.mp growing
  unfold start
  cases first : block.lines.find? DeckLine.isOfSpecial with
  | none =>
    constructor
    · intro entry inside special
      exact absurd special (List.find?_eq_none.mp first entry inside)
    · apply List.Subset.refl
  | some start =>
    obtain ⟨-, before, after, split, foreign⟩ := List.find?_eq_some_iff_append.mp first
    constructor
    · rw [split] at within ⊢
      obtain ⟨-, within, -⟩ := List.pairwise_append.mp within
      intro entry inside special
      rcases List.mem_append.mp inside with earlier | later
      · have none := foreign entry earlier
        simp [special] at none
      · rcases List.mem_cons.mp later with rfl | later
        · apply List.Subset.refl
        · apply List.rel_of_pairwise_cons within later
    · apply toEffect start _ block.effect List.mem_cons_self
      rw [split]
      simp

/-! ### Deck texts -/

/-- A special card is made of a draft that holds what the lines of the block say. -/
def Block.Makes (block : Block) (special : Special) : Prop :=
  ∃ draft : SpecialDraft, draft.Gathers block.lines
    ∧ special = (draft.finish (readEffect block.effect.known block.effect.line.value).value).value

/-- An effect adds the special card of the pending block to the deck, other lines add none. -/
theorem specials_step {draft : DeckDraft} {line : TaggedLine} {next : Reading DeckDraft}
    (h : draft.step line = .ok next) :
  next.value.deck.specials
    = draft.deck.specials ++ if line.tag = "SPECIAL-EFF" then
        [(draft.pending.finish (readEffect draft.deck.suits line.value).value).value]
      else []
  := by
  rw [DeckDraft.step] at h
  split at h
  case h_1 tag =>
    obtain rfl := Except.ok.inj h
    rw [DeckDraft.value_readSuit]
    simp [tag]
  case h_2 tag =>
    obtain rfl := Except.ok.inj h
    rw [DeckDraft.readName]
    split <;> simp [tag, Reading.clean]
  case h_3 tag =>
    obtain rfl := Except.ok.inj h
    simp [tag, Reading.clean]
  case h_4 tag =>
    obtain ⟨requirement, -, h⟩ := Checked.bind_eq_ok_iff.mp h
    dsimp only at h
    split at h
    all_goals
      obtain rfl := Except.ok.inj h
      simp [tag]
  case h_5 tag =>
    obtain ⟨application, -, h⟩ := Checked.bind_eq_ok_iff.mp h
    obtain rfl := Except.ok.inj h
    simp [tag]
  case h_6 tag =>
    obtain rfl := Except.ok.inj h
    simp [tag, DeckDraft.readEffect]
  case h_7 noEffect =>
    obtain rfl := Except.ok.inj h
    rw [if_neg noEffect, List.append_nil]

/-- Each special card of a deck that is read is made of the lines of its block. -/
theorem makes_of_walk {name : String} {lines : List TaggedLine} {last : Parsed DeckDraft}
    (h : walk DeckDraft.step { deck := { name } } lines = .ok last) :
  List.Forall₂ Block.Makes (blocks lines) last.value.deck.specials
  := by
  induction lines using List.reverseRecOn generalizing last with
  | nil =>
    obtain rfl := Except.ok.inj h
    exact .nil
  | append_singleton lines line ih =>
    obtain ⟨before, next, walked, stepped, same⟩ := exists_step_of_walk_concat h
    have tracks := DeckDraft.Tracks.walk walked
    rw [same, blocks_concat, specials_step stepped]
    apply List.rel_append (ih walked)
    split
    · rw [tracks.suits]
      exact .cons ⟨before.value.pending, tracks.pending, rfl⟩ .nil
    · exact .nil

/-- What is read line by line names certain suits only, if what is read at each line does. -/
theorem flatMap_subset_of_forall₂ {β : Type} {read : DeckLine → Except Fault β}
    {suits : β → List String} {entries : List DeckLine} {items : List β} {declared : List String}
    (h : List.Forall₂ (fun entry item => read entry = .ok item) entries items)
    (each : ∀ entry ∈ entries, ∀ item, read entry = .ok item → suits item ⊆ declared) :
  items.flatMap suits ⊆ declared
  := by
  induction h with
  | nil => apply List.nil_subset
  | cons here _ ih =>
    obtain ⟨first, others⟩ := List.forall_mem_cons.mp each
    rw [List.flatMap_cons]
    apply List.append_subset.mpr
    exact ⟨first _ here, ih others⟩

/-- A special card whose block starts after the first suit names suits of the deck only. -/
theorem Block.Makes.suits_subset {lines : List TaggedLine} {block : Block} {special : Special}
    (made : block.Makes special) (mem : block ∈ blocks lines)
    (listed : block.start.known ≠ []) :
  special.suits ⊆ declaredSuits lines
  := by
  obtain ⟨draft, gathered, rfl⟩ := made
  obtain ⟨within, toEffect⟩ := known_start_subset mem
  have sublist := sublist_of_mem_blocks mem
  have declared (entry) (inside : entry ∈ block.lines ++ [block.effect]) :
      entry.known ⊆ declaredSuits lines :=
    known_subset_of_mem_deckLines (sublist.subset inside)
  have known (entry) (inside : entry ∈ block.lines) (special : entry.isOfSpecial = true) :
      entry.known ≠ [] :=
    fun none => listed (List.subset_nil.mp (none ▸ within entry inside special))
  rw [SpecialDraft.suits_finish]
  apply List.append_subset.mpr
  constructor
  · apply List.append_subset.mpr
    constructor
    · apply flatMap_subset_of_forall₂ gathered.applications
      intro entry mem application read
      obtain ⟨inside, tag⟩ := List.mem_filter.mp mem
      have some := known entry inside (by simp_all [DeckLine.isOfSpecial])
      apply List.Subset.trans (DeckLine.suits_application_subset some read)
      apply declared entry (List.mem_append_left _ inside)
    · apply flatMap_subset_of_forall₂ gathered.requirements
      intro entry mem requirement read
      obtain ⟨inside, tag⟩ := List.mem_filter.mp (List.mem_of_mem_take mem)
      have some := known entry inside (by simp_all [DeckLine.isOfSpecial])
      apply List.Subset.trans (DeckLine.suits_requirement_subset some read)
      apply declared entry (List.mem_append_left _ inside)
  · have some : block.effect.known ≠ [] :=
      fun none => listed (List.subset_nil.mp (none ▸ toEffect))
    apply List.Subset.trans (suits_effectOfWords_subset some _)
    apply declared block.effect (by simp)

/-- Whatever a deck text says, if it is read, each of its special cards whose block starts after at
least one suit names suits of the deck only, in the spelling of the deck. -/
theorem suits_readDeck_subset {name text : String} {parsed : Parsed Deck}
    (h : readDeck name text = .ok parsed) :
  List.Forall₂
    (fun block special =>
      block.start.known ≠ [] → ∀ suit ∈ special.suits, suit ∈ parsed.value.suits)
    (blocks (tokenize text).value) parsed.value.specials
  := by
  obtain ⟨last, walked, h⟩ := Checked.bind_eq_ok_iff.mp h
  obtain rfl := Except.ok.inj h
  have suits := (DeckDraft.Tracks.walk walked).suits
  have made := (List.forall₂_and_left _ _).mpr ⟨fun _ mem => mem, makes_of_walk walked⟩
  apply made.imp
  rintro block special ⟨mem, made⟩ listed suit named
  dsimp only
  rw [suits]
  apply made.suits_subset mem listed named

/-- Suits in other letters than those of the deck, at every place where a special card can name
some. -/
def gossip : String :=
  "[SUIT]Ex\n[SUIT]Boyfriend\n[SPECIAL-REQ]min 1 EX vs boyfriend\n"
    ++ "[SPECIAL-APP]enemy ex, BOYFRIEND vs hand vs Ex\n[SPECIAL-EFF]replace BoyFriend 3"

theorem suits_readDeck_gossip :
  ∃ parsed special, readDeck "Test" gossip = .ok parsed
    ∧ parsed.value.suits = ["Ex", "Boyfriend"]
    ∧ parsed.value.specials = [special]
    ∧ special.suits = ["Ex", "Boyfriend", "Ex", "Ex", "Boyfriend", "Boyfriend"]
    ∧ ∀ suit ∈ special.suits, suit ∈ parsed.value.suits
  := by
  have named : (readDeck "Test" gossip).map (fun parsed =>
      (parsed.value.suits, parsed.value.specials.map Special.suits))
      = .ok (["Ex", "Boyfriend"], [["Ex", "Boyfriend", "Ex", "Ex", "Boyfriend", "Boyfriend"]]) := by
    decide +kernel
  have started : (blocks (tokenize gossip).value).map (·.start.known) = [["Ex", "Boyfriend"]] := by
    decide +kernel
  obtain ⟨parsed, read, named⟩ := Checked.map_eq_ok_iff.mp named
  obtain ⟨suits, specials⟩ := Prod.mk.inj named
  have declared := suits_readDeck_subset read
  obtain ⟨special, _, single, named, none⟩ := List.map_eq_cons_iff.mp specials
  obtain rfl := List.map_eq_nil_iff.mp none
  obtain ⟨block, _, found, start, none⟩ := List.map_eq_cons_iff.mp started
  obtain rfl := List.map_eq_nil_iff.mp none
  rw [found, single] at declared
  cases declared with
  | cons declared _ =>
    refine ⟨parsed, special, read, suits, single, named, declared ?_⟩
    rw [start]
    apply List.cons_ne_nil

end Script
end CardDuel
