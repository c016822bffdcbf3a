import CardDuel.Proofs.Conditions
import CardDuel.Proofs.Reach
import CardDuel.Requirement.Checking
import CardDuel.Script.DeckText
import Mathlib.Data.List.Forall2
import Mathlib.Data.List.Induction
import Mathlib.Tactic.Common

/-!
# The blocks of a deck text

What a deck text says can be told from its tagged lines alone.  Its suits are the values of the suit
lines, and the suits known at a line are those of the lines before it (`DeckLine`).  Each effect
line closes a block, which began after the last effect, or at the name that dropped an unfinished
block (`blocks`).  A deck that is read has exactly these suits and one special card for each block,
whose requirement and application mean what the lines of the block say when each of them is read by
itself: `readDeck_describes`.
-/

namespace CardDuel

namespace Script

/-! ### Lines and what stands before them -/

/-- The elements of a list, each with those before it. -/
def withBefore {α : Type} (as : List α) : List (List α × α) :=
  as.zipIdx.map fun (a, i) => (as.take i, a)

theorem withBefore_concat {α : Type} (as : List α) (a : α) :
  withBefore (as ++ [a]) = withBefore as ++ [(as, a)]
  := by
  unfold withBefore
  rw [List.zipIdx_append, List.map_append]
  congr 1
  · apply List.map_congr_left
    rintro ⟨b, i⟩ mem
    have inside : i < as.length := by simpa using (List.mem_zipIdx mem).2.1
    dsimp only
    rw [List.take_append_of_le_length (Nat.le_of_lt inside)]
  · simp

/-- The suits that lines declare, in the order in which they first occur. -/
def declaredSuits (lines : List TaggedLine) : List String :=
  (lines.filterMap fun line =>
    if line.tag = "SUIT" ∧ line.value ≠ "" then some line.value else none).eraseDups

theorem declaredSuits_concat (lines : List TaggedLine) (line : TaggedLine) :
  declaredSuits (lines ++ [line])
    = if line.tag = "SUIT" ∧ line.value ≠ "" ∧ line.value ∉ declaredSuits lines then
        declaredSuits lines ++ [line.value]
      else declaredSuits lines
  := by
  unfold declaredSuits
  rw [List.filterMap_append, List.eraseDups_append]
  generalize (lines.filterMap fun line =>
    if line.tag = "SUIT" ∧ line.value ≠ "" then some line.value else none) = suits
  by_cases declares : line.tag = "SUIT" ∧ line.value ≠ ""
  · by_cases known : line.value ∈ suits
    · simp [declares, known, List.removeAll]
    · simp [declares, known, List.removeAll, List.eraseDups_cons]
  · rw [if_neg fun h => declares ⟨h.1, h.2.1⟩]
    simp [declares]

/-- A line of a deck text and the suits that are known at it. -/
structure DeckLine where
  known : List String
  line : TaggedLine

/-- The lines of a deck text with the suits that those before them declare. -/
def deckLines (lines : List TaggedLine) : List DeckLine :=
  (withBefore lines).map fun (before, line) => ⟨declaredSuits before, line⟩

theorem deckLines_concat (lines : List TaggedLine) (line : TaggedLine) :
  deckLines (lines ++ [line]) = deckLines lines ++ [⟨declaredSuits lines, line⟩]
  := by
  unfold deckLines
  rw [withBefore_concat, List.map_append]
  rfl

namespace DeckLine

/-- Whether the line says something about a special card before its effect. -/
def isOfSpecial (entry : DeckLine) : Bool :=
  ["SPECIAL-NAME", "SPECIAL-DESC", "SPECIAL-REQ", "SPECIAL-APP"].contains entry.line.tag

/-- The requirement that the line describes by itself. -/
def requirement (entry : DeckLine) : Except Fault Requirement :=
  (readRequirement entry.known entry.line.value).map (·.value)

/-- The application that the line describes by itself. -/
def application (entry : DeckLine) : Except Fault Application :=
  (readApplication entry.known entry.line.value).map (·.value)

end DeckLine

/-! ### Blocks -/

/-- The lines of a block after one more line: an effect closes the block, and a name drops what has
been said about a special card before. -/
def extendBlock (block : List DeckLine) (entry : DeckLine) : List DeckLine :=
  if entry.line.tag = "SPECIAL-EFF" then []
  else if entry.line.tag = "SPECIAL-NAME" ∧ block.any DeckLine.isOfSpecial = true then [entry]
  else block ++ [entry]

/-- The lines of the block that is open after some lines. -/
def openBlock (entries : List DeckLine) : List DeckLine := entries.foldl extendBlock []

theorem openBlock_concat (entries : List DeckLine) (entry : DeckLine) :
  openBlock (entries ++ [entry]) = extendBlock (openBlock entries) entry
  := List.foldl_concat ..

/-- Any other line is added to the block. -/
theorem extendBlock_of_ne {block : List DeckLine} {entry : DeckLine}
    (noEffect : entry.line.tag ≠ "SPECIAL-EFF") (noName : entry.line.tag ≠ "SPECIAL-NAME") :
  extendBlock block entry = block ++ [entry]
  := by rw [extendBlock, if_neg noEffect, if_neg fun name => noName name.1]

/-- The lines about a special card and the effect after them. -/
structure Block where
  lines : List DeckLine
  effect : DeckLine

/-- The blocks of a deck text, one for each effect. -/
def blocks (lines : List TaggedLine) : List Block :=
  ((withBefore (deckLines lines)).filter fun (_, entry) => entry.line.tag = "SPECIAL-EFF").map
    fun (before, entry) => ⟨openBlock before, entry⟩

theorem blocks_concat (lines : List TaggedLine) (line : TaggedLine) :
  blocks (lines ++ [line])
    = blocks lines ++ if line.tag = "SPECIAL-EFF" then
        [⟨openBlock (deckLines lines), ⟨declaredSuits lines, line⟩⟩]
      else []
  := by
  unfold blocks
  rw [deckLines_concat, withBefore_concat, List.filter_append, List.map_append]
  congr 1
  by_cases isEffect : line.tag = "SPECIAL-EFF" <;> simp [isEffect]

/-- The blocks end at the effects of the text. -/
theorem map_line_blocks (lines : List TaggedLine) :
  (blocks lines).map (·.effect.line) = lines.filter fun line => line.tag = "SPECIAL-EFF"
  := by
  induction lines using List.reverseRecOn with
  | nil => rfl
  | append_singleton lines line ih =>
    rw [blocks_concat, List.map_append, ih, List.filter_append]
    by_cases isEffect : line.tag = "SPECIAL-EFF" <;> simp [isEffect]

/-- The lines of a block that bear a tag. -/
def tagged (tag : String) (block : List DeckLine) : List DeckLine :=
  block.filter fun entry => entry.line.tag = tag

theorem tagged_concat (tag : String) (block : List DeckLine) (entry : DeckLine) :
  tagged tag (block ++ [entry])
    = if entry.line.tag = tag then tagged tag block ++ [entry] else tagged tag block
  := by
  unfold tagged
  by_cases same : entry.line.tag = tag <;> simp [same]

/-- What a block says about a special card.  At most three requirements count, and all of them must
be met; any of the applications is enough. -/
structure Block.Describes (block : Block) (special : Special) : Prop where
  name : special.name
    = ((tagged "SPECIAL-NAME" block.lines).getLast?.map (·.line.value)).getD "Unnamed"
  description : special.description
    = ((tagged "SPECIAL-DESC" block.lines).getLast?.map (·.line.value)).getD ""
  requirement : ∀ cards, special.requirement.verify cards = true
    ↔ ∀ entry ∈ (tagged "SPECIAL-REQ" block.lines).take 3,
      ∃ requirement, entry.requirement = .ok requirement ∧ requirement.verify cards = true
  application : ∀ side card facing, special.application.reaches side card facing = true
    ↔ (∃ entry ∈ tagged "SPECIAL-APP" block.lines,
        ∃ application, entry.application = .ok application
          ∧ application.reaches side card facing = true)
      ∨ tagged "SPECIAL-APP" block.lines = []
        ∧ ∃ standard, card = some standard ∧ standard.isSpecial = false
  effect : special.effect = (readEffect block.effect.known block.effect.line.value).value

/-! ### Drafts -/

namespace SpecialDraft

/-- A draft holds what the lines of an open block say. -/
structure Gathers (draft : SpecialDraft) (block : List DeckLine) : Prop where
  started : draft.started = block.any DeckLine.isOfSpecial
  name : draft.name = (tagged "SPECIAL-NAME" block).getLast?.map (·.line.value)
  description : draft.description
    = ((tagged "SPECIAL-DESC" block).getLast?.map (·.line.value)).getD ""
  requirements : List.Forall₂ (fun entry requirement => entry.requirement = .ok requirement)
    ((tagged "SPECIAL-REQ" block).take 3) draft.requirements
  applications : List.Forall₂ (fun entry application => entry.application = .ok application)
    (tagged "SPECIAL-APP" block) draft.applications

namespace Gathers

theorem nil :
  Gathers {} []
  := ⟨rfl, rfl, rfl, .nil, .nil⟩

variable {draft : SpecialDraft} {block : List DeckLine} {entry : DeckLine}

/-- A line that says nothing about special cards. -/
theorem skip (h : draft.Gathers block) (foreign : entry.isOfSpecial = false) :
  draft.Gathers (block ++ [entry])
  := by
  obtain ⟨started, name, description, requirements, applications⟩ := h
  have tags := foreign
  simp only [DeckLine.isOfSpecial, List.contains_eq_mem, decide_eq_false_iff_not, List.mem_cons,
    not_or, List.not_mem_nil] at tags
  constructor
  · simp [started, foreign]
  · simpa [tagged_concat, tags] using name
  · simpa [tagged_concat, tags] using description
  · simpa [tagged_concat, tags] using requirements
  · simpa [tagged_concat, tags] using applications

theorem readName (h : draft.Gathers block) (entry : DeckLine)
    (tag : entry.line.tag = "SPECIAL-NAME") :
  Gathers { draft with name := some entry.line.value, started := true } (block ++ [entry])
  := by
  constructor
  · simp [DeckLine.isOfSpecial, tag]
  · simp [tagged_concat, tag]
  · simpa [tagged_concat, tag] using h.description
  · simpa [tagged_concat, tag] using h.requirements
  · simpa [tagged_concat, tag] using h.applications

theorem readDescription (h : draft.Gathers block) (entry : DeckLine)
    (tag : entry.line.tag = "SPECIAL-DESC") :
  Gathers { draft with started := true, description := entry.line.value } (block ++ [entry])
  := by
  constructor
  · simp [DeckLine.isOfSpecial, tag]
  · simpa [tagged_concat, tag] using h.name
  · simp [tagged_concat, tag]
  · simpa [tagged_concat, tag] using h.requirements
  · simpa [tagged_concat, tag] using h.applications

theorem readApplication (h : draft.Gathers block) (tag : entry.line.tag = "SPECIAL-APP")
    {application : Application} (read : entry.application = .ok application) :
  Gathers { draft with started := true, applications := draft.applications ++ [application] }
    (block ++ [entry])
  := by
  constructor
  · simp [DeckLine.isOfSpecial, tag]
  · simpa [tagged_concat, tag] using h.name
  · simpa [tagged_concat, tag] using h.description
  · simpa [tagged_concat, tag] using h.requirements
  · rw [tagged_concat, if_pos tag]
    apply List.rel_append h.applications (.cons read .nil)

/-- A requirement counts as long as there are less than three. -/
theorem readRequirement (h : draft.Gathers block) (tag : entry.line.tag = "SPECIAL-REQ")
    {requirement : Requirement} (read : entry.requirement = .ok requirement)
    (room : draft.requirements.length ≠ maxRequirements) :
  Gathers { draft with started := true, requirements := draft.requirements ++ [requirement] }
    (block ++ [entry])
  := by
  have few : (tagged "SPECIAL-REQ" block).length + 1 ≤ 3 := by
    have count := h.requirements.length_eq
    rw [List.length_take] at count
    unfold maxRequirements at room
    omega
  constructor
  · simp [DeckLine.isOfSpecial, tag]
  · simpa [tagged_concat, tag] using h.name
  · simpa [tagged_concat, tag] using h.description
  · have requirements := h.requirements
    rw [List.take_of_length_le (Nat.le_of_succ_le few)] at requirements
    rw [tagged_concat, if_pos tag,
      List.take_of_length_le (by rwa [List.length_append, List.length_singleton])]
    apply List.rel_append requirements (.cons read .nil)
  · simpa [tagged_concat, tag] using h.applications

theorem surplusRequirement (h : draft.Gathers block) (entry : DeckLine)
    (tag : entry.line.tag = "SPECIAL-REQ") (full : draft.requirements.length = maxRequirements) :
  Gathers { draft with started := true } (block ++ [entry])
  := by
  have many : 3 ≤ (tagged "SPECIAL-REQ" block).length := by
    have count := h.requirements.length_eq
    rw [List.length_take, full] at count
    unfold maxRequirements at count
    omega
  constructor
  · simp [DeckLine.isOfSpecial, tag]
  · simpa [tagged_concat, tag] using h.name
  · simpa [tagged_concat, tag] using h.description
  · rw [tagged_concat, if_pos tag, List.take_append_of_le_length many]
    apply h.requirements
  · simpa [tagged_concat, tag] using h.applications

end Gathers

/-! ### Finished blocks -/

section

variable {α β : Type} {read : α → Except Fault β} {as : List α} {bs : List β}

/-- All that was read passes a test exactly if whatever is read by itself does. -/
theorem all_iff_of_forall₂ (h : List.Forall₂ (fun a b => read a = .ok b) as bs)
    (test : β → Bool) :
  bs.all test = true ↔ ∀ a ∈ as, ∃ b, read a = .ok b ∧ test b = true
  := by
  induction h with
  | nil => simp
  | cons here _ ih => simp [here, ih]

theorem any_iff_of_forall₂ (h : List.Forall₂ (fun a b => read a = .ok b) as bs)
    (test : β → Bool) :
  bs.any test = true ↔ ∃ a ∈ as, ∃ b, read a = .ok b ∧ test b = true
  := by
  induction h with
  | nil => simp
  | cons here _ ih => simp [here, ih]

end

/-- The requirements of a finished block must all be met. -/
theorem verify_finish (draft : SpecialDraft) (effect : Effect) (cards : List Card) :
  (draft.finish effect).value.requirement.verify cards
    = draft.requirements.all fun requirement => requirement.verify cards
  := by
  have verified := Condition.eval_getD_combineAll (fun quota : Quota => quota.verify cards) .and
    draft.requirements Requirement.nothing
  rw [Condition.eval_join] at verified
  apply verified.trans
  split
  · rename_i none
    rw [none]
    rfl
  · rfl

/-- Any application of a finished block is enough; without one, every standard card is reached. -/
theorem reaches_finish (draft : SpecialDraft) (effect : Effect) (side : Side)
    (card facing : Option Card) :
  (draft.finish effect).value.application.reaches side card facing
    = if draft.applications = [] then Application.any.reaches side card facing
      else draft.applications.any fun application => application.reaches side card facing
  := by
  have reached := Condition.eval_getD_combineAll (fun aim : Aim => aim.accepts side card facing) .or
    draft.applications Application.any
  rw [Condition.eval_join] at reached
  apply reached

theorem reaches_any_iff {side : Side} {card facing : Option Card} :
  Application.any.reaches side card facing = true
    ↔ ∃ standard, card = some standard ∧ standard.isSpecial = false
  := by
  rw [Application.any, Application.reaches, Condition.eval_test]
  cases card with
  | none => simp
  | some card =>
    rw [Aim.accepts_some]
    simp [Aim.ofScope, Aim.scope, Aim.opposite, Scope.admits, Scope.admitsFace, Alignment.admits]

/-- The special card of a finished block is what the block describes. -/
theorem Gathers.describes {draft : SpecialDraft} {block : List DeckLine} (h : draft.Gathers block)
    (effect : DeckLine) :
  Block.Describes ⟨block, effect⟩
    (draft.finish (readEffect effect.known effect.line.value).value).value
  where
  name := by
    rw [← h.name]
    rfl
  description := h.description
  requirement cards := by
    rw [verify_finish]
    apply all_iff_of_forall₂ h.requirements
  application side card facing := by
    rw [reaches_finish]
    have applications := h.applications
    by_cases none : tagged "SPECIAL-APP" block = []
    · rw [none] at applications
      rw [if_pos (List.forall₂_nil_left_iff.mp applications), reaches_any_iff, none]
      simp
    · have some : draft.applications ≠ [] := by
        intro empty
        rw [empty] at applications
        apply none (List.forall₂_nil_right_iff.mp applications)
      rw [if_neg some, any_iff_of_forall₂ applications]
      simp [none]
  effect := rfl

end SpecialDraft

/-! ### Deck texts -/

/-- Where a walk along one more line ends. -/
theorem exists_step_of_walk_concat {σ : Type} {step : σ → TaggedLine → Except Fault (Reading σ)}
    {state : σ} {lines : List TaggedLine} {line : TaggedLine} {last : Parsed σ}
    (h : walk step state (lines ++ [line]) = .ok last) :
  ∃ before next, walk step state lines = .ok before ∧ step before.value line = .ok next
    ∧ last.value = next.value
  := by
  induction lines generalizing state last with
  | nil =>
    obtain ⟨next, stepped, h⟩ := Checked.bind_eq_ok_iff.mp h
    obtain rfl := Except.ok.inj h
    exact ⟨⟨state, []⟩, next, rfl, stepped, rfl⟩
  | cons first rest ih =>
    obtain ⟨next, stepped, h⟩ := Checked.bind_eq_ok_iff.mp h
    obtain ⟨later, walked, h⟩ := Checked.bind_eq_ok_iff.mp h
    obtain rfl := Except.ok.inj h
    obtain ⟨before, next', walked', stepped', same⟩ := ih walked
    refine ⟨⟨before.value, warningsAt first.number next.defects ++ before.warnings⟩, next', ?_,
      stepped', same⟩
    rw [walk, stepped, Checked.ok_bind, walked', Checked.ok_bind]
    rfl

namespace DeckDraft

/-- A draft holds what the lines read so far say. -/
structure Tracks (draft : DeckDraft) (lines : List TaggedLine) : Prop where
  suits : draft.deck.suits = declaredSuits lines
  specials : List.Forall₂ Block.Describes (blocks lines) draft.deck.specials
  pending : draft.pending.Gathers (openBlock (deckLines lines))

variable {draft : DeckDraft} {lines : List TaggedLine} {line : TaggedLine}

theorem tracks_nil (name : String) :
  Tracks { deck := { name } } []
  := ⟨rfl, .nil, .nil⟩

/-- A suit is added to the deck if it is not empty and not yet known. -/
theorem value_readSuit (draft : DeckDraft) (suit : String) :
  (draft.readSuit suit).value
    = { draft with
        deck := { draft.deck with
          suits := if suit ≠ "" ∧ suit ∉ draft.deck.suits then draft.deck.suits ++ [suit]
            else draft.deck.suits } }
  := by
  unfold readSuit
  by_cases empty : suit = ""
  · simp [empty]
  · by_cases known : suit ∈ draft.deck.suits
    · simp [empty, known]
    · simp [empty, known, Reading.clean]

namespace Tracks

/-- A line that is neither a suit nor an effect. -/
theorem extend (h : draft.Tracks lines) {pending : SpecialDraft} (noSuit : line.tag ≠ "SUIT")
    (noEffect : line.tag ≠ "SPECIAL-EFF")
    (gathers : pending.Gathers (extendBlock (openBlock (deckLines lines))
      ⟨declaredSuits lines, line⟩)) :
  Tracks { draft with pending } (lines ++ [line])
  where
  suits := by
    rw [declaredSuits_concat, if_neg fun declares => noSuit declares.1]
    apply h.suits
  specials := by
    rw [blocks_concat, if_neg noEffect, List.append_nil]
    apply h.specials
  pending := by
    rw [deckLines_concat, openBlock_concat]
    apply gathers

/-- A line with an unknown tag. -/
theorem skip (h : draft.Tracks lines) (noSuit : line.tag ≠ "SUIT")
    (noEffect : line.tag ≠ "SPECIAL-EFF")
    (foreign : DeckLine.isOfSpecial ⟨declaredSuits lines, line⟩ = false) :
  draft.Tracks (lines ++ [line])
  := by
  apply h.extend noSuit noEffect
  rw [extendBlock_of_ne noEffect]
  · apply h.pending.skip foreign
  · rintro (name : line.tag = _)
    simp [DeckLine.isOfSpecial, name] at foreign

theorem readSuit (h : draft.Tracks lines) (tag : line.tag = "SUIT") :
  (draft.readSuit line.value).value.Tracks (lines ++ [line])
  := by
  have noEffect : line.tag ≠ "SPECIAL-EFF" := by simp [tag]
  rw [value_readSuit]
  constructor
  · rw [declaredSuits_concat, ← h.suits]
    simp only [tag, true_and]
  · rw [blocks_concat, if_neg noEffect, List.append_nil]
    apply h.specials
  · rw [deckLines_concat, openBlock_concat, extendBlock_of_ne noEffect (by simp [tag])]
    apply h.pending.skip
    simp [DeckLine.isOfSpecial, tag]

theorem readName (h : draft.Tracks lines) (tag : line.tag = "SPECIAL-NAME") :
  (draft.readName line.value).value.Tracks (lines ++ [line])
  := by
  have started := h.pending.started
  rw [DeckDraft.readName]
  split
  · rename_i unfinished
    apply h.extend (by simp [tag]) (by simp [tag])
    rw [extendBlock, if_neg (by simp [tag]), if_pos ⟨tag, started.symm.trans unfinished⟩]
    apply SpecialDraft.Gathers.nil.readName ⟨declaredSuits lines, line⟩ tag
  · rename_i fresh
    apply h.extend (by simp [tag]) (by simp [tag])
    rw [extendBlock, if_neg (by simp [tag]), if_neg fun name => fresh (started.trans name.2)]
    apply h.pending.readName ⟨declaredSuits lines, line⟩ tag

theorem readDescription (h : draft.Tracks lines) (tag : line.tag = "SPECIAL-DESC") :
  Tracks
    { draft with pending := { draft.pending with started := true, description := line.value } }
    (lines ++ [line])
  := by
  apply h.extend (by simp [tag]) (by simp [tag])
  rw [extendBlock_of_ne (by simp [tag]) (by simp [tag])]
  apply h.pending.readDescription ⟨declaredSuits lines, line⟩ tag

theorem readRequirement (h : draft.Tracks lines) (tag : line.tag = "SPECIAL-REQ")
    {next : Reading DeckDraft} (read : draft.readRequirement line.value = .ok next) :
  next.value.Tracks (lines ++ [line])
  := by
  obtain ⟨requirement, alone, read⟩ := Checked.bind_eq_ok_iff.mp read
  rw [h.suits] at alone
  have described : DeckLine.requirement ⟨declaredSuits lines, line⟩ = .ok requirement.value := by
    rw [DeckLine.requirement, alone]
    rfl
  dsimp only at read
  split at read
  · rename_i full
    obtain rfl := Except.ok.inj read
    apply h.extend (by simp [tag]) (by simp [tag])
    rw [extendBlock_of_ne (by simp [tag]) (by simp [tag])]
    apply h.pending.surplusRequirement ⟨declaredSuits lines, line⟩ tag full
  · rename_i room
    obtain rfl := Except.ok.inj read
    apply h.extend (by simp [tag]) (by simp [tag])
    rw [extendBlock_of_ne (by simp [tag]) (by simp [tag])]
    apply h.pending.readRequirement tag described room

theorem readApplication (h : draft.Tracks lines) (tag : line.tag = "SPECIAL-APP")
    {next : Reading DeckDraft} (read : draft.readApplication line.value = .ok next) :
  next.value.Tracks (lines ++ [line])
  := by
  obtain ⟨application, alone, read⟩ := Checked.bind_eq_ok_iff.mp read
  rw [h.suits] at alone
  have described : DeckLine.application ⟨declaredSuits lines, line⟩ = .ok application.value := by
    rw [DeckLine.application, alone]
    rfl
  obtain rfl := Except.ok.inj read
  apply h.extend (by simp [tag]) (by simp [tag])
  rw [extendBlock_of_ne (by simp [tag]) (by simp [tag])]
  apply h.pending.readApplication tag described

theorem readEffect (h : draft.Tracks lines) (tag : line.tag = "SPECIAL-EFF") :
  (draft.readEffect line.value).value.Tracks (lines ++ [line])
  where
  suits := by
    rw [declaredSuits_concat, if_neg (by simp [tag])]
    apply h.suits
  specials := by
    rw [blocks_concat, if_pos tag]
    apply List.rel_append h.specials
    have described := h.pending.describes ⟨declaredSuits lines, line⟩
    rw [← h.suits] at described ⊢
    exact .cons described .nil
  pending := by
    rw [deckLines_concat, openBlock_concat, extendBlock, if_pos tag]
    apply SpecialDraft.Gathers.nil

/-- What a draft holds after a line is what the lines up to it say. -/
theorem step (h : draft.Tracks lines) {next : Reading DeckDraft}
    (stepped : draft.step line = .ok next) :
  next.value.Tracks (lines ++ [line])
  := by
  rw [DeckDraft.step] at stepped
  split at stepped
  case h_1 tag =>
    obtain rfl := Except.ok.inj stepped
    apply h.readSuit tag
  case h_2 tag =>
    obtain rfl := Except.ok.inj stepped
    apply h.readName tag
  case h_3 tag =>
    obtain rfl := Except.ok.inj stepped
    apply h.readDescription tag
  case h_4 tag => apply h.readRequirement tag stepped
  case h_5 tag => apply h.readApplication tag stepped
  case h_6 tag =>
    obtain rfl := Except.ok.inj stepped
    apply h.readEffect tag
  case h_7 noSuit noName noDescription noRequirement noApplication noEffect =>
    obtain rfl := Except.ok.inj stepped
    apply h.skip noSuit noEffect
    simp_all [DeckLine.isOfSpecial]

/-- So it is after all lines. -/
theorem walk {name : String} {lines : List TaggedLine} {last : Parsed DeckDraft}
    (h : Script.walk DeckDraft.step { deck := { name } } lines = .ok last) :
  last.value.Tracks lines
  := by
  induction lines using List.reverseRecOn generalizing last with
  | nil =>
    obtain rfl := Except.ok.inj h
    apply tracks_nil
  | append_singleton lines line ih =>
    obtain ⟨before, next, walked, stepped, same⟩ := exists_step_of_walk_concat h
    rw [same]
    apply (ih walked).step stepped

end Tracks
end DeckDraft

/-- A deck that is read has the suits that the text declares, in the order in which they first
occur, and for each effect line of the text the special card that the block before it describes. -/
theorem readDeck_describes {name text : String} {parsed : Parsed Deck}
    (h : readDeck name text = .ok parsed) :
  parsed.value.suits = declaredSuits (tokenize text).value
  ∧ (blocks (tokenize text).value).map (·.effect.line)
    = (tokenize text).value.filter (fun line => line.tag = "SPECIAL-EFF")
  ∧ List.Forall₂ Block.Describes (blocks (tokenize text).value) parsed.value.specials
  := by
  obtain ⟨last, walked, h⟩ := Checked.bind_eq_ok_iff.mp h
  obtain rfl := Except.ok.inj h
  have tracks := DeckDraft.Tracks.walk walked
  exact ⟨tracks.suits, map_line_blocks _, tracks.specials⟩

/-- A requirement that is dropped, a suit that becomes known in the middle of a block, and a block
of nothing but an effect. -/
def diary : String :=
  "[SUIT]Ex\n[SPECIAL-REQ]min 1 Ex\n[SPECIAL-NAME]Fog\n[SPECIAL-APP]>5 ex\n[SUIT]Boyfriend\n"
    ++ "[SUIT]Ex\n[SPECIAL-APP]boyfriend\n[SPECIAL-EFF]BUFF 1\n[SPECIAL-EFF]KISS"

theorem readDeck_diary :
  ∃ parsed fog kiss, readDeck "Test" diary = .ok parsed
    ∧ parsed.value.suits = ["Ex", "Boyfriend"]
    ∧ parsed.value.specials = [fog, kiss]
    ∧ fog.name = "Fog"
    ∧ (∀ cards, fog.requirement.verify cards = true)
    ∧ ∀ side card facing, kiss.application.reaches side card facing = true
      ↔ ∃ standard, card = some standard ∧ standard.isSpecial = false
  := by
  have suits : (readDeck "Test" diary).map (·.value.suits) = .ok ["Ex", "Boyfriend"] := by
    decide +kernel
  have counted : (blocks (tokenize diary).value).map (fun block =>
      ((tagged "SPECIAL-NAME" block.lines).map (·.line.value),
        (tagged "SPECIAL-REQ" block.lines).length, (tagged "SPECIAL-APP" block.lines).length))
      = [(["Fog"], 0, 2), ([], 0, 0)] := by
    decide +kernel
  obtain ⟨parsed, read, suits⟩ := Checked.map_eq_ok_iff.mp suits
  obtain ⟨-, -, described⟩ := readDeck_describes read
  generalize blocks (tokenize diary).value = found at counted described
  obtain ⟨first, _, rfl, named, counted⟩ := List.map_eq_cons_iff.mp counted
  obtain ⟨second, _, rfl, unnamed, counted⟩ := List.map_eq_cons_iff.mp counted
  obtain rfl := List.map_eq_nil_iff.mp counted
  obtain ⟨fog, _, fogDescribed, later, specials⟩ := List.forall₂_cons_left_iff.mp described
  obtain ⟨kiss, _, kissDescribed, none, rfl⟩ := List.forall₂_cons_left_iff.mp later
  obtain rfl := List.forall₂_nil_left_iff.mp none
  simp only [Prod.mk.injEq, List.length_eq_zero_iff] at named unnamed
  refine ⟨parsed, fog, kiss, read, suits, specials, ?_, ?_, ?_⟩
  · rw [fogDescribed.name, ← List.getLast?_map, named.1]
    rfl
  · intro cards
    rw [fogDescribed.requirement, named.2.1]
    simp
  · intro side card facing
    rw [kissDescribed.application, unnamed.2.2]
    simp

end Script
end CardDuel
