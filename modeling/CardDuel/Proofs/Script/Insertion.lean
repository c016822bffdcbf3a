import CardDuel.Proofs.Script.Lines
import CardDuel.Script.DeckText
import CardDuel.Script.GoalText

/-!
# Lines put into files

A `Dialect` reads a file by carrying a state along its tagged lines.  It looks at no line numbers,
and a line with a tag that it does not know leaves its state alone.  So a line that carries no
known tag can be put anywhere into a file: the same is read, with one defect more, or with none if
the line is blank (`inserted_line`).
-/

namespace CardDuel

namespace Checked

variable {α β γ δ : Type}

/-- Both computations succeed, with results that stand in a relation, or both fail with the same
fault. -/
def Agree (R : α → β → Prop) : Except Fault α → Except Fault β → Prop
  | .ok a, .ok b => R a b
  | .error fault, .error fault' => fault = fault'
  | _, _ => False

/-- Images agree if they are related for related results. -/
theorem Agree.map {R : α → β → Prop} {S : γ → δ → Prop} {x : Except Fault α}
    {y : Except Fault β} (h : Agree R x y) {f : α → γ} {g : β → δ}
    (next : ∀ a b, R a b → S (f a) (g b)) :
  Agree S (x.map f) (y.map g)
  := by
  cases x <;> cases y
  · exact h
  · exact h.elim
  · exact h.elim
  · exact next _ _ h

theorem Agree.map_right {R : α → β → Prop} {S : α → δ → Prop} {x : Except Fault α}
    {y : Except Fault β} (h : Agree R x y) {g : β → δ} (next : ∀ a b, R a b → S a (g b)) :
  Agree S x (y.map g)
  := by
  cases x <;> cases y
  · exact h
  · exact h.elim
  · exact h.elim
  · exact next _ _ h

end Checked

namespace Script

open Checked Text

/-! ### Files without line numbers -/

/-- The new list is the old one with one element put in. -/
def OneMore {α : Type} (old new : List α) : Prop :=
  List.Sublist old new ∧ new.length = old.length + 1

theorem oneMore_insert {α : Type} (first : List α) (a : α) (last : List α) :
  OneMore (first ++ last) (first ++ a :: last)
  := by
  constructor
  · exact (List.sublist_cons_self a last).append_left first
  · simp only [List.length_append, List.length_cons]
    omega

theorem OneMore.within {α : Type} {old new : List α} (h : OneMore old new) (first last : List α) :
  OneMore (first ++ old ++ last) (first ++ new ++ last)
  := by
  obtain ⟨kept, more⟩ := h
  constructor
  · exact (kept.append_left first).append_right last
  · simp only [List.length_append, more]
    omega

namespace Parsed

variable {α β : Type}

/-- The defects of a file, without the numbers of their lines. -/
def defects (parsed : Parsed α) : List Defect := parsed.warnings.map (·.defect)

/-- The same value is read from both files, with the same defects. -/
def Same (old new : Parsed α) : Prop :=
  new.value = old.value ∧ new.defects = old.defects

/-- The same value is read from both files, and the new one has the defects of the old one and one
more. -/
def Gains (old new : Parsed α) : Prop :=
  new.value = old.value ∧ OneMore old.defects new.defects

/-- What is made of a parsed value, with further warnings before and after its own. -/
def within (parsed : Parsed α) (image : α → β) (before after : List Warning) : Parsed β :=
  ⟨image parsed.value, before ++ parsed.warnings ++ after⟩

theorem within_nil (parsed : Parsed α) :
  parsed.within id [] [] = parsed
  := by simp [within]

theorem Same.within {old new : Parsed α} (h : old.Same new) (image : α → β)
    {before before' after after' : List Warning}
    (sameBefore : before'.map (·.defect) = before.map (·.defect))
    (sameAfter : after'.map (·.defect) = after.map (·.defect)) :
  (old.within image before after).Same (new.within image before' after')
  := by
  obtain ⟨value, defects⟩ := h
  refine ⟨congrArg image value, ?_⟩
  unfold Parsed.within Parsed.defects at *
  simp only [List.map_append]
  rw [sameBefore, sameAfter, defects]

theorem Gains.within {old new : Parsed α} (h : old.Gains new) (image : α → β)
    {before before' after after' : List Warning}
    (sameBefore : before'.map (·.defect) = before.map (·.defect))
    (sameAfter : after'.map (·.defect) = after.map (·.defect)) :
  (old.within image before after).Gains (new.within image before' after')
  := by
  obtain ⟨value, more⟩ := h
  refine ⟨congrArg image value, ?_⟩
  unfold Parsed.within Parsed.defects at *
  simp only [List.map_append, sameBefore, sameAfter]
  exact more.within _ _

/-- A further warning before what is otherwise the same. -/
theorem Same.gains_within {old new : Parsed α} (h : old.Same new) (image : α → β)
    {before before' after after' : List Warning}
    (more : OneMore (before.map (·.defect)) (before'.map (·.defect)))
    (sameAfter : after'.map (·.defect) = after.map (·.defect)) :
  (old.within image before after).Gains (new.within image before' after')
  := by
  obtain ⟨value, defects⟩ := h
  refine ⟨congrArg image value, ?_⟩
  unfold Parsed.within Parsed.defects at *
  simp only [List.map_append, sameAfter, defects, List.append_assoc]
  exact more.within [] _

end Parsed

/-! ### Dialects -/

/-- The lines of a kind of file, and what they mean. -/
structure Dialect (σ α : Type) where
  /-- The known tags. -/
  tags : List String
  /-- How an unknown tag is reported. -/
  unknown : String → Defect
  start : σ
  step : σ → TaggedLine → Except Fault (Reading σ)
  /-- What is read from a file that ends in a state. -/
  finish : σ → Reading α
  step_unnumbered : ∀ state line, step state line.unnumbered = step state line
  step_of_not_mem : ∀ state line, line.tag ∉ tags →
    step state line = .ok ⟨state, [unknown line.tag]⟩

namespace Dialect

variable {σ α : Type} (dialect : Dialect σ α)

/-- Read a whole file. -/
def read (text : String) : Except Fault (Parsed α) := do
  let lines := tokenize text
  let last ← walk dialect.step dialect.start lines.value
  let closed := dialect.finish last.value
  pure
    ⟨closed.value,
      lines.warnings ++ last.warnings ++ warningsAt (lastNumber lines.value) closed.defects⟩

theorem step_congr {line line' : TaggedLine} (same : line.unnumbered = line'.unnumbered)
    (state : σ) :
  dialect.step state line = dialect.step state line'
  := by rw [← dialect.step_unnumbered, same, dialect.step_unnumbered]

theorem walk_cons (state : σ) (line : TaggedLine) (rest : List TaggedLine) :
  walk dialect.step state (line :: rest)
    = dialect.step state line >>= fun next =>
      (walk dialect.step next.value rest).map fun last =>
        last.within id (warningsAt line.number next.defects) []
  := by
  rw [walk]
  congr 1
  funext next
  cases walk dialect.step next.value rest with
  | error fault => rfl
  | ok last => simp [Parsed.within, pure, Except.pure, Except.map]

/-- Lines that differ in their numbers only are read alike. -/
theorem same_walk {old new : List TaggedLine}
    (same : old.map TaggedLine.unnumbered = new.map TaggedLine.unnumbered) (state : σ) :
  Agree Parsed.Same (walk dialect.step state old) (walk dialect.step state new)
  := by
  induction old generalizing new state with
  | nil =>
    rw [List.map_eq_nil_iff.mp same.symm]
    exact ⟨rfl, rfl⟩
  | cons line rest ih =>
    obtain ⟨line', rest', rfl, first, others⟩ := List.map_eq_cons_iff.mp same.symm
    rw [walk_cons, walk_cons, dialect.step_congr first]
    cases dialect.step state line with
    | error fault => rfl
    | ok next =>
      apply (ih others.symm next.value).map
      intro last last' same
      apply same.within id (by simp [warningsAt]) rfl

/-- A line with an unknown tag between lines that are otherwise the same is reported and nothing
else. -/
theorem gains_walk {before before' after after' : List TaggedLine} {line : TaggedLine}
    (sameBefore : before.map TaggedLine.unnumbered = before'.map TaggedLine.unnumbered)
    (sameAfter : after.map TaggedLine.unnumbered = after'.map TaggedLine.unnumbered)
    (unknown : line.tag ∉ dialect.tags) (state : σ) :
  Agree Parsed.Gains (walk dialect.step state (before ++ after))
    (walk dialect.step state (before' ++ line :: after'))
  := by
  induction before generalizing before' state with
  | nil =>
    rw [List.map_eq_nil_iff.mp sameBefore.symm, List.nil_append, List.nil_append, walk_cons,
      dialect.step_of_not_mem state line unknown, ok_bind]
    apply (dialect.same_walk sameAfter state).map_right
    intro last last' same
    rw [← last.within_nil]
    exact same.gains_within id (oneMore_insert [] _ []) rfl
  | cons first rest ih =>
    obtain ⟨first', rest', rfl, sameFirst, others⟩ := List.map_eq_cons_iff.mp sameBefore.symm
    rw [List.cons_append, List.cons_append, walk_cons, walk_cons, dialect.step_congr sameFirst]
    cases dialect.step state first with
    | error fault => rfl
    | ok next =>
      apply (ih others.symm next.value).map
      intro last last' gains
      apply gains.within id (by simp [warningsAt]) rfl

/-- The warnings about untagged lines come first, those about the end of the file last. -/
theorem read_eq_map_walk (text : String) :
  dialect.read text
    = (walk dialect.step dialect.start (tokenize text).value).map fun last =>
      last.within (fun state => (dialect.finish state).value) (tokenize text).warnings
        (warningsAt (lastNumber (tokenize text).value) (dialect.finish last.value).defects)
  := rfl

/-- A file with the same tagged lines and the same defects is read alike. -/
theorem same_read {old new : String}
    (sameLines : (tokenize old).value.map TaggedLine.unnumbered
      = (tokenize new).value.map TaggedLine.unnumbered)
    (sameDefects : (tokenize new).warnings.map (·.defect)
      = (tokenize old).warnings.map (·.defect)) :
  Agree Parsed.Same (dialect.read old) (dialect.read new)
  := by
  rw [read_eq_map_walk, read_eq_map_walk]
  apply (dialect.same_walk sameLines dialect.start).map
  intro last last' same
  apply same.within _ sameDefects
  simp [warningsAt, same.1]

/-- A file with the same tagged lines and one more line that is reported. -/
theorem gains_read_of_reported {old new : String}
    (sameLines : (tokenize old).value.map TaggedLine.unnumbered
      = (tokenize new).value.map TaggedLine.unnumbered)
    (more : OneMore ((tokenize old).warnings.map (·.defect))
      ((tokenize new).warnings.map (·.defect))) :
  Agree Parsed.Gains (dialect.read old) (dialect.read new)
  := by
  rw [read_eq_map_walk, read_eq_map_walk]
  apply (dialect.same_walk sameLines dialect.start).map
  intro last last' same
  apply same.gains_within _ more
  simp [warningsAt, same.1]

/-- A file with one more tagged line, whose tag is not known. -/
theorem gains_read_of_unknown {old new : String} {before after : List TaggedLine}
    {line : TaggedLine} (unknown : line.tag ∉ dialect.tags)
    (oldLines : (tokenize old).value.map TaggedLine.unnumbered = before ++ after)
    (newLines : (tokenize new).value.map TaggedLine.unnumbered = before ++ line :: after)
    (sameDefects : (tokenize new).warnings.map (·.defect)
      = (tokenize old).warnings.map (·.defect)) :
  Agree Parsed.Gains (dialect.read old) (dialect.read new)
  := by
  obtain ⟨oldBefore, oldAfter, oldSplit, rfl, rfl⟩ := List.map_eq_append_iff.mp oldLines
  obtain ⟨newBefore, newRest, newSplit, sameBefore, rest⟩ := List.map_eq_append_iff.mp newLines
  obtain ⟨newLine, newAfter, rfl, rfl, sameAfter⟩ := List.map_eq_cons_iff.mp rest
  have unknown : newLine.tag ∉ dialect.tags := unknown
  rw [read_eq_map_walk, read_eq_map_walk, oldSplit, newSplit]
  apply (dialect.gains_walk sameBefore.symm sameAfter.symm unknown dialect.start).map
  intro last last' gains
  apply gains.within _ sameDefects
  simp [warningsAt, gains.1]

/-! ### Insertion -/

variable {before after : List String} {line : String}

/-- A blank line changes nothing. -/
theorem same_read_insert (plain : ∀ l ∈ before ++ line :: after, '\n' ∉ l.toList)
    (blank : IsBlankLine line) :
  Agree Parsed.Same (dialect.read (joinLines (before ++ after)))
    (dialect.read (joinLines (before ++ line :: after)))
  := by
  obtain ⟨noTag, noDefect⟩ := contributions_of_isBlankLine blank
  apply dialect.same_read
  · rw [map_unnumbered_tokenize_joinLines plain,
      map_unnumbered_tokenize_joinLines (plain_of_insert plain)]
    simp [noTag]
  · rw [map_defect_tokenize_joinLines plain, map_defect_tokenize_joinLines (plain_of_insert plain)]
    simp [noDefect]

/-- A foreign line is reported and changes nothing else. -/
theorem gains_read_insert (plain : ∀ l ∈ before ++ line :: after, '\n' ∉ l.toList)
    (foreign : IsForeign dialect.tags line) :
  Agree Parsed.Gains (dialect.read (joinLines (before ++ after)))
    (dialect.read (joinLines (before ++ line :: after)))
  := by
  have oldLines := map_unnumbered_tokenize_joinLines (plain_of_insert plain)
  have newLines := map_unnumbered_tokenize_joinLines plain
  have oldDefects := map_defect_tokenize_joinLines (plain_of_insert plain)
  have newDefects := map_defect_tokenize_joinLines plain
  simp only [List.flatMap_append, List.flatMap_cons] at oldLines newLines oldDefects newDefects
  obtain ⟨solid, untagged⟩ := foreign
  rcases contributions_of_not_isBlankLine solid with
    ⟨defect, noTag, reported⟩ | ⟨token, tagged, noDefect, carries⟩
  · rw [noTag] at newLines
    rw [reported] at newDefects
    apply dialect.gains_read_of_reported
    · rw [oldLines, newLines]
      rfl
    · rw [oldDefects, newDefects]
      apply oneMore_insert
  · rw [tagged] at newLines
    rw [noDefect] at newDefects
    apply dialect.gains_read_of_unknown (fun known => untagged _ known carries) oldLines newLines
    rw [oldDefects, newDefects]
    rfl

end Dialect

/-! ### Decks and achievements -/

/-- The tags of deck texts. -/
def deckTags : List String :=
  ["SUIT", "SPECIAL-NAME", "SPECIAL-DESC", "SPECIAL-REQ", "SPECIAL-APP", "SPECIAL-EFF"]

/-- The dialect of deck texts. -/
def deckDialect (name : String) : Dialect DeckDraft Deck where
  tags := deckTags
  unknown := .unknownDeckTag
  start := { deck := { name } }
  step := DeckDraft.step
  finish draft :=
    ⟨draft.deck, if draft.pending.started then [.unfinishedLastSpecial] else []⟩
  step_unnumbered _ _ := rfl
  step_of_not_mem := by
    intro draft line other
    unfold DeckDraft.step
    split
    case h_7 => rfl
    all_goals simp_all [deckTags]

theorem readDeck_eq_read (name text : String) :
  readDeck name text = (deckDialect name).read text
  := rfl

/-- The tags of achievement texts. -/
def bookTags : List String := ["ACH-NAME", "ACH-DESC", "ACH-CODE", "ACH-REWARD"]

/-- The dialect of achievement texts. -/
def bookDialect : Dialect BookDraft (List Goal.Achievement) where
  tags := bookTags
  unknown := .unknownAchievementTag
  start := {}
  step draft line := .ok (draft.step line)
  finish draft :=
    if draft.pending.started then
      let closed := draft.close none
      ⟨closed.value.achievements, .noLastReward :: closed.defects⟩
    else .clean draft.achievements
  step_unnumbered _ _ := rfl
  step_of_not_mem := by
    intro draft line other
    unfold BookDraft.step
    split
    case h_5 => rfl
    all_goals simp_all [bookTags]

/-- Steps that cannot fail may be taken where steps can. -/
theorem walk_ok {σ : Type} (step : σ → TaggedLine → Reading σ) (state : σ)
    (lines : List TaggedLine) :
  walk (fun state line => .ok (step state line)) state lines
    = (.ok (Id.run (walk (fun state line => pure (step state line)) state lines))
      : Except Fault (Parsed σ))
  := by
  induction lines generalizing state with
  | nil => rfl
  | cons line rest ih =>
    rw [walk, ok_bind, ih, ok_bind]
    rfl

theorem read_bookDialect (text : String) :
  bookDialect.read text = .ok (readAchievements text)
  := by
  rw [Dialect.read, bookDialect]
  dsimp only
  rw [walk_ok, ok_bind, readAchievements]
  dsimp only
  split <;> rfl

/-- A line that is not blank and carries no known tag can be put anywhere into a deck or into
achievements: the same is read, with one more defect.  A blank line changes nothing at all. -/
theorem inserted_line {before after : List String} {line : String}
    (plain : ∀ l ∈ before ++ line :: after, '\n' ∉ l.toList) (name : String) :
  (IsForeign deckTags line →
      Agree Parsed.Gains (readDeck name (joinLines (before ++ after)))
        (readDeck name (joinLines (before ++ line :: after))))
    ∧ (IsForeign bookTags line →
      (readAchievements (joinLines (before ++ after))).Gains
        (readAchievements (joinLines (before ++ line :: after))))
    ∧ (IsBlankLine line →
      Agree Parsed.Same (readDeck name (joinLines (before ++ after)))
          (readDeck name (joinLines (before ++ line :: after)))
        ∧ (readAchievements (joinLines (before ++ after))).Same
          (readAchievements (joinLines (before ++ line :: after))))
  := by
  simp only [readDeck_eq_read]
  refine ⟨?_, ?_, ?_⟩
  · exact (deckDialect name).gains_read_insert plain
  · intro foreign
    have gains := bookDialect.gains_read_insert plain foreign
    rw [read_bookDialect, read_bookDialect] at gains
    exact gains
  · intro blank
    have same := bookDialect.same_read_insert plain blank
    rw [read_bookDialect, read_bookDialect] at same
    exact ⟨(deckDialect name).same_read_insert plain blank, same⟩

/-- A line that no text knows, and a line of a tabulator, in the middle of a special card. -/
theorem inserted_line_mystery :
  Agree Parsed.Gains
      (readDeck "Test" (joinLines ["[SUIT]Ex", "[SPECIAL-NAME]Spy", "[SPECIAL-EFF]KISS"]))
      (readDeck "Test"
        (joinLines ["[SUIT]Ex", "[SPECIAL-NAME]Spy", "[MYSTERY]Fog", "[SPECIAL-EFF]KISS"]))
    ∧ (readAchievements
        (joinLines ["[SUIT]Ex", "[SPECIAL-NAME]Spy", "[SPECIAL-EFF]KISS"])).Gains
      (readAchievements
        (joinLines ["[SUIT]Ex", "[SPECIAL-NAME]Spy", "[MYSTERY]Fog", "[SPECIAL-EFF]KISS"]))
    ∧ Agree Parsed.Same
      (readDeck "Test" (joinLines ["[SUIT]Ex", "[SPECIAL-NAME]Spy", "[SPECIAL-EFF]KISS"]))
      (readDeck "Test"
        (joinLines ["[SUIT]Ex", "[SPECIAL-NAME]Spy", "\t", "[SPECIAL-EFF]KISS"]))
  := by
  have solid : ¬ IsBlankLine "[MYSTERY]Fog" := by
    intro blank
    exact absurd (blank '[' (by simp)) (by decide)
  have mystery : ∀ tag, Carries "[MYSTERY]Fog" tag → tag = "MYSTERY" := by
    rintro tag ⟨inside, after, form, first, nonblank, rfl⟩
    have split : TaggedLine.split "[MYSTERY]Fog".toList = some (trim inside, trim after) :=
      split_eq_some_iff.mpr ⟨inside, after, form, first, nonblank, rfl, rfl⟩
    have cut : TaggedLine.split "[MYSTERY]Fog".toList = some ("MYSTERY".toList, "Fog".toList) :=
      rfl
    rw [cut] at split
    rw [← (Prod.mk.inj (Option.some.inj split)).1]
    rfl
  have foreign : ∀ tags : List String, "MYSTERY" ∉ tags → IsForeign tags "[MYSTERY]Fog" := by
    intro tags unknown
    refine ⟨solid, fun tag mem carried => ?_⟩
    rw [mystery tag carried] at mem
    exact unknown mem
  have fog := @inserted_line ["[SUIT]Ex", "[SPECIAL-NAME]Spy"] ["[SPECIAL-EFF]KISS"] "[MYSTERY]Fog"
    (by simp) "Test"
  have tab := @inserted_line ["[SUIT]Ex", "[SPECIAL-NAME]Spy"] ["[SPECIAL-EFF]KISS"] "\t"
    (by simp) "Test"
  refine ⟨fog.1 (foreign _ (by simp [deckTags])), fog.2.1 (foreign _ (by simp [bookTags])), ?_⟩
  exact (tab.2.2 (by simp [IsBlankLine, isBlank])).1

end Script

end CardDuel
