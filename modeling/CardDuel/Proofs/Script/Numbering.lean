import CardDuel.Proofs.Script.Insertion
import CardDuel.Proofs.Script.Rendering
import Mathlib.Data.List.Flatten
import Mathlib.Data.List.Perm.Basic

/-!
# The numbers of lines

Every line of a text that is not blank is either tagged or reported, under its own number.  So the
numbers of the tagged lines and those of the reported ones are two parts of the numbers of all solid
lines (`numbers_perm`), each of them in order (`numbers_sublist`, `reported_sublist`).  Tagged lines
that are written out are read back and counted anew (`tokenize_joinLines_render`).  A dialect
reports what it meets under the number of a tagged line, also what it meets at the end of the file
(`Dialect.line_mem_solidNumbers`).
-/

namespace CardDuel.Script

open Text

/-! ### Solid lines -/

/-- The numbers, counted from one, of the lines that do not consist of blanks. -/
def solidNumbers (text : String) : List Nat :=
  ((lines text).zipIdx.filter fun entry => !entry.1.all isBlank).map fun entry => entry.2 + 1

theorem pairwise_solidNumbers (text : String) :
  (solidNumbers text).Pairwise (· < ·)
  := by
  have increasing : ((lines text).zipIdx.map (·.2)).Pairwise (· < ·) := by
    rw [List.zipIdx_map_snd]
    exact List.pairwise_lt_range'
  rw [List.pairwise_map] at increasing
  rw [solidNumbers, List.pairwise_map]
  apply (increasing.sublist List.filter_sublist).imp
  intro a b less
  apply Nat.add_lt_add_right less

/-- The numbers under which a line is tagged, and those under which it is reported. -/
def numbersIn (entry : Nat × List Char) : List Nat × List Nat :=
  let (tagged, reported) := TaggedLine.ofLine entry.1 entry.2
  (tagged.map (·.number), reported.map (·.line))

/-- A line is tagged or reported under its number, unless it is blank. -/
theorem numbersIn_append (entry : Nat × List Char) :
  (numbersIn entry).1 ++ (numbersIn entry).2 = if entry.2.all isBlank then [] else [entry.1]
  := by
  have blank : (trim entry.2).isEmpty = entry.2.all isBlank := by
    rw [Bool.eq_iff_iff, List.isEmpty_iff, trim_eq_nil_iff, List.all_eq_true]
  unfold numbersIn TaggedLine.ofLine
  dsimp only
  rw [blank]
  split
  · rfl
  · split <;> rfl

/-- The solid lines are found line by line. -/
theorem solidNumbers_eq_flatMap (text : String) :
  solidNumbers text
    = (numberedLines text).flatMap fun entry => (numbersIn entry).1 ++ (numbersIn entry).2
  := by
  simp only [numbersIn_append]
  rw [solidNumbers, numberedLines, List.flatMap_map]
  induction (lines text).zipIdx with
  | nil => rfl
  | cons entry rest ih =>
    rw [List.flatMap_cons, ← ih]
    by_cases blank : entry.1.all isBlank = true
    · simp [blank]
    · simp [blank]

theorem map_number_tokenize (text : String) :
  (tokenize text).value.map (·.number) = (numberedLines text).flatMap fun entry =>
    (numbersIn entry).1
  := by
  rw [tokenize, List.map_flatMap, List.flatMap_map]
  rfl

theorem map_line_tokenize (text : String) :
  (tokenize text).warnings.map (·.line) = (numberedLines text).flatMap fun entry =>
    (numbersIn entry).2
  := by
  rw [tokenize, List.map_flatMap, List.flatMap_map]
  rfl

/-- The numbers of the tagged lines are among those of the solid lines, in the same order. -/
theorem numbers_sublist (text : String) :
  ((tokenize text).value.map (·.number)).Sublist (solidNumbers text)
  := by
  rw [solidNumbers_eq_flatMap, map_number_tokenize]
  apply List.Sublist.flatMap_right
  intro entry _
  apply List.sublist_append_left

/-- The numbers of the reported lines are among those of the solid lines, in the same order. -/
theorem reported_sublist (text : String) :
  ((tokenize text).warnings.map (·.line)).Sublist (solidNumbers text)
  := by
  rw [solidNumbers_eq_flatMap, map_line_tokenize]
  apply List.Sublist.flatMap_right
  intro entry _
  apply List.sublist_append_right

/-- Every solid line is either tagged or reported. -/
theorem numbers_perm (text : String) :
  ((tokenize text).value.map (·.number) ++ (tokenize text).warnings.map (·.line)).Perm
    (solidNumbers text)
  := by
  rw [solidNumbers_eq_flatMap, map_number_tokenize, map_line_tokenize]
  apply List.flatMap_append_perm

/-! ### Tagged lines counted anew -/

/-- Tidy lines that are written out are read back, numbered from one. -/
theorem tokenize_joinLines_render {ls : List TaggedLine} (tidy : ∀ line ∈ ls, line.IsTidy) :
  tokenize (joinLines (ls.map TaggedLine.render))
    = ⟨ls.zipIdx.map fun entry => { entry.1 with number := entry.2 + 1 }, []⟩
  := by
  have plain : ∀ l ∈ ls.map TaggedLine.render, '\n' ∉ l.toList := by
    rw [List.forall_mem_map]
    intro line mem
    apply (tidy line mem).not_mem_render
  by_cases none : ls = []
  · rw [none]
    rfl
  have results : (numberedLines (joinLines (ls.map TaggedLine.render))).map
        (fun entry => TaggedLine.ofLine entry.1 entry.2)
      = ls.zipIdx.map fun entry => ([{ entry.1 with number := entry.2 + 1 }], []) := by
    rw [numberedLines, lines_joinLines plain, if_neg (by simpa using none), List.zipIdx_map,
      List.zipIdx_map, List.map_map, List.map_map, List.map_map]
    apply List.map_congr_left
    rintro ⟨line, index⟩ mem
    apply (tidy line (List.fst_mem_of_mem_zipIdx mem)).ofLine_render
  rw [tokenize, results, List.flatMap_map, List.flatMap_map, List.map_eq_flatMap]
  congr
  apply List.flatMap_eq_nil_iff.mpr
  intro entry _
  rfl

/-! ### Where defects are reported -/

theorem lastNumber_mem {ls : List TaggedLine} (some : ls ≠ []) :
  lastNumber ls ∈ ls.map (·.number)
  := by
  rw [lastNumber, List.getLast?_eq_some_getLast some]
  apply List.mem_map_of_mem (List.getLast_mem some)

namespace Dialect

variable {σ α : Type} (dialect : Dialect σ α)

/-- What is met on the way is reported under the number of a tagged line. -/
theorem line_mem_of_walk {ls : List TaggedLine} {state : σ} {last : Parsed σ}
    (h : walk dialect.step state ls = .ok last) :
  ∀ warning ∈ last.warnings, warning.line ∈ ls.map (·.number)
  := by
  induction ls generalizing state last with
  | nil =>
    obtain rfl := Except.ok.inj h
    nofun
  | cons line rest ih =>
    rw [walk_cons] at h
    obtain ⟨next, -, h⟩ := Checked.bind_eq_ok_iff.mp h
    obtain ⟨others, walked, rfl⟩ := Checked.map_eq_ok_iff.mp h
    intro warning mem
    rw [Parsed.within, List.append_nil] at mem
    rcases List.mem_append.mp mem with here | later
    · obtain ⟨defect, -, rfl⟩ := List.mem_map.mp here
      apply List.mem_cons_self
    · apply List.mem_cons_of_mem
      apply ih walked warning later

/-- If nothing is wrong with an empty file, everything is reported under the number of a solid
line. -/
theorem line_mem_solidNumbers (silent : (dialect.finish dialect.start).defects = [])
    {text : String} {parsed : Parsed α} (h : dialect.read text = .ok parsed) :
  ∀ warning ∈ parsed.warnings, warning.line ∈ solidNumbers text
  := by
  rw [read_eq_map_walk] at h
  obtain ⟨last, walked, rfl⟩ := Checked.map_eq_ok_iff.mp h
  intro warning mem
  rcases List.mem_append.mp mem with mem | atEnd
  · rcases List.mem_append.mp mem with untagged | tagged
    · apply (reported_sublist text).subset (List.mem_map_of_mem untagged)
    · apply (numbers_sublist text).subset (dialect.line_mem_of_walk walked warning tagged)
  · obtain ⟨defect, met, rfl⟩ := List.mem_map.mp atEnd
    apply (numbers_sublist text).subset (lastNumber_mem _)
    -- A file without tagged lines ends in the state in which it began.
    intro none
    rw [none] at walked
    obtain rfl := Except.ok.inj walked
    rw [silent] at met
    contradiction

end Dialect

/-- No line is lost: the tagged lines and the reported ones, each in order, are together the lines
that are not blank, each once.  The tagged lines that are written out, one on each line, are read
back in the same order and numbered from one, and nothing is reported of them.  Whatever is reported
of a deck or of achievements stands under the number of a line that is not blank. -/
theorem lines_numbered (text : String) :
  ((tokenize text).value.map (·.number)).Pairwise (· < ·)
    ∧ ((tokenize text).warnings.map (·.line)).Pairwise (· < ·)
    ∧ ((tokenize text).value.map (·.number) ++ (tokenize text).warnings.map (·.line)).Perm
      (solidNumbers text)
    ∧ tokenize (joinLines ((tokenize text).value.map TaggedLine.render))
      = ⟨(tokenize text).value.zipIdx.map fun entry => { entry.1 with number := entry.2 + 1 }, []⟩
    ∧ (∀ name deck, readDeck name text = .ok deck →
      ∀ warning ∈ deck.warnings, warning.line ∈ solidNumbers text)
    ∧ ∀ warning ∈ (readAchievements text).warnings, warning.line ∈ solidNumbers text
  := by
  have increasing := pairwise_solidNumbers text
  refine ⟨increasing.sublist (numbers_sublist text), increasing.sublist (reported_sublist text),
    numbers_perm text, ?_, ?_, ?_⟩
  · apply tokenize_joinLines_render
    intro line mem
    apply isTidy_of_mem_tokenize mem
  · intro name deck read
    rw [readDeck_eq_read] at read
    apply (deckDialect name).line_mem_solidNumbers rfl read
  · apply bookDialect.line_mem_solidNumbers rfl (read_bookDialect text)

/-- A text with blank lines, a line without a tag and a special card that is not finished. -/
def rumour : String := "\t\r\n [suit] Ex \r\nrumour\n\u3000\n[SPECIAL-NAME]Spy"

/-- Solid are the lines 2, 3 and 5.  The special card is reported at the last of them; read as
achievements, the text has tags that are not known. -/
theorem lines_numbered_rumour :
  (tokenize rumour).value.map (·.number) = [2, 5]
    ∧ (tokenize rumour).warnings.map (·.line) = [3]
    ∧ ([2, 5] ++ [3]).Perm (solidNumbers rumour)
    ∧ tokenize "[SUIT]Ex\n[SPECIAL-NAME]Spy"
      = ⟨[⟨1, "SUIT", "Ex"⟩, ⟨2, "SPECIAL-NAME", "Spy"⟩], []⟩
    ∧ (∃ deck, readDeck "Test" rumour = .ok deck
      ∧ ⟨5, .unfinishedLastSpecial⟩ ∈ deck.warnings ∧ 5 ∈ solidNumbers rumour)
    ∧ ⟨2, .unknownAchievementTag "SUIT"⟩ ∈ (readAchievements rumour).warnings
    ∧ 2 ∈ solidNumbers rumour
  := by
  have tagged : (tokenize rumour).value = [⟨2, "SUIT", "Ex"⟩, ⟨5, "SPECIAL-NAME", "Spy"⟩] := by
    rfl
  have reported : (tokenize rumour).warnings = [⟨3, .untagged "rumour"⟩] := by
    rfl
  have read : (readDeck "Test" rumour).map (·.warnings)
      = .ok [⟨3, .untagged "rumour"⟩, ⟨5, .unfinishedLastSpecial⟩] := by
    rfl
  have unknown : ⟨2, .unknownAchievementTag "SUIT"⟩ ∈ (readAchievements rumour).warnings := by
    rw [show (readAchievements rumour).warnings = [⟨3, .untagged "rumour"⟩,
      ⟨2, .unknownAchievementTag "SUIT"⟩, ⟨5, .unknownAchievementTag "SPECIAL-NAME"⟩] from rfl]
    simp
  obtain ⟨deck, read, warnings⟩ := Checked.map_eq_ok_iff.mp read
  have unfinished : ⟨5, .unfinishedLastSpecial⟩ ∈ deck.warnings := by simp [warnings]
  obtain ⟨-, -, together, again, inDeck, inBook⟩ := lines_numbered rumour
  rw [tagged, reported] at together
  rw [tagged] at again
  exact ⟨by rw [tagged]; rfl, by rw [reported]; rfl, together, again,
    ⟨deck, read, unfinished, inDeck "Test" deck read _ unfinished⟩, unknown, inBook _ unknown⟩

end CardDuel.Script
