import CardDuel.Proofs.Text
import CardDuel.Script.TaggedLine

/-!
# Lines of files

What a line contributes to a file does not depend on where it stands, its number apart.  So the
tagged lines of a text and the lines that are reported are found line by line
(`map_unnumbered_tokenize`, `map_defect_tokenize`).  A line carries a tag if it has the form
`[TAG]Value` (`Carries`); what is neither blank nor carries a tag is reported.
-/

namespace CardDuel.Script

open Text

/-- The text of lines with line feeds between them. -/
def joinLines (ls : List String) : String := "\n".intercalate ls

/-- Lines without line feeds in them are those of their text; no line at all is an empty one. -/
theorem lines_joinLines {ls : List String} (plain : ∀ l ∈ ls, '\n' ∉ l.toList) :
  lines (joinLines ls) = if ls = [] then [[]] else ls.map String.toList
  := by
  split
  · rename_i none
    rw [none]
    rfl
  · rename_i some
    rw [lines, pieces_eq_splitOnP, joinLines, String.toList_intercalate]
    apply List.splitOn_intercalate
    · intro cs mem
      obtain ⟨l, listed, rfl⟩ := List.mem_map.mp mem
      exact plain l listed
    · simpa using some

/-- Leaving out a line brings no line feed in. -/
theorem plain_of_insert {before after : List String} {line : String}
    (plain : ∀ l ∈ before ++ line :: after, '\n' ∉ l.toList) :
  ∀ l ∈ before ++ after, '\n' ∉ l.toList
  := by
  intro l mem
  apply plain l
  rw [List.mem_append, List.mem_cons]
  exact (List.mem_append.mp mem).imp_right Or.inr

/-- What is collected from the lines of a text, if empty lines contribute nothing. -/
theorem flatMap_lines_joinLines {α : Type} {collect : List Char → List α} (empty : collect [] = [])
    {ls : List String} (plain : ∀ l ∈ ls, '\n' ∉ l.toList) :
  (lines (joinLines ls)).flatMap collect = ls.flatMap fun l => collect l.toList
  := by
  rw [lines_joinLines plain]
  split
  · rename_i none
    rw [none, List.flatMap_singleton, empty]
    rfl
  · rw [List.flatMap_map]

/-- The lines of a text, with their numbers left out. -/
theorem map_snd_numberedLines (text : String) :
  (numberedLines text).map (·.2) = lines text
  := by
  have images := List.zipIdx_map_fst 0 (lines text)
  rw [numberedLines, List.map_map]
  apply images

/-! ### Numbers left out -/

/-- The line without its number. -/
def TaggedLine.unnumbered (line : TaggedLine) : TaggedLine := { line with number := 0 }

/-- The tagged lines that a line contributes, without their numbers. -/
def taggedIn (line : List Char) : List TaggedLine := (TaggedLine.ofLine 0 line).1

/-- The defects that a line contributes. -/
def defectsIn (line : List Char) : List Defect :=
  (TaggedLine.ofLine 0 line).2.map (·.defect)

theorem map_unnumbered_ofLine (number : Nat) (line : List Char) :
  (TaggedLine.ofLine number line).1.map TaggedLine.unnumbered = taggedIn line
  := by
  unfold taggedIn TaggedLine.ofLine
  dsimp only
  split
  · rfl
  · split <;> rfl

theorem map_defect_ofLine (number : Nat) (line : List Char) :
  (TaggedLine.ofLine number line).2.map (·.defect) = defectsIn line
  := by
  unfold defectsIn TaggedLine.ofLine
  dsimp only
  split
  · rfl
  · split <;> rfl

/-- The tagged lines of a text are found line by line. -/
theorem map_unnumbered_tokenize (text : String) :
  (tokenize text).value.map TaggedLine.unnumbered = (lines text).flatMap taggedIn
  := by
  rw [← map_snd_numberedLines, List.flatMap_map]
  simp only [tokenize, List.flatMap_map, List.map_flatMap, map_unnumbered_ofLine]

/-- The lines that are reported are found line by line. -/
theorem map_defect_tokenize (text : String) :
  (tokenize text).warnings.map (·.defect) = (lines text).flatMap defectsIn
  := by
  rw [← map_snd_numberedLines, List.flatMap_map]
  simp only [tokenize, List.flatMap_map, List.map_flatMap, map_defect_ofLine]

theorem map_unnumbered_tokenize_joinLines {ls : List String}
    (plain : ∀ l ∈ ls, '\n' ∉ l.toList) :
  (tokenize (joinLines ls)).value.map TaggedLine.unnumbered
    = ls.flatMap fun l => taggedIn l.toList
  := by rw [map_unnumbered_tokenize, flatMap_lines_joinLines rfl plain]

theorem map_defect_tokenize_joinLines {ls : List String} (plain : ∀ l ∈ ls, '\n' ∉ l.toList) :
  (tokenize (joinLines ls)).warnings.map (·.defect) = ls.flatMap fun l => defectsIn l.toList
  := by rw [map_defect_tokenize, flatMap_lines_joinLines rfl plain]

/-! ### The form of a line -/

/-- The line consists of blanks. -/
def IsBlankLine (line : String) : Prop := ∀ c ∈ line.toList, isBlank c = true

/-- The line is a tag in brackets with a value after it; the tag is not blank, and it is read
without the blanks around it and in capitals. -/
def Carries (line tag : String) : Prop :=
  ∃ inside after, trim line.toList = '[' :: inside ++ ']' :: after
    ∧ ']' ∉ inside ∧ trim inside ≠ [] ∧ upper (String.ofList (trim inside)) = tag

/-- The line is not blank and carries none of the tags. -/
def IsForeign (tags : List String) (line : String) : Prop :=
  ¬ IsBlankLine line ∧ ∀ tag ∈ tags, ¬ Carries line tag

theorem contributions_of_isBlankLine {line : String} (blank : IsBlankLine line) :
  taggedIn line.toList = [] ∧ defectsIn line.toList = []
  := by
  have nothing : trim line.toList = [] := trim_eq_nil_iff.mpr blank
  simp [taggedIn, defectsIn, TaggedLine.ofLine, nothing]

theorem split_eq_some_iff {line tag value : List Char} :
  TaggedLine.split line = some (tag, value)
    ↔ ∃ inside after, line = '[' :: inside ++ ']' :: after
      ∧ ']' ∉ inside ∧ trim inside ≠ [] ∧ trim inside = tag ∧ trim after = value
  := by
  constructor
  · intro h
    unfold TaggedLine.split at h
    split at h
    · rename_i rest
      split at h
      · rename_i inside after cut
        obtain ⟨rfl, first⟩ := cutAt_eq_some_iff.mp cut
        dsimp only at h
        split at h
        · cases h
        · rename_i nonblank
          obtain ⟨rfl, rfl⟩ := Prod.mk.inj (Option.some.inj h)
          exact ⟨inside, after, rfl, first, by simpa using nonblank, rfl, rfl⟩
      · cases h
    · cases h
  · rintro ⟨inside, after, rfl, first, nonblank, rfl, rfl⟩
    have cut : cutAt ']' (inside ++ ']' :: after) = some (inside, after) :=
      cutAt_eq_some_iff.mpr ⟨rfl, first⟩
    rw [List.cons_append]
    simp [TaggedLine.split, cut, nonblank]

/-- A line that is not blank is either tagged or reported. -/
theorem contributions_of_not_isBlankLine {line : String} (solid : ¬ IsBlankLine line) :
  (∃ defect, taggedIn line.toList = [] ∧ defectsIn line.toList = [defect])
    ∨ ∃ token : TaggedLine, taggedIn line.toList = [token] ∧ defectsIn line.toList = []
      ∧ Carries line token.tag
  := by
  have some : (trim line.toList).isEmpty = false := by
    rw [List.isEmpty_eq_false_iff]
    exact mt trim_eq_nil_iff.mp solid
  unfold taggedIn defectsIn TaggedLine.ofLine
  simp only [some]
  cases split : TaggedLine.split (trim line.toList) with
  | none =>
    left
    exact ⟨_, rfl, rfl⟩
  | some parts =>
    right
    obtain ⟨inside, after, form, first, nonblank, same, -⟩ := split_eq_some_iff.mp split
    refine ⟨_, rfl, rfl, inside, after, form, first, nonblank, ?_⟩
    rw [same]

end CardDuel.Script
