import CardDuel.Proofs.Script.Lines
import Mathlib.Data.List.Basic

/-!
# Tagged lines written out

`tokenize` brings lines into shape: the tags are in capitals and there is nothing to trim
(`TaggedLine.IsTidy`).  Tidy lines that are written out are read back, their numbers apart:
`map_unnumbered_tokenize_renderAll`.
-/

namespace CardDuel.Script

open Text

namespace TaggedLine

/-- The tag is a nonempty text in capitals without a closing bracket, neither the tag nor the
value has anything to trim, and no line feed stands in them. -/
structure IsTidy (line : TaggedLine) : Prop where
  some : line.tag ≠ ""
  raised : upper line.tag = line.tag
  tagTrimmed : trim line.tag.toList = line.tag.toList
  closed : ']' ∉ line.tag.toList
  valueTrimmed : trim line.value.toList = line.value.toList
  plain : '\n' ∉ line.tag.toList ∧ '\n' ∉ line.value.toList

theorem toList_render (line : TaggedLine) :
  line.render.toList = '[' :: line.tag.toList ++ ']' :: line.value.toList
  := by simp [render]

namespace IsTidy

variable {line : TaggedLine}

theorem not_mem_render (h : line.IsTidy) :
  '\n' ∉ line.render.toList
  := by
  rw [toList_render]
  simp [h.plain.1, h.plain.2]

theorem trim_render (h : line.IsTidy) :
  trim line.render.toList = line.render.toList
  := by
  rw [toList_render]
  apply trim_eq_self
  · intro c first
    obtain rfl := Option.some.inj first
    rfl
  · intro c last
    rw [List.getLast?_append, List.getLast?_cons] at last
    obtain rfl := Option.some.inj last
    rcases ending : line.value.toList.getLast? with _ | c
    · rfl
    · rw [← h.valueTrimmed] at ending
      apply isBlank_of_mem_getLast?_trim ending

/-- A tidy line that is written out is read back. -/
theorem ofLine_render (h : line.IsTidy) (number : Nat) :
  ofLine number line.render.toList = ([{ line with number }], [])
  := by
  have split : TaggedLine.split line.render.toList
      = .some (line.tag.toList, line.value.toList) := by
    apply split_eq_some_iff.mpr
    refine ⟨_, _, toList_render line, h.closed, ?_, h.tagTrimmed, h.valueTrimmed⟩
    rw [h.tagTrimmed]
    simpa using h.some
  have solid : line.render.toList.isEmpty = false := by
    rw [toList_render]
    rfl
  simp [ofLine, h.trim_render, solid, split, String.ofList_toList, h.raised]

end IsTidy

/-- A line without line feeds is brought into shape. -/
theorem isTidy_of_mem_ofLine {number : Nat} {cs : List Char} {line : TaggedLine}
    (plain : '\n' ∉ cs) (h : line ∈ (ofLine number cs).1) :
  line.IsTidy
  := by
  simp only [ofLine] at h
  split at h
  · contradiction
  split at h
  case h_2 => contradiction
  rename_i tag value parts
  obtain rfl := List.mem_singleton.mp h
  obtain ⟨inside, after, form, fresh, some, rfl, rfl⟩ := split_eq_some_iff.mp parts
  have among : ∀ c, c ∈ inside ∨ c ∈ after → c ∈ cs := by
    intro c mem
    apply trim_subset cs
    rw [form]
    rcases mem with mem | mem <;> simp [mem]
  constructor
  case some => simpa [upper_eq_empty_iff] using some
  case raised => apply upper_upper
  case tagTrimmed =>
    apply trim_upper
    rw [String.toList_ofList, trim_trim]
  case valueTrimmed => rw [String.toList_ofList, trim_trim]
  case closed =>
    apply not_mem_upper (by decide)
    rw [String.toList_ofList]
    exact fun mem => fresh (trim_subset inside mem)
  case plain =>
    constructor
    · apply not_mem_upper (by decide)
      rw [String.toList_ofList]
      exact fun mem => plain (among _ (.inl (trim_subset inside mem)))
    · rw [String.toList_ofList]
      exact fun mem => plain (among _ (.inr (trim_subset after mem)))

end TaggedLine

/-- What is tokenized is tidy. -/
theorem isTidy_of_mem_tokenize {text : String} {line : TaggedLine}
    (h : line ∈ (tokenize text).value) :
  line.IsTidy
  := by
  obtain ⟨result, mem, h⟩ := List.mem_flatMap.mp h
  obtain ⟨⟨number, cs⟩, numbered, rfl⟩ := List.mem_map.mp mem
  have among : cs ∈ lines text := by
    rw [← map_snd_numberedLines, List.mem_map]
    exact ⟨(number, cs), numbered, rfl⟩
  apply TaggedLine.isTidy_of_mem_ofLine (not_mem_of_mem_lines among) h

/-! ### Texts of tagged lines -/

/-- The text of tagged lines, each closed by a line feed. -/
def renderAll (ls : List TaggedLine) : String :=
  String.join (ls.map fun line => line.render ++ "\n")

theorem flatMap_lines_renderAll {α : Type} {collect : List Char → List α}
    (empty : collect [] = []) {ls : List TaggedLine} (tidy : ∀ line ∈ ls, line.IsTidy) :
  (lines (renderAll ls)).flatMap collect = ls.flatMap fun line => collect line.render.toList
  := by
  have closed : renderAll ls = String.join ((ls.map (·.render)).map (· ++ "\n")) := by
    rw [renderAll, List.map_map]
    rfl
  rw [closed, lines_join, List.flatMap_append, List.flatMap_singleton, empty, List.append_nil,
    List.map_map, List.flatMap_map]
  · rfl
  · rw [List.forall_mem_map]
    intro line mem
    apply (tidy line mem).not_mem_render

/-- Tidy lines that are written out are read back, their numbers apart. -/
theorem map_unnumbered_tokenize_renderAll {ls : List TaggedLine}
    (tidy : ∀ line ∈ ls, line.IsTidy) :
  (tokenize (renderAll ls)).value.map TaggedLine.unnumbered = ls.map TaggedLine.unnumbered
  := by
  rw [map_unnumbered_tokenize, flatMap_lines_renderAll rfl tidy, List.map_eq_flatMap]
  apply List.flatMap_congr
  intro line mem
  rw [taggedIn, (tidy line mem).ofLine_render]
  rfl

/-- Nothing is reported of tidy lines that are written out. -/
theorem warnings_tokenize_renderAll {ls : List TaggedLine} (tidy : ∀ line ∈ ls, line.IsTidy) :
  (tokenize (renderAll ls)).warnings = []
  := by
  apply List.map_eq_nil_iff.mp
  rw [map_defect_tokenize, flatMap_lines_renderAll rfl tidy, List.flatMap_eq_nil_iff]
  intro line mem
  rw [defectsIn, (tidy line mem).ofLine_render]
  rfl

end CardDuel.Script
