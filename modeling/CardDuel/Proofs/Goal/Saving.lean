import CardDuel.Proofs.Goal.Unlocking
import CardDuel.Proofs.Script.Rendering

/-!
# Saving what has been reached

Achievements are named by lines of the text that describes the book, so their names survive being
written out and read (`Book.isTidy_nameLine`).  A book that has reached nothing but its own
achievements is the book in which exactly these names are entered, and that is what reading its
list of achievements reached does: `Book.run_saved`.
-/

namespace CardDuel

namespace Script

/-! ### Names in achievement texts -/

theorem AchievementDraft.name_of_mem_finish {draft : AchievementDraft} {reward : Option String}
    {achievement : Goal.Achievement} (h : achievement ∈ (draft.finish reward).value) :
  draft.name = some achievement.name
  := by
  rw [finish] at h
  split at h
  · contradiction
  · split at h
    · contradiction
    · obtain rfl := List.mem_singleton.mp h
      assumption

namespace BookDraft

/-- The names in a draft, of the block that is not yet finished too, are among given ones. -/
structure NamedIn (names : String → Prop) (draft : BookDraft) : Prop where
  finished : ∀ achievement ∈ draft.achievements, names achievement.name
  pending : ∀ name ∈ draft.pending.name, names name

variable {names : String → Prop} {draft : BookDraft}

theorem NamedIn.close (h : draft.NamedIn names) (reward : Option String) :
  (draft.close reward).value.NamedIn names
  := by
  constructor
  · intro achievement mem
    rcases List.mem_append.mp mem with before | now
    · apply h.finished achievement before
    · apply h.pending
      apply AchievementDraft.name_of_mem_finish now
  · intro name mem
    contradiction

/-- A line brings in no other name than its value, and that only if it is tagged so. -/
theorem NamedIn.step (h : draft.NamedIn names) {line : TaggedLine}
    (named : line.tag = "ACH-NAME" → names line.value) :
  (draft.step line).value.NamedIn names
  := by
  rw [BookDraft.step]
  split
  · rename_i tagged
    have pending : ∀ name ∈ some line.value, names name := by
      rintro name ⟨⟩
      apply named tagged
    rw [readName]
    split
    · exact ⟨(h.close none).finished, pending⟩
    · exact ⟨h.finished, pending⟩
  · exact ⟨h.finished, h.pending⟩
  · exact ⟨h.finished, h.pending⟩
  · apply h.close
  · exact h

end BookDraft

/-- Every achievement is named by a line of the text. -/
theorem exists_line_of_mem_readAchievements {text : String} {achievement : Goal.Achievement}
    (h : achievement ∈ (readAchievements text).value) :
  ∃ line ∈ (tokenize text).value, line.tag = "ACH-NAME" ∧ line.value = achievement.name
  := by
  let names name := ∃ line ∈ (tokenize text).value, line.tag = "ACH-NAME" ∧ line.value = name
  have walked : (Id.run (walk (fun draft line => pure (BookDraft.step draft line)) {}
      (tokenize text).value)).value.NamedIn names := by
    rw [value_walk]
    apply List.foldlRecOn (motive := BookDraft.NamedIn names)
    · exact ⟨nofun, nofun⟩
    · intro draft named line mem
      apply named.step
      intro tagged
      exact ⟨line, mem, tagged, rfl⟩
  simp only [readAchievements] at h
  split at h
  · apply (walked.close none).finished achievement h
  · apply walked.finished achievement h

end Script

namespace Goal

namespace Book

open Script (TaggedLine tokenize walk renderAll)

/-! ### The list of achievements reached -/

/-- The line that lists a name. -/
def nameLine (name : String) : TaggedLine := ⟨0, "ACH-NAME", name⟩

/-- The names of the achievements reached, in the order of the book. -/
def reachedNames (book : Book) : List String :=
  (book.achievements.filter fun achievement => book.isReached achievement.name).map (·.name)

theorem renderReached_eq (book : Book) :
  book.renderReached = renderAll (book.reachedNames.map nameLine)
  := by
  rw [renderReached, renderAll, reachedNames, List.map_map, List.map_map]
  rfl

/-- The name of an achievement survives being written out. -/
theorem isTidy_nameLine {text : String} {achievement : Achievement}
    (h : achievement ∈ (Book.read text).value.achievements) :
  (nameLine achievement.name).IsTidy
  := by
  obtain ⟨line, mem, tagged, valued⟩ := Script.exists_line_of_mem_readAchievements h
  have tidy := Script.isTidy_of_mem_tokenize mem
  rw [nameLine, ← tagged, ← valued]
  exact ⟨tidy.some, tidy.raised, tidy.tagTrimmed, tidy.closed, tidy.valueTrimmed, tidy.plain⟩

theorem isReached_iff_mem_reachedNames {book : Book}
    (listed : ∀ name, book.isReached name = true → book.Lists name) {name : String} :
  book.isReached name = true ↔ name ∈ book.reachedNames
  := by
  simp only [reachedNames, List.mem_map, List.mem_filter]
  constructor
  · intro reached
    obtain ⟨achievement, mem, rfl⟩ := listed name reached
    exact ⟨achievement, ⟨mem, reached⟩, rfl⟩
  · rintro ⟨achievement, ⟨-, reached⟩, rfl⟩
    exact reached

/-- Books are known by their achievements and what has been reached. -/
theorem ext_isReached {a b : Book} (achievements : a.achievements = b.achievements)
    (reached : ∀ name, a.isReached name = true ↔ b.isReached name = true) :
  a = b
  := by
  obtain ⟨listed, entered⟩ := a
  obtain ⟨listed', entered'⟩ := b
  obtain rfl : listed = listed' := achievements
  congr
  apply Ledger.ext_contains
  intro name
  apply Bool.eq_iff_iff.mpr (reached name)

/-- A line with the name of an achievement of the book enters it. -/
theorem readLine_nameLine {book : Book} {name : String} (listed : book.Lists name)
    {line : TaggedLine} (h : line.unnumbered = nameLine name) :
  book.readLine line = ⟨book.enter name, []⟩
  := by
  obtain ⟨number, tag, value⟩ := line
  obtain ⟨-, rfl, rfl⟩ := TaggedLine.mk.inj h
  have unlocked : book.unlock value = (book.enter value, !book.isReached value) := by
    rw [unlock, if_neg]
    rwa [isNone_get?_iff, not_not]
  have reached : (book.enter value).isReached value = true := by
    simp [isReached_enter]
  rw [readLine, if_pos rfl]
  simp only [unlocked, reached, if_pos]

/-- Lines with names of achievements of the book enter these, and nothing is reported. -/
theorem walk_nameLines {names : List String} (book : Book)
    (listed : ∀ name ∈ names, book.Lists name) {ls : List TaggedLine}
    (h : ls.map TaggedLine.unnumbered = names.map nameLine) :
  Id.run (walk (fun book line => pure (readLine book line)) book ls)
    = ⟨names.foldl enter book, []⟩
  := by
  induction names generalizing book ls with
  | nil =>
    obtain rfl := List.map_eq_nil_iff.mp h
    rfl
  | cons name rest ih =>
    obtain ⟨line, others, rfl, first, later⟩ := List.map_eq_cons_iff.mp h
    obtain ⟨firstListed, laterListed⟩ := List.forall_mem_cons.mp listed
    have entered := readLine_nameLine firstListed first
    have walked := ih (book.enter name) laterListed later
    simp only [walk, pure_bind, entered, Id.run_bind, walked]
    rfl

/-- A book that has reached nothing but achievements of its own is read back from their list. -/
theorem readReached_renderReached {text : String} {book : Book}
    (achievements : book.achievements = (Book.read text).value.achievements)
    (listed : ∀ name, book.isReached name = true → book.Lists name) :
  (Book.read text).value.readReached book.renderReached = ⟨book, []⟩
  := by
  have known : ∀ achievement ∈ book.achievements.filter fun achievement =>
      book.isReached achievement.name, achievement ∈ (Book.read text).value.achievements := by
    intro achievement kept
    rw [← achievements]
    apply List.mem_of_mem_filter kept
  have tidy : ∀ line ∈ book.reachedNames.map nameLine, line.IsTidy := by
    rw [List.forall_mem_map, reachedNames, List.forall_mem_map]
    intro achievement kept
    apply isTidy_nameLine (known achievement kept)
  have names : ∀ name ∈ book.reachedNames, (Book.read text).value.Lists name := by
    rw [reachedNames, List.forall_mem_map]
    intro achievement kept
    exact ⟨achievement, known achievement kept, rfl⟩
  have lines : (tokenize book.renderReached).value.map TaggedLine.unnumbered
      = book.reachedNames.map nameLine := by
    rw [renderReached_eq, Script.map_unnumbered_tokenize_renderAll tidy, List.map_map]
    rfl
  have clean : (tokenize book.renderReached).warnings = [] := by
    rw [renderReached_eq, Script.warnings_tokenize_renderAll tidy]
  have entered : book.reachedNames.foldl enter (Book.read text).value = book := by
    apply ext_isReached
    · rw [(extends_foldl_enter _ _).achievements, achievements]
    · intro name
      rw [isReached_foldl_enter, isReached_iff_mem_reachedNames listed]
      apply or_iff_left
      rintro ⟨⟩
  simp only [readReached, walk_nameLines _ names lines, clean, entered, List.append_nil]

/-- Unless a check overflows, what a run has reached is saved: reading the list of achievements
reached into the book that the text describes reports nothing and makes it the same book. -/
theorem run_saved (text : String) (moves : List Move) :
  (Book.read text).value.OverflowsIn moves
    ∨ ∃ book announced, (Book.read text).value.run moves = .ok (book, announced)
      ∧ (Book.read text).value.readReached book.renderReached = ⟨book, []⟩
  := by
  apply (run_cases _ moves).imp_right
  rintro ⟨book, announced, ran⟩
  have grown := grows_run ran
  refine ⟨book, announced, ran, readReached_renderReached grown.achievements ?_⟩
  intro name reached
  rw [Lists, grown.achievements]
  apply (grown.listed name reached).resolve_left
  rintro ⟨⟩

/-- A name may be made of brackets, and it may be empty. -/
def brackets : String :=
  "[ACH-NAME]][\n[ACH-CODE]PLAY 0\n[ACH-REWARD]\n"
    ++ "[ACH-NAME]\n[ACH-CODE]PLAY 1\n[ACH-REWARD]Rose\n"

/-- A game reaches the first achievement, the other one is unlocked, and both are saved. -/
theorem run_saved_brackets :
  ∃ book,
    (Book.read brackets).value.run [.check (.game ⟨[]⟩ .first {}), .unlock ""]
      = .ok (book, ["]["])
    ∧ book.isReached "][" = true ∧ book.isReached "" = true
    ∧ book.renderReached = "[ACH-NAME]][\n[ACH-NAME]\n"
    ∧ (Book.read brackets).value.readReached "[ACH-NAME]][\n[ACH-NAME]\n" = ⟨book, []⟩
  := by
  have ran : (Book.read brackets).value.run [.check (.game ⟨[]⟩ .first {}), .unlock ""]
      = .ok (_, ["]["]) := rfl
  obtain ⟨book, announced, same, saved⟩ :=
    (run_saved brackets _).resolve_left (not_overflowsIn_of_run ran)
  obtain ⟨rfl, rfl⟩ := Prod.mk.inj (Except.ok.inj (ran.symm.trans same))
  exact ⟨_, ran, rfl, rfl, rfl, saved⟩

end Book

end Goal

end CardDuel
