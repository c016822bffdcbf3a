import CardDuel.Proofs.Ledger
import CardDuel.Proofs.Script.Lines
import CardDuel.Statistics.Basic

/-!
# Saved statistics

The text of statistics reads back line by line, as long as no name breaks the form of its
line.  Reading never makes a name that holds a colon or a line feed, so statistics with such
a name are not read back: `Statistics.reads_back_iff`.
-/

namespace CardDuel.Statistics

/-! ### Records -/

namespace Record

/-- The fields of the text of a record. -/
def fields (record : Record) : List String :=
  [toString record.wins, toString record.losses, toString record.played,
    toString record.streak, Streak.symbol record.kind, toString record.best]

theorem toList_text (record : Record) :
  record.text.toList = '(' :: ((", ".intercalate record.fields).toList ++ [')'])
  := by simp [text, fields]

/-- Whether a character may stand in a field. -/
def IsFieldChar (c : Char) : Prop :=
  c.isDigit = true ∨ c ∈ ['W', 'L', 'D', '-']

theorem IsFieldChar.isBlank {c : Char} (h : IsFieldChar c) :
  Text.isBlank c = false
  := by
  rcases h with digit | letter
  · apply Text.isBlank_of_isDigit digit
  · simp only [List.mem_cons, List.not_mem_nil, or_false] at letter
    rcases letter with rfl | rfl | rfl | rfl <;> decide

theorem IsFieldChar.ne {c d : Char} (h : IsFieldChar c) (other : d ∈ [',', ':', '\n']) :
  c ≠ d
  := by
  rintro rfl
  have strange : ∀ c ∈ [',', ':', '\n'], ¬ (c.isDigit = true ∨ c ∈ ['W', 'L', 'D', '-']) := by
    simp
  exact strange c other h

theorem isFieldChar_of_mem_toString {n : UInt32} {c : Char} (h : c ∈ (toString n).toList) :
  IsFieldChar c
  := by
  left
  apply Text.isDigit_of_mem_toString (n := n.toNat) h

theorem isFieldChar_of_mem_symbol {kind : Streak} {c : Char}
    (h : c ∈ (Streak.symbol kind).toList) :
  IsFieldChar c
  := by
  right
  rcases kind with _ | _ | _ | _ <;> simp_all [Streak.symbol]

theorem isFieldChar_of_mem_fields {record : Record} {field : String} {c : Char}
    (mem : field ∈ record.fields) (h : c ∈ field.toList) :
  IsFieldChar c
  := by
  simp only [fields, List.mem_cons, List.not_mem_nil, or_false] at mem
  rcases mem with rfl | rfl | rfl | rfl | rfl | rfl
  case inr.inr.inr.inr.inl => apply isFieldChar_of_mem_symbol h
  all_goals apply isFieldChar_of_mem_toString h

theorem mem_text {record : Record} {c : Char} (h : c ∈ record.text.toList) :
  IsFieldChar c ∨ c ∈ ['(', ',', ' ', ')']
  := by
  rw [toList_text, List.mem_cons, List.mem_append, List.mem_singleton] at h
  rcases h with rfl | inside | rfl
  · right
    decide
  · rcases Text.mem_intercalate inside with joint | ⟨field, isField, inField⟩
    · right
      have joints : c = ',' ∨ c = ' ' := by
        simpa using joint
      rcases joints with rfl | rfl <;> decide
    · left
      apply isFieldChar_of_mem_fields isField inField
  · right
    decide

/-- The text of a record holds neither the mark between names and records nor a line feed. -/
theorem not_mem_text (record : Record) {mark : Char} (h : mark ∈ [':', '\n']) :
  mark ∉ record.text.toList
  := by
  intro mem
  rcases mem_text mem with plain | joint
  · exact plain.ne (List.mem_cons_of_mem _ h) rfl
  · have apart : ∀ c ∈ ['(', ',', ' ', ')'], c ∉ [':', '\n'] := by
      simp
    exact apart mark joint h

theorem readCount_toString (n : UInt32) :
  readCount (toString n).toList = some n
  := by
  have fits : n.toNat < 1 <<< 32 := n.toNat_lt
  have written : toString n = toString n.toNat := rfl
  rw [readCount, String.ofList_toList, written, Text.readUnsigned_toString fits]
  simp

theorem ofSymbol_symbol (kind : Streak) :
  Streak.ofSymbol (Streak.symbol kind) = some kind
  := by rcases kind with _ | _ | _ | _ <;> rfl

theorem ofFields_fields (record : Record) :
  ofFields (record.fields.map String.toList) = some record
  := by
  simp [fields, ofFields, readCount_toString, String.ofList_toList, ofSymbol_symbol]

/-- A record closes its line, so there is nothing to trim unless a blank stands in front. -/
theorem trim_append_text (record : Record) (start : List Char)
    (nonblank : ∀ c ∈ start.head?, Text.isBlank c = false) :
  Text.trim (start ++ record.text.toList) = start ++ record.text.toList
  := by
  rw [toList_text]
  apply Text.trim_eq_self
  · cases start with
    | nil => simp [Text.isBlank]
    | cons c start => simpa using nonblank
  · rw [List.getLast?_append, List.getLast?_cons, List.getLast?_concat]
    simp [Text.isBlank]

/-- The text of a record reads back. -/
theorem read_text (record : Record) :
  read record.text.toList = some record
  := by
  have inside : insideParentheses record.text.toList
      = some (", ".intercalate record.fields).toList := by
    rw [toList_text]
    simp [insideParentheses]
  have fields : (Text.pieces (· == ',') (", ".intercalate record.fields).toList).map Text.trim
      = record.fields.map String.toList := by
    apply Text.map_trim_pieces_intercalate (by simp [Record.fields])
    intro field mem c isIn
    have plain := isFieldChar_of_mem_fields mem isIn
    exact ⟨plain.ne (by simp), plain.isBlank⟩
  have trimmed := record.trim_append_text [] (by simp)
  rw [List.nil_append] at trimmed
  rw [read, trimmed, inside, Option.bind_eq_bind, Option.bind_some, fields, ofFields_fields]

end Record

/-! ### Lines -/

/-- Whether a name keeps the form of a line in which it stands. -/
def IsWritable (name : String) : Prop :=
  ':' ∉ name.toList ∧ '\n' ∉ name.toList

namespace Table

/-- Whether the name of a place, if it has one, keeps the form of a line. -/
def IsWritable : Table → Prop
  | summary => True
  | deck name | suit name => Statistics.IsWritable name

/-- The line of a record at a place. -/
def line (place : Table) (record : Record) : String :=
  match place with
  | summary => record.text
  | deck name => entryLine "DECK" name record
  | suit name => entryLine "SUIT" name record

theorem toList_entryLine (table name : String) (record : Record) :
  (entryLine table name record).toList
    = table.toList ++ ':' :: (name.toList ++ ':' :: record.text.toList)
  := by simp [entryLine]

/-- The parts of a line are found where they were written. -/
theorem splitLine_line {place : Table} (writable : place.IsWritable) (record : Record) :
  splitLine (place.line record).toList = (place, record.text.toList)
  := by
  cases place with
  | summary =>
    rw [line, splitLine, Text.cutAt_eq_none_iff.mpr (record.not_mem_text (by simp))]
  | deck name | suit name =>
    have cut : Text.cutAt ':' (name.toList ++ ':' :: record.text.toList)
        = some (name.toList, record.text.toList) := Text.cutAt_eq_some_iff.mpr ⟨rfl, writable.1⟩
    rw [line, toList_entryLine, splitLine, Text.cutAt_eq_some_iff.mpr ⟨rfl, by decide⟩]
    simp only [cut, String.ofList_toList]

theorem trim_line (place : Table) (record : Record) :
  Text.trim (place.line record).toList = (place.line record).toList
  := by
  cases place with
  | summary => simpa [line] using record.trim_append_text [] (by simp)
  | deck name | suit name =>
    rw [line, entryLine, String.toList_append]
    apply record.trim_append_text
    simp [Text.isBlank]

/-- No line of a writable place holds a line feed. -/
theorem not_mem_line {place : Table} (writable : place.IsWritable) (record : Record) :
  '\n' ∉ (place.line record).toList
  := by
  have text : '\n' ∉ record.text.toList := record.not_mem_text (by simp)
  cases place with
  | summary => apply text
  | deck name | suit name =>
    have name := writable.2
    rw [line, toList_entryLine]
    simp [name, text]

end Table

/-- A name that is read from a line without line feeds keeps the form of a line. -/
theorem isWritable_splitLine {line : List Char} (h : '\n' ∉ line) :
  (splitLine line).1.IsWritable
  := by
  rw [splitLine]
  split
  · trivial
  · rename_i table rest cut
    obtain ⟨rfl, -⟩ := Text.cutAt_eq_some_iff.mp cut
    split
    · trivial
    · rename_i name record cut
      obtain ⟨rfl, fresh⟩ := Text.cutAt_eq_some_iff.mp cut
      have writable : IsWritable (String.ofList name) := by
        rw [IsWritable, String.toList_ofList]
        refine ⟨fresh, ?_⟩
        intro feed
        apply h
        simp [feed]
      split
      · apply writable
      · apply writable
      · trivial

/-! ### Reading what was written -/

/-- The records of decks and of suits with their places. -/
def namedEntries (statistics : Statistics) : List (Table × Record) :=
  (statistics.decks.entries.map fun (name, record) => (.deck name, record))
    ++ statistics.suits.entries.map fun (name, record) => (.suit name, record)

/-- All records with their places. -/
def entries (statistics : Statistics) : List (Table × Record) :=
  (.summary, statistics.base) :: statistics.namedEntries

theorem textLines_eq_map_line (statistics : Statistics) :
  statistics.textLines = statistics.entries.map fun entry => entry.1.line entry.2
  := by simp [textLines, entries, namedEntries, Table.line, Function.comp_def]

namespace Draft

/-- The draft with a record at a place. -/
def enter (draft : Draft) (place : Table) (record : Record) : Draft :=
  let statistics := draft.statistics
  match place with
  | .summary => ⟨{ statistics with base := record }, true⟩
  | .deck name =>
    { draft with statistics := { statistics with decks := statistics.decks.put name record } }
  | .suit name =>
    { draft with statistics := { statistics with suits := statistics.suits.put name record } }

/-- A line is skipped, or a record is entered at the place that the line names. -/
theorem value_readLine (draft : Draft) (line : List Char) :
  (draft.readLine line).value = draft
    ∨ ∃ record, (draft.readLine line).value
      = draft.enter (splitLine (Text.trim line)).1 record
  := by
  simp only [readLine]
  by_cases blank : (Text.trim line).isEmpty = true
  · left
    rw [if_pos blank]
    rfl
  · rw [if_neg blank]
    rcases splitLine (Text.trim line) with ⟨place, text⟩
    rcases Record.read text with _ | record
    · left
      rfl
    · cases place with
      | summary =>
        dsimp only
        split
        · left
          rfl
        · right
          exact ⟨record, rfl⟩
      | deck name | suit name =>
        right
        exact ⟨record, rfl⟩

/-- A line that was written is read without a defect, unless it is a second one for all
games. -/
theorem readLine_line (draft : Draft) {place : Table} (writable : place.IsWritable)
    (fresh : place = .summary → draft.summarised = false) (record : Record) :
  draft.readLine (place.line record).toList = .clean (draft.enter place record)
  := by
  have some : (place.line record).toList.isEmpty = false := by
    cases place with
    | summary => simp [Table.line, Record.toList_text]
    | deck name | suit name => simp [Table.line, Table.toList_entryLine]
  simp only [readLine, Table.trim_line, some, Table.splitLine_line writable, Record.read_text]
  cases place with
  | summary => simp [fresh rfl, enter, Script.Reading.clean]
  | deck name | suit name => rfl

theorem readLines_append (draft : Draft) (before after : List (Nat × List Char)) :
  draft.readLines (before ++ after)
    = ⟨((draft.readLines before).value.readLines after).value,
      (draft.readLines before).warnings
        ++ ((draft.readLines before).value.readLines after).warnings⟩
  := by
  induction before generalizing draft with
  | nil => simp [readLines]
  | cons first rest ih => simp [readLines, ih]

/-- Lines of decks and suits are read without warnings. -/
theorem readLines_map_line {entries : List (Table × Record)}
    (plain : ∀ entry ∈ entries, entry.1.IsWritable ∧ entry.1 ≠ .summary)
    {numbered : List (Nat × List Char)}
    (lines : numbered.map (·.2) = entries.map fun entry => (entry.1.line entry.2).toList)
    (draft : Draft) :
  draft.readLines numbered
    = ⟨entries.foldl (fun draft entry => draft.enter entry.1 entry.2) draft, []⟩
  := by
  induction entries generalizing numbered draft with
  | nil =>
    obtain rfl := List.map_eq_nil_iff.mp lines
    rfl
  | cons entry rest ih =>
    obtain ⟨first, others⟩ := List.forall_mem_cons.mp plain
    obtain ⟨⟨number, line⟩, numbered, rfl, rfl, later⟩ := List.map_eq_cons_iff.mp lines
    have read := draft.readLine_line first.1 (fun same => absurd same first.2) entry.2
    simp only [readLines]
    rw [read]
    simp [Script.Reading.clean, Script.warningsAt, ih others later]

theorem foldl_enter_decks (records : List (String × Record)) (draft : Draft) :
  (records.map fun (name, record) => (Table.deck name, record)).foldl
      (fun draft entry => Draft.enter draft entry.1 entry.2) draft
    = { draft with statistics := { draft.statistics with
        decks := records.foldl (fun ledger entry => ledger.put entry.1 entry.2)
          draft.statistics.decks } }
  := by
  rw [List.foldl_map]
  apply List.foldl_hom fun decks : Ledger Record =>
    ({ draft with statistics := { draft.statistics with decks } } : Draft)
  intro ledger entry
  rfl

theorem foldl_enter_suits (records : List (String × Record)) (draft : Draft) :
  (records.map fun (name, record) => (Table.suit name, record)).foldl
      (fun draft entry => Draft.enter draft entry.1 entry.2) draft
    = { draft with statistics := { draft.statistics with
        suits := records.foldl (fun ledger entry => ledger.put entry.1 entry.2)
          draft.statistics.suits } }
  := by
  rw [List.foldl_map]
  apply List.foldl_hom fun suits : Ledger Record =>
    ({ draft with statistics := { draft.statistics with suits } } : Draft)
  intro ledger entry
  rfl

end Draft

/-- The names of decks and of suits. -/
def names (statistics : Statistics) : List String :=
  statistics.decks.names ++ statistics.suits.names

/-- Entering the records of statistics one after another gives the statistics. -/
theorem foldl_enter_namedEntries (statistics : Statistics) :
  (statistics.namedEntries.foldl (fun draft entry => Draft.enter draft entry.1 entry.2)
      (Draft.enter {} .summary statistics.base)).statistics
    = statistics
  := by
  rw [namedEntries, List.foldl_append, Draft.foldl_enter_decks, Draft.foldl_enter_suits]
  obtain ⟨base, decks, suits⟩ := statistics
  simp only [Draft.enter]
  congr 1
  · apply decks.foldl_put_entries
  · apply suits.foldl_put_entries

theorem ne_summary_of_mem_namedEntries {statistics : Statistics} {entry : Table × Record}
    (h : entry ∈ statistics.namedEntries) :
  entry.1 ≠ .summary
  := by
  rcases List.mem_append.mp h with deck | suit
  · obtain ⟨_, -, rfl⟩ := List.mem_map.mp deck
    simp
  · obtain ⟨_, -, rfl⟩ := List.mem_map.mp suit
    simp

theorem isWritable_of_mem_entries {statistics : Statistics}
    (writable : ∀ name ∈ statistics.names, IsWritable name) :
  ∀ entry ∈ statistics.entries, entry.1.IsWritable
  := by
  intro entry mem
  rw [entries, namedEntries, List.mem_cons, List.mem_append] at mem
  rcases mem with rfl | deck | suit
  · trivial
  · obtain ⟨⟨name, record⟩, listed, rfl⟩ := List.mem_map.mp deck
    apply writable name (List.mem_append_left _ (List.mem_map_of_mem listed))
  · obtain ⟨⟨name, record⟩, listed, rfl⟩ := List.mem_map.mp suit
    apply writable name (List.mem_append_right _ (List.mem_map_of_mem listed))

/-- The text of statistics whose names keep the form of a line reads back without warnings. -/
theorem read_text {statistics : Statistics}
    (writable : ∀ name ∈ statistics.names, IsWritable name) :
  read statistics.text = ⟨statistics, []⟩
  := by
  have places := isWritable_of_mem_entries writable
  have lines : (Script.numberedLines statistics.text).map (·.2)
      = (statistics.entries.map fun entry => (entry.1.line entry.2).toList) ++ [[]] := by
    rw [Script.map_snd_numberedLines, text, textLines_eq_map_line, Text.lines_join, List.map_map]
    · rfl
    · intro line mem
      obtain ⟨entry, listed, rfl⟩ := List.mem_map.mp mem
      apply Table.not_mem_line (places entry listed)
  obtain ⟨numbered, last, split, written, closing⟩ := List.map_eq_append_iff.mp lines
  obtain ⟨⟨number, line⟩, rfl, rfl⟩ := List.map_eq_singleton_iff.mp closing
  rw [entries, List.map_cons] at written
  obtain ⟨⟨number', line'⟩, numbered, rfl, first, written⟩ := List.map_eq_cons_iff.mp written
  have summary := Draft.readLine_line {} (show Table.summary.IsWritable from trivial) (fun _ => rfl)
    statistics.base
  have others : ∀ draft : Draft, draft.readLines numbered
      = ⟨statistics.namedEntries.foldl (fun draft entry => draft.enter entry.1 entry.2) draft,
        []⟩ := by
    apply Draft.readLines_map_line _ written
    intro entry mem
    exact ⟨places entry (List.mem_cons_of_mem _ mem), ne_summary_of_mem_namedEntries mem⟩
  have blank : ∀ draft : Draft, draft.readLines [(number, [])] = ⟨draft, []⟩ := by
    intro draft
    rfl
  rw [read, split, List.cons_append, Draft.readLines]
  dsimp only at first ⊢
  rw [first, summary, Draft.readLines_append]
  simp only [Script.Reading.clean, others, blank]
  rw [foldl_enter_namedEntries]
  rfl

/-! ### Names that are read -/

namespace Draft

/-- Whether all names of a draft keep the form of a line. -/
def IsWritable (draft : Draft) : Prop :=
  ∀ name ∈ draft.statistics.names, Statistics.IsWritable name

namespace IsWritable

variable {draft : Draft}

theorem enter {place : Table} (h : draft.IsWritable) (writable : place.IsWritable)
    (record : Record) :
  (draft.enter place record).IsWritable
  := by
  intro name mem
  cases place with
  | summary => apply h name mem
  | deck deck =>
    rcases List.mem_append.mp mem with inDecks | inSuits
    · rcases Ledger.mem_names_put inDecks with rfl | old
      · apply writable
      · apply h name (List.mem_append_left _ old)
    · apply h name (List.mem_append_right _ inSuits)
  | suit suit =>
    rcases List.mem_append.mp mem with inDecks | inSuits
    · apply h name (List.mem_append_left _ inDecks)
    · rcases Ledger.mem_names_put inSuits with rfl | old
      · apply writable
      · apply h name (List.mem_append_right _ old)

theorem readLine {line : List Char} (h : draft.IsWritable) (plain : '\n' ∉ line) :
  (draft.readLine line).value.IsWritable
  := by
  rcases value_readLine draft line with same | ⟨record, entered⟩
  · rw [same]
    apply h
  · rw [entered]
    apply h.enter
    apply isWritable_splitLine
    intro feed
    apply plain (Text.trim_subset line feed)

theorem readLines {numbered : List (Nat × List Char)} (h : draft.IsWritable)
    (plain : ∀ line ∈ numbered.map (·.2), '\n' ∉ line) :
  (draft.readLines numbered).value.IsWritable
  := by
  induction numbered generalizing draft with
  | nil => apply h
  | cons first rest ih =>
    obtain ⟨here, later⟩ := List.forall_mem_cons.mp plain
    apply ih (h.readLine here) later

end IsWritable

end Draft

/-- No text makes a name that breaks the form of a line. -/
theorem isWritable_of_mem_names_read (text : String) :
  ∀ name ∈ (read text).value.names, IsWritable name
  := by
  have start : Draft.IsWritable {} := by
    intro name mem
    contradiction
  apply start.readLines
  intro line mem
  rw [Script.map_snd_numberedLines] at mem
  apply Text.not_mem_of_mem_lines mem

/-- The text of statistics reads back without warnings exactly if no name of a deck or a suit
holds a colon or a line feed. -/
theorem reads_back_iff (statistics : Statistics) :
  (read statistics.text).warnings = [] ∧ (read statistics.text).value = statistics
    ↔ ∀ name, name ∈ statistics.decks.names ∨ name ∈ statistics.suits.names →
      ':' ∉ name.toList ∧ '\n' ∉ name.toList
  := by
  constructor
  · rintro ⟨-, same⟩ name mem
    apply isWritable_of_mem_names_read statistics.text
    rw [same]
    apply List.mem_append.mpr mem
  · intro writable
    rw [read_text]
    · exact ⟨rfl, rfl⟩
    · intro name mem
      apply writable name (List.mem_append.mp mem)

end CardDuel.Statistics
