import CardDuel.Text.Blank
import CardDuel.Text.Integer
import Mathlib.Data.List.TakeWhile
import Mathlib.Tactic.Common

/-!
# Texts taken apart and put together

Cutting a text at separators undoes joining pieces without separators, whether the pieces are
lines, fields, words or what stands before and after a mark.  Trimming undoes the padding of fields.
A text of decimal digits, possibly after a sign, denotes a number of any size (`Denotes`) and reads
as that number if it is in range; so reading a number undoes writing it.  Raising letters to
capitals changes neither where words end nor what is a number.
-/

namespace CardDuel.Text

/-! ### Pieces -/

theorem pieces_eq_splitOnP (isSeparator : Char → Bool) (cs : List Char) :
  pieces isSeparator cs = cs.splitOnP isSeparator
  := by
  induction cs with
  | nil => rfl
  | cons c cs ih =>
    rw [List.splitOnP_cons_eq_if_modifyHead, ← ih, pieces]
    rcases cut : pieces isSeparator cs with _ | ⟨piece, rest⟩
    · exact absurd cut (pieces_ne_nil isSeparator cs)
    · rfl

/-- The pieces before and after a separator do not meet. -/
theorem pieces_append_separator {isSeparator : Char → Bool} (before : List Char) {c : Char}
    (separator : isSeparator c = true) (after : List Char) :
  pieces isSeparator (before ++ c :: after)
    = pieces isSeparator before ++ pieces isSeparator after
  := by
  rw [pieces_eq_splitOnP, pieces_eq_splitOnP, pieces_eq_splitOnP]
  apply List.splitOnP_append_cons before after separator

/-- The first piece ends at the first separator. -/
theorem pieces_append_cons {isSeparator : Char → Bool} {before : List Char} {c : Char}
    (plain : ∀ b ∈ before, isSeparator b = false) (separator : isSeparator c = true)
    (after : List Char) :
  pieces isSeparator (before ++ c :: after) = before :: pieces isSeparator after
  := by
  rw [pieces_eq_splitOnP, pieces_eq_splitOnP]
  apply List.splitOnP_append_cons_of_forall_mem plain c separator

theorem pieces_of_forall {isSeparator : Char → Bool} {cs : List Char}
    (plain : ∀ c ∈ cs, isSeparator c = false) :
  pieces isSeparator cs = [cs]
  := by
  rw [pieces_eq_splitOnP]
  apply List.splitOnP_eq_singleton plain

/-- Lines that are closed by line feeds read back, and nothing stands after the last one. -/
theorem lines_join {ls : List String} (plain : ∀ l ∈ ls, '\n' ∉ l.toList) :
  lines (String.join (ls.map (· ++ "\n"))) = ls.map String.toList ++ [[]]
  := by
  induction ls with
  | nil => rfl
  | cons l rest ih =>
    obtain ⟨first, others⟩ := List.forall_mem_cons.mp plain
    have closed : (String.join ((l :: rest).map (· ++ "\n"))).toList
        = l.toList ++ '\n' :: (String.join (rest.map (· ++ "\n"))).toList := by
      simp
    rw [lines, closed, pieces_append_cons _ rfl]
    · rw [← lines, ih others]
      rfl
    · intro c mem
      apply beq_eq_false_iff_ne.mpr
      rintro rfl
      exact first mem

/-- No line of a text holds a line feed. -/
theorem not_mem_of_mem_lines {text : String} {line : List Char} (h : line ∈ lines text) :
  '\n' ∉ line
  := by
  intro mem
  have plain := not_isSeparator_of_mem_pieces _ _ line h '\n' mem
  simp at plain

/-! ### Trimming -/

/-- A text that neither begins nor ends with a blank has nothing to trim. -/
theorem trim_eq_self {cs : List Char} (first : ∀ c ∈ cs.head?, isBlank c = false)
    (last : ∀ c ∈ cs.getLast?, isBlank c = false) :
  trim cs = cs
  := by
  have keep : ∀ ds : List Char, (∀ d ∈ ds.head?, isBlank d = false) →
      ds.dropWhile isBlank = ds := by
    intro ds start
    cases ds with
    | nil => rfl
    | cons d ds => rw [List.dropWhile_cons_of_neg (by simp [start d rfl])]
  rw [trim, keep cs first, keep cs.reverse, List.reverse_reverse]
  rw [List.head?_reverse]
  apply last

/-- Blanks in front are trimmed. -/
theorem trim_cons {c : Char} (blank : isBlank c = true) (cs : List Char) :
  trim (c :: cs) = trim cs
  := by rw [trim, List.dropWhile_cons_of_pos blank, trim]

theorem trim_subset (cs : List Char) :
  trim cs ⊆ cs
  := by
  intro c mem
  rw [trim, List.mem_reverse] at mem
  have kept := (List.dropWhile_suffix _).subset mem
  rw [List.mem_reverse] at kept
  apply (List.dropWhile_suffix _).subset kept

/-- Nothing is left of a text by trimming it exactly if it is blank. -/
theorem trim_eq_nil_iff {cs : List Char} :
  trim cs = [] ↔ ∀ c ∈ cs, isBlank c = true
  := by
  rw [trim, List.reverse_eq_nil_iff, List.dropWhile_eq_nil_iff]
  constructor
  · intro blank
    apply List.dropWhile_eq_nil_iff.mp
    by_contra some
    -- what the first trimming leaves begins with a character that is not blank
    have solid := List.head_dropWhile_not isBlank some
    have mem := List.mem_reverse.mpr (List.head_mem some)
    rw [blank _ mem] at solid
    contradiction
  · intro blank
    rw [List.dropWhile_eq_nil_iff.mpr blank]
    simp

theorem isBlank_of_mem_head?_dropWhile {cs : List Char} {c : Char}
    (first : c ∈ (cs.dropWhile isBlank).head?) :
  isBlank c = false
  := by
  have kept := List.head?_dropWhile_not isBlank cs
  rw [first] at kept
  exact kept

theorem isBlank_of_mem_head?_trim {cs : List Char} {c : Char} (first : c ∈ (trim cs).head?) :
  isBlank c = false
  := by
  -- what is left begins where the blanks in front end
  obtain ⟨blanks, parts⟩ := List.dropWhile_suffix isBlank (l := (cs.dropWhile isBlank).reverse)
  have front : cs.dropWhile isBlank = trim cs ++ blanks.reverse := by
    rw [trim, ← List.reverse_append, parts, List.reverse_reverse]
  have kept : c ∈ (cs.dropWhile isBlank).head? := by
    rw [front, List.head?_append, first]
    rfl
  apply isBlank_of_mem_head?_dropWhile kept

theorem isBlank_of_mem_getLast?_trim {cs : List Char} {c : Char}
    (last : c ∈ (trim cs).getLast?) :
  isBlank c = false
  := by
  rw [trim, List.getLast?_reverse] at last
  apply isBlank_of_mem_head?_dropWhile last

/-- A text that has been trimmed has nothing to trim. -/
theorem trim_trim (cs : List Char) :
  trim (trim cs) = trim cs
  := trim_eq_self (fun _ => isBlank_of_mem_head?_trim) fun _ => isBlank_of_mem_getLast?_trim

/-- Fields that are joined by commas and spaces read back, if they are made of neither commas
nor blanks. -/
theorem map_trim_pieces_intercalate {fields : List String} (some : fields ≠ [])
    (plain : ∀ field ∈ fields, ∀ c ∈ field.toList, c ≠ ',' ∧ isBlank c = false) :
  (pieces (· == ',') (", ".intercalate fields).toList).map trim = fields.map String.toList
  := by
  have trimmed : ∀ field ∈ fields, trim field.toList = field.toList := by
    intro field mem
    apply trim_eq_self
    · intro c first
      apply (plain field mem c (List.mem_of_mem_head? first)).2
    · intro c last
      apply (plain field mem c (List.mem_of_mem_getLast? last)).2
  have noComma : ∀ field ∈ fields, ∀ c ∈ field.toList, (c == ',') = false := by
    intro field mem c inside
    apply beq_eq_false_iff_ne.mpr (plain field mem c inside).1
  clear plain
  induction fields with
  | nil => contradiction
  | cons field rest ih =>
    obtain ⟨first, others⟩ := List.forall_mem_cons.mp noComma
    obtain ⟨firstTrimmed, othersTrimmed⟩ := List.forall_mem_cons.mp trimmed
    cases rest with
    | nil => simp [pieces_of_forall first, firstTrimmed]
    | cons second rest =>
      have split : (", ".intercalate (field :: second :: rest)).toList
          = field.toList ++ ',' :: ' ' :: (", ".intercalate (second :: rest)).toList := by
        simp
      rw [split, pieces_append_cons first rfl, List.map_cons, firstTrimmed, List.map_cons,
        ← ih (by simp) othersTrimmed others]
      -- the space after the comma belongs to the next field until it is trimmed
      rcases cut : pieces (· == ',') (", ".intercalate (second :: rest)).toList with
        _ | ⟨piece, pieces'⟩
      · exact absurd cut (pieces_ne_nil _ _)
      · rw [pieces, cut]
        simp [trim_cons (show isBlank ' ' = true from rfl)]

/-- Joined texts are made of the characters of the texts and of what joins them. -/
theorem mem_intercalate {joint : String} {texts : List String} {c : Char}
    (h : c ∈ (joint.intercalate texts).toList) :
  c ∈ joint.toList ∨ ∃ text ∈ texts, c ∈ text.toList
  := by
  induction texts with
  | nil => simp at h
  | cons text rest ih =>
    cases rest with
    | nil =>
      right
      exact ⟨text, List.mem_cons_self, by simpa using h⟩
    | cons second rest =>
      rw [String.intercalate_cons_cons, String.toList_append, String.toList_append,
        List.mem_append, List.mem_append] at h
      rcases h with (first | between) | later
      · right
        exact ⟨text, List.mem_cons_self, first⟩
      · left
        apply between
      · apply (ih later).imp_right
        rintro ⟨other, mem, inside⟩
        exact ⟨other, List.mem_cons_of_mem _ mem, inside⟩

/-! ### Words -/

/-- The text is a single word: it is not empty and holds no separator. -/
def IsWord (isSeparator : Char → Bool) (word : String) : Prop :=
  word ≠ "" ∧ ∀ c ∈ word.toList, isSeparator c = false

theorem isWord_of_mem_words {isSeparator : Char → Bool} {text word : String}
    (h : word ∈ words isSeparator text) :
  IsWord isSeparator word
  := by
  obtain ⟨piece, kept, rfl⟩ := List.mem_map.mp h
  obtain ⟨mem, nonempty⟩ := List.mem_filter.mp kept
  constructor
  · simpa using nonempty
  · rw [String.toList_ofList]
    apply not_isSeparator_of_mem_pieces isSeparator text.toList piece mem

theorem IsWord.words_eq {isSeparator : Char → Bool} {word : String}
    (h : IsWord isSeparator word) :
  words isSeparator word = [word]
  := by
  obtain ⟨nonempty, plain⟩ := h
  rw [words, pieces_of_forall plain]
  simp [nonempty]

theorem flatMap_words {isSeparator : Char → Bool} {ws : List String}
    (h : ∀ w ∈ ws, IsWord isSeparator w) :
  ws.flatMap (words isSeparator) = ws
  := by
  induction ws with
  | nil => rfl
  | cons w rest ih =>
    obtain ⟨first, others⟩ := List.forall_mem_cons.mp h
    rw [List.flatMap_cons, first.words_eq, ih others]
    rfl

/-- No word reaches across a separator. -/
theorem words_append_separator {isSeparator : Char → Bool} (before : List Char) {c : Char}
    (separator : isSeparator c = true) (after : List Char) :
  words isSeparator (String.ofList (before ++ c :: after))
    = words isSeparator (String.ofList before) ++ words isSeparator (String.ofList after)
  := by
  simp only [words, String.toList_ofList]
  rw [pieces_append_separator before separator, List.filter_append, List.map_append]

theorem words_append_joint {isSeparator : Char → Bool} {joint : String} (some : joint ≠ "")
    (separators : ∀ c ∈ joint.toList, isSeparator c = true) (before after : String) :
  words isSeparator (before ++ joint ++ after)
    = words isSeparator before ++ words isSeparator after
  := by
  have skip : ∀ cs : List Char, (∀ c ∈ cs, isSeparator c = true) →
      words isSeparator (String.ofList (cs ++ after.toList)) = words isSeparator after := by
    intro cs
    induction cs with
    | nil => simp
    | cons c cs ih =>
      intro separators
      obtain ⟨first, others⟩ := List.forall_mem_cons.mp separators
      rw [List.cons_append, ← ih others]
      apply words_append_separator [] first
  obtain ⟨c, cs, split⟩ := List.exists_cons_of_ne_nil (l := joint.toList) (by simpa using some)
  rw [split] at separators
  obtain ⟨first, others⟩ := List.forall_mem_cons.mp separators
  have text : before ++ joint ++ after
      = String.ofList (before.toList ++ c :: (cs ++ after.toList)) := by
    rw [← String.toList_inj]
    simp [split]
  rw [text, words_append_separator _ first, skip cs others, String.ofList_toList]

/-- Texts that are joined by separators keep their words. -/
theorem words_intercalate {isSeparator : Char → Bool} {joint : String} (some : joint ≠ "")
    (separators : ∀ c ∈ joint.toList, isSeparator c = true) (texts : List String) :
  words isSeparator (joint.intercalate texts) = texts.flatMap (words isSeparator)
  := by
  induction texts with
  | nil => simp [words, pieces]
  | cons text rest ih =>
    cases rest with
    | nil => simp
    | cons second rest =>
      rw [String.intercalate_cons_cons, words_append_joint some separators, ih]
      rfl

/-- Texts that are joined by spaces keep their words. -/
theorem words_unwords (isSeparator : Char → Bool) (space : isSeparator ' ' = true)
    (texts : List String) :
  words isSeparator (unwords texts) = texts.flatMap (words isSeparator)
  := by
  apply words_intercalate
  · simp
  · simpa using space

theorem toList_unwords_cons (first : String) (rest : List String) :
  (unwords (first :: rest)).toList
    = first.toList ++ (if rest = [] then [] else ' ' :: (unwords rest).toList)
  := by
  cases rest with
  | nil => simp [unwords]
  | cons second rest =>
    rw [unwords, String.intercalate_cons_cons]
    simp [unwords]

/-- Words that are joined by spaces have no blanks at the ends. -/
theorem trim_unwords {ws : List String} (h : ∀ w ∈ ws, IsWord isBlank w) :
  trim (unwords ws).toList = (unwords ws).toList
  := by
  apply trim_eq_self
  · intro c first
    cases ws with
    | nil => simp [unwords] at first
    | cons w rest =>
      obtain ⟨⟨nonempty, plain⟩, -⟩ := List.forall_mem_cons.mp h
      obtain ⟨d, ds, split⟩ := List.exists_cons_of_ne_nil (l := w.toList) (by simpa using nonempty)
      rw [toList_unwords_cons, split] at first
      obtain rfl := Option.some.inj first
      apply plain
      rw [split]
      exact List.mem_cons_self
  · intro c last
    induction ws with
    | nil => simp [unwords] at last
    | cons w rest ih =>
      obtain ⟨⟨-, plain⟩, others⟩ := List.forall_mem_cons.mp h
      rw [toList_unwords_cons] at last
      cases rest with
      | nil =>
        rw [if_pos rfl, List.append_nil] at last
        apply plain c (List.mem_of_mem_getLast? last)
      | cons second rest =>
        apply ih others
        have some : (unwords (second :: rest)).toList ≠ [] := by
          rw [toList_unwords_cons]
          simp [(others second List.mem_cons_self).1]
        obtain ⟨ds, d, split⟩ := (List.eq_nil_or_concat _).resolve_left some
        rw [List.concat_eq_append] at split
        rw [if_neg (by simp), split, ← List.cons_append, ← List.append_assoc,
          List.getLast?_concat] at last
        rw [split, List.getLast?_concat]
        exact last

/-- The text is made of words with single spaces between them. -/
def IsPhrase (text : String) : Prop :=
  words isBlank text ≠ [] ∧ unwords (words isBlank text) = text

theorem isPhrase_unwords {ws : List String} (some : ws ≠ []) (h : ∀ w ∈ ws, IsWord isBlank w) :
  IsPhrase (unwords ws)
  := by
  rw [IsPhrase, words_unwords _ rfl, flatMap_words h]
  exact ⟨some, rfl⟩

theorem IsWord.isPhrase {word : String} (h : IsWord isBlank word) :
  IsPhrase word
  := by
  rw [IsPhrase, h.words_eq]
  simp [unwords]

/-! ### Marks -/

/-- The parts of a text around the first occurrence of a mark. -/
theorem cutAt_eq_some_iff {mark : Char} {cs before after : List Char} :
  cutAt mark cs = some (before, after) ↔ cs = before ++ mark :: after ∧ mark ∉ before
  := by
  induction cs generalizing before with
  | nil => simp [cutAt]
  | cons c cs ih =>
    rw [cutAt]
    split
    · rename_i here
      subst here
      constructor
      · intro h
        obtain ⟨rfl, rfl⟩ := Prod.mk.inj (Option.some.inj h)
        exact ⟨rfl, by simp⟩
      · rintro ⟨split, fresh⟩
        cases before with
        | nil => simpa using split
        | cons b before =>
          obtain ⟨rfl, -⟩ := List.cons.inj split
          exact absurd List.mem_cons_self fresh
    · rename_i other
      rw [Option.map_eq_some_iff]
      constructor
      · rintro ⟨⟨before', after'⟩, cut, same⟩
        obtain ⟨rfl, rfl⟩ := Prod.mk.inj same
        obtain ⟨rfl, fresh⟩ := ih.mp cut
        refine ⟨rfl, ?_⟩
        simpa [Ne.symm other] using fresh
      · rintro ⟨split, fresh⟩
        cases before with
        | nil =>
          obtain ⟨same, -⟩ := List.cons.inj split
          exact absurd same other
        | cons b before =>
          obtain ⟨rfl, rest⟩ := List.cons.inj split
          exact ⟨(before, after), ih.mpr ⟨rest, List.not_mem_of_not_mem_cons fresh⟩, rfl⟩

theorem cutAt_eq_none_iff {mark : Char} {cs : List Char} :
  cutAt mark cs = none ↔ mark ∉ cs
  := by
  induction cs with
  | nil => simp [cutAt]
  | cons c cs ih =>
    rw [cutAt]
    split
    · simp_all
    · rename_i other
      simp [ih, Ne.symm other]

/-! ### Numbers -/

theorem isBlank_of_isDigit {c : Char} (digit : c.isDigit = true) :
  isBlank c = false
  := by
  simp only [Char.isDigit, Bool.and_eq_true, decide_eq_true_eq, ge_iff_le,
    UInt32.le_iff_toNat_le] at digit
  have low : 48 ≤ c.toNat := digit.1
  have high : c.toNat ≤ 57 := digit.2
  apply Bool.eq_false_iff.mpr
  intro blank
  simp only [isBlank, Bool.or_eq_true, Bool.and_eq_true, decide_eq_true_eq, beq_iff_eq] at blank
  omega

/-- A nonempty row of decimal digits. -/
def IsDecimal (digits : List Char) : Prop :=
  digits ≠ [] ∧ ∀ c ∈ digits, c.isDigit = true

namespace IsDecimal

variable {digits : List Char}

theorem readDigits_eq (decimal : IsDecimal digits) :
  readDigits digits = some (Nat.ofDigitChars 10 digits 0)
  := by
  obtain ⟨some, plain⟩ := decimal
  simp [readDigits, some, List.all_eq_true.mpr plain]

theorem ne_cons (decimal : IsDecimal digits) {c : Char} (sign : c.isDigit = false)
    (cs : List Char) :
  digits ≠ c :: cs
  := by
  rintro rfl
  have digit := decimal.2 c List.mem_cons_self
  rw [sign] at digit
  contradiction

/-- Digits without a sign read as an unsigned number, if it is small enough. -/
theorem readUnsigned_eq (decimal : IsDecimal digits) (bits : Nat) :
  readUnsigned bits (String.ofList digits)
    = (some (Nat.ofDigitChars 10 digits 0)).filter (· < 1 <<< bits)
  := by
  rw [readUnsigned, String.toList_ofList]
  split
  · exact absurd rfl (decimal.ne_cons rfl _)
  · rw [decimal.readDigits_eq]

end IsDecimal

theorem isDecimal_toDigits (n : Nat) :
  IsDecimal (Nat.toDigits 10 n)
  := by
  refine ⟨Nat.toDigits_ne_nil, ?_⟩
  intro c mem
  apply Nat.isDigit_of_mem_toDigits (by decide) (by decide) mem

theorem toList_toString_nat (n : Nat) :
  (toString n).toList = Nat.toDigits 10 n
  := by simp

theorem toString_nat (n : Nat) :
  toString n = String.ofList (Nat.toDigits 10 n)
  := by rw [← toList_toString_nat, String.ofList_toList]

theorem isDigit_of_mem_toString {n : Nat} {c : Char} (h : c ∈ (toString n).toList) :
  c.isDigit = true
  := by
  rw [toList_toString_nat] at h
  apply (isDecimal_toDigits n).2 c h

/-- A number that fits reads back. -/
theorem readUnsigned_toString {bits n : Nat} (fits : n < 1 <<< bits) :
  readUnsigned bits (toString n) = some n
  := by
  rw [toString_nat, (isDecimal_toDigits n).readUnsigned_eq, Nat.ofDigitChars_toDigits]
  · simpa using fits
  · decide
  · decide

theorem isDigit_of_readDigits {cs : List Char} {n : Nat} (h : readDigits cs = some n) :
  ∀ c ∈ cs, c.isDigit = true
  := by
  rw [readDigits] at h
  split at h
  · rename_i digits
    rw [Bool.and_eq_true] at digits
    apply List.all_eq_true.mp digits.2
  · cases h

/-- The characters of a signed number. -/
def IsNumeralChar (c : Char) : Prop :=
  c = '+' ∨ c = '-' ∨ c.isDigit = true

instance (c : Char) : Decidable (IsNumeralChar c) :=
  inferInstanceAs (Decidable (_ ∨ _))

theorem isNumeralChar_of_readSigned {bits : Nat} {text : String} {n : Int}
    (h : readSigned bits text = some n) :
  ∀ c ∈ text.toList, IsNumeralChar c
  := by
  rw [readSigned, Option.filter_eq_some_iff] at h
  obtain ⟨number, -⟩ := h
  have digits : ∀ cs : List Char, readDigits cs ≠ none → ∀ c ∈ cs, IsNumeralChar c := by
    intro cs read c mem
    obtain ⟨m, read⟩ := Option.ne_none_iff_exists'.mp read
    exact .inr (.inr (isDigit_of_readDigits read c mem))
  split at number
  · rename_i cs split
    rw [split]
    refine List.forall_mem_cons.mpr ⟨.inl rfl, digits cs ?_⟩
    rintro unread
    simp [unread] at number
  · rename_i cs split
    rw [split]
    refine List.forall_mem_cons.mpr ⟨.inr (.inl rfl), digits cs ?_⟩
    rintro unread
    simp [unread] at number
  · apply digits
    rintro unread
    simp [unread] at number

/-- A number that is read lies in its range. -/
theorem inRange_of_readSigned {bits : Nat} {text : String} {n : Int}
    (h : readSigned bits text = some n) :
  Checked.InRange bits n
  := by
  rw [readSigned, Option.filter_eq_some_iff] at h
  apply of_decide_eq_true h.2

theorem lt_of_readUnsigned {bits n : Nat} {text : String} (h : readUnsigned bits text = some n) :
  n < 1 <<< bits
  := by
  rw [readUnsigned, Option.filter_eq_some_iff] at h
  simpa using h.2

theorem isBlank_of_isNumeralChar {c : Char} (h : IsNumeralChar c) :
  isBlank c = false
  := by
  rcases h with rfl | rfl | digit
  · rfl
  · rfl
  · exact isBlank_of_isDigit digit

/-- The texts of integers: decimal digits, possibly after a sign. -/
inductive Denotes : String → Int → Prop where
  | plain {digits : List Char} (decimal : IsDecimal digits) :
    Denotes (String.ofList digits) (Nat.ofDigitChars 10 digits 0)
  | plus {digits : List Char} (decimal : IsDecimal digits) :
    Denotes (String.ofList ('+' :: digits)) (Nat.ofDigitChars 10 digits 0)
  | minus {digits : List Char} (decimal : IsDecimal digits) :
    Denotes (String.ofList ('-' :: digits)) (-(Nat.ofDigitChars 10 digits 0 : Nat))

theorem denotes_toString_nat (n : Nat) :
  Denotes (toString n) n
  := by
  have literal := Denotes.plain (isDecimal_toDigits n)
  rw [Nat.ofDigitChars_toDigits (by decide) (by decide), ← toString_nat] at literal
  exact literal

theorem denotes_toString_int (n : Int) :
  Denotes (toString n) n
  := by
  cases n with
  | ofNat m => exact denotes_toString_nat m
  | negSucc m =>
    have literal := Denotes.minus (isDecimal_toDigits (m + 1))
    rw [Nat.ofDigitChars_toDigits (by decide) (by decide), ← List.singleton_append,
      String.ofList_append, ← toString_nat] at literal
    exact literal

namespace Denotes

variable {word : String} {n : Int}

theorem isNumeralChar (literal : Denotes word n) :
  ∀ c ∈ word.toList, IsNumeralChar c
  := by
  have digit : ∀ {digits}, IsDecimal digits → ∀ c ∈ digits, IsNumeralChar c :=
    fun decimal c mem => .inr (.inr (decimal.2 c mem))
  cases literal with
  | plain decimal =>
    rw [String.toList_ofList]
    exact digit decimal
  | plus decimal =>
    rw [String.toList_ofList]
    exact List.forall_mem_cons.mpr ⟨.inl rfl, digit decimal⟩
  | minus decimal =>
    rw [String.toList_ofList]
    exact List.forall_mem_cons.mpr ⟨.inr (.inl rfl), digit decimal⟩

/-- A number is a single word, unless its own characters are separators. -/
theorem isWord (literal : Denotes word n) {isSeparator : Char → Bool}
    (numeral : ∀ c, IsNumeralChar c → isSeparator c = false) :
  IsWord isSeparator word
  := by
  refine ⟨?_, fun c mem => numeral c (literal.isNumeralChar c mem)⟩
  cases literal with
  | plain decimal => simpa using decimal.1
  | plus decimal | minus decimal => simp

/-- A signed number reads as what it denotes, if this is in range. -/
theorem readSigned_eq (literal : Denotes word n) (bits : Nat) :
  readSigned bits word = if Checked.InRange bits n then some n else none
  := by
  have number : readSigned bits word
      = (some n).filter fun m => decide (Checked.InRange bits m) := by
    rw [readSigned]
    congr 1
    cases literal with
    | plain decimal =>
      rw [String.toList_ofList]
      split
      · exact absurd rfl (decimal.ne_cons rfl _)
      · exact absurd rfl (decimal.ne_cons rfl _)
      · rw [decimal.readDigits_eq]
        rfl
    | plus decimal | minus decimal => simp [decimal.readDigits_eq]
  rw [number, Option.filter_some]
  simp only [decide_eq_true_eq]

/-- A number after a minus sign is no unsigned number, and any other is, if it is small
enough. -/
theorem readUnsigned_cases (literal : Denotes word n) (bits : Nat) :
  n ≤ 0 ∧ readUnsigned bits word = none
    ∨ 0 ≤ n ∧ readUnsigned bits word = if n.toNat < 1 <<< bits then some n.toNat else none
  := by
  cases literal with
  | @plain digits decimal =>
    right
    refine ⟨Int.natCast_nonneg _, ?_⟩
    rw [decimal.readUnsigned_eq, Option.filter_some]
    simp
  | @plus digits decimal =>
    -- a plus sign changes nothing
    have unsigned : readUnsigned bits (String.ofList ('+' :: digits))
        = readUnsigned bits (String.ofList digits) := by
      rw [decimal.readUnsigned_eq, readUnsigned]
      simp [decimal.readDigits_eq]
    right
    refine ⟨Int.natCast_nonneg _, ?_⟩
    rw [unsigned, decimal.readUnsigned_eq, Option.filter_some]
    simp
  | @minus digits decimal =>
    left
    refine ⟨by omega, ?_⟩
    have unread : readDigits ('-' :: digits) = none := by
      apply Option.eq_none_iff_forall_ne_some.mpr
      intro m read
      exact absurd (isDigit_of_readDigits read '-' List.mem_cons_self) (by decide)
    rw [readUnsigned]
    simp [unread]

end Denotes

theorem isNumeralChar_of_mem_toString {n : Int} {c : Char} (h : c ∈ (toString n).toList) :
  IsNumeralChar c
  := (denotes_toString_int n).isNumeralChar c h

theorem isWord_toString_nat {isSeparator : Char → Bool}
    (numeral : ∀ c, IsNumeralChar c → isSeparator c = false) (n : Nat) :
  IsWord isSeparator (toString n)
  := (denotes_toString_nat n).isWord numeral

theorem isWord_toString_int {isSeparator : Char → Bool}
    (numeral : ∀ c, IsNumeralChar c → isSeparator c = false) (n : Int) :
  IsWord isSeparator (toString n)
  := (denotes_toString_int n).isWord numeral

/-- A signed number that fits reads back. -/
theorem readSigned_toString {bits : Nat} {n : Int} (fits : Checked.InRange bits n) :
  readSigned bits (toString n) = some n
  := by rw [(denotes_toString_int n).readSigned_eq, if_pos fits]

/-! ### Capitals -/

/-- Raising to capitals moves the letters a to z and nothing else. -/
theorem toNat_toUpper (c : Char) :
  c.toUpper.toNat = if 97 ≤ c.toNat ∧ c.toNat ≤ 122 then c.toNat - 32 else c.toNat
  := by
  have range : 'a'.val ≤ c.val ∧ c.val ≤ 'z'.val ↔ 97 ≤ c.toNat ∧ c.toNat ≤ 122 := by
    simp only [UInt32.le_iff_toNat_le]
    rfl
  by_cases letter : 97 ≤ c.toNat ∧ c.toNat ≤ 122
  · have raised : c.toUpper = _ := dif_pos (range.mpr letter)
    have moved : (c.val + ('A'.val - 'a'.val)).toNat = (c.toNat + 4294967264) % 4294967296 :=
      UInt32.toNat_add c.val ('A'.val - 'a'.val)
    rw [if_pos letter, raised]
    apply moved.trans
    omega
  · have same : c.toUpper = c := dif_neg (mt range.mp letter)
    rw [if_neg letter, same]

theorem isNumeralChar_iff (c : Char) :
  IsNumeralChar c ↔ c.toNat = 43 ∨ c.toNat = 45 ∨ 48 ≤ c.toNat ∧ c.toNat ≤ 57
  := by
  have digit : c.isDigit = true ↔ 48 ≤ c.toNat ∧ c.toNat ≤ 57 := by
    simp only [Char.isDigit, Bool.and_eq_true, decide_eq_true_eq, ge_iff_le,
      UInt32.le_iff_toNat_le]
    rfl
  rw [IsNumeralChar, digit, ← Char.toNat_inj, ← Char.toNat_inj]
  rfl

/-- Texts that differ only in capitals are alike under a property that capitals have exactly if
their small letters do. -/
theorem forall_mem_of_upper_eq {p : Char → Prop} (closed : ∀ c, p c.toUpper ↔ p c)
    {a b : String} (letters : upper a = upper b) (h : ∀ c ∈ a.toList, p c) :
  ∀ c ∈ b.toList, p c
  := by
  have raised : ∀ text : String, (∀ c ∈ (upper text).toList, p c) ↔ ∀ c ∈ text.toList, p c := by
    intro text
    simp [upper, closed]
  rw [← raised, ← letters, raised]
  exact h

theorem isBlank_toUpper (c : Char) :
  isBlank c.toUpper = isBlank c
  := by
  rw [isBlank, isBlank, toNat_toUpper]
  split
  · rename_i letter
    rw [Bool.eq_iff_iff]
    simp only [Bool.or_eq_true, Bool.and_eq_true, decide_eq_true_eq, beq_iff_eq]
    omega
  · rfl

theorem toUpper_toUpper (c : Char) :
  c.toUpper.toUpper = c.toUpper
  := by
  rw [← Char.toNat_inj, toNat_toUpper, toNat_toUpper]
  by_cases letter : 97 ≤ c.toNat ∧ c.toNat ≤ 122
  · rw [if_pos letter, if_neg (by omega)]
  · rw [if_neg letter, if_neg letter]

/-- Only capitals come about by raising letters. -/
theorem eq_of_toUpper_eq {c mark : Char} (other : mark.toNat < 65 ∨ 90 < mark.toNat)
    (h : c.toUpper = mark) :
  c = mark
  := by
  rw [← Char.toNat_inj, toNat_toUpper] at h
  split at h
  · omega
  · exact Char.toNat_inj.mp h

theorem not_mem_upper {text : String} {mark : Char}
    (other : mark.toNat < 65 ∨ 90 < mark.toNat) (fresh : mark ∉ text.toList) :
  mark ∉ (upper text).toList
  := by
  simp only [upper, String.toList_ofList, List.mem_map, not_exists, not_and]
  intro c mem raised
  rw [eq_of_toUpper_eq other raised] at mem
  exact fresh mem

@[simp]
theorem upper_upper (text : String) :
  upper (upper text) = upper text
  := by
  have twice : Char.toUpper ∘ Char.toUpper = Char.toUpper := funext toUpper_toUpper
  rw [upper, upper, String.toList_ofList, List.map_map, twice]

/-- Raising letters moves no blank. -/
theorem trim_upper {text : String} (h : trim text.toList = text.toList) :
  trim (upper text).toList = (upper text).toList
  := by
  have alike : isBlank ∘ Char.toUpper = isBlank := funext isBlank_toUpper
  rw [upper, String.toList_ofList, trim, List.dropWhile_map, alike, ← List.map_reverse,
    List.dropWhile_map, alike, ← List.map_reverse, ← trim, h]

/-- A number has no letters to be raised. -/
theorem upper_of_isNumeralChar {text : String} (h : ∀ c ∈ text.toList, IsNumeralChar c) :
  upper text = text
  := by
  have same : text.toList.map Char.toUpper = text.toList := by
    apply (List.map_congr_left _).trans (List.map_id text.toList)
    intro c mem
    have numeral := (isNumeralChar_iff c).mp (h c mem)
    rw [← Char.toNat_inj, toNat_toUpper, if_neg (by omega)]
    rfl
  rw [upper, same, String.ofList_toList]

theorem upper_eq_empty_iff {text : String} :
  upper text = "" ↔ text = ""
  := by simp [upper]

end CardDuel.Text
