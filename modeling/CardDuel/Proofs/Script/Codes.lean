import CardDuel.Proofs.Text
import CardDuel.Script.GoalText

/-!
# Codes of criteria

Every criterion has one code in full (`Criterion.code`): nothing is left out, the comparison is a
word of its own and the keywords are in capitals.  The criteria that codes can describe are the
expressible ones, and the code in full of an expressible criterion reads back without defects
(`readCriterion_code`).  So a code may be replaced by the code in full of what was read from it:
`readCriterion_reads_back`.
-/

namespace CardDuel

namespace Goal

/-! ### Codes in full -/

/-- The keyword of a counter. -/
def Counter.word : Counter → String
  | play => "PLAY"
  | win => "WIN"
  | lose => "LOSE"
  | draw => "DRAW"
  | streak => "STREAK"

/-- The keyword of a presence. -/
def Presence.word : Presence → String
  | use => "USE"
  | wait => "WAIT"

/-- The name or the value that is looked for. -/
def Quarry.text : Quarry → String
  | name text => text
  | value n => toString n

/-- The keyword of a side. -/
def sideWord : Side → String
  | .friendly => "FRIENDLY"
  | .enemy => "ENEMY"

/-- The keyword or the suit of a scope. -/
def Scope.text : Scope → String
  | suit name => name
  | each => "EACH"
  | any => "ANY"
  | one => "ONE"
  | total => "TOTAL"
  | only name => Text.unwords ["ONLY", name]

/-- The comparison of a relation. -/
def Relation.symbol : Relation → String
  | less => "<"
  | equal => "="
  | atLeast => ">="

/-- The keyword, the number or the suit of a standard. -/
def Standard.text : Standard → String
  | win => "WIN"
  | lose => "LOSE"
  | draw => "DRAW"
  | points n => toString n
  | suit name => name

/-- The code of a criterion in full. -/
def Criterion.code : Criterion → String
  | statistic counter count qualifier =>
    Text.unwords ([counter.word, toString count] ++ qualifier.toList)
  | round presence count quarry =>
    Text.unwords [presence.word, toString count, quarry.text]
  | score side scope relation standard =>
    Text.unwords [sideWord side, scope.text, relation.symbol, standard.text]

/-! ### Expressible criteria -/

/-- The quarry is a number in range, or a name that is not the text of one. -/
def Quarry.IsExpressible : Quarry → Prop
  | name text => Text.IsPhrase text ∧ Text.readSigned 32 text = none
  | value n => Checked.InRange 32 n

/-- The words that stand for scopes. -/
def scopeWords : List String := ["EACH", "ANY", "ONE", "TOTAL", "ONLY"]

/-- The suit of the scope is a single word, and no keyword where a keyword could stand. -/
def Scope.IsExpressible : Scope → Prop
  | suit name => Text.IsWord Text.isBlank name ∧ Text.upper name ∉ scopeWords
  | only name => Text.IsWord Text.isBlank name
  | each | any | one | total => True

/-- The words that stand for standards. -/
def standardWords : List String := ["WIN", "LOSE", "DRAW"]

/-- The standard is a number in range, a keyword, or a suit that is neither. -/
def Standard.IsExpressible : Standard → Prop
  | points n => Checked.InRange 32 n
  | suit name =>
    Text.IsPhrase name ∧ Text.upper name ∉ standardWords ∧ Text.readSigned 32 name = none
  | win | lose | draw => True

/-- The criterion can be described by a code. -/
def Criterion.IsExpressible : Criterion → Prop
  | statistic _ count qualifier =>
    count < 4294967296 ∧ ∀ text ∈ qualifier, Text.IsPhrase text
  | round _ count quarry => count < 18446744073709551616 ∧ quarry.IsExpressible
  | score _ scope _ standard => scope.IsExpressible ∧ standard.IsExpressible

end Goal

namespace Script

open Goal Text

/-! ### What codes describe -/

theorem leadingCount_suffix (words : List String) :
  (leadingCount words).2 <:+ words
  := by
  cases words with
  | nil => exact List.suffix_rfl
  | cons first rest =>
    rw [leadingCount]
    split
    · exact List.suffix_cons first rest
    · exact List.suffix_rfl

theorem leadingCount_lt (words : List String) :
  (leadingCount words).1.getD 1 < 18446744073709551616
  := by
  cases words with
  | nil => decide
  | cons first rest =>
    rw [leadingCount]
    split
    · rename_i n number
      exact lt_of_readUnsigned number
    · simp

theorem isExpressible_readStatistic {counter : Counter} {words : List String}
    (plain : ∀ word ∈ words, IsWord isBlank word) {criterion : Criterion}
    (h : (readStatistic counter words).value = some criterion) :
  criterion.IsExpressible
  := by
  have suffix := leadingCount_suffix words
  rw [readStatistic] at h
  generalize leadingCount words = found at *
  obtain ⟨count, rest⟩ := found
  dsimp only at h suffix
  by_cases small : count.getD 1 < 4294967296
  · rw [if_pos small] at h
    obtain rfl := Option.some.inj h
    refine ⟨small, ?_⟩
    intro text qualified
    split at qualified
    · cases qualified
    · rename_i some
      obtain rfl := Option.mem_some.mp qualified
      apply isPhrase_unwords (by simpa using some)
      intro word mem
      apply plain word (suffix.subset mem)
  · rw [if_neg small] at h
    cases h

theorem inRange_lowest32 (n : Nat) :
  Checked.InRange 32 (Checked.lowest32 n)
  := by
  have least := Int.le_bmod (x := n) (m := 4294967296) (by decide)
  have greatest := Int.bmod_lt (x := n) (m := 4294967296) (by decide)
  unfold Checked.InRange Checked.lowest32
  rw [Checked.limit_32]
  omega

/-- Several words are no number. -/
theorem readSigned_unwords (bits : Nat) (first second : String) (rest : List String) :
  readSigned bits (unwords (first :: second :: rest)) = none
  := by
  by_contra number
  obtain ⟨n, number⟩ := Option.ne_none_iff_exists'.mp number
  have space : IsNumeralChar ' ' := by
    apply isNumeralChar_of_readSigned number
    rw [unwords, String.intercalate_cons_cons]
    simp
  exact absurd space (by decide)

theorem isExpressible_readRound {presence : Presence} {words : List String}
    (plain : ∀ word ∈ words, IsWord isBlank word) {criterion : Criterion}
    (h : (readRound presence words).value = some criterion) :
  criterion.IsExpressible
  := by
  have suffix := leadingCount_suffix words
  have small := leadingCount_lt words
  rw [readRound] at h
  generalize leadingCount words = found at *
  obtain ⟨count, rest⟩ := found
  dsimp only at h suffix small
  have plain : ∀ word ∈ rest, IsWord isBlank word := fun word mem =>
    plain word (suffix.subset mem)
  match rest with
  | [] =>
    cases count with
    | none => cases h
    | some value =>
      obtain rfl := Option.some.inj h
      exact ⟨by decide, inRange_lowest32 value⟩
  | [word] =>
    simp only [Reading.clean, Option.some.injEq] at h
    subst h
    refine ⟨small, ?_⟩
    split
    · rename_i n number
      exact inRange_of_readSigned number
    · rename_i number
      exact ⟨(plain word List.mem_cons_self).isPhrase, number⟩
  | first :: second :: rest =>
    simp only [Reading.clean, Option.some.injEq] at h
    subst h
    exact ⟨small, isPhrase_unwords (by simp) plain, readSigned_unwords 32 first second rest⟩

/-! ### Scores -/

theorem splitSide_suffix (words : List String) :
  (splitSide words).2 <:+ words
  := by
  cases words with
  | nil => exact List.suffix_rfl
  | cons first rest =>
    rw [splitSide]
    split
    · exact List.suffix_cons first rest
    · exact List.suffix_cons first rest
    · exact List.suffix_rfl

theorem isExpressible_splitScope {words rest : List String} {scope : Goal.Scope}
    (plain : ∀ word ∈ words, IsWord isBlank word) (h : splitScope words = .ok (scope, rest)) :
  scope.IsExpressible ∧ rest <:+ words
  := by
  cases words with
  | nil => cases h
  | cons first others =>
    unfold splitScope at h
    dsimp only at h
    split at h
    case h_5 =>
      cases others with
      | nil => cases h
      | cons suit others =>
        obtain ⟨rfl, rfl⟩ := Prod.mk.inj (Except.ok.inj h)
        refine ⟨plain suit (by simp), ?_⟩
        exact (List.suffix_cons suit others).trans (List.suffix_cons first _)
    case h_6 =>
      obtain ⟨rfl, rfl⟩ := Prod.mk.inj (Except.ok.inj h)
      refine ⟨⟨plain first List.mem_cons_self, ?_⟩, List.suffix_cons first others⟩
      simp_all [scopeWords]
    all_goals
      obtain ⟨rfl, rfl⟩ := Prod.mk.inj (Except.ok.inj h)
      exact ⟨trivial, List.suffix_cons first others⟩

theorem standardOf_of_not_keyword {text : String} (nonempty : text ≠ "")
    (other : upper text ∉ standardWords) :
  standardOf text
    = match readSigned 32 text with
      | some n => .ok (.points n)
      | none => .ok (.suit text)
  := by
  have letters : upper text ≠ "" := mt upper_eq_empty_iff.mp nonempty
  rw [standardOf]
  split
  case h_5 => rfl
  all_goals simp_all [standardWords]

theorem isExpressible_standardOf {text : String} {standard : Standard}
    (phrase : text ≠ "" → IsPhrase text) (h : standardOf text = .ok standard) :
  standard.IsExpressible
  := by
  have nonempty : text ≠ "" := by
    rintro rfl
    cases h
  by_cases other : upper text ∈ standardWords
  · simp only [standardWords, List.mem_cons, List.not_mem_nil, or_false] at other
    rcases other with keyword | keyword | keyword
    all_goals
      rw [standardOf, keyword] at h
      obtain rfl := Except.ok.inj h
      trivial
  · rw [standardOf_of_not_keyword nonempty other] at h
    split at h
    · rename_i n number
      obtain rfl := Except.ok.inj h
      exact inRange_of_readSigned number
    · rename_i number
      obtain rfl := Except.ok.inj h
      exact ⟨phrase nonempty, other, number⟩

/-- A comparison at the beginning of words ends with the first word at the latest. -/
theorem takeWhile_unwords (first : String) (rest : List String) :
  (unwords (first :: rest)).toList.takeWhile isRelationChar
    = first.toList.takeWhile isRelationChar
  := by
  have stop : (if rest = [] then [] else ' ' :: (unwords rest).toList).takeWhile isRelationChar
      = [] := by
    split <;> rfl
  rw [toList_unwords_cons, List.takeWhile_append, stop, List.append_nil]
  split
  · rename_i whole
    exact ((List.takeWhile_prefix _).eq_of_length whole).symm
  · rfl

/-- What follows a comparison at the beginning of words is made of words. -/
theorem trim_dropWhile_unwords {first : String} {rest : List String}
    (plain : ∀ word ∈ first :: rest, IsWord isBlank word) :
  trim ((unwords (first :: rest)).toList.dropWhile isRelationChar)
    = (unwords (words isBlank (String.ofList (first.toList.dropWhile isRelationChar))
      ++ rest)).toList
  := by
  obtain ⟨⟨-, firstPlain⟩, others⟩ := List.forall_mem_cons.mp plain
  rw [toList_unwords_cons, List.dropWhile_append]
  split
  · rename_i whole
    rw [List.isEmpty_iff.mp whole]
    have keep : (if rest = [] then [] else ' ' :: (unwords rest).toList).dropWhile isRelationChar
        = if rest = [] then [] else ' ' :: (unwords rest).toList := by
      split <;> rfl
    rw [keep]
    split
    · rename_i none
      rw [none]
      rfl
    · rw [trim_cons rfl, trim_unwords others]
      rfl
  · rename_i some
    have left : IsWord isBlank (String.ofList (first.toList.dropWhile isRelationChar)) := by
      constructor
      · simpa using some
      · intro c mem
        rw [String.toList_ofList] at mem
        apply firstPlain c ((List.dropWhile_suffix _).subset mem)
    rw [left.words_eq, List.singleton_append, toList_unwords_cons, String.toList_ofList,
      ← String.toList_ofList (l := first.toList.dropWhile _), ← toList_unwords_cons]
    apply trim_unwords
    exact List.forall_mem_cons.mpr ⟨left, others⟩

/-- What a code on points is read as, part by part. -/
theorem scoreOfWords_eq_ok_iff {words : List String} {criterion : Criterion} :
  scoreOfWords words = .ok criterion
    ↔ ∃ scope rest relation standard,
      splitScope (splitSide words).2 = .ok (scope, rest)
        ∧ relationOf (String.ofList ((trim (unwords rest).toList).takeWhile isRelationChar))
          = .ok relation
        ∧ standardOf
            (String.ofList (trim ((trim (unwords rest).toList).dropWhile isRelationChar)))
          = .ok standard
        ∧ .score (splitSide words).1 scope relation standard = criterion
  := by
  unfold scoreOfWords
  rcases splitSide words with ⟨side, others⟩
  dsimp only
  rcases splitScope others with defect | ⟨scope, rest⟩
  · simp [bind, Except.bind]
  rcases related : relationOf
    (String.ofList ((trim (unwords rest).toList).takeWhile isRelationChar))
    with defect | relation
  · simp [bind, Except.bind, related]
  rcases set : standardOf
    (String.ofList (trim ((trim (unwords rest).toList).dropWhile isRelationChar)))
    with defect | standard
  · simp [bind, Except.bind, related, set]
  · simp [bind, Except.bind, pure, Except.pure, related, set]

theorem isExpressible_readScore {words : List String}
    (plain : ∀ word ∈ words, IsWord isBlank word) {criterion : Criterion}
    (h : (readScore words).value = some criterion) :
  criterion.IsExpressible
  := by
  rw [readScore] at h
  split at h
  · rename_i read
    obtain rfl := Option.some.inj h
    obtain ⟨scope, rest, relation, standard, inScope, -, set, rfl⟩ := scoreOfWords_eq_ok_iff.mp read
    have sidePlain : ∀ word ∈ (splitSide words).2, IsWord isBlank word := fun word mem =>
      plain word ((splitSide_suffix words).subset mem)
    obtain ⟨scopeExpressible, suffix⟩ := isExpressible_splitScope sidePlain inScope
    refine ⟨scopeExpressible, ?_⟩
    have restPlain : ∀ word ∈ rest, IsWord isBlank word := fun word mem =>
      sidePlain word (suffix.subset mem)
    rw [trim_unwords restPlain] at set
    cases rest with
    | nil => cases set
    | cons first others =>
      rw [trim_dropWhile_unwords restPlain, String.ofList_toList] at set
      apply isExpressible_standardOf _ set
      intro nonempty
      apply isPhrase_unwords
      · rintro none
        rw [none] at nonempty
        exact nonempty rfl
      · intro word mem
        rcases List.mem_append.mp mem with inFirst | inOthers
        · apply isWord_of_mem_words inFirst
        · apply restPlain word (List.mem_cons_of_mem first inOthers)
  · cases h

/-- Whatever a code describes is expressible. -/
theorem isExpressible_readCriterion {code : String} {criterion : Criterion}
    (h : (readCriterion code).value = some criterion) :
  criterion.IsExpressible
  := by
  have plain : ∀ word ∈ words isBlank code, IsWord isBlank word := fun word =>
    isWord_of_mem_words
  rw [readCriterion] at h
  cases split : words isBlank code with
  | nil =>
    rw [split] at h
    cases h
  | cons first rest =>
    rw [split] at h plain
    have others := (List.forall_mem_cons.mp plain).2
    rw [criterionOfWords] at h
    split at h
    case h_6 | h_7 => exact isExpressible_readRound others h
    case h_8 => exact isExpressible_readScore plain h
    all_goals exact isExpressible_readStatistic others h

/-! ### What codes in full are read as -/

theorem words_counter (counter : Counter) :
  words isBlank counter.word = [counter.word]
  := by cases counter <;> rfl

theorem words_presence (presence : Presence) :
  words isBlank presence.word = [presence.word]
  := by cases presence <;> rfl

theorem words_side (side : Side) :
  words isBlank (sideWord side) = [sideWord side]
  := by cases side <;> rfl

theorem words_symbol (relation : Relation) :
  words isBlank relation.symbol = [relation.symbol]
  := by cases relation <;> rfl

theorem words_count (count : Nat) :
  words isBlank (toString count) = [toString count]
  := (isWord_toString_nat (fun _ => isBlank_of_isNumeralChar) count).words_eq

theorem leadingCount_toString {count : Nat} (small : count < 18446744073709551616)
    (rest : List String) :
  leadingCount (toString count :: rest) = (some count, rest)
  := by
  rw [leadingCount, readUnsigned_toString]
  exact small

theorem readStatistic_code (counter : Counter) {count : Nat} (small : count < 4294967296)
    {qualifier : Option String} (phrase : ∀ text ∈ qualifier, IsPhrase text) :
  readStatistic counter (toString count :: qualifier.toList.flatMap (words isBlank))
    = .clean (some (.statistic counter count qualifier))
  := by
  rw [readStatistic, leadingCount_toString (by omega)]
  dsimp only
  rw [Option.getD_some, if_pos small]
  cases qualifier with
  | none => rfl
  | some text =>
    obtain ⟨nonempty, whole⟩ := phrase text rfl
    simp [nonempty, whole]

theorem readRound_code (presence : Presence) {count : Nat}
    (small : count < 18446744073709551616) {quarry : Quarry}
    (expressible : quarry.IsExpressible) :
  readRound presence (toString count :: words isBlank quarry.text)
    = .clean (some (.round presence count quarry))
  := by
  rw [readRound, leadingCount_toString small]
  cases quarry with
  | value n =>
    rw [Quarry.text, (isWord_toString_int (fun _ => isBlank_of_isNumeralChar) n).words_eq]
    dsimp only
    rw [readSigned_toString expressible]
    rfl
  | name text =>
    obtain ⟨⟨nonempty, whole⟩, number⟩ := expressible
    rw [Quarry.text]
    match split : words isBlank text with
    | [] => exact absurd split nonempty
    | [word] =>
      rw [split] at whole
      have same : word = text := by simpa [unwords] using whole
      simp [same, number]
    | first :: second :: rest =>
      rw [split] at whole
      simp [whole]

theorem splitScope_text {scope : Goal.Scope} (expressible : scope.IsExpressible)
    (rest : List String) :
  splitScope (words isBlank scope.text ++ rest) = .ok (scope, rest)
  := by
  cases scope with
  | suit name =>
    obtain ⟨word, other⟩ := expressible
    rw [Goal.Scope.text, word.words_eq, List.singleton_append]
    unfold splitScope
    dsimp only
    split
    case h_6 => rfl
    all_goals simp_all [scopeWords]
  | only name =>
    rw [Goal.Scope.text, words_unwords _ rfl, List.flatMap_cons, List.flatMap_singleton,
      expressible.words_eq]
    rfl
  | each | any | one | total => rfl

theorem standardOf_text {standard : Standard} (expressible : standard.IsExpressible) :
  standardOf standard.text = .ok standard
  := by
  cases standard with
  | win | lose | draw => rfl
  | points n =>
    have word := isWord_toString_int (fun _ => isBlank_of_isNumeralChar) n
    have numeral : ∀ c ∈ (toString n).toList, IsNumeralChar c := fun c mem =>
      isNumeralChar_of_mem_toString mem
    rw [Standard.text, standardOf_of_not_keyword word.1, readSigned_toString expressible]
    rw [upper_of_isNumeralChar numeral]
    intro keyword
    -- a keyword holds a letter, a number does not
    simp only [standardWords, List.mem_cons, List.not_mem_nil, or_false] at keyword
    rcases keyword with keyword | keyword | keyword
    · exact absurd (numeral 'W' (by simp [keyword])) (by decide)
    · exact absurd (numeral 'L' (by simp [keyword])) (by decide)
    · exact absurd (numeral 'D' (by simp [keyword])) (by decide)
  | suit name =>
    obtain ⟨⟨nonempty, -⟩, other, number⟩ := expressible
    rw [Standard.text, standardOf_of_not_keyword _ other, number]
    rintro rfl
    exact nonempty rfl

theorem phrase_standard {standard : Standard} (expressible : standard.IsExpressible) :
  IsPhrase standard.text
  := by
  cases standard with
  | win | lose | draw => exact ⟨by decide, rfl⟩
  | points n => exact (isWord_toString_int (fun _ => isBlank_of_isNumeralChar) n).isPhrase
  | suit name => exact expressible.1

theorem scoreOfWords_code (side : Side) {scope : Goal.Scope} (relation : Relation)
    {standard : Standard} (scopeExpressible : scope.IsExpressible)
    (standardExpressible : standard.IsExpressible) :
  scoreOfWords
      (sideWord side :: (words isBlank scope.text
        ++ relation.symbol :: words isBlank standard.text))
    = .ok (.score side scope relation standard)
  := by
  rw [scoreOfWords_eq_ok_iff]
  have sided : splitSide (sideWord side :: (words isBlank scope.text
      ++ relation.symbol :: words isBlank standard.text))
      = (side, words isBlank scope.text ++ relation.symbol :: words isBlank standard.text) := by
    cases side <;> rfl
  have plain : ∀ word ∈ relation.symbol :: words isBlank standard.text, IsWord isBlank word := by
    intro word mem
    rcases List.mem_cons.mp mem with rfl | mem
    · cases relation <;> exact ⟨by decide, by simp [Relation.symbol, isBlank]⟩
    · apply isWord_of_mem_words mem
  refine ⟨scope, relation.symbol :: words isBlank standard.text, relation, standard, ?_, ?_, ?_, ?_⟩
  · rw [sided, splitScope_text scopeExpressible]
  · rw [trim_unwords plain, takeWhile_unwords]
    cases relation <;> rfl
  · have rest : words isBlank (String.ofList (relation.symbol.toList.dropWhile isRelationChar))
        = [] := by
      cases relation <;> rfl
    rw [trim_unwords plain, trim_dropWhile_unwords plain, rest, List.nil_append,
      (phrase_standard standardExpressible).2, String.ofList_toList,
      standardOf_text standardExpressible]
  · rw [sided]

/-- The code in full of an expressible criterion reads back without defects. -/
theorem readCriterion_code {criterion : Criterion} (expressible : criterion.IsExpressible) :
  readCriterion criterion.code = .clean (some criterion)
  := by
  cases criterion with
  | statistic counter count qualifier =>
    obtain ⟨small, phrase⟩ := expressible
    rw [readCriterion, Criterion.code, words_unwords _ rfl, List.flatMap_append]
    simp only [List.flatMap_cons, List.flatMap_nil, words_counter, words_count, List.append_nil,
      List.cons_append, List.nil_append]
    rw [← readStatistic_code counter small phrase]
    cases counter <;> rfl
  | round presence count quarry =>
    obtain ⟨small, expressible⟩ := expressible
    rw [readCriterion, Criterion.code, words_unwords _ rfl]
    simp only [List.flatMap_cons, List.flatMap_nil, words_presence, words_count, List.append_nil,
      List.singleton_append]
    rw [← readRound_code presence small expressible]
    cases presence <;> rfl
  | score side scope relation standard =>
    obtain ⟨scopeExpressible, standardExpressible⟩ := expressible
    rw [readCriterion, Criterion.code, words_unwords _ rfl]
    simp only [List.flatMap_cons, List.flatMap_nil, words_side, words_symbol, List.append_nil,
      List.singleton_append]
    have score : criterionOfWords
        (sideWord side :: (words isBlank scope.text
          ++ relation.symbol :: words isBlank standard.text))
        = readScore (sideWord side :: (words isBlank scope.text
          ++ relation.symbol :: words isBlank standard.text)) := by
      cases side <;> rfl
    rw [score, readScore, scoreOfWords_code side relation scopeExpressible standardExpressible]

/-- The expressible criteria are those that codes describe. -/
theorem exists_readCriterion_iff (criterion : Criterion) :
  (∃ code, (readCriterion code).value = some criterion) ↔ criterion.IsExpressible
  := by
  constructor
  · rintro ⟨code, h⟩
    exact isExpressible_readCriterion h
  · intro expressible
    use criterion.code
    rw [readCriterion_code expressible]
    rfl

/-- The code in full of what is read from any code describes the same, and has no defects. -/
theorem readCriterion_reads_back {code : String} {criterion : Criterion}
    (h : (readCriterion code).value = some criterion) :
  readCriterion criterion.code = .clean (some criterion)
  := readCriterion_code (isExpressible_readCriterion h)

/-- A scope that is a keyword, and a comparison without blanks around it. -/
theorem readCriterion_reads_back_terse :
  (readCriterion "only each ==Lost\tlove").value
      = some (.score .friendly (.only "each") .equal (.suit "Lost love"))
    ∧ Criterion.code (.score .friendly (.only "each") .equal (.suit "Lost love"))
      = "FRIENDLY ONLY each = Lost love"
    ∧ readCriterion (Criterion.code (.score .friendly (.only "each") .equal (.suit "Lost love")))
      = .clean (some (.score .friendly (.only "each") .equal (.suit "Lost love")))
  := by
  have read : (readCriterion "only each ==Lost\tlove").value
      = some (.score .friendly (.only "each") .equal (.suit "Lost love")) := rfl
  exact ⟨read, rfl, readCriterion_reads_back read⟩

end Script

end CardDuel
