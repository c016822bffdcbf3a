import CardDuel.Proofs.Text
import CardDuel.Script.RuleText

/-!
# Rules in full

Every application and every requirement has a rule in full (`Application.ruleText`,
`Requirement.ruleText`): the side always stands first, then come the suits, the hand and the
bounds, each at most once, and the application for the facing card comes last.  The applications
that rules can describe are chains of single aims over scopes that words can express, and the rule
in full of such an application reads back without defects.  So a rule may be replaced by the rule
in full of what was read from it: `read_ruleText`.
-/

namespace CardDuel

/-! ### Rules in full -/

/-- The keyword of an alignment. -/
def Alignment.word : Alignment → String
  | friendly => "FRIENDLY"
  | enemy => "ENEMY"
  | either => "ALL"

/-- The parts of the rule of a scope. -/
def Scope.rule (scope : Scope) : List String :=
  [scope.alignment.word]
    ++ scope.suits.toList.map (", ".intercalate ·)
    ++ (if scope.inHand then ["HAND"] else [])
    ++ scope.min.toList.map (fun n => ">=" ++ toString n)
    ++ scope.max.toList.map (fun n => "<=" ++ toString n)

/-- The parts of the rule of an aim.  Rules cannot join applications, so those of an opposite are
put one after the other. -/
def Aim.rule : Aim → List String :=
  fold fun scope opposite =>
    scope.rule ++ opposite.toList.flatMap fun rules => "VS" :: rules.leaves.flatten

/-- The rule of an application in full. -/
def Application.ruleText (application : Application) : String :=
  Text.unwords (application.leaves.flatMap Aim.rule)

/-- The keyword of a comparison. -/
def Comparison.word : Comparison → String
  | atLeast => "MIN"
  | exactly => "EXACTLY"
  | noMoreThan => "MAX"

/-- The parts of the rule of a quota, none if it asks for nothing. -/
def Quota.rule (quota : Quota) : List String :=
  match quota.style with
  | none => []
  | some style => [quota.comparison.word, toString quota.count, style.ruleText]

/-- The rule of a requirement in full. -/
def Requirement.ruleText (requirement : Requirement) : String :=
  Text.unwords (requirement.leaves.flatMap Quota.rule)

/-! ### Single aims -/

/-- No connectives stand in what the aim asks of the facing card, nor further down. -/
inductive Aim.IsSingle : Aim → Prop
  | last (scope : Scope) : IsSingle ⟨scope, none⟩
  | versus (scope : Scope) {aim : Aim} : IsSingle aim → IsSingle ⟨scope, some (.test aim)⟩

/-- The application is a single aim without connectives below it. -/
def Application.IsSingle (application : Application) : Prop :=
  ∃ aim, application = .test aim ∧ aim.IsSingle

/-- The requirement is a single quota, whose style is a single aim if it has one. -/
def Requirement.IsSingle (requirement : Requirement) : Prop :=
  ∃ quota, requirement = .test quota ∧ ∀ style ∈ quota.style, style.IsSingle

namespace Script

open Checked Text

/-! ### What rules can express -/

/-- The characters that separate the words of a rule. -/
def isRuleSeparator (c : Char) : Bool := isBlank c || c == ','

theorem ruleWords_eq (text : String) :
  ruleWords text = words isRuleSeparator text
  := rfl

/-- The text is a single word that names itself as a suit. -/
structure IsSuit (known : List String) (suit : String) : Prop where
  word : IsWord isRuleSeparator suit
  clause : Clause.ofWord suit = .name suit
  known : suitOf known suit = some suit
  number : readSigned 32 suit = none

/-- The bounds of the scope are numbers in range, and if there is a list of suits, it is a list of
one or more suits that words can name. -/
structure IsExpressibleScope (known : List String) (scope : Scope) : Prop where
  min : ∀ n ∈ scope.min, InRange 32 n
  max : ∀ n ∈ scope.max, InRange 32 n
  some : ∀ suits ∈ scope.suits, suits ≠ []
  suits : ∀ suits ∈ scope.suits, ∀ suit ∈ suits, IsSuit known suit

/-- The aim and what it asks of the facing card can be described by a rule. -/
inductive IsExpressibleAim (known : List String) : Aim → Prop
  | last {scope : Scope} : IsExpressibleScope known scope → IsExpressibleAim known ⟨scope, none⟩
  | versus {scope : Scope} {aim : Aim} : IsExpressibleScope known scope →
    IsExpressibleAim known aim → IsExpressibleAim known ⟨scope, some (.test aim)⟩

theorem IsExpressibleAim.isSingle {known : List String} {aim : Aim}
    (h : IsExpressibleAim known aim) :
  aim.IsSingle
  := by
  induction h with
  | last => exact .last _
  | versus _ _ ih => exact .versus _ ih

/-! ### What rules describe -/

theorem isRuleSeparator_toUpper (c : Char) :
  isRuleSeparator c.toUpper = isRuleSeparator c
  := by
  unfold isRuleSeparator isBlank
  rw [Bool.eq_iff_iff]
  simp only [Bool.or_eq_true, Bool.and_eq_true, decide_eq_true_eq, beq_iff_eq, ← Char.toNat_inj,
    toNat_toUpper, Char.reduceToNat]
  split <;> omega

theorem isNumeralChar_toUpper (c : Char) :
  IsNumeralChar c.toUpper ↔ IsNumeralChar c
  := by
  rw [isNumeralChar_iff, isNumeralChar_iff, toNat_toUpper]
  split <;> omega

theorem isOperatorChar_toUpper (c : Char) :
  isOperatorChar c.toUpper = isOperatorChar c
  := by
  unfold isOperatorChar
  rw [Bool.eq_iff_iff]
  simp only [Bool.or_eq_true, beq_iff_eq, ← Char.toNat_inj, toNat_toUpper,
    Char.reduceToNat]
  split <;> omega

/-- The keywords of applications. -/
def ruleKeywords : List String :=
  ["FRIENDLY", "ENEMY", "ALL", "ANY", "OR", "CARD", "CARDS", "HAND", "VS"]

theorem ofWord_of_not_mem {word : String} (other : upper word ∉ ruleKeywords) :
  Clause.ofWord word
    = if (splitOperator word).1.isEmpty then .name word
      else .compare (splitOperator word).1 (splitOperator word).2
  := by
  unfold Clause.ofWord
  split
  case h_10 => rfl
  all_goals simp_all [ruleKeywords]

/-- No keyword begins with a comparison. -/
theorem takeWhile_of_mem_ruleKeywords {word : String} (h : word ∈ ruleKeywords) :
  word.toList.takeWhile isOperatorChar = []
  := by
  simp only [ruleKeywords, List.mem_cons, List.not_mem_nil, or_false] at h
  rcases h with rfl | rfl | rfl | rfl | rfl | rfl | rfl | rfl | rfl
  all_goals rfl

/-- Capitals do not change where a word begins with a comparison. -/
theorem takeWhile_upper (word : String) :
  (upper word).toList.takeWhile isOperatorChar
    = (word.toList.takeWhile isOperatorChar).map Char.toUpper
  := by
  have same : isOperatorChar ∘ Char.toUpper = isOperatorChar := funext isOperatorChar_toUpper
  rw [upper, String.toList_ofList, List.takeWhile_map, same]

/-- A word is a name if it is no keyword and does not begin with a comparison. -/
theorem ofWord_eq_name_iff {word name : String} :
  Clause.ofWord word = .name name
    ↔ word = name ∧ upper word ∉ ruleKeywords
      ∧ (upper word).toList.takeWhile isOperatorChar = []
  := by
  have start : (upper word).toList.takeWhile isOperatorChar = []
      ↔ (splitOperator word).1.isEmpty = true := by
    rw [takeWhile_upper, List.map_eq_nil_iff]
    simp [splitOperator]
  rw [start]
  by_cases keyword : upper word ∈ ruleKeywords
  · refine iff_of_false ?_ fun h => h.2.1 keyword
    simp only [ruleKeywords, List.mem_cons, List.not_mem_nil, or_false] at keyword
    unfold Clause.ofWord
    rcases keyword with letters | letters | letters | letters | letters | letters | letters
      | letters | letters
    all_goals simp [letters]
  · rw [ofWord_of_not_mem keyword]
    split <;> simp_all

/-- A suit has the letters of the words that name it, and is found for all of them alike. -/
theorem upper_eq_of_suitOf {known : List String} {word suit : String}
    (h : suitOf known word = some suit) :
  upper suit = upper word ∧ suitOf known suit = some suit
  := by
  unfold suitOf at *
  by_cases none : known.isEmpty
  · rw [if_pos none] at *
    obtain rfl := Option.some.inj h
    exact ⟨rfl, rfl⟩
  · rw [if_neg none] at *
    have letters : upper suit = upper word := by
      simpa [sameLetters] using List.find?_some h
    refine ⟨letters, ?_⟩
    rw [← h]
    unfold sameLetters
    rw [letters]

/-- The suit that a name stands for names itself. -/
theorem isSuit_of_suitOf {known : List String} {word suit : String}
    (plain : IsWord isRuleSeparator word) (clause : Clause.ofWord word = .name word)
    (found : suitOf known word = some suit) (number : readSigned 32 word = none) :
  IsSuit known suit
  := by
  obtain ⟨letters, known⟩ := upper_eq_of_suitOf found
  refine ⟨⟨?_, ?_⟩, ?_, known, ?_⟩
  · rw [Ne, ← upper_eq_empty_iff, letters, upper_eq_empty_iff]
    exact plain.1
  · apply forall_mem_of_upper_eq _ letters.symm plain.2
    intro c
    rw [isRuleSeparator_toUpper]
  · rw [ofWord_eq_name_iff] at *
    rw [letters]
    exact ⟨rfl, clause.2⟩
  · by_contra read
    obtain ⟨n, read⟩ := Option.ne_none_iff_exists'.mp read
    have numeral := isNumeralChar_of_readSigned read
    have numeral' := forall_mem_of_upper_eq isNumeralChar_toUpper letters numeral
    rw [upper_of_isNumeralChar numeral, upper_of_isNumeralChar numeral'] at letters
    rw [letters, number] at read
    cases read

theorem isExpressibleScope_bounded {known : List String} {scope scope' : Scope}
    (h : IsExpressibleScope known scope) {operator : String} {n : Int} (range : InRange 32 n)
    (read : bounded scope operator n = .ok (some scope')) :
  IsExpressibleScope known scope'
  := by
  -- a comparison sets bounds to numbers in range and leaves the rest of the scope alone
  have setMin : ∀ m, InRange 32 m → IsExpressibleScope known { scope with min := some m } :=
    fun m inRange => ⟨by simpa using inRange, h.max, h.some, h.suits⟩
  have setMax : ∀ m, InRange 32 m → IsExpressibleScope known { scope with max := some m } :=
    fun m inRange => ⟨h.min, by simpa using inRange, h.some, h.suits⟩
  unfold bounded at read
  split at read
  · obtain ⟨m, sum, same⟩ := map_eq_ok_iff.mp read
    obtain rfl := Option.some.inj same
    obtain ⟨inRange, rfl⟩ := add_eq_ok_iff.mp sum
    exact setMin (n + 1) inRange
  · obtain rfl := Option.some.inj (Except.ok.inj read)
    exact setMin n range
  · obtain ⟨m, difference, same⟩ := map_eq_ok_iff.mp read
    obtain rfl := Option.some.inj same
    obtain ⟨inRange, rfl⟩ := sub_eq_ok_iff.mp difference
    exact setMax (n - 1) inRange
  · obtain rfl := Option.some.inj (Except.ok.inj read)
    exact setMax n range
  case h_7 => cases read
  all_goals
    obtain rfl := Option.some.inj (Except.ok.inj read)
    exact ⟨by simpa using range, by simpa using range, h.some, h.suits⟩

theorem isExpressibleScope_readBound {known : List String} {scope : Scope}
    (h : IsExpressibleScope known scope) {operator operand : String} {bound : Reading Scope}
    (read : readBound scope operator operand = .ok bound) :
  IsExpressibleScope known bound.value
  := by
  unfold readBound at read
  split at read
  · obtain rfl := Except.ok.inj read
    exact h
  · rename_i n number
    obtain ⟨answer, compared, read⟩ := bind_eq_ok_iff.mp read
    split at read
    · obtain rfl := Except.ok.inj read
      exact isExpressibleScope_bounded h (inRange_of_readSigned number) compared
    · obtain rfl := Except.ok.inj read
      exact h

theorem isSuit_readSuit {known suits : List String} (h : ∀ suit ∈ suits, IsSuit known suit)
    {word : String} (plain : IsWord isRuleSeparator word)
    (clause : Clause.ofWord word = .name word) :
  ∀ suit ∈ (readSuit known suits word).value, IsSuit known suit
  := by
  unfold readSuit
  split
  · rename_i suit found number
    intro other mem
    rcases List.mem_append.mp mem with earlier | last
    · exact h other earlier
    · obtain rfl := List.mem_singleton.mp last
      exact isSuit_of_suitOf plain clause found number
  · exact h

/-- What a scope becomes when the suits that were met are entered. -/
theorem isExpressibleScope_finishAim {known : List String} {scope : Scope}
    (h : IsExpressibleScope known scope) {suits : List String}
    (named : ∀ suit ∈ suits, IsSuit known suit) (opposite : Option Application) :
  ∃ scope', finishAim scope suits opposite = ⟨scope', opposite⟩
    ∧ IsExpressibleScope known scope'
  := by
  refine ⟨_, rfl, ?_⟩
  split
  · exact h
  · rename_i some
    refine ⟨h.min, h.max, ?_, ?_⟩
    · simpa using some
    · simpa using named

theorem isExpressibleAim_finishAim {known : List String} {scope : Scope}
    (h : IsExpressibleScope known scope) {suits : List String}
    (named : ∀ suit ∈ suits, IsSuit known suit) :
  IsExpressibleAim known (finishAim scope suits none)
  := by
  obtain ⟨scope', made, expressible⟩ := isExpressibleScope_finishAim h named none
  rw [made]
  exact .last expressible

theorem isExpressibleScope_empty (known : List String) :
  IsExpressibleScope known {}
  := ⟨by simp, by simp, by simp, by simp⟩

/-- Whatever words of an application describe is expressible. -/
theorem isExpressibleAim_readAim {known : List String} {scope : Scope}
    (h : IsExpressibleScope known scope) {suits : List String}
    (named : ∀ suit ∈ suits, IsSuit known suit) {awaited : Option String} {words : List String}
    (plain : ∀ word ∈ words, IsWord isRuleSeparator word) {reading : Reading Aim}
    (read : readAim known scope suits awaited words = .ok reading) :
  IsExpressibleAim known reading.value
  := by
  -- the scope and the suits so far stay expressible, whatever word is read into them
  fun_induction readAim known scope suits awaited words generalizing reading with
  | case1 scope suits =>
    obtain rfl := Except.ok.inj read
    exact isExpressibleAim_finishAim h named
  | case2 scope suits word rest operator ih =>
    obtain ⟨bound, bounded, read⟩ := bind_eq_ok_iff.mp read
    obtain ⟨aim, rested, read⟩ := bind_eq_ok_iff.mp read
    obtain rfl := Except.ok.inj read
    apply ih bound (isExpressibleScope_readBound h bounded) named _ rested
    exact (List.forall_mem_cons.mp plain).2
  | case3 scope suits word rest alignment clause ih =>
    exact ih ⟨h.min, h.max, h.some, h.suits⟩ named (List.forall_mem_cons.mp plain).2 read
  | case4 scope suits word rest clause ih =>
    exact ih h named (List.forall_mem_cons.mp plain).2 read
  | case5 scope suits word rest clause ih =>
    exact ih ⟨h.min, h.max, h.some, h.suits⟩ named (List.forall_mem_cons.mp plain).2 read
  | case6 scope suits word rest clause last =>
    obtain rfl := Except.ok.inj read
    exact isExpressibleAim_finishAim h named
  | case7 scope suits word rest clause more ih =>
    obtain ⟨facing, rested, read⟩ := bind_eq_ok_iff.mp read
    obtain rfl := Except.ok.inj read
    obtain ⟨scope', made, expressible⟩ :=
      isExpressibleScope_finishAim h named (some (.test facing.value))
    rw [Reading.map, made]
    apply IsExpressibleAim.versus expressible
    exact ih (isExpressibleScope_empty known) (by simp) (List.forall_mem_cons.mp plain).2 rested
  | case8 scope suits word rest operator operand clause lone ih =>
    exact ih h named (List.forall_mem_cons.mp plain).2 read
  | case9 scope suits word rest operator operand clause together ih =>
    obtain ⟨bound, bounded, read⟩ := bind_eq_ok_iff.mp read
    obtain ⟨aim, rested, read⟩ := bind_eq_ok_iff.mp read
    obtain rfl := Except.ok.inj read
    apply ih bound (isExpressibleScope_readBound h bounded) named _ rested
    exact (List.forall_mem_cons.mp plain).2
  | case10 scope suits word rest name clause met ih =>
    obtain ⟨first, others⟩ := List.forall_mem_cons.mp plain
    obtain ⟨aim, rested, read⟩ := bind_eq_ok_iff.mp read
    obtain rfl := Except.ok.inj read
    obtain ⟨rfl, -⟩ := ofWord_eq_name_iff.mp clause
    have expressible := ih h (isSuit_readSuit named first clause) others rested
    exact expressible

/-! ### What rules in full are read as -/

theorem isRuleSeparator_of_isNumeralChar (c : Char) (h : IsNumeralChar c) :
  isRuleSeparator c = false
  := by
  rw [isRuleSeparator, isBlank_of_isNumeralChar h, Bool.false_or, beq_eq_false_iff_ne]
  rintro rfl
  exact absurd h (by decide)

theorem isOperatorChar_of_isNumeralChar {c : Char} (h : IsNumeralChar c) :
  isOperatorChar c = false
  := by
  rw [isNumeralChar_iff] at h
  rw [Bool.eq_false_iff]
  simp only [isOperatorChar, Bool.or_eq_true, beq_iff_eq, ← Char.toNat_inj, Char.reduceToNat, ne_eq]
  omega

/-- A comparison with a number in the same word is split before the number. -/
theorem splitOperator_append {operator : String}
    (comparison : ∀ c ∈ operator.toList, isOperatorChar c = true) (n : Int) :
  splitOperator (operator ++ toString n) = (operator, toString n)
  := by
  have nonempty := (isWord_toString_int isRuleSeparator_of_isNumeralChar n).1
  obtain ⟨c, cs, digits⟩ := List.exists_cons_of_ne_nil (l := (toString n).toList)
    (by simpa using nonempty)
  have stop : ¬ isOperatorChar c = true := by
    have numeral : IsNumeralChar c := by
      apply isNumeralChar_of_mem_toString (n := n)
      rw [digits]
      exact List.mem_cons_self
    simp [isOperatorChar_of_isNumeralChar numeral]
  have taken : (operator ++ toString n).toList.takeWhile isOperatorChar = operator.toList := by
    rw [String.toList_append, List.takeWhile_append_of_pos comparison, digits,
      List.takeWhile_cons_of_neg stop, List.append_nil]
  have dropped : (operator ++ toString n).toList.dropWhile isOperatorChar
      = (toString n).toList := by
    rw [String.toList_append, List.dropWhile_append_of_pos comparison, digits,
      List.dropWhile_cons_of_neg stop]
  rw [splitOperator, taken, dropped, String.ofList_toList, String.ofList_toList]

theorem ofWord_compare {operator : String} (some : operator ≠ "")
    (comparison : ∀ c ∈ operator.toList, isOperatorChar c = true) (n : Int) :
  Clause.ofWord (operator ++ toString n) = .compare operator (toString n)
  := by
  have split := splitOperator_append comparison n
  rw [ofWord_of_not_mem, split]
  · simp [some]
  · intro keyword
    have none := takeWhile_of_mem_ruleKeywords keyword
    have first := congrArg Prod.fst split
    rw [takeWhile_upper, List.map_eq_nil_iff] at none
    rw [splitOperator, none] at first
    exact some first.symm

/-- A step without defects adds nothing to the reading of the rest. -/
theorem bind_without_defects (rest : Except Fault (Reading Aim)) :
  (rest >>= fun aim => pure ⟨aim.value, [] ++ aim.defects⟩) = rest
  := by cases rest <;> rfl

section

variable (known : List String) (scope : Scope) (met rest : List String)

theorem readAim_alignment (alignment : Alignment) :
  readAim known scope met none (alignment.word :: rest)
    = readAim known { scope with alignment } met none rest
  := by cases alignment <;> rfl

theorem readAim_hand (hand : Bool) :
  readAim known scope met none ((if hand then ["HAND"] else []) ++ rest)
    = readAim known { scope with inHand := hand || scope.inHand } met none rest
  := by cases hand <;> rfl

theorem readAim_suits {suits : List String} (h : ∀ suit ∈ suits, IsSuit known suit) :
  readAim known scope met none (suits ++ rest) = readAim known scope (met ++ suits) none rest
  := by
  induction suits generalizing met with
  | nil => rw [List.nil_append, List.append_nil]
  | cons suit suits ih =>
    obtain ⟨first, others⟩ := List.forall_mem_cons.mp h
    have step : readSuit known met suit = .clean (met ++ [suit]) := by
      rw [readSuit, first.known, first.number]
    rw [List.cons_append, readAim, first.clause]
    dsimp only
    have later := ih (met ++ [suit]) others
    rw [← List.append_cons] at later
    rw [step]
    exact (bind_without_defects _).trans later

/-- A comparison with a number in range is read without defects. -/
theorem readAim_compare {scope' : Scope} {operator : String} (some : operator ≠ "")
    (comparison : ∀ c ∈ operator.toList, isOperatorChar c = true) {n : Int}
    (range : InRange 32 n) (answer : bounded scope operator n = .ok (.some scope')) :
  readAim known scope met none ((operator ++ toString n) :: rest)
    = readAim known scope' met none rest
  := by
  have number : ¬ (toString n).isEmpty = true := by
    rw [String.isEmpty_iff]
    exact (isWord_toString_int isRuleSeparator_of_isNumeralChar n).1
  have bound : readBound scope operator (toString n) = .ok (.clean scope') := by
    rw [readBound, readSigned_toString range]
    dsimp only
    rw [answer]
    rfl
  rw [readAim, ofWord_compare some comparison]
  dsimp only
  rw [if_neg number, bound]
  apply bind_without_defects

theorem readAim_min {least : Option Int} (range : ∀ n ∈ least, InRange 32 n) :
  readAim known scope met none (least.toList.map (fun n => ">=" ++ toString n) ++ rest)
    = readAim known { scope with min := least.or scope.min } met none rest
  := by
  cases least with
  | none => rfl
  | some n =>
    apply readAim_compare known scope met rest _ _ (range n rfl) rfl
    · simp
    · simp [isOperatorChar]

theorem readAim_max {greatest : Option Int} (range : ∀ n ∈ greatest, InRange 32 n) :
  readAim known scope met none (greatest.toList.map (fun n => "<=" ++ toString n) ++ rest)
    = readAim known { scope with max := greatest.or scope.max } met none rest
  := by
  cases greatest with
  | none => rfl
  | some n =>
    apply readAim_compare known scope met rest _ _ (range n rfl) rfl
    · simp
    · simp [isOperatorChar]

end

theorem ruleWords_alignment (alignment : Alignment) :
  ruleWords alignment.word = [alignment.word]
  := by cases alignment <;> rfl

/-- A comparison with a number is a single word. -/
theorem ruleWords_compare {operator : String}
    (plain : ∀ c ∈ operator.toList, isRuleSeparator c = false) (n : Int) :
  ruleWords (operator ++ toString n) = [operator ++ toString n]
  := by
  have number := isWord_toString_int isRuleSeparator_of_isNumeralChar n
  rw [ruleWords_eq]
  apply IsWord.words_eq
  constructor
  · intro none
    exact number.1 (String.append_eq_empty_iff.mp none).2
  · intro c mem
    rw [String.toList_append] at mem
    rcases List.mem_append.mp mem with before | after
    · exact plain c before
    · exact number.2 c after

theorem ruleWords_suits {known suits : List String} (h : ∀ suit ∈ suits, IsSuit known suit) :
  ruleWords (", ".intercalate suits) = suits
  := by
  rw [ruleWords_eq, words_intercalate (by simp)]
  · exact flatMap_words fun suit mem => (h suit mem).word
  · simp [isRuleSeparator, isBlank]

theorem ruleWords_unwords (texts : List String) :
  ruleWords (unwords texts) = texts.flatMap ruleWords
  := words_unwords _ rfl texts

theorem flatMap_ruleWords_scope {known : List String} {scope : Scope}
    (h : IsExpressibleScope known scope) :
  scope.rule.flatMap ruleWords
    = scope.alignment.word :: (scope.suits.getD []
      ++ ((if scope.inHand then ["HAND"] else [])
      ++ (scope.min.toList.map (fun n => ">=" ++ toString n)
      ++ scope.max.toList.map (fun n => "<=" ++ toString n))))
  := by
  have suits : (scope.suits.toList.map (", ".intercalate ·)).flatMap ruleWords
      = scope.suits.getD [] := by
    cases listed : scope.suits with
    | none => rfl
    | some suits => simp [ruleWords_suits (h.suits suits listed)]
  have hand : (if scope.inHand then ["HAND"] else []).flatMap ruleWords
      = if scope.inHand then ["HAND"] else [] := by
    cases scope.inHand <;> rfl
  have bound : ∀ (operator : String) (n : Option Int),
      (∀ c ∈ operator.toList, isRuleSeparator c = false) →
      (n.toList.map fun n => operator ++ toString n).flatMap ruleWords
        = n.toList.map fun n => operator ++ toString n := by
    intro operator n plain
    cases n with
    | none => rfl
    | some n =>
      rw [Option.toList_some, List.map_singleton, List.flatMap_singleton, ruleWords_compare plain]
  simp only [Scope.rule, List.flatMap_append, List.append_assoc, suits, hand]
  rw [bound ">=" scope.min (by simp [isRuleSeparator, isBlank]),
    bound "<=" scope.max (by simp [isRuleSeparator, isBlank]), List.flatMap_singleton,
    ruleWords_alignment, List.singleton_append]

/-- The rule of a scope in full sets all of the scope, whatever words come after it. -/
theorem readAim_scope {known : List String} {scope : Scope} (h : IsExpressibleScope known scope)
    (rest : List String) :
  readAim known {} [] none (scope.rule.flatMap ruleWords ++ rest)
    = readAim known { scope with suits := none } (scope.suits.getD []) none rest
  := by
  have suits : ∀ suit ∈ scope.suits.getD [], IsSuit known suit := by
    cases listed : scope.suits with
    | none => simp
    | some suits => exact h.suits suits listed
  rw [flatMap_ruleWords_scope h]
  simp only [List.cons_append, List.append_assoc]
  rw [readAim_alignment, readAim_suits _ _ _ _ suits, readAim_hand, readAim_min _ _ _ _ h.min,
    readAim_max _ _ _ _ h.max]
  simp

theorem finishAim_suits {known : List String} {scope : Scope}
    (h : IsExpressibleScope known scope) (opposite : Option Application) :
  finishAim { scope with suits := none } (scope.suits.getD []) opposite = ⟨scope, opposite⟩
  := by
  obtain ⟨alignment, suits, inHand, min, max⟩ := scope
  cases suits with
  | none => rfl
  | some suits =>
    have some := h.some suits rfl
    simp [finishAim, some]

theorem rule_last (scope : Scope) :
  Aim.rule ⟨scope, none⟩ = scope.rule
  := by simp [Aim.rule, Aim.fold_mk]

theorem rule_versus (scope : Scope) (aim : Aim) :
  Aim.rule ⟨scope, some (.test aim)⟩ = scope.rule ++ "VS" :: aim.rule
  := by simp [Aim.rule, Aim.fold_mk]

/-- At least the keyword of the side stands in a rule in full. -/
theorem flatMap_ruleWords_rule_ne_nil (aim : Aim) :
  aim.rule.flatMap ruleWords ≠ []
  := by
  obtain ⟨scope, opposite⟩ := aim
  rw [Aim.rule, Aim.fold_mk]
  simp [Scope.rule, ruleWords_alignment]

/-- The rule in full of an expressible aim reads back without defects. -/
theorem readAim_rule {known : List String} {aim : Aim} (h : IsExpressibleAim known aim) :
  readAim known {} [] none (aim.rule.flatMap ruleWords) = .ok (.clean aim)
  := by
  induction h with
  | @last scope expressible =>
    have read := readAim_scope expressible []
    rw [List.append_nil] at read
    rw [rule_last, read, readAim, finishAim_suits expressible]
    rfl
  | @versus scope aim expressible _ ih =>
    have versus : Clause.ofWord "VS" = .versus := rfl
    have more : ¬ (aim.rule.flatMap ruleWords).isEmpty = true := by
      rw [List.isEmpty_iff]
      exact flatMap_ruleWords_rule_ne_nil aim
    have split : ("VS" :: aim.rule).flatMap ruleWords = "VS" :: aim.rule.flatMap ruleWords := rfl
    rw [rule_versus, List.flatMap_append, split, readAim_scope expressible, readAim, versus]
    dsimp only
    rw [if_neg more, ih, ok_bind, ← finishAim_suits expressible]
    rfl

/-! ### Applications -/

/-- The application can be described by a rule. -/
def IsExpressibleApplication (known : List String) (application : Application) : Prop :=
  ∃ aim, application = .test aim ∧ IsExpressibleAim known aim

theorem IsExpressibleApplication.isSingle {known : List String} {application : Application}
    (h : IsExpressibleApplication known application) :
  application.IsSingle
  := by
  obtain ⟨aim, rfl, expressible⟩ := h
  exact ⟨aim, rfl, expressible.isSingle⟩

theorem isExpressible_applicationOfWords {known words : List String}
    (plain : ∀ word ∈ words, IsWord isRuleSeparator word) {reading : Reading Application}
    (read : applicationOfWords known words = .ok reading) :
  IsExpressibleApplication known reading.value
  := by
  obtain ⟨aim, aimed, read⟩ := bind_eq_ok_iff.mp read
  obtain rfl := Except.ok.inj read
  have expressible :=
    isExpressibleAim_readAim (isExpressibleScope_empty known) (by simp) plain aimed
  exact ⟨aim.value, rfl, expressible⟩

theorem ruleWords_ruleText (aim : Aim) :
  ruleWords (Application.ruleText (.test aim)) = aim.rule.flatMap ruleWords
  := by rw [Application.ruleText, Condition.leaves_test, List.flatMap_singleton, ruleWords_unwords]

theorem applicationOfWords_rule {known : List String} {aim : Aim}
    (h : IsExpressibleAim known aim) :
  applicationOfWords known (aim.rule.flatMap ruleWords) = .ok (.clean (.test aim))
  := by
  rw [applicationOfWords, readAim_rule h]
  rfl

/-- The rule in full of an expressible application reads back without defects. -/
theorem readApplication_ruleText {known : List String} {application : Application}
    (h : IsExpressibleApplication known application) :
  readApplication known application.ruleText = .ok (.clean application)
  := by
  obtain ⟨aim, rfl, expressible⟩ := h
  rw [readApplication, ruleWords_ruleText, applicationOfWords_rule expressible]

/-- The expressible applications are those that rules describe. -/
theorem exists_readApplication_iff (known : List String) (application : Application) :
  (∃ text reading, readApplication known text = .ok reading ∧ reading.value = application)
    ↔ IsExpressibleApplication known application
  := by
  constructor
  · rintro ⟨text, reading, read, rfl⟩
    exact isExpressible_applicationOfWords (fun _ => isWord_of_mem_words) read
  · intro expressible
    exact ⟨_, _, readApplication_ruleText expressible, rfl⟩

/-! ### Requirements -/

/-- The requirement can be described by a rule. -/
inductive IsExpressibleRequirement (known : List String) : Requirement → Prop
  | nothing : IsExpressibleRequirement known .nothing
  | counting {comparison : Comparison} {count : Nat} {style : Application} :
    count < 18446744073709551616 → IsExpressibleApplication known style →
    IsExpressibleRequirement known (.counting comparison count style)

theorem IsExpressibleRequirement.isSingle {known : List String} {requirement : Requirement}
    (h : IsExpressibleRequirement known requirement) :
  requirement.IsSingle
  := by
  cases h with
  | nothing => exact ⟨_, rfl, by simp⟩
  | counting _ expressible => exact ⟨_, rfl, by simpa using expressible.isSingle⟩

theorem splitComparison_suffix (words : List String) :
  (splitComparison words).2 <:+ words
  := by
  cases words with
  | nil => exact List.suffix_rfl
  | cons first rest =>
    rw [splitComparison]
    split
    case h_4 => exact List.suffix_rfl
    all_goals exact List.suffix_cons first rest

theorem splitCount_eq_some_iff {words rest : List String} {count : Nat} :
  splitCount words = some (count, rest)
    ↔ ∃ first, words = first :: rest ∧ readUnsigned 64 first = some count
  := by
  cases words with
  | nil => simp [splitCount]
  | cons first others => simp [splitCount, and_comm]

theorem isExpressible_requirementOfWords {known words : List String}
    (plain : ∀ word ∈ words, IsWord isRuleSeparator word) {reading : Reading Requirement}
    (read : requirementOfWords known words = .ok reading) :
  IsExpressibleRequirement known reading.value
  := by
  have suffix := splitComparison_suffix words
  unfold requirementOfWords at read
  split at read
  · obtain rfl := Except.ok.inj read
    exact .nothing
  · dsimp only at read
    split at read
    · obtain rfl := Except.ok.inj read
      exact .nothing
    · rename_i count counted
      obtain ⟨first, -, number⟩ := splitCount_eq_some_iff.mp counted
      obtain rfl := Except.ok.inj read
      apply IsExpressibleRequirement.counting (lt_of_readUnsigned number)
      exact ⟨_, rfl, .last (isExpressibleScope_empty known)⟩
    · rename_i count style _ counted
      obtain ⟨first, split, number⟩ := splitCount_eq_some_iff.mp counted
      rw [split] at suffix
      obtain ⟨application, styled, read⟩ := bind_eq_ok_iff.mp read
      obtain rfl := Except.ok.inj read
      apply IsExpressibleRequirement.counting (lt_of_readUnsigned number)
      apply isExpressible_applicationOfWords _ styled
      intro word mem
      exact plain word (suffix.subset (List.mem_cons_of_mem first mem))

theorem ruleWords_requirement (comparison : Comparison) (count : Nat) (aim : Aim) :
  ruleWords (Requirement.ruleText (.counting comparison count (.test aim)))
    = comparison.word :: toString count :: aim.rule.flatMap ruleWords
  := by
  have keyword : ruleWords comparison.word = [comparison.word] := by
    cases comparison <;> rfl
  have number : ruleWords (toString count) = [toString count] := by
    rw [ruleWords_eq]
    exact (isWord_toString_nat isRuleSeparator_of_isNumeralChar count).words_eq
  rw [Requirement.ruleText, Requirement.counting, Condition.leaves_test, List.flatMap_singleton,
    ruleWords_unwords, Quota.rule]
  dsimp only
  rw [List.flatMap_cons, List.flatMap_cons, List.flatMap_singleton, keyword, number,
    ruleWords_ruleText]
  rfl

/-- The rule in full of an expressible requirement reads back without defects. -/
theorem readRequirement_ruleText {known : List String} {requirement : Requirement}
    (h : IsExpressibleRequirement known requirement) :
  readRequirement known requirement.ruleText = .ok (.clean requirement)
  := by
  cases h with
  | nothing => rfl
  | @counting comparison count style small expressible =>
    obtain ⟨aim, rfl, expressible⟩ := expressible
    have compared : ∀ rest, splitComparison (comparison.word :: rest) = (comparison, rest) := by
      intro rest
      cases comparison <;> rfl
    have counted : ∀ rest, splitCount (toString count :: rest) = some (count, rest) := by
      intro rest
      exact splitCount_eq_some_iff.mpr ⟨_, rfl, readUnsigned_toString small⟩
    have some := flatMap_ruleWords_rule_ne_nil aim
    rw [readRequirement, ruleWords_requirement, requirementOfWords, if_neg (by simp), compared]
    dsimp only
    rw [counted]
    have read := applicationOfWords_rule expressible
    generalize aim.rule.flatMap ruleWords = style at *
    cases style with
    | nil => contradiction
    | cons word rest =>
      dsimp only
      rw [read]
      rfl

/-- The expressible requirements are those that rules describe. -/
theorem exists_readRequirement_iff (known : List String) (requirement : Requirement) :
  (∃ text reading, readRequirement known text = .ok reading ∧ reading.value = requirement)
    ↔ IsExpressibleRequirement known requirement
  := by
  constructor
  · rintro ⟨text, reading, read, rfl⟩
    exact isExpressible_requirementOfWords (fun _ => isWord_of_mem_words) read
  · intro expressible
    exact ⟨_, _, readRequirement_ruleText expressible, rfl⟩

/-- The application that a rule describes is a single aim, like every application that is asked
of a facing card on the way down, and so is the style of a requirement.  The rule in full of what
is read from any rule describes the same, and has no defects. -/
theorem read_ruleText (known : List String) (text : String) :
  (∀ reading, readApplication known text = .ok reading →
      reading.value.IsSingle
        ∧ readApplication known reading.value.ruleText = .ok (.clean reading.value))
    ∧ (∀ reading, readRequirement known text = .ok reading →
      reading.value.IsSingle
        ∧ readRequirement known reading.value.ruleText = .ok (.clean reading.value))
  := by
  have plain : ∀ word ∈ ruleWords text, IsWord isRuleSeparator word := fun word =>
    isWord_of_mem_words
  constructor
  · intro reading read
    have expressible := isExpressible_applicationOfWords plain read
    exact ⟨expressible.isSingle, readApplication_ruleText expressible⟩
  · intro reading read
    have expressible := isExpressible_requirementOfWords plain read
    exact ⟨expressible.isSingle, readRequirement_ruleText expressible⟩

/-- Repeated suits, a glued comparison, one whose number is the next word, and one that sets both
bounds. -/
theorem read_ruleText_glued :
  (∃ application : Application,
      readApplication [] "enemy Ex, or EX hand >3 <= 9 any vs enemy == -2"
          = .ok (.clean application)
        ∧ application.ruleText = "ALL Ex, EX HAND >=4 <=9 VS ENEMY >=-2 <=-2"
        ∧ application.IsSingle
        ∧ readApplication [] application.ruleText = .ok (.clean application))
    ∧ ∃ requirement : Requirement,
      readRequirement [] "max +3 hand" = .ok (.clean requirement)
        ∧ requirement.ruleText = "MAX 3 ALL HAND"
        ∧ requirement.IsSingle
        ∧ readRequirement [] requirement.ruleText = .ok (.clean requirement)
  := by
  constructor
  · refine ⟨.test ⟨⟨.either, some ["Ex", "EX"], true, some 4, some 9⟩,
      some (.test ⟨⟨.enemy, none, false, some (-2), some (-2)⟩, none⟩)⟩, ?_, ?_, ?_⟩
    · rfl
    · rfl
    · exact (read_ruleText [] "enemy Ex, or EX hand >3 <= 9 any vs enemy == -2").1 _ rfl
  · refine ⟨.counting .noMoreThan 3 (.test ⟨{ inHand := true }, none⟩), ?_, ?_, ?_⟩
    · rfl
    · rfl
    · exact (read_ruleText [] "max +3 hand").2 _ rfl

end Script

end CardDuel
