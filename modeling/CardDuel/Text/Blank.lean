/-!
# Blanks, pieces and words

Text is handled as a list of characters.  `isBlank` is the Unicode property
`White_Space`.  `pieces` cuts a text at every separator, `words` keeps the pieces that are
not empty, and `trim` removes the blanks at both ends.
-/

namespace CardDuel.Text

/-- The characters with the Unicode property `White_Space`. -/
def isBlank (c : Char) : Bool :=
  let n := c.toNat
  (9 ≤ n && n ≤ 13) || n == 0x20 || n == 0x85 || n == 0xA0 || n == 0x1680
    || (0x2000 ≤ n && n ≤ 0x200A) || n == 0x2028 || n == 0x2029 || n == 0x202F
    || n == 0x205F || n == 0x3000

/-- The stretches between separators, in order; there is one more than separators. -/
def pieces (isSeparator : Char → Bool) : List Char → List (List Char)
  | [] => [[]]
  | c :: cs =>
    match pieces isSeparator cs with
    | [] => [[c]]
    | piece :: rest => if isSeparator c then [] :: piece :: rest else (c :: piece) :: rest

/-- The stretches between separators that are not empty. -/
def words (isSeparator : Char → Bool) (text : String) : List String :=
  ((pieces isSeparator text.toList).filter fun piece => !piece.isEmpty).map String.ofList

/-- The lines of a text: what stands between line feeds. -/
def lines (text : String) : List (List Char) :=
  pieces (· == '\n') text.toList

/-- The text without the blanks at both ends. -/
def trim (cs : List Char) : List Char :=
  ((cs.dropWhile isBlank).reverse.dropWhile isBlank).reverse

/-- The text before and after the first occurrence of a character. -/
def cutAt (mark : Char) : List Char → Option (List Char × List Char)
  | [] => none
  | c :: cs =>
    if c = mark then some ([], cs)
    else (cutAt mark cs).map fun (before, after) => (c :: before, after)

/-- Words joined by single spaces. -/
def unwords (ws : List String) : String :=
  " ".intercalate ws

/-- The text with the letters a to z raised to capitals. -/
def upper (text : String) : String :=
  String.ofList (text.toList.map Char.toUpper)

/-- Equality of texts that does not tell a to z from A to Z. -/
def sameLetters (a b : String) : Bool :=
  upper a == upper b

/-! ### Pieces and what they are made of -/

theorem pieces_ne_nil (isSeparator : Char → Bool) (cs : List Char) :
  pieces isSeparator cs ≠ []
  := by
  cases cs with
  | nil => simp [pieces]
  | cons c cs => unfold pieces; split <;> (try split) <;> simp

/-- No piece holds a separator. -/
theorem not_isSeparator_of_mem_pieces (isSeparator : Char → Bool) (cs : List Char) :
  ∀ piece ∈ pieces isSeparator cs, ∀ c ∈ piece, isSeparator c = false
  := by
  induction cs with
  | nil => simp [pieces]
  | cons c cs ih =>
    unfold pieces
    split
    · rename_i h
      exact absurd h (pieces_ne_nil isSeparator cs)
    · rename_i piece rest h
      rw [h] at ih
      simp only [List.forall_mem_cons] at ih
      split
      · simp only [List.forall_mem_cons, List.not_mem_nil]
        exact ⟨by simp, ih⟩
      · rename_i hc
        simp only [List.forall_mem_cons]
        exact ⟨⟨by simpa using hc, ih.1⟩, ih.2⟩

end CardDuel.Text
