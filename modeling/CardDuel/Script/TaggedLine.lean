import CardDuel.Script.Defect

/-!
# Tagged lines

Files consist of lines `[TAG]Value`.  `tokenize` skips blank lines, takes the tagged lines
apart and reports all others.  `walk` carries a state along the tagged lines and collects
the defects that the steps report, each with the number of its line.
-/

namespace CardDuel.Script

/-- A line with a tag in brackets and a value after it. -/
structure TaggedLine where
  /-- The number of the line, counted from one. -/
  number : Nat
  /-- The tag in capitals. -/
  tag : String
  /-- The rest of the line without blanks at its ends. -/
  value : String
deriving DecidableEq, Repr

namespace TaggedLine

/-- The tag and the value of a line that begins with a nonblank tag in brackets. -/
def split (line : List Char) : Option (List Char × List Char) :=
  match line with
  | '[' :: rest =>
    match Text.cutAt ']' rest with
    | some (tag, value) =>
      let tag := Text.trim tag
      if tag.isEmpty then none else some (tag, Text.trim value)
    | none => none
  | _ => none

/-- What line `number` of a text contributes: nothing if it is blank, else a tagged line or
a warning. -/
def ofLine (number : Nat) (line : List Char) : List TaggedLine × List Warning :=
  let line := Text.trim line
  if line.isEmpty then ([], [])
  else
    match split line with
    | some (tag, value) =>
      ([⟨number, Text.upper (String.ofList tag), String.ofList value⟩], [])
    | none => ([], [⟨number, .untagged (String.ofList line)⟩])

/-- The line that gives back a tag and a value. -/
def render (line : TaggedLine) : String :=
  "[" ++ line.tag ++ "]" ++ line.value

end TaggedLine

/-- The lines of a text with their numbers. -/
def numberedLines (text : String) : List (Nat × List Char) :=
  (Text.lines text).zipIdx.map fun (line, index) => (index + 1, line)

/-- The tagged lines of a text, and a warning for each line that is neither tagged nor
blank. -/
def tokenize (text : String) : Parsed (List TaggedLine) :=
  let results := (numberedLines text).map fun (number, line) => TaggedLine.ofLine number line
  ⟨results.flatMap (·.1), results.flatMap (·.2)⟩

/-- Warnings about line `number`. -/
def warningsAt (number : Nat) (defects : List Defect) : List Warning :=
  defects.map (⟨number, ·⟩)

/-- Carry a state along tagged lines, and collect the defects of every step. -/
def walk {m : Type → Type} [Monad m] {σ : Type} (step : σ → TaggedLine → m (Reading σ)) :
    σ → List TaggedLine → m (Parsed σ)
  | state, [] => pure ⟨state, []⟩
  | state, line :: rest => do
    let next ← step state line
    let last ← walk step next.value rest
    pure ⟨last.value, warningsAt line.number next.defects ++ last.warnings⟩

/-- The number of the last tagged line, zero if there is none. -/
def lastNumber (lines : List TaggedLine) : Nat :=
  (lines.getLast?.map (·.number)).getD 0

end CardDuel.Script
