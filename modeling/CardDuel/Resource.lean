import CardDuel.GameError
import CardDuel.Goal.Book
import CardDuel.Script.DeckText

/-!
# Files of decks and achievements

`Resource` is what stands at a path.  `loadDeck` and `loadBook` read it as a deck, named
after its file, or as a book of achievements.  A path at which nothing stands is a missing
resource; a directory, or bytes that are no text, are unreadable.
-/

namespace CardDuel

/-- What stands at a path. -/
inductive Resource where
  | absent
  | directory
  | file (bytes : ByteArray)

namespace Resource

/-- The text at a path. -/
def text (path : String) : Resource → Except GameError String
  | absent => .error (.missingResource path)
  | directory => .error .unreadable
  | file bytes =>
    match String.fromUTF8? bytes with
    | some text => .ok text
    | none => .error .unreadable

/-- The last component of a path that names something; a path that ends by going up a
directory has none. -/
def fileName (path : String) : Option (List Char) :=
  let components := (Text.pieces (· == '/') path.toList).filter fun component =>
    !component.isEmpty && component != ['.']
  components.getLast?.filter (· != ['.', '.'])

/-- A file name without its extension: the part before the last dot, unless that is empty. -/
def stem (path : String) : String :=
  let name := (fileName path).getD []
  let extension := name.reverse.takeWhile (· != '.')
  let base := name.take (name.length - extension.length - 1)
  String.ofList (if base.isEmpty then name else base)

/-- Read a deck. -/
def loadDeck (path : String) (resource : Resource) :
    Except Fault (Except GameError (Script.Parsed Deck)) :=
  match resource.text path with
  | .error error => .ok (.error error)
  | .ok text => (Script.readDeck (stem path) text).map .ok

/-- Read a book of achievements. -/
def loadBook (path : String) (resource : Resource) :
    Except GameError (Script.Parsed Goal.Book) :=
  (resource.text path).map Goal.Book.read

end Resource

end CardDuel
