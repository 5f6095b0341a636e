/-!
# File paths

A file path keeps its spelling and is compared by its components, so `d//a`, `d/./a` and
`d/a/` are the same path as `d/a`. Only a leading `.` is a component of its own. Paths are
texts here; a path whose bytes are no text cannot be stated.
-/

namespace DocumentQuery

structure FilePath where
  text : String
deriving DecidableEq

namespace FilePath

def byteSize (path : FilePath) : Nat := path.text.utf8ByteSize

inductive Component where
  | root
  | current
  | parent
  | name (text : String)
deriving DecidableEq

namespace Component

def rank : Component → Nat
  | root => 0
  | current => 1
  | parent => 2
  | name _ => 3

def order : Component → Component → Ordering
  | name s, name t => compare s t
  | a, b => compare a.rank b.rank

/-- A name that starts with a dot is hidden; the two special names are not. -/
def isHiddenName (name : String) : Bool :=
  name.startsWith "." && name ≠ "." && name ≠ ".."

end Component

/-- The texts between the slashes; at least one, possibly empty. -/
def piecesOf : List Char → List (List Char)
  | [] => [[]]
  | '/' :: rest => [] :: piecesOf rest
  | c :: rest =>
    match piecesOf rest with
    | piece :: pieces => (c :: piece) :: pieces
    | [] => [[c]]

def pieces (path : FilePath) : List String := (piecesOf path.text.toList).map String.ofList

def isAbsolute (path : FilePath) : Bool := path.text.startsWith "/"

def componentOf? (piece : String) : Option Component :=
  if piece = "" ∨ piece = "." then none
  else if piece = ".." then some .parent
  else some (.name piece)

def components (path : FilePath) : List Component :=
  let following := path.pieces.filterMap componentOf?
  if path.isAbsolute then .root :: following
  else if path.pieces.head? = some "." then .current :: following
  else following

def order (p q : FilePath) : Ordering := List.compareLex Component.order p.components q.components

def same (p q : FilePath) : Bool := p.components = q.components

def fileName? (path : FilePath) : Option String :=
  match path.components.getLast? with
  | some (.name text) => some text
  | _ => none

/-- What follows the last dot of a name, unless that dot leads the name. -/
def extensionOfName? (name : String) : Option String :=
  let reversed := name.toList.reverse
  let stem := (reversed.dropWhile (· ≠ '.')).drop 1
  if stem.isEmpty then none
  else some (String.ofList (reversed.takeWhile (· ≠ '.')).reverse)

def extension? (path : FilePath) : Option String := path.fileName?.bind extensionOfName?

/-- The path of an entry of a directory. No slash is put after one. -/
def join (path : FilePath) (name : String) : FilePath :=
  if path.text = "" ∨ path.text.endsWith "/" then ⟨path.text ++ name⟩
  else ⟨path.text ++ "/" ++ name⟩

/-- Puts a path into an ascending list, unless the list holds another spelling of it. -/
def insertInto (path : FilePath) : List FilePath → List FilePath
  | [] => [path]
  | p :: rest =>
    match path.order p with
    | .lt => path :: p :: rest
    | .eq => p :: rest
    | .gt => p :: insertInto path rest

end FilePath
end DocumentQuery
