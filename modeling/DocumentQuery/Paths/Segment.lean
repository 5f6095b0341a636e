import DocumentQuery.Numeral.Word

/-!
# Segments of a path

A path is written after its root sign `$` as a run of segments: `.name` enters an
object, `[3]` an array, and `[*]` asks for an array and stays on it. Every text is a
path: a bracket that holds anything else, or is never closed, is kept as a malformed
segment, which finds nothing but can still be shown.
-/

namespace DocumentQuery

/-- One step of a path. An index is a machine word of 64 bits. -/
inductive Segment where
  | field (name : String)
  | index (position : UInt64)
  | wildcard
  | malformed (content : String)
deriving DecidableEq

namespace Segment

/-- The segment a bracket stands for, by its content. Leading zeros of an index do
not count; signs, blanks and digits of other scripts make no index. -/
def ofBracket (content : String) : Segment :=
  if content = "*" then wildcard
  else if content ≠ "" ∧ content.toList.all Char.isDigit = true then
    match Numeral.wordOfDigits? content.toList with
    | some position => index position
    | none => malformed content
  else malformed content

def isMalformed : Segment → Bool
  | malformed _ => true
  | _ => false

/-- The written form of a segment; a malformed one is closed here even if it was not. -/
def text : Segment → String
  | field name => "." ++ name
  | index position => "[" ++ position.toNat.repr ++ "]"
  | wildcard => "[*]"
  | malformed content => "[" ++ content ++ "]"

def inName (c : Char) : Bool := c ≠ '.' && c ≠ '['

theorem length_dropWhile_le (p : Char → Bool) (cs : List Char) :
    (cs.dropWhile p).length ≤ cs.length :=
  (List.dropWhile_sublist p).length_le

/-- Splits a text into segments. Dots separate and are dropped, so `a..b` and `a.b`
are the same path; a `]` outside a bracket belongs to a name. -/
def scan : List Char → List Segment
  | [] => []
  | '.' :: rest => scan rest
  | '[' :: rest =>
    let content := String.ofList (rest.takeWhile (· ≠ ']'))
    let closing := rest.dropWhile (· ≠ ']')
    if closing.isEmpty then [malformed content]
    else ofBracket content :: scan closing.tail
  | c :: rest =>
    field (String.ofList (c :: rest.takeWhile inName)) :: scan (rest.dropWhile inName)
termination_by cs => cs.length
decreasing_by
  · simp
  · have h := length_dropWhile_le (· ≠ ']') rest
    simp only [List.length_tail, List.length_cons]
    omega
  · have h := length_dropWhile_le inName rest
    simp only [List.length_cons]
    omega

end Segment

structure Path where
  segments : List Segment
deriving DecidableEq

namespace Path

def ofText (rest : String) : Path := ⟨Segment.scan rest.toList⟩

def length (path : Path) : Nat := path.segments.length

def isEmpty (path : Path) : Bool := path.segments.isEmpty

def hasMalformed (path : Path) : Bool := path.segments.any Segment.isMalformed

/-- The text of the segments alone, without the root sign. -/
def tailText (path : Path) : String := String.join (path.segments.map Segment.text)

def text (path : Path) : String := "$" ++ path.tailText

end Path
end DocumentQuery
