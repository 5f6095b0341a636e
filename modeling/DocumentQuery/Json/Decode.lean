import DocumentQuery.Json.Token

/-!
# Decoding JSON

A value is put together from tokens by a machine. It keeps the arrays and objects that
are still open and knows what may come next.
-/

namespace DocumentQuery
namespace Json

/-- A collection that is still open: an array with its items so far, last first, or an
object with its entries so far and the key whose value is being read. -/
inductive Frame where
  | array (items : List Json)
  | object (entries : Entries Json) (key : String)

inductive Phase where
  | value
  | firstItem
  | nextItem
  | firstKey
  | nextKey (entries : Entries Json)
  | colon (entries : Entries Json) (key : String)
  | complete (value : Json)

/-- The open collections, innermost first, and the phase. -/
structure Machine where
  frames : List Frame
  phase : Phase

/-- The number of collections that may be open within one another. -/
def maxDepth : Nat := 127

namespace Machine

def start : Machine := ⟨[], .value⟩

def takeValue (frames : List Frame) (token : Token) : Except Fault Machine :=
  match token.lexeme with
  | .openArray =>
    if frames.length < maxDepth then .ok ⟨frames, .firstItem⟩
    else .error (.here .tooDeep token.start)
  | .openObject =>
    if frames.length < maxDepth then .ok ⟨frames, .firstKey⟩
    else .error (.here .tooDeep token.start)
  | .string text => do .ok ⟨frames, .complete (.string (← text))⟩
  | .scalar value => do .ok ⟨frames, .complete (← value)⟩
  | _ => .error (.here .noValue token.start)

def takeKey (frames : List Frame) (entries : Entries Json) (token : Token) :
    Except Fault Machine :=
  match token.lexeme with
  | .string text => do .ok ⟨frames, .colon entries (← text)⟩
  | _ => .error (.here .noKey token.start)

def takeBehind (frames : List Frame) (value : Json) (token : Token) : Except Fault Machine :=
  match frames with
  | [] => .error (.here .trailingCharacters token.start)
  | .array items :: outer =>
    match token.lexeme with
    | .comma => .ok ⟨.array (value :: items) :: outer, .nextItem⟩
    | .closeArray => .ok ⟨outer, .complete (.array (value :: items).reverse)⟩
    | _ => .error (.here .noArrayComma token.start)
  | .object entries key :: outer =>
    match token.lexeme with
    | .comma => .ok ⟨outer, .nextKey (entries.insert key value)⟩
    | .closeObject => .ok ⟨outer, .complete (.object (entries.insert key value))⟩
    | _ => .error (.here .noObjectComma token.start)

/-- One step on a token. An array gets its frame with its first item, an object with
the colon behind a key; until then the phase stands for it. -/
def step (machine : Machine) (token : Token) : Except Fault Machine :=
  match machine.phase with
  | .value => takeValue machine.frames token
  | .firstItem =>
    match token.lexeme with
    | .closeArray => .ok ⟨machine.frames, .complete (.array [])⟩
    | _ => takeValue (.array [] :: machine.frames) token
  | .nextItem =>
    match token.lexeme with
    | .closeArray => .error (.here .trailingComma token.start)
    | _ => takeValue machine.frames token
  | .firstKey =>
    match token.lexeme with
    | .closeObject => .ok ⟨machine.frames, .complete (.object [])⟩
    | _ => takeKey machine.frames [] token
  | .nextKey entries =>
    match token.lexeme with
    | .closeObject => .error (.here .trailingComma token.start)
    | _ => takeKey machine.frames entries token
  | .colon entries key =>
    match token.lexeme with
    | .colon => .ok ⟨.object entries key :: machine.frames, .value⟩
    | _ => .error (.here .noColon token.start)
  | .complete value => takeBehind machine.frames value token

def finish (machine : Machine) : Except Fault Json :=
  match machine.phase with
  | .complete value =>
    match machine.frames with
    | [] => .ok value
    | .array _ :: _ => .error (.before .endInArray [])
    | .object _ _ :: _ => .error (.before .endInObject [])
  | .firstItem => .error (.before .endInArray [])
  | .firstKey => .error (.before .endInObject [])
  | .colon _ _ => .error (.before .endInObject [])
  | .value => .error (.before .endInValue [])
  | .nextItem => .error (.before .endInValue [])
  | .nextKey _ => .error (.before .endInValue [])

end Machine

def decode (text : String) : Except Fault Json := do
  let machine ← (tokens text.toList).foldlM Machine.step Machine.start
  machine.finish

def ofText? (text : String) : Option Json := (decode text).toOption

end Json
end DocumentQuery
