import DocumentQuery.Yaml.Node

/-!
# Nodes from tokens

A recursive-descent reading of tokens. Each round takes a token or goes one collection
further in, and collections may be nested only so deep; so a number of rounds in
proportion to the tokens is enough.
-/

namespace DocumentQuery
namespace Yaml

def maxDepth : Nat := 128

abbrev Handles := List (String × TagBytes)

/-- The tag that a handle and a suffix make; a full tag has no handle. -/
def expandTag (handles : Handles) (handle : String) (suffix : TagBytes) :
    Except Fault TagBytes :=
  if handle = "" then .ok suffix
  else
    match handles.lookup handle with
    | some expansion => .ok (expansion ++ suffix)
    | none => .error .undefinedHandle

def readProperties (handles : Handles) (tokens : List Token) :
    Except Fault (Properties × List Token) :=
  match tokens with
  | .anchor name :: .tag handle suffix :: rest => do
    .ok (⟨some name, some (← expandTag handles handle suffix)⟩, rest)
  | .anchor name :: rest => .ok (⟨some name, none⟩, rest)
  | .tag handle suffix :: .anchor name :: rest => do
    .ok (⟨some name, some (← expandTag handles handle suffix)⟩, rest)
  | .tag handle suffix :: rest => do
    .ok (⟨none, some (← expandTag handles handle suffix)⟩, rest)
  | _ => .ok (.none, tokens)

/-- Where a node stands: in a block collection or not, and whether entries of a sequence
may follow without an indentation of their own. -/
inductive Place where
  | flow
  | block
  | blockOrEntries
deriving DecidableEq

def Place.inBlock (place : Place) : Bool := place ≠ .flow

def blockAbsent : List Token → Bool
  | .key :: _ => true
  | .value :: _ => true
  | .blockEnd :: _ => true
  | _ => false

def deeper : Nat → Except Fault Nat
  | 0 => .error .tooDeep
  | depth + 1 => .ok depth

def flowAbsent : List Token → Bool
  | .value :: _ => true
  | .flowEntry :: _ => true
  | .flowMappingEnd :: _ => true
  | _ => false

def afterComma (first : Bool) (tokens : List Token) : Except Fault (List Token) :=
  if first then .ok tokens
  else
    match tokens with
    | .flowEntry :: rest => .ok rest
    | _ => .error .badStructure

/-- Properties alone make an empty scalar. -/
def emptyScalar (properties : Properties) (tokens : List Token) :
    Except Fault (Node String × List Token) :=
  if properties.isNone then .error .badStructure
  else .ok (.scalar properties true "", tokens)

mutual

/-- Reads a node; `depth` collections may still be opened within one another. -/
def readNode (handles : Handles) (place : Place) (depth : Nat) :
    Nat → List Token → Except Fault (Node String × List Token)
  | 0, _ => .error .badStructure
  | fuel + 1, tokens => do
    if let .alias name :: rest := tokens then return (.alias name, rest)
    let (properties, tokens) ← readProperties handles tokens
    match tokens with
    | .scalar plain text :: rest => return (.scalar properties plain text, rest)
    | .blockEntry :: _ =>
      if place = .blockOrEntries then
        let (items, rest) ← readEntries handles (← deeper depth) fuel [] tokens
        return (.sequence properties items, rest)
      else emptyScalar properties tokens
    | .flowSequence :: rest =>
      let (items, rest) ← readFlowItems handles (← deeper depth) fuel true [] rest
      return (.sequence properties items, rest)
    | .flowMapping :: rest =>
      let (entries, rest) ← readFlowPairs handles (← deeper depth) fuel true [] rest
      return (.mapping properties entries, rest)
    | .blockSequence :: rest =>
      if place.inBlock then
        let (items, rest) ← readBlockItems handles (← deeper depth) fuel [] rest
        return (.sequence properties items, rest)
      else emptyScalar properties tokens
    | .blockMapping :: rest =>
      if place.inBlock then
        let (entries, rest) ← readBlockPairs handles (← deeper depth) fuel [] rest
        return (.mapping properties entries, rest)
      else emptyScalar properties tokens
    | _ => emptyScalar properties tokens
termination_by structural fuel _ => fuel

def readEntries (handles : Handles) (depth : Nat) :
    Nat → List (Node String) → List Token → Except Fault (List (Node String) × List Token)
  | 0, _, _ => .error .badStructure
  | fuel + 1, done, tokens =>
    match tokens with
    | .blockEntry :: .blockEntry :: rest =>
      readEntries handles depth fuel (.absent :: done) (.blockEntry :: rest)
    | .blockEntry :: rest =>
      if blockAbsent rest then readEntries handles depth fuel (.absent :: done) rest
      else do
        let (item, rest) ← readNode handles .block depth fuel rest
        readEntries handles depth fuel (item :: done) rest
    | _ => .ok (done.reverse, tokens)
termination_by structural fuel _ _ => fuel

def readBlockItems (handles : Handles) (depth : Nat) :
    Nat → List (Node String) → List Token → Except Fault (List (Node String) × List Token)
  | 0, _, _ => .error .badStructure
  | fuel + 1, done, tokens =>
    match tokens with
    | .blockEntry :: .blockEntry :: rest =>
      readBlockItems handles depth fuel (.absent :: done) (.blockEntry :: rest)
    | .blockEntry :: .blockEnd :: rest => .ok ((.absent :: done).reverse, rest)
    | .blockEntry :: rest => do
      let (item, rest) ← readNode handles .block depth fuel rest
      readBlockItems handles depth fuel (item :: done) rest
    | .blockEnd :: rest => .ok (done.reverse, rest)
    | _ => .error .badStructure
termination_by structural fuel _ _ => fuel

def readBlockPairs (handles : Handles) (depth : Nat) :
    Nat → List (Node String × Node String) → List Token →
      Except Fault (List (Node String × Node String) × List Token)
  | 0, _, _ => .error .badStructure
  | fuel + 1, done, tokens =>
    match tokens with
    | .key :: rest => do
      let (key, rest) ←
        if blockAbsent rest then .ok (Node.absent, rest)
        else readNode handles .blockOrEntries depth fuel rest
      let (value, rest) ←
        match rest with
        | .value :: rest =>
          if blockAbsent rest then .ok (Node.absent, rest)
          else readNode handles .blockOrEntries depth fuel rest
        | _ => .ok (Node.absent, rest)
      readBlockPairs handles depth fuel ((key, value) :: done) rest
    | .blockEnd :: rest => .ok (done.reverse, rest)
    | _ => .error .badStructure
termination_by structural fuel _ _ => fuel

/-- Reads the items of a flow sequence. A pair in it is a mapping of its own. -/
def readFlowItems (handles : Handles) (depth : Nat) :
    Nat → Bool → List (Node String) → List Token →
      Except Fault (List (Node String) × List Token)
  | 0, _, _, _ => .error .badStructure
  | fuel + 1, first, done, tokens =>
    match tokens with
    | .flowSequenceEnd :: rest => .ok (done.reverse, rest)
    | _ => do
      let tokens ← afterComma first tokens
      match tokens with
      | .flowSequenceEnd :: rest => .ok (done.reverse, rest)
      | .key :: rest =>
        let (pair, rest) ← readFlowPair handles (← deeper depth) fuel rest
        readFlowItems handles depth fuel false (.mapping .none [pair] :: done) rest
      | _ =>
        let (item, rest) ← readNode handles .flow depth fuel tokens
        readFlowItems handles depth fuel false (item :: done) rest
termination_by structural fuel _ _ _ => fuel

/-- Reads a pair in a flow sequence. Where its key is absent, the token that shows this
is taken with it. -/
def readFlowPair (handles : Handles) (depth : Nat) :
    Nat → List Token → Except Fault ((Node String × Node String) × List Token)
  | 0, _ => .error .badStructure
  | fuel + 1, tokens => do
    let (key, rest) ←
      match tokens with
      | .value :: rest => .ok (Node.absent, rest)
      | .flowEntry :: rest => .ok (Node.absent, rest)
      | .flowSequenceEnd :: rest => .ok (Node.absent, rest)
      | _ => readNode handles .flow depth fuel tokens
    let (value, rest) ←
      match rest with
      | .value :: .flowEntry :: rest => .ok (Node.absent, .flowEntry :: rest)
      | .value :: .flowSequenceEnd :: rest => .ok (Node.absent, .flowSequenceEnd :: rest)
      | .value :: rest => readNode handles .flow depth fuel rest
      | _ => .ok (Node.absent, rest)
    .ok ((key, value), rest)
termination_by structural fuel _ => fuel

def readFlowPairs (handles : Handles) (depth : Nat) :
    Nat → Bool → List (Node String × Node String) → List Token →
      Except Fault (List (Node String × Node String) × List Token)
  | 0, _, _, _ => .error .badStructure
  | fuel + 1, first, done, tokens =>
    match tokens with
    | .flowMappingEnd :: rest => .ok (done.reverse, rest)
    | _ => do
      let tokens ← afterComma first tokens
      match tokens with
      | .flowMappingEnd :: rest => .ok (done.reverse, rest)
      | .key :: rest => do
        let (key, rest) ←
          if flowAbsent rest then .ok (Node.absent, rest)
          else readNode handles .flow depth fuel rest
        let (value, rest) ←
          match rest with
          | .value :: rest =>
            match rest with
            | .flowEntry :: _ => .ok (Node.absent, rest)
            | .flowMappingEnd :: _ => .ok (Node.absent, rest)
            | _ => readNode handles .flow depth fuel rest
          | _ => .ok (Node.absent, rest)
        readFlowPairs handles depth fuel false ((key, value) :: done) rest
      | _ =>
        let (key, rest) ← readNode handles .flow depth fuel tokens
        readFlowPairs handles depth fuel false ((key, .absent) :: done) rest
termination_by structural fuel _ _ _ => fuel

end

/-- The handles that a document declares before its start, each once, and the number of
versions declared. -/
def readDirectives (declared : Handles) (versioned : Bool) :
    List Token → Except Fault (Handles × List Token)
  | .version major minor :: rest =>
    if versioned || major ≠ 1 || (minor ≠ 1 && minor ≠ 2) then .error .badDirective
    else readDirectives declared true rest
  | .handle name expansion :: rest =>
    if declared.any (·.1 = name) then .error .badDirective
    else readDirectives (declared ++ [(name, expansion)]) versioned rest
  | tokens => .ok (declared, tokens)

def defaultHandles : Handles :=
  [("!", [33]), ("!!", "tag:yaml.org,2002:".toList.map fun c => UInt8.ofNat c.toNat)]

def readRoot (handles : Handles) (tokens : List Token) : Except Fault (Node String × List Token) :=
  match tokens with
  | [] => .ok (.absent, [])
  | .version _ _ :: _ => .ok (.absent, tokens)
  | .handle _ _ :: _ => .ok (.absent, tokens)
  | .documentStart :: _ => .ok (.absent, tokens)
  | .documentEnd :: _ => .ok (.absent, tokens)
  | _ => readNode handles .block maxDepth (3 * tokens.length + 3) tokens

def readDocument (tokens : List Token) : Except Fault (Option (Node String)) := do
  let (root, rest) ←
    match tokens with
    | [] => return none
    | .version _ _ :: _ => explicit tokens
    | .handle _ _ :: _ => explicit tokens
    | .documentStart :: _ => explicit tokens
    | _ => readNode defaultHandles .block maxDepth (3 * tokens.length + 3) tokens
  if (rest.dropWhile (· = .documentEnd)).isEmpty then return some root
  else .error .severalDocuments
where
  explicit (tokens : List Token) : Except Fault (Node String × List Token) := do
    let (declared, tokens) ← readDirectives [] false tokens
    match tokens with
    | .documentStart :: rest => readRoot (declared ++ defaultHandles) rest
    | _ => .error .badStructure

end Yaml
end DocumentQuery
