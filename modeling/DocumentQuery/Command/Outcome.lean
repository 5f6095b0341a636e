import DocumentQuery.Command.Inputs
import DocumentQuery.Json.Text
import DocumentQuery.Yaml.Block

/-!
# Outcomes

How the questions are answered about the inputs of a run, and what a whole run comes to.
-/

namespace DocumentQuery
namespace Command

def line (text : String) : String := text ++ "\n"

def Layout.print (layout : Layout) (value : Json) : String :=
  match layout.format, value with
  | .json, value => line (if layout.pretty then value.pretty else value.compact)
  | .yaml, value => Yaml.encode value
  | .raw, .string text => line text
  | .raw, value => line value.compact

def NamedInput.report (several : Bool) (named : NamedInput) (text : String) : String :=
  line (if several then named.name ++ ": " ++ text else text)

section Questions

variable (rooting : Rooting) (inputs : List NamedInput)

def foundValues (path : String) : List (String × Json) :=
  inputs.filterMap fun named => (named.input.get rooting path).map (named.name, ·)

def answerGet (path : String) (layout : Layout) : Run Bool :=
  match inputs with
  | [named] =>
    match named.input.get rooting path with
    | some value => do
      Run.print (layout.print value)
      return true
    | none => do
      Run.tell (.noValue path named.name)
      return false
  | _ =>
    match foundValues rooting inputs path with
    | [] => do
      Run.tell .noMatches
      return false
    | found => do
      Run.print (layout.print (.object (Entries.ofPairs found)))
      return true

/-- Tells whether a path finds a value in every input; one input alone is not reported. -/
def answerFinds (several : Bool) (path : String) : List NamedInput → Run Bool
  | [] => return true
  | named :: rest => do
    let found := named.input.finds rooting path
    if several then Run.print (named.report several (if found then "true" else "false"))
    if !found then Run.tell (.notFound path named.name)
    let others ← answerFinds several path rest
    return found && others

def answerEach (several : Bool) (fact : Input → String) : List NamedInput → Run Bool
  | [] => return true
  | named :: rest => do
    Run.print (named.report several (fact named.input))
    answerEach several fact rest

def Question.answer (question : Question) : Run Bool :=
  if inputs.isEmpty then do
    Run.tell .noFiles
    return false
  else
    let several := 1 < inputs.length
    match question with
    | .get path layout => answerGet rooting inputs path layout
    | .finds path => answerFinds rooting several path inputs
    | .size path => answerEach several (fun input => (input.size rooting path).repr) inputs
    | .kind path => answerEach several (fun input => (input.kind rooting path).name) inputs

end Questions

def segmentLine (position : Nat) (segment : Segment) : String :=
  line ("  " ++ position.repr ++ ": " ++ segment.text ++
    if segment.isMalformed then " (malformed)" else "")

def printSegments (position : Nat) : List Segment → Run Unit
  | [] => return ()
  | segment :: rest => do
    Run.print (segmentLine position segment)
    printSegments (position + 1) rest

/-- Shows how a path is understood. A path that can find nothing, for lack of a root or for
a malformed segment, is answered with no. -/
def showSegments (rooting : Rooting) (path : String) : Run Bool := do
  let plan := Plan.ofText rooting path
  Run.print (line plan.describe)
  match plan with
  | .unrooted => return false
  | .navigate path => do
    printSegments 0 path.segments
    return !path.hasMalformed
  | _ => return true

def Task.outcome (task : Task) (rooting : Rooting) (tree : FileTree) (standardInput : ByteArray) :
    Outcome :=
  match task with
  | .segments path => showSegments rooting path
  | .ask question sources => do
    let inputs ← sources.load tree standardInput
    question.answer rooting inputs

def Invocation.run (invocation : Invocation) (tree : FileTree) (standardInput : ByteArray) :
    Outcome :=
  let outcome := invocation.task.outcome invocation.rooting tree standardInput
  { outcome with notices := outcome.notices.filter (Notice.isTold invocation.verbosity) }

end Command
end DocumentQuery
