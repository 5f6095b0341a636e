import DocumentQuery.Command.Switch

/-!
# Command lines

Reads the arguments of a run. Options and operands may be mixed; a value stands after an
equals sign, right after the letter of a short option, or in the next argument, which then
must not look like an option; after `--` everything is an operand.
-/

namespace DocumentQuery
namespace Command

def versionText : String := "jsonpeek 0.1.0"

def helpText : String :=
  "Extract values from JSON and YAML documents with a compact path syntax\n\n" ++
  "Usage: jsonpeek [-v|-q] COMMAND [OPTIONS]\n\n" ++
  "Commands:\n" ++
  "  get PATH [FILES]     Print the value at a path\n" ++
  "  exists PATH [FILES]  Check whether a path finds a value\n" ++
  "  size [FILES]         Print the length of what a path finds\n" ++
  "  type [FILES]         Print the type of what a path finds\n" ++
  "  segments PATH        Show how a path is split into segments\n\n" ++
  "Options:\n  " ++
  "\n  ".intercalate
    ((Switch.ofProgram ++ Switch.ofVerb .size ++ Switch.ofVerb .get).eraseDups.map Switch.shown)

inductive Stop where
  /-- Help is asked for. -/
  | help
  /-- The version is asked for. -/
  | version
  | fault (fault : UsageFault)

/-- Whether an argument is read as an option; a dash alone is none. -/
def looksLikeOption (argument : String) : Bool := argument.startsWith "-" && argument ≠ "-"

def refuse {α : Type} (fault : UsageFault) : Except Stop α := .error (.fault fault)

namespace Draft

variable (draft : Draft)

def use (switch : Switch) (value : String) : Except Stop Draft :=
  match draft.add switch value with
  | .error fault => refuse fault
  | .ok changed =>
    match switch with
    | .help => .error .help
    | .version => .error .version
    | _ => .ok changed

def useOperand (verb : Verb) (text : String) : Except Stop Draft :=
  match draft.addOperand verb text with
  | .error fault => refuse fault
  | .ok changed => .ok changed

/-- Reads the letters of an argument with short options. The result names the option that
still lacks its value. -/
def readLetters (known : List Switch) (draft : Draft) :
    List Char → Except Stop (Draft × Option Switch)
  | [] => .ok (draft, none)
  | letter :: rest =>
    match known.find? (·.short? = some letter) with
    | none => refuse (.unknownOption (String.ofList ['-', letter]))
    | some switch =>
      if !switch.takesValue then do
        let draft ← draft.use switch ""
        readLetters known draft rest
      else
        match rest with
        | [] => .ok (draft, some switch)
        | '=' :: value => do .ok (← draft.use switch (String.ofList value), none)
        | value => do .ok (← draft.use switch (String.ofList value), none)

/-- Reads a long option, whose name may have a value behind an equals sign. -/
def readLong (known : List Switch) (text : List Char) : Except Stop (Draft × Option Switch) :=
  let name := String.ofList (text.takeWhile (· ≠ '='))
  let attached := text.dropWhile (· ≠ '=')
  match known.find? (·.long = name) with
  | none => refuse (.unknownOption ("--" ++ name))
  | some switch =>
    match switch.takesValue, attached with
    | true, [] => .ok (draft, some switch)
    | true, _ :: value => do .ok (← draft.use switch (String.ofList value), none)
    | false, [] => do .ok (← draft.use switch "", none)
    | false, _ :: _ => refuse (.unexpectedValue switch.shown)

def readOption (known : List Switch) (argument : String) : Except Stop (Draft × Option Switch) :=
  match argument.toList with
  | '-' :: '-' :: text => draft.readLong known text
  | letters => draft.readLetters known letters.tail

def readArguments (verb : Verb) (draft : Draft) : List String → Except Stop Draft
  | [] => .ok draft
  | argument :: rest =>
    if argument = "--" then rest.foldlM (fun draft text => draft.useOperand verb text) draft
    else if looksLikeOption argument then do
      match ← draft.readOption (Switch.ofVerb verb) argument, rest with
      | (draft, none), rest => readArguments verb draft rest
      | (_, some switch), [] => refuse (.missingValue switch.shown)
      | (draft, some switch), value :: rest =>
        if looksLikeOption value then refuse (.missingValue switch.shown)
        else do
          let draft ← draft.use switch value
          readArguments verb draft rest
    else do
      let draft ← draft.useOperand verb argument
      readArguments verb draft rest

def task (verb : Verb) : Except UsageFault Task :=
  match verb, draft.path with
  | .size, path => .ok (.ask (.size path) draft.sources)
  | .kind, path => .ok (.ask (.kind path) draft.sources)
  | _, none => .error .missingPath
  | .get, some path => .ok (.ask (.get path draft.layout) draft.sources)
  | .finds, some path => .ok (.ask (.finds path) draft.sources)
  | .segments, some path => .ok (.segments path)

def checkConflicts : Except UsageFault Unit := do
  draft.checkConflict .quiet .verbose
  draft.checkConflict .data .inputFormat
  if draft.has .data && !draft.sources.files.isEmpty then
    .error (.conflictingOptions Switch.data.shown "a file")

/-- The invocation that two drafts describe, of what stands before the verb and of what
stands after it. -/
def invocation (program : Draft) (verb : Verb) (draft : Draft) : Except UsageFault Invocation := do
  draft.checkConflicts
  let task ← draft.task verb
  program.checkConflicts
  let verbosity : Verbosity :=
    if program.has .quiet || draft.has .quiet then .quiet
    else if program.has .verbose || draft.has .verbose then .verbose
    else .normal
  return ⟨task, if draft.has .autoRoot then .implied else .written, verbosity⟩

end Draft

def hasHelp : List String → Bool
  | [] => true
  | [verb] => verb = "help" || (Verb.ofName? verb).isSome
  | _ => false

def readCommandLine (program : Draft) : List String → Except Stop Invocation
  | [] => refuse .missingVerb
  | argument :: rest =>
    if argument = "--" then refuse (.unexpectedOperand argument)
    else if looksLikeOption argument then do
      let (program, _) ← program.readOption Switch.ofProgram argument
      readCommandLine program rest
    else
      match Verb.ofName? argument with
      | some verb => do
        let draft ← Draft.readArguments verb {} rest
        match Draft.invocation program verb draft with
        | .ok invocation => .ok invocation
        | .error fault => refuse fault
      | none =>
        if argument ≠ "help" then refuse (.unknownVerb argument)
        else if hasHelp rest then .error .help
        else refuse (.unknownVerb (" ".intercalate rest))

namespace Invocation

def ofArguments (arguments : List String) : Except Stop Invocation :=
  readCommandLine {} arguments

end Invocation
end Command
end DocumentQuery
