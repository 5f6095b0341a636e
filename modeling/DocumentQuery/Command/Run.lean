import DocumentQuery.Command.Invocation

/-!
# Runs

A run tells notices, prints text and comes to a result, in the order of its steps. The first
step that fails ends it, but what was told and printed before stays.
-/

namespace DocumentQuery
namespace Command

inductive Notice where
  | noFiles
  | skipping (path : String) (failure : Failure)
  | noValue (path name : String)
  | notFound (path name : String)
  | noMatches
deriving DecidableEq

namespace Notice

def isWarning : Notice → Bool
  | noFiles => true
  | skipping _ _ => true
  | _ => false

def level (notice : Notice) : String := if notice.isWarning then "WARN" else "INFO"

def message : Notice → String
  | noFiles => "No files found to process"
  | skipping path failure => "Skipping " ++ path ++ ": " ++ failure.message
  | noValue path name => "No value at " ++ path ++ " in " ++ name
  | notFound path name => path ++ " not found in " ++ name
  | noMatches => "No matching values found"

def isTold (verbosity : Verbosity) (notice : Notice) : Bool :=
  match verbosity with
  | .quiet => false
  | .normal => notice.isWarning
  | .verbose => true

end Notice

structure Run (α : Type) where
  notices : List Notice
  output : String
  result : Except Failure α

namespace Run

variable {α β : Type}

/-- One step and then another, unless the first has failed. -/
def andThen (first : Run α) (next : α → Run β) : Run β :=
  match first.result with
  | .error failure => ⟨first.notices, first.output, .error failure⟩
  | .ok value =>
    let second := next value
    ⟨first.notices ++ second.notices, first.output ++ second.output, second.result⟩

instance : Monad Run where
  pure value := ⟨[], "", .ok value⟩
  bind := andThen

def ofResult (result : Except Failure α) : Run α := ⟨[], "", result⟩

def tell (notice : Notice) : Run Unit := ⟨[notice], "", .ok ()⟩

def print (text : String) : Run Unit := ⟨[], text, .ok ()⟩

def failure? (run : Run α) : Option Failure :=
  match run.result with
  | .ok _ => none
  | .error failure => some failure

def exitCode (run : Run Bool) : Nat :=
  match run.result with
  | .ok true => 0
  | _ => 1

end Run

/-- A whole run; its result tells whether the question is answered with yes. -/
abbrev Outcome := Run Bool

end Command
end DocumentQuery
