/-!
# Failures

What can go wrong around a query: documents that cannot be read or decoded, file
arguments that cannot be resolved, values that have no JSON form. A path that finds
nothing is no failure.
-/

namespace DocumentQuery

/-- The kinds of trouble with an input that decide whether other inputs are tried. -/
inductive Trouble where
  | notFound
  | permissionDenied
  | other
deriving DecidableEq

inductive Failure where
  | io (trouble : Trouble) (reason : String)
  | json (reason : String)
  | yaml (reason : String)
  | pattern (reason : String)
  | fileNotFound (path : String)
  | unsupportedFormat (path : String)
  | invalidDocument (path : String) (reason : String)
  | tooLarge (path : String) (size limit : Nat)
  | conversion (source target : String)
  | resolution (reason : String)
  | permissionDenied (path : String)
deriving DecidableEq

namespace Failure

def message : Failure → String
  | io _ reason => "I/O error: " ++ reason
  | json reason => "JSON error: " ++ reason
  | yaml reason => "YAML error: " ++ reason
  | pattern reason => "Regex error: " ++ reason
  | fileNotFound path => "File not found: " ++ path
  | unsupportedFormat path =>
    "Unsupported file format: " ++ path ++ " (expected json or yaml)"
  | invalidDocument path reason => "Invalid document " ++ path ++ ": " ++ reason
  | tooLarge path size limit =>
    "File too large: " ++ path ++ " (" ++ size.repr ++ " bytes, limit " ++ limit.repr ++
      " bytes)"
  | conversion source target =>
    "Type conversion error: cannot convert " ++ source ++ " to " ++ target
  | resolution reason => "Path resolution error: " ++ reason
  | permissionDenied path => "Permission denied: " ++ path

def isRecoverable : Failure → Bool
  | io trouble _ => trouble = .other
  | fileNotFound _ => false
  | permissionDenied _ => false
  | _ => true

end Failure
end DocumentQuery
